import FineractReports.Execution.SelectedCapability
import FineractReports.Execution.SelectedPlan
import FineractReports.Execution.SemanticRoute
import FineractReports.Presentation.FixedResponses

/-!
# The response of a turn

The turn once more, with the response that each of its ends leaves. Nearly every end renders its
response; the end of the semantic route leaves that to the job service.
-/

namespace FineractReports

/-- What the canonical state hands to a turn; the reference instant is a date in Jakarta here. -/
structure CanonicalRuntimeContext where
  catalogVersion : Option Uuid
  referenceDate : NaiveDate
  businessToday : NaiveDate
  businessDateSource : BusinessDateSource

namespace Execution

open Workflow Presentation

/-- The end of a turn and the response in the memory of its job. -/
structure TurnResult where
  terminal : Job.TerminalState
  reason : String
  response : AssistantResponse

/-- Where a turn goes. An execution knows the question it answers. -/
inductive RespondedTurn where
  | execute (capabilityId : String) (intent : AssistantIntent)
      (activePayload : Option ClarificationPayload)
  | ended (result : TurnResult)

def RespondedTurn.outcome : RespondedTurn → TurnOutcome
  | .execute capabilityId intent _ => .execute capabilityId intent
  | .ended result => .ended result.terminal result.reason

/-! ### The question without a catalog -/

def clarificationOptionDescription (description : Option String)
    (sourceIntent : Option SourceIntentSnapshot) : Option String :=
  let period := do
    let intent ← sourceIntent
    let fromDate ← intent.constraints.fromDate
    let toDate ← intent.constraints.toDate
    pure (fromDate ++ " to " ++ toDate)
  description.map fun description =>
    match period with
    | some period => Text.replace description "a date range" period
    | none => description

def evidenceOption (sourceIntent : Option SourceIntentSnapshot) (item : Evidence) :
    ClarificationOption where
  id := item.capabilityId
  label := item.title
  description := clarificationOptionDescription
    (((item.metadata.get? "description").or (item.metadata.get? "summary")).bind Json.asStr?)
    sourceIntent
  fields := []

def fallbackClarificationOptions (domain : AssistantDomain) : List ClarificationOption :=
  let choices :=
    match domain with
    | .savings | .client =>
      [("client_top_n_by_savings_account_count", "Top clients by number of savings accounts",
        "Rank clients by savings account count."),
       ("client_top_n_by_savings_balance", "Top clients by savings balance",
        "Rank clients by total savings balance."),
       ("client_top_n_by_deposit_volume", "Top clients by deposit volume",
        "Rank clients by deposit transaction volume.")]
    | .organization =>
      [("organization_office_summary", "Office summary", "Summarize offices in the organization."),
       ("organization_office_savings_summary", "Office savings summary",
        "Summarize savings by office."),
       ("organization_office_activity_ranking", "Office activity ranking",
        "Rank offices by activity.")]
    | _ =>
      [("savings_deposit_top_n", "Top savings deposits", "Rank savings accounts by deposits."),
       ("savings_balance_summary", "Savings balance summary", "Summarize savings balances."),
       ("organization_office_summary", "Office summary", "Summarize offices in the organization.")]
  choices.map fun (id, label, description) => ⟨id, label, some description, []⟩

/-- The question over these options, or over those of the domain when there are none. -/
def reportQuestion (payloadId : Uuid) (domain : AssistantDomain)
    (options : List ClarificationOption) (sourceIntent : Option SourceIntentSnapshot) :
    ClarificationPayload where
  version := CLARIFICATION_VERSION_1
  id := payloadId
  revision := 0
  kind := .selectOption
  question := "Which report should I use?"
  options := (if options = [] then fallbackClarificationOptions domain else options) ++
    [⟨OTHER_CLARIFICATION_OPTION_ID, "Others",
      some "Let me describe what I need in my own words.", []⟩]
  fields := []
  attempt := 1
  sourceIntent := sourceIntent
  allowFreeText := true
  isMissingExecutionParameters := false
  workflowId := none
  nodeId := none
  resumeNodeId := none
  entityKind := none

def clarificationPayload (payloadId : Uuid) (domain : AssistantDomain) (evidence : List Evidence)
    (sourceIntent : Option SourceIntentSnapshot) : ClarificationPayload :=
  reportQuestion payloadId domain ((evidence.take 3).map (evidenceOption sourceIntent)) sourceIntent

/-- Of two pieces of evidence for one capability the later one is in the map of the source. -/
def clarificationPayloadFor (payloadId : Uuid) (domain : AssistantDomain)
    (evidence : List Evidence) (alternatives : List String)
    (sourceIntent : Option SourceIntentSnapshot) : ClarificationPayload :=
  if alternatives = [] then clarificationPayload payloadId domain evidence sourceIntent
  else
    reportQuestion payloadId domain
      (alternatives.filterMap fun id =>
        (evidence.reverse.find? fun item => item.capabilityId = id).map
          (evidenceOption sourceIntent))
      sourceIntent

/-! ### Planning and policy -/

/-- `saturating_add(1)` on `u32`. -/
def saturatingSucc (value : ℕ) : ℕ := min (value + 1) (2 ^ 32 - 1)

def incrementedClarification (payload : ClarificationPayload) : ClarificationPayload :=
  { payload with
    attempt := saturatingSucc payload.attempt
    revision := saturatingSucc payload.revision }

/-- The planned question in other words; an answered question counts one attempt more. -/
def reworded (activePayload : Option ClarificationPayload) (question : String)
    (payload : ClarificationPayload) : ClarificationPayload :=
  { payload with
    question := question
    attempt := ((activePayload.map (·.attempt)).map saturatingSucc).getD payload.attempt }

def blocked (reason : String) : PolicyDecision := ⟨.blocked, some reason, [], false⟩

def evaluatePolicy (client : PrincipalContext) (plan : Option ExecutionPlan) : PolicyDecision :=
  match plan with
  | none => ⟨.notApplicable, none, [], false⟩
  | some plan =>
    match ensureCapabilityAllowed client plan.capability with
    | .error error => blocked error.message
    | .ok () =>
      match effectiveOfficeScope client none with
      | .error error => blocked error.message
      | .ok officeIds => ⟨.allowed, none, officeIds, client.canViewPii⟩

def guardSelectedCapability (client : PrincipalContext) (plan : ExecutionPlan) : PolicyDecision :=
  evaluatePolicy client (some plan)

/-- Nothing when one of the capabilities is not approved. -/
def proposeWorkflow (catalog : KnowledgeCatalog) (capabilityIds : List String) :
    Option WorkflowProposal :=
  if capabilityIds.any fun id => (approvedCapability? catalog id).isNone then none
  else some ⟨capabilityIds, [], []⟩

def EXECUTION_BUDGETS : WorkflowBudgets := ⟨30000, 1000, 5, 2, 2, 0⟩

/-! ### The execution of a capability -/

/-- A turn, the services behind an execution and how a response is rendered. The runner replies
with its outcome, the database then with the tables it was left; `jsonb` is a JSON value read back
from a column. -/
structure TurnRun where
  decimals : DecimalNumbers
  showJson : Json → String
  jsonb : Json → Json
  isDecimal : String → Bool
  turn : SemanticTurn
  hasRouter : Bool
  client : Option PrincipalContext
  hasFineractPool : Bool
  hasWorkflowState : Bool
  canonical : Option CanonicalRuntimeContext
  wallToday : NaiveDate
  intentReason : String
  memoryExtraction : Option DeterministicExtraction
  workflowId : Uuid
  installWorkflow : ExecutionWorkflow → Except String Unit
  runWorkflow : ExecutionWorkflow → Except String WorkflowRunOutcome × Except String JobTables

/-- The rows with their outputs as they are read back. -/
def nodeRunsAsRead (jsonb : Json → Json) (tables : JobTables) : JobTables :=
  { tables with
    nodeRuns := tables.nodeRuns.map fun row => { row with outputJson := row.outputJson.map jsonb } }

namespace TurnRun

variable (run : TurnRun)

/-- `graph_result`: whatever ends the graph is rendered. -/
def graphResult (terminal : Job.TerminalState) (reason : String) (response : AssistantResponse) :
    TurnResult :=
  ⟨terminal, reason, ResponseBuilder.finish run.decimals run.showJson response⟩

/-- A question ends the turn until the user answers it. -/
def clarify (reason : String) (payload : ClarificationPayload) : TurnResult :=
  run.graphResult .waitingForUserInput reason (ResponseBuilder.clarification payload)

def failed (reason : String) : TurnResult :=
  run.graphResult .failedOperational reason ResponseBuilder.error

def evaluationContext (client : PrincipalContext) : Option EvaluationContext :=
  run.canonical.map fun canonical => ⟨canonical.businessToday, run.wallToday, client.officeIds⟩

/-- The snapshot of an intent, with the intent's own reason for the prompt. -/
def intentSnapshot (intent : AssistantIntent) : SourceIntentSnapshot :=
  sourceIntentSnapshot run.turn.toLowercase intent run.intentReason

/-- What the planner asks about a capability that cannot be planned. -/
def replanned (catalog : KnowledgeCatalog) (capabilityId : String) (intent : AssistantIntent)
    (activePayload : Option ClarificationPayload) : ClarificationPlanResult :=
  plannedClarification run.turn.toUppercase catalog [capabilityId] (some intent) []
    (some (run.intentSnapshot intent)) activePayload run.turn.payloadId

/-- The question after an invalid date; it does not show the error of the parser. -/
def temporalQuestion (catalog : KnowledgeCatalog) (capabilityId : String)
    (intent : AssistantIntent) (activePayload : Option ClarificationPayload)
    (error : TemporalError) : ClarificationPayload :=
  match run.replanned catalog capabilityId intent activePayload with
  | .clarify payload _ => reworded activePayload error.message payload
  | .complete _ _ =>
    ResponseBuilder.freeTextPayload run.turn.payloadId 1
      "Please provide a valid date range for this report." true (some (run.intentSnapshot intent))

/-- The workflow of a plan, proposed, compiled and installed, or the reason it is not. -/
def installedWorkflow (catalog : KnowledgeCatalog) (capabilityId : String) (plan : ExecutionPlan) :
    Except String ExecutionWorkflow := do
  let proposal ← okOr (proposeWorkflow catalog [capabilityId]) "canonical_snapshot_invalid"
  let workflow ← mapError (fun _ => "workflow_compile_failed")
    (compileWithFacts proposal catalog run.workflowId
      ((run.canonical.bind (·.catalogVersion)).getD 0) EXECUTION_BUDGETS (planFacts catalog plan))
  mapError (fun _ => "execution_failed") (run.installWorkflow workflow)
  pure workflow

/-- The note on the reporting date goes behind the other warnings. -/
def withReportingDate (response : AssistantResponse) : AssistantResponse :=
  match run.canonical.bind fun canonical => ResponseBuilder.reportingDateNote
      canonical.businessToday canonical.businessDateSource canonical.referenceDate with
  | some note => { response with warnings := response.warnings ++ [note] }
  | none => response

/-- The end of the graph after the run of the workflow. -/
def workflowResult (outcome : Except String WorkflowRunOutcome)
    (responded : WorkflowRunOutcome → Except String WorkflowResponseOutcome) : TurnResult :=
  match outcome with
  | .error message => run.failed
      (if message = "execution_timed_out" then "execution_timed_out" else "execution_failed")
  | .ok outcome =>
    match responded outcome with
    | .error _ => run.failed "execution_failed"
    | .ok (.response response) =>
      run.graphResult .completed "execution_completed" (run.withReportingDate response)
    | .ok (.clarification payload) => run.clarify "ambiguous_client_identity" payload
    | .ok .failed => run.failed "execution_failed"

/-- From the plan on: the guard, the services, the workflow. -/
def executePlan (catalog : KnowledgeCatalog) (client : PrincipalContext) (capabilityId : String)
    (intent : AssistantIntent) (plan : ExecutionPlan) : TurnResult :=
  let policy := guardSelectedCapability client plan
  if policy.status ≠ .allowed then
    run.graphResult .blockedByPolicy "blocked_by_policy"
      (ResponseBuilder.policyBlocked (policy.reason.getD "policy blocked"))
  else if run.hasFineractPool = false ∨ run.hasWorkflowState = false then
    run.graphResult .completed "execution_not_configured" (ResponseBuilder.selected capabilityId)
  else
    match run.installedWorkflow catalog capabilityId plan with
    | .error reason => run.failed reason
    | .ok workflow =>
      let (outcome, state) := run.runWorkflow workflow
      run.workflowResult outcome fun outcome => do
        let tables ← state
        workflowResponse run.decimals run.showJson catalog outcome (nodeRunsAsRead run.jsonb tables)
          workflow.id capabilityId (run.intentSnapshot intent) plan policy run.turn.payloadId

def executeSelectedCapability (capabilityId : String) (intent : Option AssistantIntent)
    (activePayload : Option ClarificationPayload) : TurnResult :=
  match run.turn.catalog, run.client with
  | some catalog, some client =>
    match intent with
    | none => run.graphResult .waitingForUserInput "missing_intent"
        (ResponseBuilder.missingParameter run.turn.payloadId
          "Please include the client name to search for.")
    | some intent =>
      match run.memoryExtraction.bind (·.temporalError) with
      | some error => run.clarify error.code
          (run.temporalQuestion catalog capabilityId intent activePayload error)
      | none =>
        match planSelectedCapabilityVerified run.turn.toLowercase run.isDecimal catalog
            capabilityId intent run.memoryExtraction (run.evaluationContext client)
            (some run.turn.input.sourceMessage) with
        | .ok plan => run.executePlan catalog client capabilityId intent plan
        | .error message =>
          match run.replanned catalog capabilityId intent activePayload with
          | .clarify payload _ => run.clarify "missing_execution_parameters"
              (reworded activePayload message payload)
          | .complete _ _ => run.failed "planning_inconsistent"
  | _, _ =>
    run.graphResult .completed "capability_selected" (ResponseBuilder.selected capabilityId)

/-! ### The semantic route -/

def clarifyRetrievalCandidates (intent : AssistantIntent) (evidence : List Evidence)
    (alternatives : List String) : RespondedTurn :=
  let source := some (run.turn.sourceIntentSnapshot intent run.turn.input.sourceMessage)
  match run.turn.catalog with
  | some catalog =>
    match plannedClarification run.turn.toUppercase catalog
      (SemanticTurn.candidateIds evidence alternatives) (some intent) run.turn.input.constraintPatch
      source none run.turn.payloadId with
    | .complete capabilityId _ => .execute capabilityId intent none
    | .clarify payload _ => .ended (run.clarify "weak_retrieval_evidence" payload)
  | none => .ended (run.clarify "weak_retrieval_evidence"
      (clarificationPayloadFor run.turn.payloadId intent.domain evidence alternatives source))

/-- The two ends behind the reranker leave their response to be rendered. -/
def routeByEvidence (intent : AssistantIntent) : RespondedTurn :=
  let evidence := run.turn.survivors intent
  let decision := run.turn.rerank intent evidence
  match decision.decision with
  | .select =>
    match decision.capabilityId.filter fun id =>
        evidence.any fun item => item.capabilityId = id with
    | some capabilityId => .execute capabilityId intent none
    | none => run.clarifyRetrievalCandidates intent evidence decision.alternatives
  | .clarify => run.clarifyRetrievalCandidates intent evidence decision.alternatives
  | .unsupported =>
    .ended ⟨.unsupported, "unsupported_in_domain", ResponseBuilder.unsupported⟩
  | .failedOperational =>
    .ended ⟨.failedOperational, "reranker_failed_operational", ResponseBuilder.error⟩

def routeByIntent (intent : AssistantIntent) : RespondedTurn :=
  match intent.intent with
  | .greeting => .ended (run.graphResult .completed "greeting" ResponseBuilder.greeting)
  | .help => .ended (run.graphResult .completed "help" ResponseBuilder.help)
  | .unsafeRequest => .ended (run.graphResult .blockedByPolicy "unsafe_request"
      (ResponseBuilder.policyBlocked "This request is blocked by policy."))
  | _ => run.routeByEvidence intent

def otherSelected : RespondedTurn :=
  .ended (run.graphResult .waitingForUserInput "clarification_other_selected"
    (ResponseBuilder.freeFormOtherPrompt run.turn.payloadId))

def continueWith (payload : ClarificationPayload) : ClarificationOutcome → RespondedTurn
  | .selectedOption optionId =>
    if optionId = OTHER_CLARIFICATION_OPTION_ID then run.otherSelected
    else if payload.kind = .selectEntity then
      match clientOfOption optionId with
      | some clientId => .execute SemanticTurn.CLIENT_RELATIONSHIP_CAPABILITY
          (run.turn.clientIntent payload clientId) (some payload)
      | none => .ended (run.failed "invalid_client_selection")
    else .execute optionId (intentFromSource run.turn.context run.turn.reader payload)
      (some payload)
  | .freeFormOther _ => run.otherSelected
  | _ => .ended (run.clarify "clarification_unresolved" payload)

/-- A route that failed leaves its response to be rendered. -/
def completeSemanticRoute : RespondedTurn :=
  match run.turn.route with
  | .error _ => .ended ⟨.failedOperational, "intent_route_failed", ResponseBuilder.error⟩
  | .ok routed =>
    let intent := run.turn.reader.mergeInto run.turn.input.sourceMessage routed
    match run.turn.resolvedReply intent with
    | some (payload, outcome) => run.continueWith payload outcome
    | none => run.routeByIntent intent

/-- The route of a message that answers no question. -/
def routed : RespondedTurn :=
  if run.hasRouter then run.completeSemanticRoute
  else .ended (run.failed "semantic_router_unavailable")

/-- The question again, or the prompt for other words once it was asked too often. -/
def askAgain (payload : ClarificationPayload) : TurnResult :=
  if payload.attempt ≥ MAX_CLARIFICATION_ATTEMPTS then
    run.graphResult .waitingForUserInput "clarification_recovery"
      { ResponseBuilder.freeFormOtherPrompt run.turn.payloadId with
        title := some "Describe your request" }
  else run.clarify "clarification_unresolved" (incrementedClarification payload)

def runWithRouter : RespondedTurn :=
  let context := run.turn.context
  let input := run.turn.input
  if .sessionContextExceeded ∈ context.warnings then
    .ended (run.graphResult .contextWindowExceeded "context_window_exceeded"
      ResponseBuilder.contextWindowExceeded)
  else match continuedCapability input context with
    | some (payload, capabilityId) =>
      .execute capabilityId (continuedIntent run.turn.reader input context payload) (some payload)
    | none =>
      match context.pendingClarification with
      | none => run.routed
      | some payload =>
        match resolvePendingClarification input payload context with
        | some (.selectedOption optionId) =>
          .execute optionId (continuedIntent run.turn.reader input context payload) (some payload)
        | some (.freeFormOther _) => run.otherSelected
        | some (.unresolved _) => .ended (run.askAgain payload)
        | _ => run.routed

/-- The result of a turn, with the execution it goes to. -/
def result : TurnResult :=
  match run.runWithRouter with
  | .execute capabilityId intent activePayload =>
    run.executeSelectedCapability capabilityId (some intent) activePayload
  | .ended result => result

/-! ### The same turn without its responses -/

variable {run}

theorem clarifyRetrievalCandidates_outcome (intent : AssistantIntent) (evidence : List Evidence)
    (alternatives : List String) :
    (run.clarifyRetrievalCandidates intent evidence alternatives).outcome =
      run.turn.clarifyRetrievalCandidates intent evidence alternatives := by
  unfold clarifyRetrievalCandidates SemanticTurn.clarifyRetrievalCandidates
  cases run.turn.catalog with
  | none => rfl
  | some catalog =>
    dsimp only
    generalize plannedClarification run.turn.toUppercase catalog _ _ _ _ _ _ = planned
    cases planned with
    | complete capabilityId defaults => rfl
    | clarify payload defaults => rfl

theorem routeByEvidence_outcome (intent : AssistantIntent) :
    (run.routeByEvidence intent).outcome = run.turn.routeByEvidence intent := by
  unfold routeByEvidence SemanticTurn.routeByEvidence
  dsimp only
  cases (run.turn.rerank intent (run.turn.survivors intent)).decision with
  | select =>
    dsimp only
    generalize Option.filter _ (run.turn.rerank intent _).capabilityId = chosen
    cases chosen with
    | none => exact clarifyRetrievalCandidates_outcome _ _ _
    | some capabilityId => rfl
  | clarify => exact clarifyRetrievalCandidates_outcome _ _ _
  | unsupported => rfl
  | failedOperational => rfl

theorem routeByIntent_outcome (intent : AssistantIntent) :
    (run.routeByIntent intent).outcome = run.turn.routeByIntent intent := by
  unfold routeByIntent SemanticTurn.routeByIntent
  cases intent.intent with
  | greeting => rfl
  | help => rfl
  | unsafeRequest => rfl
  | _ => exact routeByEvidence_outcome intent

theorem continueWith_outcome (payload : ClarificationPayload) (outcome : ClarificationOutcome) :
    (run.continueWith payload outcome).outcome = run.turn.continueWith payload outcome := by
  cases outcome with
  | selectedOption optionId =>
    unfold continueWith SemanticTurn.continueWith
    dsimp only
    split_ifs
    · rfl
    · cases clientOfOption optionId with
      | none => rfl
      | some clientId => rfl
    · rfl
  | _ => rfl

theorem completeSemanticRoute_outcome :
    run.completeSemanticRoute.outcome = run.turn.completeSemanticRoute := by
  unfold completeSemanticRoute SemanticTurn.completeSemanticRoute
  cases run.turn.route with
  | error message => rfl
  | ok routed =>
    dsimp only
    cases run.turn.resolvedReply
      (run.turn.reader.mergeInto run.turn.input.sourceMessage routed) with
    | none => exact routeByIntent_outcome _
    | some reply => exact continueWith_outcome reply.1 reply.2

/-- With a router, the turn goes where it goes without its responses. -/
theorem runWithRouter_outcome (h : run.hasRouter = true) :
    run.runWithRouter.outcome = Execution.runWithRouter run.turn.reader run.turn.context
      run.turn.input run.turn.completeSemanticRoute := by
  have hrouted : run.routed.outcome = run.turn.completeSemanticRoute := by
    rw [routed, if_pos h, completeSemanticRoute_outcome]
  unfold runWithRouter Execution.runWithRouter
  dsimp only
  split_ifs
  · rfl
  · cases continuedCapability run.turn.input run.turn.context with
    | some continued => rfl
    | none =>
      cases run.turn.context.pendingClarification with
      | none => exact hrouted
      | some payload =>
        dsimp only
        cases resolvePendingClarification run.turn.input payload run.turn.context with
        | none => exact hrouted
        | some outcome =>
          cases outcome with
          | selectedOption optionId => rfl
          | freeFormOther text => rfl
          | unresolved reason =>
            dsimp only [askAgain]
            split_ifs <;> rfl
          | _ => exact hrouted

/-- The end of the graph is the one in the memory of the job. -/
theorem workflowResult_terminal (capability : CapabilityRun) :
    capability.executed.terminalState =
      some (run.workflowResult capability.outcome capability.responded).terminal := by
  unfold CapabilityRun.executed workflowResult
  cases capability.outcome with
  | error message => rfl
  | ok outcome =>
    dsimp only
    cases capability.responded outcome with
    | error message => rfl
    | ok responded => cases responded <;> rfl

/-! ### The responses of a turn -/

/-- The response to the rows of a node output. -/
def rowsResponse (run : TurnRun) (plan : ExecutionPlan) (policy : PolicyDecision)
    (catalog : KnowledgeCatalog) (output : Json) : AssistantResponse :=
  ResponseBuilder.fromToolResult run.decimals run.showJson plan policy
    (toolResultFromExecution [] ((output.get? "untrusted_tool_output").getD .null)) catalog

/-- A response without rows, rendered or not, or one with the rows of a node, rendered again
behind its last warning. -/
inductive Leaves (run : TurnRun) : AssistantResponse → Prop
  | rendered {response : AssistantResponse} (htable : response.table = none) :
      Leaves run (ResponseBuilder.finish run.decimals run.showJson response)
  | unrendered {response : AssistantResponse} (htable : response.table = none)
      (hmarkdown : response.renderedMarkdown = none) : Leaves run response
  | rows {plan : ExecutionPlan} {policy : PolicyDecision} {catalog : KnowledgeCatalog}
      {tables : JobTables} {workflowId : Uuid} {output : Json}
      (houtput : terminalOutput ((nodeRunsAsRead run.jsonb tables).nodeRunsOf workflowId) =
        some output) :
      Leaves run (ResponseBuilder.finish run.decimals run.showJson
        (run.withReportingDate (run.rowsResponse plan policy catalog output)))

theorem leaves_clarify (reason : String) (payload : ClarificationPayload) :
    Leaves run (run.clarify reason payload).response :=
  .rendered rfl

theorem leaves_failed (reason : String) : Leaves run (run.failed reason).response :=
  .rendered rfl

/-- A workflow that answers has the rows of its last guarded node. -/
theorem workflowResponse_rows {catalog : KnowledgeCatalog} {outcome : WorkflowRunOutcome}
    {tables : JobTables} {workflowId : Uuid} {capabilityId : String}
    {sourceIntent : SourceIntentSnapshot} {plan : ExecutionPlan} {policy : PolicyDecision}
    {payloadId : Uuid} {response : AssistantResponse}
    (h : workflowResponse run.decimals run.showJson catalog outcome tables workflowId capabilityId
      sourceIntent plan policy payloadId = .ok (.response response)) :
    ∃ output, terminalOutput (tables.nodeRunsOf workflowId) = some output ∧
      response = run.rowsResponse plan policy catalog output := by
  cases outcome with
  | completed =>
    obtain ⟨output, houtput, h⟩ := bind_eq_ok_iff.mp h
    refine ⟨output, okOr_eq_ok.mp houtput, ?_⟩
    have hcompleted := Except.ok.inj h
    unfold completedResponse at hcompleted
    dsimp only at hcompleted
    split_ifs at hcompleted
    · exact (WorkflowResponseOutcome.response.inj hcompleted).symm
    · exact (WorkflowResponseOutcome.response.inj hcompleted).symm
  | waitingForUserInput node =>
    obtain ⟨payload, -, h⟩ := bind_eq_ok_iff.mp h
    cases Except.ok.inj h
  | failed => cases Except.ok.inj h

theorem leaves_workflowResult {outcome : Except String WorkflowRunOutcome}
    {responded : WorkflowRunOutcome → Except String WorkflowResponseOutcome}
    (h : ∀ outcome response, responded outcome = .ok (.response response) →
      Leaves run (ResponseBuilder.finish run.decimals run.showJson
        (run.withReportingDate response))) :
    Leaves run (run.workflowResult outcome responded).response := by
  unfold workflowResult
  cases outcome with
  | error message => exact leaves_failed _
  | ok outcome =>
    dsimp only
    cases hresponded : responded outcome with
    | error message => exact leaves_failed _
    | ok reply =>
      cases reply with
      | response response => exact h outcome response hresponded
      | clarification payload => exact leaves_clarify _ _
      | failed => exact leaves_failed _

theorem leaves_executePlan (catalog : KnowledgeCatalog) (client : PrincipalContext)
    (capabilityId : String) (intent : AssistantIntent) (plan : ExecutionPlan) :
    Leaves run (run.executePlan catalog client capabilityId intent plan).response := by
  unfold executePlan
  dsimp only
  split_ifs
  · exact .rendered rfl
  · exact .rendered rfl
  · cases run.installedWorkflow catalog capabilityId plan with
    | error reason => exact leaves_failed _
    | ok workflow =>
      apply leaves_workflowResult
      intro outcome response hresponse
      obtain ⟨tables, -, hresponse⟩ := bind_eq_ok_iff.mp hresponse
      obtain ⟨output, houtput, rfl⟩ := workflowResponse_rows hresponse
      exact .rows houtput

theorem leaves_executeSelectedCapability (capabilityId : String) (intent : Option AssistantIntent)
    (activePayload : Option ClarificationPayload) :
    Leaves run (run.executeSelectedCapability capabilityId intent activePayload).response := by
  unfold executeSelectedCapability
  split
  · cases intent with
    | none => exact .rendered rfl
    | some intent =>
      dsimp only
      split
      · exact leaves_clarify _ _
      · split
        · exact leaves_executePlan _ _ _ _ _
        · split
          · exact leaves_clarify _ _
          · exact leaves_failed _
  · exact .rendered rfl

/-- A turn that ends without an execution leaves a response too. -/
def EndsLeaving (run : TurnRun) (turn : RespondedTurn) : Prop :=
  ∀ result, turn = .ended result → Leaves run result.response

theorem endsLeaving_ended {result : TurnResult} (h : Leaves run result.response) :
    EndsLeaving run (.ended result) := by
  intro ended hended
  obtain rfl := RespondedTurn.ended.inj hended
  exact h

theorem endsLeaving_execute {capabilityId : String} {intent : AssistantIntent}
    {activePayload : Option ClarificationPayload} :
    EndsLeaving run (.execute capabilityId intent activePayload) :=
  fun _ hended => nomatch hended

theorem endsLeaving_clarifyRetrievalCandidates (intent : AssistantIntent)
    (evidence : List Evidence) (alternatives : List String) :
    EndsLeaving run (run.clarifyRetrievalCandidates intent evidence alternatives) := by
  unfold clarifyRetrievalCandidates
  dsimp only
  split
  · split
    · exact endsLeaving_execute
    · exact endsLeaving_ended (leaves_clarify _ _)
  · exact endsLeaving_ended (leaves_clarify _ _)

theorem endsLeaving_routeByEvidence (intent : AssistantIntent) :
    EndsLeaving run (run.routeByEvidence intent) := by
  unfold routeByEvidence
  dsimp only
  split
  · split
    · exact endsLeaving_execute
    · exact endsLeaving_clarifyRetrievalCandidates _ _ _
  · exact endsLeaving_clarifyRetrievalCandidates _ _ _
  · exact endsLeaving_ended (.unrendered rfl rfl)
  · exact endsLeaving_ended (.unrendered rfl rfl)

theorem endsLeaving_routeByIntent (intent : AssistantIntent) :
    EndsLeaving run (run.routeByIntent intent) := by
  unfold routeByIntent
  split
  · exact endsLeaving_ended (.rendered rfl)
  · exact endsLeaving_ended (.rendered rfl)
  · exact endsLeaving_ended (.rendered rfl)
  · exact endsLeaving_routeByEvidence intent

theorem endsLeaving_otherSelected : EndsLeaving run run.otherSelected :=
  endsLeaving_ended (.rendered rfl)

theorem endsLeaving_continueWith (payload : ClarificationPayload)
    (outcome : ClarificationOutcome) : EndsLeaving run (run.continueWith payload outcome) := by
  unfold continueWith
  split
  · split_ifs
    · exact endsLeaving_otherSelected
    · split
      · exact endsLeaving_execute
      · exact endsLeaving_ended (leaves_failed _)
    · exact endsLeaving_execute
  · exact endsLeaving_otherSelected
  · exact endsLeaving_ended (leaves_clarify _ _)

theorem endsLeaving_routed : EndsLeaving run run.routed := by
  unfold routed completeSemanticRoute
  split_ifs
  · split
    · exact endsLeaving_ended (.unrendered rfl rfl)
    · dsimp only
      split
      · exact endsLeaving_continueWith _ _
      · exact endsLeaving_routeByIntent _
  · exact endsLeaving_ended (leaves_failed _)

theorem leaves_askAgain (payload : ClarificationPayload) :
    Leaves run (run.askAgain payload).response := by
  unfold askAgain
  split_ifs
  · exact .rendered rfl
  · exact leaves_clarify _ _

theorem endsLeaving_runWithRouter : EndsLeaving run run.runWithRouter := by
  unfold runWithRouter
  dsimp only
  split_ifs
  · exact endsLeaving_ended (.rendered rfl)
  · split
    · exact endsLeaving_execute
    · split
      · exact endsLeaving_routed
      · split
        · exact endsLeaving_execute
        · exact endsLeaving_otherSelected
        · exact endsLeaving_ended (leaves_askAgain _)
        · exact endsLeaving_routed

/-- Whichever way a turn goes, it leaves one of these responses. -/
theorem leaves_result (run : TurnRun) : Leaves run run.result.response := by
  unfold result
  split
  · exact leaves_executeSelectedCapability _ _ _
  · rename_i ended hended
    exact endsLeaving_runWithRouter ended hended

/-- What a turn leaves is settled. -/
theorem Leaves.settled {response : AssistantResponse} (h : Leaves run response) :
    Settled run.decimals run.showJson response := by
  cases h with
  | rendered htable => exact settled_finish
  | unrendered htable hmarkdown => exact settled_of_none hmarkdown
  | rows houtput => exact settled_finish

end TurnRun

end Execution

end FineractReports
