import FineractReports.Presentation.Builder
import FineractReports.Workflow.Runner

/-!
# The response of a workflow run

How the outcome of a run becomes an answer, a question or a failure. A lookup that
finds several clients asks which of them is meant.
-/

namespace FineractReports.Workflow

open Execution Presentation

inductive WorkflowResponseOutcome where
  | response (response : AssistantResponse)
  | clarification (payload : ClarificationPayload)
  | failed
deriving DecidableEq

/-- The output of the last completed node that went through the data executor. -/
def terminalOutput (runs : List WorkflowNodeRun) : Option Json :=
  (runs.reverse.filter fun run => run.status = .completed).findSome? fun run =>
    run.outputJson.filter fun output => (output.get? "untrusted_tool_output").isSome

def APPROVED_SQL_TOOL : String := "approved_catalog_sql"

def toolResultFromExecution (evidenceRefs : List String) (executionResult : Json) : ToolResult where
  toolName := APPROVED_SQL_TOOL
  ok := true
  rows := ((executionResult.get? "rows").bind Json.asArray?).getD []
  summary := ((executionResult.get? "row_count").bind asU64?).map fun count =>
    toString count ++ " row(s) returned"
  evidenceRefs := evidenceRefs
  truncated :=
    match executionResult.get? "truncated" with
    | some (.bool true) => (executionResult.get? "shown").bind asU64?
    | _ => none

def clientLabel (row : Json) (clientId : ℤ) (canViewPii : Bool) : Option String :=
  if canViewPii then (row.get? "display_name").bind Json.asStr?
  else some ("Client " ++ toString clientId)

def clientDescription (row : Json) : String :=
  String.intercalate " · " ([(row.get? "office_name").bind Json.asStr?,
    (row.get? "status_label").bind Json.asStr?].filterMap id)

/-- One option a client; a client whose first row has no name is left out. -/
def clientEntityOptions (canViewPii : Bool) : List Json → List ℤ → List ClarificationOption
  | [], _ => []
  | row :: rest, seen =>
    match (row.get? "client_id").bind Json.asI64? with
    | none => clientEntityOptions canViewPii rest seen
    | some clientId =>
      if clientId ∈ seen then clientEntityOptions canViewPii rest seen
      else
        match clientLabel row clientId canViewPii with
        | none => clientEntityOptions canViewPii rest (clientId :: seen)
        | some label =>
          ⟨"client:" ++ toString clientId, label, some (clientDescription row), []⟩ ::
            clientEntityOptions canViewPii rest (clientId :: seen)

def isClientLookup (catalog : KnowledgeCatalog) (capabilityId : String) : Bool :=
  catalog.capabilities.any fun capability => capability.id = capabilityId ∧
    capability.requestShape.operation = .lookup ∧ capability.requestShape.subject = .client

/-- The intent with its reason for the prompt. -/
def sourceIntentSnapshot (toLowercase : String → String) (intent : AssistantIntent)
    (reason : String) : SourceIntentSnapshot where
  prompt := reason
  normalizedPrompt := some (toLowercase (Text.trim reason))
  intent := intent.intent
  domain := intent.domain
  requestShape := intent.requestShape
  entities := intent.entities
  constraints := intent.constraints

def entityClarification (payloadId : Uuid) (options : List ClarificationOption)
    (sourceIntent : SourceIntentSnapshot) : ClarificationPayload where
  version := CLARIFICATION_VERSION_1
  id := payloadId
  revision := 1
  kind := .selectEntity
  question := "Which client did you mean?"
  options := options
  fields := []
  attempt := 1
  sourceIntent := some sourceIntent
  allowFreeText := false
  isMissingExecutionParameters := false
  workflowId := none
  nodeId := none
  resumeNodeId := none
  entityKind := none

section Outcome

variable (decimals : DecimalNumbers) (showJson : Json → String) (catalog : KnowledgeCatalog)

/-- The answer to a completed run, or the question which client is meant. -/
def completedResponse (capabilityId : String) (sourceIntent : SourceIntentSnapshot)
    (plan : ExecutionPlan) (policy : PolicyDecision) (payloadId : Uuid) (output : Json) :
    WorkflowResponseOutcome :=
  let toolResult :=
    toolResultFromExecution [] ((output.get? "untrusted_tool_output").getD .null)
  let options :=
    if isClientLookup catalog capabilityId then
      clientEntityOptions policy.canViewPii toolResult.rows []
    else []
  if 1 < options.length then .clarification (entityClarification payloadId options sourceIntent)
  else .response (ResponseBuilder.fromToolResult decimals showJson plan policy toolResult catalog)

def workflowResponse (outcome : WorkflowRunOutcome) (tables : JobTables) (workflowId : Uuid)
    (capabilityId : String) (sourceIntent : SourceIntentSnapshot) (plan : ExecutionPlan)
    (policy : PolicyDecision) (payloadId : Uuid) : Except String WorkflowResponseOutcome :=
  match outcome with
  | .completed => do
    let output ← okOr (terminalOutput (tables.nodeRunsOf workflowId))
      "workflow completed with no capability node output"
    return completedResponse decimals showJson catalog capabilityId sourceIntent plan policy
      payloadId output
  | .waitingForUserInput _ => do
    let payload ← okOr tables.pendingClarification
      "workflow is waiting but no clarification is pending"
    return .clarification payload
  | .failed => .ok .failed

end Outcome

theorem clientEntityOptions_id {canViewPii : Bool} {rows : List Json} {seen : List ℤ}
    {option : ClarificationOption} (h : option ∈ clientEntityOptions canViewPii rows seen) :
    ∃ clientId : ℤ, option.id = "client:" ++ toString clientId := by
  induction rows generalizing seen with
  | nil => cases h
  | cons row rest ih =>
    unfold clientEntityOptions at h
    split at h
    · exact ih h
    · rename_i clientId _
      split_ifs at h
      · exact ih h
      · split at h
        · exact ih h
        · obtain rfl | hrest := List.mem_cons.mp h
          · exact ⟨clientId, rfl⟩
          · exact ih hrest

/-- A completed run that asks a question asks which client is meant. -/
theorem workflowResponse_clarification {decimals : DecimalNumbers} {showJson : Json → String}
    {catalog : KnowledgeCatalog} {tables : JobTables} {workflowId : Uuid} {capabilityId : String}
    {sourceIntent : SourceIntentSnapshot} {plan : ExecutionPlan} {policy : PolicyDecision}
    {payloadId : Uuid} {payload : ClarificationPayload}
    (h : workflowResponse decimals showJson catalog .completed tables workflowId capabilityId
      sourceIntent plan policy payloadId = .ok (.clarification payload)) :
    payload.kind = .selectEntity ∧
      ∀ option ∈ payload.options, ∃ clientId : ℤ, option.id = "client:" ++ toString clientId := by
  obtain ⟨output, -, h⟩ := bind_eq_ok_iff.mp h
  have hcompleted := Except.ok.inj h
  unfold completedResponse at hcompleted
  dsimp only at hcompleted
  split_ifs at hcompleted with hlookup hmany hmany
  · obtain rfl := WorkflowResponseOutcome.clarification.inj hcompleted
    exact ⟨rfl, fun option hoption => clientEntityOptions_id hoption⟩
  · simp at hmany

end FineractReports.Workflow
