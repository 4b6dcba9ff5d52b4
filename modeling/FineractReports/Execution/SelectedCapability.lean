import FineractReports.Job.Service
import FineractReports.Workflow.NodeExecutor
import FineractReports.Workflow.Response

/-!
# The execution of a selected capability

The workflow run of a planned and allowed capability, and what its outcome leaves in the
memory of the job. The audit of the job is derived from that memory alone.
-/

namespace FineractReports.Execution

open Workflow Presentation Dataset

/-! ### The calls of the data executor -/

/-- What the data executor answers when the guard lets a node's request through. -/
def approvedResult (workflow : ExecutionWorkflow) (principal : PrincipalContext)
    (catalog : KnowledgeCatalog) (node : WorkflowNode) (bindings : Bindings)
    (runs : List WorkflowNodeRun) (reply : ExecutorReply) : Option (Except String Json) := do
  let capability ← declaredCapability node
  let request := ownRequest node capability bindings
  match GuardedDataTools.checkRequest workflow runs principal catalog request
      (isProbeNode node) with
  | .ok () => some (reply.executeApproved request)
  | .error _ => none

/-- The data executor's answer in one step of a runner. -/
def executorResult (workflow : ExecutionWorkflow) (principal : PrincipalContext)
    (catalog : KnowledgeCatalog) (state : RunnerState) :
    RunnerAction ExecutorReply → Option (Except String Json)
  | .finish index reply _ => do
    let active ← state.active
    let task ← active.batch[index]?
    let bindings ← (bindingsFor task.node active.runs principal).toOption
    approvedResult workflow principal catalog task.node bindings
      (state.tables.nodeRunsOf workflow.id) reply
  | _ => none

/-- The answers of the data executor along a run. -/
def executorResults (workflow : ExecutionWorkflow) (principal : PrincipalContext)
    (catalog : KnowledgeCatalog) (state : RunnerState) :
    List (RunnerAction ExecutorReply) → List (Except String Json)
  | [] => []
  | action :: rest =>
    let later :=
      match runnerStep (capabilityEnv workflow principal catalog) state action with
      | some next => executorResults workflow principal catalog next rest
      | none => []
    (executorResult workflow principal catalog state action).toList ++ later

/-! ### The memory of the job -/

def filterOperatorName : FilterOperator → String
  | .eq => "eq"
  | .in => "in"
  | .lt => "lt"
  | .lte => "lte"
  | .gt => "gt"
  | .gte => "gte"
  | .between => "between"

def optionalText (text : Option String) : Json := (text.map Json.str).getD .null

def filterJson (filter : DatasetFilterSelection) : Json :=
  .obj [("filter_id", .str filter.filterId),
    ("operator", .str (filterOperatorName filter.operator)),
    ("value", filter.value)]

def selectionJson (selection : DatasetSelection) : Json :=
  .obj [("dataset_id", .str selection.datasetId), ("shape_id", .str selection.shapeId),
    ("order_by_id", optionalText selection.orderById),
    ("filters", .arr (selection.filters.map filterJson)),
    ("projection", .arr (selection.projection.map .str))]

/-- The plan as it is serialised; its retrieval plan and evidence are only written. -/
def planJson (retrievalPlan evidenceEvaluation : Json) (plan : ExecutionPlan) : Json :=
  .obj [("domain", .str plan.domain), ("capability", .str plan.capability),
    ("query_id", .str plan.queryId),
    ("dataset_selection", (plan.datasetSelection.map selectionJson).getD .null),
    ("output_mode", .str plan.outputMode), ("params", plan.params),
    ("retrieval_plan", retrievalPlan), ("evidence_evaluation", evidenceEvaluation),
    ("requires_policy_check", .bool true)]

def policyStatusName : PolicyDecisionStatus → String
  | .allowed => "allowed"
  | .blocked => "blocked"
  | .notApplicable => "not_applicable"

def policyJson (policy : PolicyDecision) : Json :=
  .obj [("status", .str (policyStatusName policy.status)), ("reason", optionalText policy.reason),
    ("office_ids", .arr (policy.officeIds.map .int)), ("can_view_pii", .bool policy.canViewPii)]

/-- What the outcome of an execution writes to the memory of its job. -/
structure ExecutionMemory where
  terminalState : Option Job.TerminalState
  executionSummary : Json
  warnings : Json
  pendingClarification : Option (Option ClarificationPayload)
deriving DecidableEq

def graphSummary (recentMessageCount : ℕ) (reason : String) : Json :=
  .obj [("runtime", .str "semantic_assistant_graph"),
    ("recent_message_count", .int recentMessageCount), ("reason", .str reason)]

/-- Ends the graph; the execution summary is written anew. -/
def graphResult (memory : ExecutionMemory) (terminal : Job.TerminalState) (reason : String)
    (recentMessageCount : ℕ) (pendingClarification : Option (Option ClarificationPayload)) :
    ExecutionMemory :=
  { memory with
    terminalState := some terminal
    executionSummary := graphSummary recentMessageCount reason
    pendingClarification := pendingClarification }

/-- A planned and allowed capability, the run of its workflow and the run's outcome. -/
structure CapabilityRun where
  decimals : DecimalNumbers
  showJson : Json → String
  catalog : KnowledgeCatalog
  principal : PrincipalContext
  workflow : ExecutionWorkflow
  start : RunnerState
  fresh : (runner (capabilityEnv workflow principal catalog)).init start
  actions : List (RunnerAction ExecutorReply)
  last : RunnerState
  ran : (runner (capabilityEnv workflow principal catalog)).run start actions = some last
  outcome : Except String WorkflowRunOutcome
  ended : last.outcome = some outcome
  capabilityId : String
  plan : ExecutionPlan
  policy : PolicyDecision
  retrievalPlan : Json
  evidenceEvaluation : Json
  sourceIntent : SourceIntentSnapshot
  payloadId : Uuid
  recentMessageCount : ℕ
  memory : ExecutionMemory
  pendingClarification : Option (Option ClarificationPayload)

namespace CapabilityRun

variable (run : CapabilityRun)

def results : List (Except String Json) :=
  executorResults run.workflow run.principal run.catalog run.start run.actions

/-- The members every summary of an execution has. -/
def executedMembers : List (String × Json) :=
  [("plan", planJson run.retrievalPlan run.evidenceEvaluation run.plan),
    ("policy", policyJson run.policy)]

def warning (message : String) : Json := .arr [.obj [("message", .str message)]]

/-- A failed run. The summary is set before the graph ends and so overwritten. -/
def failedRun (message : String) : ExecutionMemory :=
  let reason :=
    if message = "execution_timed_out" then "execution_timed_out" else "execution_failed"
  graphResult
    { run.memory with
      warnings := warning message
      executionSummary := .obj (run.executedMembers ++
        [("result", .obj [("timed_out", .bool (decide (reason = "execution_timed_out")))])]) }
    .failedOperational reason run.recentMessageCount run.pendingClarification

def responded (outcome : WorkflowRunOutcome) : Except String WorkflowResponseOutcome :=
  workflowResponse run.decimals run.showJson run.catalog outcome run.last.tables run.workflow.id
    run.capabilityId run.sourceIntent run.plan run.policy run.payloadId

/-- The end of `execute_selected_capability`, from the outcome of the run on. -/
def executed : ExecutionMemory :=
  match run.outcome with
  | .error message => run.failedRun message
  | .ok outcome =>
    match run.responded outcome with
    | .error message => graphResult
        { run.memory with
          warnings := warning message
          executionSummary := .obj run.executedMembers }
        .failedOperational "execution_failed" run.recentMessageCount run.pendingClarification
    | .ok (.response _) =>
      { graphResult run.memory .completed "execution_completed" run.recentMessageCount
          run.pendingClarification with
        executionSummary := .obj run.executedMembers }
    | .ok (.clarification payload) =>
      graphResult run.memory .waitingForUserInput "ambiguous_client_identity"
        run.recentMessageCount (some (some payload))
    | .ok .failed =>
      graphResult run.memory .failedOperational "execution_failed" run.recentMessageCount
        run.pendingClarification

variable {run}

/-- What is left of an execution is its plan and its policy, or not even them. -/
theorem executed_summary : run.executed.executionSummary = .obj run.executedMembers ∨
    ∃ reason, run.executed.executionSummary = graphSummary run.recentMessageCount reason := by
  unfold executed failedRun graphResult
  split
  · exact Or.inr ⟨_, rfl⟩
  · split
    · exact Or.inr ⟨_, rfl⟩
    · exact Or.inl rfl
    · exact Or.inr ⟨_, rfl⟩
    · exact Or.inr ⟨_, rfl⟩

end CapabilityRun

section Failures

variable {workflow : ExecutionWorkflow} {principal : PrincipalContext}
  {catalog : KnowledgeCatalog} {node : WorkflowNode} {bindings : Bindings}
  {runs : List WorkflowNodeRun} {reply : ExecutorReply}

/-- Whatever the data executor fails with, the node has failed and nothing more is known. -/
theorem executeGuarded_failed {message : String}
    (h : approvedResult workflow principal catalog node bindings runs reply =
      some (.error message)) :
    executeGuarded workflow principal catalog node bindings runs reply = .ok .failed := by
  unfold approvedResult at h
  obtain ⟨capability, hcapability, h⟩ := Option.bind_eq_some_iff.mp h
  dsimp only at h
  split at h
  · rename_i hchecked
    have hanswer := Option.some.inj h
    simp only [executeGuarded, hcapability, okOr, GuardedDataTools.execute, hchecked, hanswer,
      mapError, bind, Except.bind, pure, Except.pure]
  · cases h

end Failures

end FineractReports.Execution
