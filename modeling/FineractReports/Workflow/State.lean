import FineractReports.Library.Checks
import FineractReports.Workflow.Contract

/-!
# Durable workflow state

The rows one job owns and the statements `WorkflowStateRepository` issues on
them. Each function is one transaction: it either returns the changed rows or
leaves them as they are. Checkpoints and audit rows are only ever written, so
they are left out.
-/

namespace FineractReports.Workflow

inductive NodeRunStatus where
  | runnable | running | completed | failed | skipped | waiting
deriving DecidableEq, Repr

structure WorkflowNodeRun where
  id : Uuid
  workflowId : Uuid
  nodeId : NodeId
  attempt : ℕ
  status : NodeRunStatus
  outputJson : Option Json
  rowsReturned : Int32
  durationMs : Option Int32
  startedAt : Option ℕ
deriving DecidableEq

inductive JobStatus where
  | queued | running | waitingForUserInput | completed | failed | expired | cancelled
deriving DecidableEq, Repr

namespace JobStatus

def isTerminal : JobStatus → Bool
  | completed | failed => true
  | _ => false

end JobStatus

/-- A row of the append-only event log. -/
structure JobEvent where
  eventType : String
  step : Option String
  payload : Json
deriving DecidableEq

/-- The rows of one job: its `chat_jobs` row, its memory row, its node runs and
its event log. -/
structure JobTables where
  jobId : Uuid
  userId : Uuid
  sessionArchived : Bool
  status : JobStatus
  currentStep : String
  resumeFromStep : Option String
  stateJson : Json
  resultJson : Option Json
  errorJson : Option Json
  workflowId : Option Uuid
  workflowRevision : ℕ
  currentNodeId : Option NodeId
  pendingClarification : Option ClarificationPayload
  memoryRevision : ℕ
  nodeRuns : List WorkflowNodeRun
  events : List JobEvent
deriving DecidableEq

structure WorkflowResumeRequest where
  jobId : Uuid
  userId : Uuid
  workflowId : Uuid
  nodeId : NodeId
  clarificationId : Uuid
  workflowRevision : ℕ
  selectedValue : Json
deriving DecidableEq

inductive ResumeOutcome where
  | resumed | notFound | notWaiting | stale
deriving DecidableEq, Repr

/-- Is the start of `a` ordered before the start of `b`: `ORDER BY started_at
NULLS FIRST, id`. -/
def startedBefore (a b : WorkflowNodeRun) : Prop :=
  match a.startedAt, b.startedAt with
  | none, some _ => True
  | some _, none => False
  | none, none => a.id ≤ b.id
  | some s, some t => s < t ∨ (s = t ∧ a.id ≤ b.id)

instance : DecidableRel startedBefore := fun a b => by
  unfold startedBefore
  split <;> infer_instance

/-- `chk_chat_job_events_type`, as the last migration leaves it. -/
def jobEventTypes : List String :=
  ["status", "clarification", "partial_result", "final", "error", "heartbeat",
   "stage", "delta", "workflow_node_started", "workflow_node_completed",
   "workflow_branch_decided", "workflow_paused", "workflow_resumed"]

namespace JobTables

def insertEvent (tables : JobTables) (eventType : String) (step : Option String)
    (payload : Json) : JobTables :=
  { tables with events := tables.events ++ [⟨eventType, step, payload⟩] }

/-- Puts a freshly compiled workflow on the job; its runtime record starts empty. -/
def installWorkflow (tables : JobTables) (userId workflowId : Uuid) (workflow : Json) :
    Except String JobTables :=
  if tables.userId = userId then
    .ok { tables with
      workflowId := some workflowId
      workflowRevision := tables.workflowRevision + 1
      currentNodeId := none
      currentStep := "planning"
      stateJson := tables.stateJson.concat (.obj [("workflow", workflow),
        ("workflow_runtime", .obj [("completed_node_ids", .arr []), ("node_outputs", .obj []),
          ("budget_consumed", .obj [("queries", .int 0), ("rows", .int 0), ("ms", .int 0)])])]) }
  else .error "workflow job was not found"

/-- The node runs of a workflow in the order the repository reads them. -/
def nodeRunsOf (tables : JobTables) (workflowId : Uuid) : List WorkflowNodeRun :=
  (tables.nodeRuns.filter fun run => run.workflowId = workflowId).insertionSort startedBefore

/-- Applies an update to the rows that satisfy its condition. -/
def updateRuns (tables : JobTables) (matching : WorkflowNodeRun → Bool)
    (update : WorkflowNodeRun → WorkflowNodeRun) : JobTables :=
  { tables with
    nodeRuns := tables.nodeRuns.map fun run => if matching run then update run else run }

/-- The row `begin_node` inserts. -/
def startedRun (workflowId : Uuid) (nodeId : NodeId) (attempt : ℕ) (runId : Uuid) (now : ℕ) :
    WorkflowNodeRun where
  id := runId
  workflowId := workflowId
  nodeId := nodeId
  attempt := attempt
  status := .running
  outputJson := none
  rowsReturned := 0
  durationMs := none
  startedAt := some now

def beginNode (tables : JobTables) (run : WorkflowNodeRun) : JobTables :=
  { tables with nodeRuns := tables.nodeRuns ++ [run] }.insertEvent "workflow_node_started"
    (some run.nodeId.value) (.obj [("attempt", .int run.attempt)])

/-- Is `run` the row of that id while it is still running? -/
def isRunningRow (runId : Uuid) (run : WorkflowNodeRun) : Bool :=
  run.id = runId ∧ run.status = .running

def completeNode (tables : JobTables) (run : WorkflowNodeRun) (output : Json)
    (rowsReturned durationMs : Int32) : Except String JobTables :=
  if (tables.nodeRuns.filter (isRunningRow run.id)).length = 1 then
    .ok ((tables.updateRuns (isRunningRow run.id) fun row =>
      { row with status := .completed, outputJson := some output, rowsReturned := rowsReturned,
                 durationMs := some durationMs }).insertEvent "workflow_node_completed"
      (some run.nodeId.value) (.obj [("rows_returned", .int rowsReturned.toInt)]))
  else .error "workflow node completion was stale"

def recordBranchDecision (tables : JobTables) (nodeId : NodeId) (cardinality : String) :
    JobTables :=
  tables.insertEvent "workflow_branch_decided" (some nodeId.value)
    (.obj [("cardinality", .str cardinality)])

/-- Nothing is recorded when nothing was dropped; the table refuses a row whose event
type its check does not list. -/
def recordSensitivityDrop (tables : JobTables) (nodeId : NodeId) (droppedFields : List String) :
    Except String JobTables :=
  if droppedFields = [] then .ok tables
  else if "workflow_field_dropped" ∈ jobEventTypes then
    .ok (tables.insertEvent "workflow_field_dropped" (some nodeId.value)
      (.obj [("dropped_fields", .arr (droppedFields.map .str))]))
  else .error "new row violates check constraint chk_chat_job_events_type"

def failNode (tables : JobTables) (run : WorkflowNodeRun) (durationMs : Int32) : JobTables :=
  tables.updateRuns (isRunningRow run.id) fun row =>
    { row with status := .failed, durationMs := some durationMs }

/-- Merges a member into `state_json`, as `||` with a one-member object does. -/
def mergeState (tables : JobTables) (key : String) (value : Json) : JobTables :=
  { tables with stateJson := tables.stateJson.concat (.obj [(key, value)]) }

/-- Adds to `workflow_runtime.budget_consumed`; `jsonb_set` does nothing when the
job has no `workflow_runtime`. -/
def addBudgetConsumed (tables : JobTables) (queries rows ms : ℤ) : JobTables :=
  match tables.stateJson.get? "workflow_runtime" with
  | some (.obj runtime) =>
    let consumed := (Assoc.get? runtime "budget_consumed").getD .null
    let total (key : String) (delta : ℤ) : String × Json :=
      (key, .int (((consumed.get? key).bind Json.asI64?).getD 0 + delta))
    { tables with
      stateJson := tables.stateJson.insertMember "workflow_runtime"
        ((Json.obj runtime).insertMember "budget_consumed"
          (.obj [total "queries" queries, total "rows" rows, total "ms" ms])) }
  | _ => tables

/-- Is `run` a row of that workflow node in that status? -/
def isNodeRow (workflowId : Uuid) (nodeId : NodeId) (status : NodeRunStatus)
    (run : WorkflowNodeRun) : Bool :=
  run.workflowId = workflowId ∧ run.nodeId = nodeId ∧ run.status = status

/-- Pauses at an interrupt: its running row waits, the job waits for the user and
the payload becomes the pending one. -/
def markWorkflowPaused (tables : JobTables) (userId workflowId : Uuid) (nodeId : NodeId)
    (clarification : ClarificationPayload) : Except String JobTables :=
  if (tables.nodeRuns.filter (isNodeRow workflowId nodeId .running)).length ≠ 1 then
    .error "workflow interrupt node was not running"
  else if ¬ (tables.userId = userId ∧ tables.workflowId = some workflowId) then
    .error "workflow pause was stale"
  else
    let paused := tables.updateRuns (isNodeRow workflowId nodeId .running) fun row =>
      { row with status := .waiting }
    let merged := paused.mergeState "workflow_runtime" (.obj
      [("waiting_node_id", .str nodeId.value), ("clarification_id", .int clarification.id),
       ("workflow_id", .int workflowId)])
    .ok ({ merged with
      status := .waitingForUserInput
      currentStep := "waiting_for_user_input"
      currentNodeId := some nodeId
      workflowRevision := tables.workflowRevision + 1
      pendingClarification := some clarification }.insertEvent "workflow_paused"
        (some nodeId.value) (.obj [("status", .str "waiting_for_user_input")]))

/-- The durable identity a resume request has to name. -/
def namesPausedNode (tables : JobTables) (request : WorkflowResumeRequest) : Prop :=
  tables.workflowId = some request.workflowId ∧
    tables.workflowRevision = request.workflowRevision ∧
    tables.currentNodeId = some request.nodeId ∧
    tables.pendingClarification.any (fun payload => payload.id = request.clarificationId) = true

instance (tables : JobTables) (request : WorkflowResumeRequest) :
    Decidable (tables.namesPausedNode request) := by
  unfold namesPausedNode; infer_instance

/-- What an accepted resume writes. The selected value goes into `state_json`
only; the waiting row completes without an output. -/
def resumed (tables : JobTables) (request : WorkflowResumeRequest) : JobTables :=
  let merged := tables.mergeState "workflow_runtime" (.obj
    [("selected_value", request.selectedValue),
     ("resumed_from_node_id", .str request.nodeId.value)])
  let completed := merged.updateRuns (isNodeRow request.workflowId request.nodeId .waiting)
    fun row => { row with status := .completed }
  { completed with
    status := .queued
    currentStep := "executing_node"
    currentNodeId := some request.nodeId
    workflowRevision := tables.workflowRevision + 1
    pendingClarification := none }.insertEvent "workflow_resumed" (some request.nodeId.value)
      (.obj [("workflow_id", .int request.workflowId)])

/-- The five identity values are checked under the job-row lock. -/
def resume (tables : JobTables) (request : WorkflowResumeRequest) : ResumeOutcome × JobTables :=
  if ¬ (tables.jobId = request.jobId ∧ tables.userId = request.userId) then (.notFound, tables)
  else if tables.status ≠ .waitingForUserInput then (.notWaiting, tables)
  else if ¬ tables.namesPausedNode request then (.stale, tables)
  else (.resumed, tables.resumed request)

end JobTables

/-- Exact sensitive inputs never reach the durable output. -/
def persistedOutput (inputs : List NodeInput) (output : Json) : Json :=
  let sensitiveFields :=
    (inputs.filter fun input => input.source = .exactSensitiveInput).map (·.parameter)
  if sensitiveFields = [] then output else output.redactFields sensitiveFields

section Lemmas

variable {tables : JobTables}

@[simp] theorem JobTables.insertEvent_status (eventType : String) (step : Option String)
    (payload : Json) : (tables.insertEvent eventType step payload).status = tables.status := rfl

@[simp] theorem JobTables.insertEvent_nodeRuns (eventType : String) (step : Option String)
    (payload : Json) : (tables.insertEvent eventType step payload).nodeRuns = tables.nodeRuns :=
  rfl

@[simp] theorem JobTables.addBudgetConsumed_nodeRuns (queries rows ms : ℤ) :
    (tables.addBudgetConsumed queries rows ms).nodeRuns = tables.nodeRuns := by
  unfold JobTables.addBudgetConsumed
  split <;> rfl

@[simp] theorem JobTables.mergeState_nodeRuns (key : String) (value : Json) :
    (tables.mergeState key value).nodeRuns = tables.nodeRuns := rfl

theorem JobTables.mem_nodeRunsOf {workflowId : Uuid} {run : WorkflowNodeRun} :
    run ∈ tables.nodeRunsOf workflowId ↔ run ∈ tables.nodeRuns ∧ run.workflowId = workflowId := by
  simp [JobTables.nodeRunsOf]

theorem JobTables.nodeRunsOf_perm (workflowId : Uuid) :
    (tables.nodeRunsOf workflowId).Perm
      (tables.nodeRuns.filter fun run => run.workflowId = workflowId) :=
  List.perm_insertionSort _ _

/-- A resume changes nothing unless it is accepted, and it is accepted only for the
pending clarification of the paused node. -/
theorem JobTables.resume_eq {request : WorkflowResumeRequest} {outcome : ResumeOutcome}
    {after : JobTables} (h : tables.resume request = (outcome, after)) :
    (outcome = .resumed ∧ tables.status = .waitingForUserInput ∧
      tables.namesPausedNode request ∧ after = tables.resumed request) ∨
    (outcome ≠ .resumed ∧ after = tables) := by
  by_cases howner : tables.jobId = request.jobId ∧ tables.userId = request.userId
  · by_cases hwaiting : tables.status = .waitingForUserInput
    · by_cases hnames : tables.namesPausedNode request
      · simp only [resume, howner, hwaiting, hnames, and_self, not_true_eq_false, ne_eq, if_false,
          Prod.mk.injEq] at h
        exact Or.inl ⟨h.1.symm, hwaiting, hnames, h.2.symm⟩
      · simp only [resume, howner, hwaiting, hnames, and_self, not_true_eq_false, ne_eq, if_false,
          not_false_eq_true, if_true, Prod.mk.injEq] at h
        exact Or.inr ⟨by simp [← h.1], h.2.symm⟩
    · simp only [resume, howner, hwaiting, and_self, not_true_eq_false, ne_eq, if_false,
        not_false_eq_true, if_true, Prod.mk.injEq] at h
      exact Or.inr ⟨by simp [← h.1], h.2.symm⟩
  · simp only [resume, howner, not_false_eq_true, if_true, Prod.mk.injEq] at h
    exact Or.inr ⟨by simp [← h.1], h.2.symm⟩

theorem JobTables.resume_snd (tables : JobTables) (request : WorkflowResumeRequest) :
    (tables.resume request).2 = tables.resumed request ∨ (tables.resume request).2 = tables := by
  have hresume : tables.resume request = ((tables.resume request).1, (tables.resume request).2) :=
    rfl
  rcases resume_eq hresume with ⟨-, -, -, hafter⟩ | ⟨-, hafter⟩
  · exact Or.inl hafter
  · exact Or.inr hafter

end Lemmas

end FineractReports.Workflow
