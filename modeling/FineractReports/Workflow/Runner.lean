import FineractReports.Library.Transition
import FineractReports.Workflow.Compose
import FineractReports.Workflow.Run

/-!
# The workflow runner

One `run` call loads the durable runs, then repeats: select a batch of runnable
nodes, execute the batch concurrently, collect the outcomes. The steps below are
the database statements and decisions of that loop, so the nodes of one batch
interleave; a pause ends the call, a resume is accepted between calls.

What a node execution yields is left to the executor, which answers from the
durable runs it re-reads and from a reply of the outside world.
-/

namespace FineractReports.Workflow

inductive NodeExecution where
  | completed (output : Json) (rowsReturned : Int32)
  | waiting (clarification : ClarificationPayload)
  | failed
deriving DecidableEq

inductive WorkflowRunOutcome where
  | completed
  | waitingForUserInput (nodeId : NodeId)
  | failed
deriving DecidableEq

inductive NodeBatchOutcome where
  | completed (run : WorkflowNodeRun) (branchDecision : Option String) (nodeId : NodeId)
      (queryCost : UInt8)
  | waiting (nodeId : NodeId) (clarification : ClarificationPayload)
  | failed
  | cancelled
deriving DecidableEq

/-- One `execute_node` future of the current batch: the row it inserted, and its
result once it has one. -/
structure NodeTask where
  node : WorkflowNode
  run : Option WorkflowNodeRun
  result : Option (Except String NodeBatchOutcome)

/-- Local variables of a `run` call; the batch is empty at the loop head. -/
structure ActiveRun where
  runs : List WorkflowNodeRun
  consumed : BudgetTotals
  batch : List NodeTask

structure RunnerState where
  tables : JobTables
  active : Option ActiveRun
  outcome : Option (Except String WorkflowRunOutcome)

/-- Everything a runner is built with. -/
structure RunnerEnv (ρ : Type) where
  workflow : ExecutionWorkflow
  principal : PrincipalContext
  catalog : KnowledgeCatalog
  executor : WorkflowNode → Bindings → List WorkflowNodeRun → ρ → Except String NodeExecution

inductive RunnerAction (ρ : Type) where
  | run
  | select
  | begin (index : ℕ) (runId : Uuid) (now : ℕ)
  | finish (index : ℕ) (reply : ρ) (elapsed : Int32)
  | cancel (index : ℕ) (elapsed : Int32)
  | collect
  | resume (request : WorkflowResumeRequest)
  -- a repository call fails: before it wrote anything, after the node was settled,
  -- or at the end of the batch
  | stateError (index : ℕ) (message : String)
  | auditError (index : ℕ) (reply : ρ) (elapsed : Int32) (message : String)
  | collectError (message : String)

variable {ρ : Type} (env : RunnerEnv ρ)

/-- Nodes the scheduler considers at a loop head. -/
def runnableNodes (workflow : ExecutionWorkflow) (runs : List WorkflowNodeRun) :
    List WorkflowNode :=
  workflow.nodes.filter fun node => runnable node workflow runs

/-- Nodes are taken in order while their declared costs still fit. -/
def takeWithinBudget (budgets : WorkflowBudgets) (projected : BudgetTotals) :
    List WorkflowNode → List WorkflowNode
  | [] => []
  | node :: rest =>
    if projected.wouldExceed budgets node.budget then []
    else node :: takeWithinBudget budgets (projected.addDeclared node.budget) rest

def selectBatch (workflow : ExecutionWorkflow) (runs : List WorkflowNodeRun)
    (consumed : BudgetTotals) : List WorkflowNode :=
  takeWithinBudget workflow.budgets consumed
    ((runnableNodes workflow runs).take (max workflow.budgets.maxParallelQueries.toNat 1))

/-- The outcome of a call that finds nothing left to run. -/
def exhaustedOutcome (workflow : ExecutionWorkflow) (runs : List WorkflowNodeRun) :
    WorkflowRunOutcome :=
  if workflow.nodes.any fun node => node.isComplete && decide (node.id ∈ completedIds runs) then
    .completed
  else .failed

def executeOnceRepeated (nodes : List WorkflowNode) (runs : List WorkflowNodeRun) : Bool :=
  nodes.any fun node => decide (node.idempotency = .executeOnce) &&
    runs.any fun run => decide (run.nodeId = node.id ∧ run.status = .completed)

def composeSources (workflow : ExecutionWorkflow) (runs : List WorkflowNodeRun) :
    List NodeId → Except String (List ComposeSource)
  | [] => .ok []
  | source :: rest => do
    let node ← okOr (workflow.node? source) "compose source node is missing"
    let output ← nodeOutput runs source
    let sources ← composeSources workflow runs rest
    return ⟨output, node.outputs⟩ :: sources

def cardinalityText : Cardinality → String
  | .zero => "zero"
  | .one => "one"
  | .many => "many"

/-- Branch, terminal and composition nodes are computed here, the others by the
executor. -/
def resolveExecution (tables : JobTables) (node : WorkflowNode) (bindings : Bindings)
    (runs : List WorkflowNodeRun) (reply : ρ) : Except String NodeExecution :=
  match node.kind with
  | .cardinalityBranch branch => do
    let cardinality ← cardinalityFor runs branch.source
    return .completed (.obj [("cardinality", .str (cardinalityText cardinality))]) 0
  | .complete _ => .ok (.completed (.obj []) 0)
  | .composeResult config => do
    let sources ← composeSources env.workflow runs config.sources
    let outcome ← compose config.composition sources (maxVisibleSensitivity env.principal)
    let _ ← tables.recordSensitivityDrop node.id outcome.droppedFields
    return .completed outcome.value 0
  | _ => env.executor node bindings (tables.nodeRunsOf env.workflow.id) reply

def completedWith (run : WorkflowNodeRun) (elapsed : Int32) (output : Json)
    (rowsReturned : Int32) : WorkflowNodeRun :=
  { run with status := .completed, durationMs := some elapsed, outputJson := some output,
             rowsReturned := rowsReturned }

/-- The payload of a waiting node names the workflow, the node, the entity it is
about and the node to resume. -/
def addressClarification (workflow : ExecutionWorkflow) (node : WorkflowNode)
    (clarification : ClarificationPayload) : ClarificationPayload :=
  { clarification with
    workflowId := some workflow.id
    nodeId := some node.id.value
    entityKind := match node.kind with
      | .clarificationInterrupt interrupt =>
        (workflow.node? interrupt.optionSource).bind fun candidate =>
          match candidate.kind with
          | .resolveEntity resolve => some resolve.entityKind
          | _ => none
      | _ => none
    resumeNodeId := match node.kind with
      | .clarificationInterrupt interrupt => some interrupt.resume.value
      | _ => none }

def branchDecision (node : WorkflowNode) (output : Json) : Option String :=
  if node.isCardinalityBranch then (output.get? "cardinality").bind Json.asStr? else none

/-- The end of `execute_node`, once the execution has a result. -/
def settle (tables : JobTables) (node : WorkflowNode) (run : WorkflowNodeRun)
    (execution : Except String NodeExecution) (elapsed : Int32) :
    Except String NodeBatchOutcome × JobTables :=
  match execution with
  | .error message => (.error message, tables)
  | .ok (.completed output rowsReturned) =>
    let persisted := persistedOutput node.inputs output
    match tables.completeNode run persisted rowsReturned elapsed with
    | .error message => (.error message, tables)
    | .ok completed =>
      (.ok (.completed (completedWith run elapsed persisted rowsReturned)
          (branchDecision node output) node.id node.budget.queryCost),
        completed.addBudgetConsumed node.budget.queryCost.toNat (max rowsReturned.toInt 0)
          (max elapsed.toInt 0))
  | .ok (.waiting clarification) =>
    (.ok (.waiting node.id (addressClarification env.workflow node clarification)), tables)
  | .ok .failed => (.ok .failed, tables.failNode run elapsed)

/-- The part of `execute_node` up to the inserted row. -/
def beginTask (tables : JobTables) (runs : List WorkflowNodeRun) (task : NodeTask) (runId : Uuid)
    (now : ℕ) : NodeTask × JobTables :=
  match checkNodePolicy task.node env.principal env.catalog with
  | .error message => ({ task with result := some (.error message) }, tables)
  | .ok () =>
    let run := JobTables.startedRun env.workflow.id task.node.id (nextAttempt runs task.node.id)
      runId now
    -- UNIQUE (job_id, workflow_id, node_id, attempt)
    if tables.nodeRuns.any fun row => decide (row.workflowId = run.workflowId ∧
        row.nodeId = run.nodeId ∧ row.attempt = run.attempt) then
      ({ task with result := some (.error "duplicate workflow node run") }, tables)
    else ({ task with run := some run }, tables.beginNode run)

/-- The part of `execute_node` after the inserted row. -/
def finishTask (tables : JobTables) (runs : List WorkflowNodeRun) (task : NodeTask)
    (run : WorkflowNodeRun) (reply : ρ) (elapsed : Int32) : NodeTask × JobTables :=
  let execution := bindingsFor task.node runs env.principal >>= fun bindings =>
    resolveExecution env tables task.node bindings runs reply
  let (result, after) := settle env tables task.node run execution elapsed
  ({ task with result := some result }, after)

/-- A sibling of a failed node stops at its next await, unless its bindings already
failed. -/
def cancelTask (tables : JobTables) (runs : List WorkflowNodeRun) (task : NodeTask)
    (run : WorkflowNodeRun) (elapsed : Int32) : NodeTask × JobTables :=
  match bindingsFor task.node runs env.principal with
  | .error message => ({ task with result := some (.error message) }, tables)
  | .ok _ => ({ task with result := some (.ok .cancelled) }, tables.failNode run elapsed)

/-- The results of a batch, or the first error among them. -/
def batchResults : List NodeTask → Option (Except String (List NodeBatchOutcome))
  | [] => some (.ok [])
  | task :: rest => do
    let result ← task.result
    let results ← batchResults rest
    return result >>= fun outcome => results.map (outcome :: ·)

def collectCompleted (outcomes : List NodeBatchOutcome) (active : ActiveRun) : ActiveRun :=
  outcomes.foldl (fun state outcome =>
    match outcome with
    | .completed run _ _ queryCost =>
      { state with runs := state.runs ++ [run], consumed := state.consumed.addActual queryCost run }
    | _ => state) active

def recordDecisions (outcomes : List NodeBatchOutcome) (tables : JobTables) : JobTables :=
  outcomes.foldl (fun state outcome =>
    match outcome with
    | .completed _ (some cardinality) nodeId _ => state.recordBranchDecision nodeId cardinality
    | _ => state) tables

def firstWaiting (outcomes : List NodeBatchOutcome) : Option (NodeId × ClarificationPayload) :=
  outcomes.findSome? fun outcome =>
    match outcome with
    | .waiting nodeId clarification => some (nodeId, clarification)
    | _ => none

def anyFailed (outcomes : List NodeBatchOutcome) : Bool :=
  outcomes.any fun outcome =>
    match outcome with
    | .failed | .cancelled => true
    | _ => false

namespace RunnerState

def ended (state : RunnerState) (outcome : Except String WorkflowRunOutcome) : RunnerState :=
  { state with active := none, outcome := some outcome }

/-- The decisions of a batch are recorded whatever else the batch brought. -/
def recorded (state : RunnerState) (outcomes : List NodeBatchOutcome) : RunnerState :=
  { state with tables := recordDecisions outcomes state.tables }

end RunnerState

/-- One turn of the loop head: the call ends or a batch is chosen. -/
def selectStep (state : RunnerState) (active : ActiveRun) : RunnerState :=
  let nodes := runnableNodes env.workflow active.runs
  let batch := selectBatch env.workflow active.runs active.consumed
  if nodes = [] then state.ended (.ok (exhaustedOutcome env.workflow active.runs))
  else if executeOnceRepeated nodes active.runs then
    state.ended (.error "execute-once workflow node reached twice")
  else if batch = [] then state.ended (.ok .failed)
  else
    { state with active := some { active with batch := batch.map fun node => ⟨node, none, none⟩ } }

/-- The end of a batch. A failure ends the call, an interrupt pauses it. -/
def collectStep (state : RunnerState) (active : ActiveRun)
    (results : Except String (List NodeBatchOutcome)) : RunnerState :=
  match results with
  | .error message => state.ended (.error message)
  | .ok outcomes =>
    if anyFailed outcomes then (state.recorded outcomes).ended (.ok .failed)
    else match firstWaiting outcomes with
      | some (nodeId, clarification) =>
        match (state.recorded outcomes).tables.markWorkflowPaused env.principal.userId
            env.workflow.id nodeId clarification with
        | .error message => (state.recorded outcomes).ended (.error message)
        | .ok paused =>
          { state with tables := paused }.ended (.ok (.waitingForUserInput nodeId))
      | none =>
        { state.recorded outcomes with
          active := some { collectCompleted outcomes active with batch := [] } }

/-- Replaces the task at an index together with the tables it wrote. -/
def RunnerState.setTask (state : RunnerState) (active : ActiveRun) (index : ℕ)
    (written : NodeTask × JobTables) : RunnerState :=
  { state with
    tables := written.2
    active := some { active with batch := active.batch.set index written.1 } }

def runnerStep (state : RunnerState) (action : RunnerAction ρ) : Option RunnerState :=
  match action, state.active with
  | .run, none =>
    let runs := state.tables.nodeRunsOf env.workflow.id
    some { state with
      active := some ⟨runs, BudgetTotals.fromCompleted env.workflow runs, []⟩, outcome := none }
  | .select, some active =>
    if active.batch = [] then some (selectStep env state active) else none
  | .begin index runId now, some active =>
    match active.batch[index]? with
    | some task =>
      if task.run = none ∧ task.result.isNone ∧
          ∀ row ∈ state.tables.nodeRuns, row.id ≠ runId then
        some (state.setTask active index (beginTask env state.tables active.runs task runId now))
      else none
    | none => none
  | .finish index reply elapsed, some active =>
    match active.batch[index]? with
    | some task =>
      match task.run, task.result with
      | some run, none =>
        some (state.setTask active index
          (finishTask env state.tables active.runs task run reply elapsed))
      | _, _ => none
    | none => none
  | .cancel index elapsed, some active =>
    match active.batch[index]? with
    | some task =>
      match task.run, task.result with
      | some run, none =>
        if active.batch.any fun other => decide (other.result.isSome) &&
            (match other.result with | some (.ok .failed) => true | _ => false) then
          some (state.setTask active index
            (cancelTask env state.tables active.runs task run elapsed))
        else none
      | _, _ => none
    | none => none
  | .collect, some active =>
    if active.batch = [] then none
    else (batchResults active.batch).map (collectStep env state active)
  | .resume request, _ => some { state with tables := (state.tables.resume request).2 }
  | .stateError index message, some active =>
    match active.batch[index]? with
    | some task =>
      if task.result.isNone then
        some (state.setTask active index
          ({ task with result := some (.error message) }, state.tables))
      else none
    | none => none
  | .auditError index reply elapsed message, some active =>
    match active.batch[index]? with
    | some task =>
      match task.run, task.result with
      | some run, none =>
        some (state.setTask active index ({ task with result := some (.error message) },
          (finishTask env state.tables active.runs task run reply elapsed).2))
      | _, _ => none
    | none => none
  | .collectError message, some active =>
    if active.batch = [] then none
    else (batchResults active.batch).map fun _ => state.ended (.error message)
  | _, _ => none

/-- Calls of `run` on a workflow none of whose nodes has run yet. -/
def runner : Machine RunnerState (RunnerAction ρ) where
  init state := state.active = none ∧ (state.tables.nodeRuns.map (·.id)).Nodup ∧
    ∀ row ∈ state.tables.nodeRuns, row.workflowId ≠ env.workflow.id
  step := runnerStep env

end FineractReports.Workflow
