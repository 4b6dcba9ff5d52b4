import FineractReports.Workflow.RunnerReachable

/-!
# How one step moves a row

A step inserts one running row or moves rows along their life: a running row
fails, completes or waits, and an answered one completes. Which node a step
completes, and what it reports, is read off the action.
-/

namespace FineractReports.Workflow

variable {ρ : Type} (env : RunnerEnv ρ)

/-- What `execute_node` awaits between the inserted row and its settlement. -/
def taskExecution (tables : JobTables) (runs : List WorkflowNodeRun) (task : NodeTask)
    (reply : ρ) : Except String NodeExecution :=
  bindingsFor task.node runs env.principal >>= fun bindings =>
    resolveExecution env tables task.node bindings runs reply

/-- A node that completes, with the output that is kept of it and the rows and
milliseconds it reports. -/
structure Completion where
  node : WorkflowNode
  output : Json
  rows : Int32
  elapsed : Int32
deriving DecidableEq

/-- The completion an action brings, if its task's execution completes. -/
def completionOf (state : RunnerState) : RunnerAction ρ → Option Completion
  | .finish index reply elapsed | .auditError index reply elapsed _ => do
    let active ← state.active
    let task ← active.batch[index]?
    match taskExecution env state.tables active.runs task reply with
    | .ok (.completed output rows) =>
      some ⟨task.node, persistedOutput task.node.inputs output, rows, elapsed⟩
    | _ => none
  | _ => none

variable {env}

/-- What a step makes of a row that is there already. -/
inductive RowStep (env : RunnerEnv ρ) (state : RunnerState) (action : RunnerAction ρ)
    (row : WorkflowNodeRun) : WorkflowNodeRun → Prop
  | kept : RowStep env state action row row
  | failed (hrunning : row.status = .running) (elapsed : Int32) :
      RowStep env state action row { row with status := .failed, durationMs := some elapsed }
  | paused (hrunning : row.status = .running) :
      RowStep env state action row { row with status := .waiting }
  | answered (hwaiting : row.status = .waiting) :
      RowStep env state action row { row with status := .completed }
  | completed {completion : Completion} (hrunning : row.status = .running)
      (hcompletion : completionOf env state action = some completion)
      (hnode : row.nodeId = completion.node.id) :
      RowStep env state action row
        (completedWith row completion.elapsed completion.output completion.rows)

/-- A step's effect on the rows of a job. -/
inductive RowsStep (env : RunnerEnv ρ) (state : RunnerState) (action : RunnerAction ρ)
    (before after : List WorkflowNodeRun) : Prop
  | inserted {node : WorkflowNode} {attempt runId now : ℕ} (hnode : node ∈ env.workflow.nodes)
      (hrows : after = before ++
        [JobTables.startedRun env.workflow.id node.id attempt runId now])
  | moved {update : WorkflowNodeRun → WorkflowNodeRun} (hupdate : RowUpdate update)
      (hrows : after = before.map update)
      (hsteps : ∀ row ∈ before, RowStep env state action row (update row))

section Steps

variable {state : RunnerState} {action : RunnerAction ρ} {tables : JobTables}

theorem RowsStep.same {rows : List WorkflowNodeRun} : RowsStep env state action rows rows :=
  .moved .refl (by simp) fun _ _ => .kept

/-- The conditional updates of the repository move the rows they match. -/
theorem RowsStep.ite {rows : List WorkflowNodeRun} {matching : WorkflowNodeRun → Bool}
    {update : WorkflowNodeRun → WorkflowNodeRun}
    (hblocks : ∀ row, matching row = true → row.blocks = true ∧ row.status ≠ .completed)
    (hkeep : ∀ row, (update row).id = row.id ∧ (update row).workflowId = row.workflowId ∧
      (update row).nodeId = row.nodeId)
    (hsteps : ∀ row ∈ rows, matching row = true → RowStep env state action row (update row)) :
    RowsStep env state action rows
      (rows.map fun row => if matching row then update row else row) := by
  refine .moved (.ite hblocks hkeep) rfl fun row hmem => ?_
  split_ifs with hrow
  · exact hsteps row hmem hrow
  · exact .kept

theorem rowsStep_failNode (run : WorkflowNodeRun) (elapsed : Int32) :
    RowsStep env state action tables.nodeRuns (tables.failNode run elapsed).nodeRuns := by
  refine .ite (fun _ h => isRunningRow_blocks h) (fun _ => ⟨rfl, rfl, rfl⟩) fun row _ hrow => ?_
  simp only [JobTables.isRunningRow, decide_eq_true_eq] at hrow
  exact .failed hrow.2 elapsed

/-- The row a task began is the one its completion moves. -/
theorem rowsStep_completeNode {after : JobTables} {run : WorkflowNodeRun}
    {completion : Completion} (hrows : RowsInv env.workflow.id tables.nodeRuns)
    (hrun : run ∈ tables.nodeRuns) (hnode : run.nodeId = completion.node.id)
    (hcompletion : completionOf env state action = some completion)
    (h : tables.completeNode run completion.output completion.rows completion.elapsed =
      .ok after) : RowsStep env state action tables.nodeRuns after.nodeRuns := by
  unfold JobTables.completeNode at h
  split_ifs at h
  obtain rfl := Except.ok.inj h
  refine .ite (fun _ h => isRunningRow_blocks h) (fun _ => ⟨rfl, rfl, rfl⟩) fun row hmem hrow => ?_
  simp only [JobTables.isRunningRow, decide_eq_true_eq] at hrow
  obtain rfl := hrows.eq_of_id hmem hrun hrow.1
  exact .completed hrow.2 hcompletion hnode

theorem rowsStep_markWorkflowPaused {after : JobTables} {userId workflowId : Uuid}
    {nodeId : NodeId} {clarification : ClarificationPayload}
    (h : tables.markWorkflowPaused userId workflowId nodeId clarification = .ok after) :
    RowsStep env state action tables.nodeRuns after.nodeRuns := by
  unfold JobTables.markWorkflowPaused at h
  split_ifs at h
  obtain rfl := Except.ok.inj h
  refine .ite (fun _ h => isNodeRow_blocks (Or.inl rfl) h) (fun _ => ⟨rfl, rfl, rfl⟩)
    fun row _ hrow => ?_
  simp only [JobTables.isNodeRow, decide_eq_true_eq] at hrow
  exact .paused hrow.2.2

theorem rowsStep_resume (request : WorkflowResumeRequest) :
    RowsStep env state action tables.nodeRuns (tables.resume request).2.nodeRuns := by
  rcases tables.resume_snd request with hafter | hafter
  · rw [hafter]
    refine .ite (fun _ h => isNodeRow_blocks (Or.inr rfl) h) (fun _ => ⟨rfl, rfl, rfl⟩)
      fun row _ hrow => ?_
    simp only [JobTables.isNodeRow, decide_eq_true_eq] at hrow
    exact .answered hrow.2.2
  · rw [hafter]
    exact .same

/-- The end of a task, by what its execution came to. -/
theorem rowsStep_finishTask {active : ActiveRun} {index : ℕ} {task : NodeTask}
    {run : WorkflowNodeRun} {reply : ρ} {elapsed : Int32} (h : RunnerInv env state)
    (hactive : state.active = some active) (htask : active.batch[index]? = some task)
    (hrun : task.run = some run) (hresult : task.result = none)
    (haction : completionOf env state action =
      completionOf env state (.finish index reply elapsed)) :
    RowsStep env state action state.tables.nodeRuns
      (finishTask env state.tables active.runs task run reply elapsed).2.nodeRuns := by
  have htaskInv := (h.call active hactive).tasks task (List.mem_of_getElem? htask)
  obtain ⟨hmem, -, hnode, -⟩ := htaskInv.in_flight run hrun hresult
  have hcompletion : completionOf env state action =
      match taskExecution env state.tables active.runs task reply with
      | .ok (.completed output rows) =>
        some ⟨task.node, persistedOutput task.node.inputs output, rows, elapsed⟩
      | _ => none := by
    rw [haction]
    simp [completionOf, hactive, htask]
  change RowsStep env state action state.tables.nodeRuns (settle env state.tables task.node run
    (taskExecution env state.tables active.runs task reply) elapsed).2.nodeRuns
  unfold settle
  split
  · exact .same
  · rename_i output rows hexecution
    rw [hexecution] at hcompletion
    simp only
    split
    · exact .same
    · rename_i completed hcompleted
      rw [JobTables.addBudgetConsumed_nodeRuns]
      exact rowsStep_completeNode h.rows hmem hnode hcompletion hcompleted
  · exact .same
  · exact rowsStep_failNode run elapsed

theorem rowsStep_cancelTask {active : ActiveRun} {task : NodeTask} {run : WorkflowNodeRun}
    {elapsed : Int32} : RowsStep env state action state.tables.nodeRuns
      (cancelTask env state.tables active.runs task run elapsed).2.nodeRuns := by
  unfold cancelTask
  split
  · exact .same
  · exact rowsStep_failNode run elapsed

theorem CollectEffect.rowsStep {active : ActiveRun} {after : RunnerState}
    {results : Except String (List NodeBatchOutcome)}
    (h : CollectEffect env state active results after) :
    RowsStep env state action state.tables.nodeRuns after.tables.nodeRuns := by
  have hrecorded (outcomes : List NodeBatchOutcome) :
      state.tables.nodeRuns = (state.recorded outcomes).tables.nodeRuns :=
    (recordDecisions_nodeRuns outcomes state.tables).symm
  cases h with
  | error _ => exact .same
  | @failed outcomes _ => exact hrecorded outcomes ▸ .same
  | @refused outcomes _ _ _ _ _ _ => exact hrecorded outcomes ▸ .same
  | @paused outcomes _ _ _ _ _ hpause =>
    exact hrecorded outcomes ▸ rowsStep_markWorkflowPaused hpause
  | @continued outcomes _ _ => exact hrecorded outcomes ▸ .same

/-- Every step inserts one row or moves the rows that are there. -/
theorem RunnerEffect.rowsStep {after : RunnerState} (h : RunnerInv env state)
    (heffect : RunnerEffect env state action after) :
    RowsStep env state action state.tables.nodeRuns after.tables.nodeRuns := by
  cases heffect with
  | started _ => exact .same
  | selected _ _ hselect => cases hselect <;> exact .same
  | @begun active index task runId now hactive htask _ _ _ =>
    have htaskInv := (h.call active hactive).tasks task (List.mem_of_getElem? htask)
    rcases beginTask_cases env state.tables active.runs task runId now with
      ⟨message, hbegin⟩ | ⟨run, hrun, -, hbegin⟩
    · rw [hbegin]
      exact .same
    · rw [hbegin, hrun]
      exact .inserted htaskInv.node_mem rfl
  | finished hactive htask hrun hresult =>
    exact rowsStep_finishTask h hactive htask hrun hresult rfl
  | cancelled _ _ _ _ => exact rowsStep_cancelTask
  | collected _ _ _ hcollect => exact hcollect.rowsStep
  | resumed request => exact rowsStep_resume request
  | stateFailed _ _ _ => exact .same
  | auditFailed hactive htask hrun hresult =>
    exact rowsStep_finishTask h hactive htask hrun hresult rfl
  | collectFailed _ _ _ => exact .same

end Steps

end FineractReports.Workflow
