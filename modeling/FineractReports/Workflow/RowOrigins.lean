import FineractReports.Workflow.RowSteps

/-!
# Where a row comes from

Each row of the state after a step was there before, was inserted for a node of the
batch, or was moved by what happened to its node.
-/

namespace FineractReports.Workflow

variable {ρ : Type} {env : RunnerEnv ρ} {state : RunnerState}

/-- Where a row of the state after a step comes from. -/
inductive RowOrigin (env : RunnerEnv ρ) (state : RunnerState) (after : WorkflowNodeRun) : Prop
  | kept (hrow : after ∈ state.tables.nodeRuns)
  | begun {active task} (hactive : state.active = some active) (htask : task ∈ active.batch)
      (hnode : after.nodeId = task.node.id) (hrunning : after.status = .running)
  | failed {row} (hrow : row ∈ state.tables.nodeRuns) (hnode : after.nodeId = row.nodeId)
      (hworkflow : after.workflowId = row.workflowId) (hfailed : after.status = .failed)
  | paused {active task clarification row} (hactive : state.active = some active)
      (htask : task ∈ active.batch)
      (hresult : task.result = some (.ok (.waiting after.nodeId clarification)))
      (hrow : row ∈ state.tables.nodeRuns) (hnode : after.nodeId = row.nodeId)
      (hworkflow : after.workflowId = row.workflowId) (hwaiting : after.status = .waiting)
  | answered {row} (hrow : row ∈ state.tables.nodeRuns) (hwaiting : row.status = .waiting)
      (hafter : after = { row with status := .completed })
  | completed {active task reply output rows elapsed row} (hactive : state.active = some active)
      (htask : task ∈ active.batch) (hrow : row ∈ state.tables.nodeRuns)
      (hnode : row.nodeId = task.node.id)
      (hexecution : taskExecution env state.tables active.runs task reply =
        .ok (.completed output rows))
      (hafter : after = completedWith row elapsed (persistedOutput task.node.inputs output) rows)

namespace RowOrigin

theorem of_failNode (run : WorkflowNodeRun) (elapsed : Int32) :
    ∀ row ∈ (state.tables.failNode run elapsed).nodeRuns, RowOrigin env state row := by
  intro after hafter
  obtain ⟨row, hrow, rfl⟩ := List.mem_map.mp hafter
  split_ifs
  · exact .failed hrow rfl rfl rfl
  · exact .kept hrow

theorem of_resume (request : WorkflowResumeRequest) :
    ∀ row ∈ (state.tables.resume request).2.nodeRuns, RowOrigin env state row := by
  intro after hafter
  rcases state.tables.resume_snd request with hsame | hsame
  · rw [hsame] at hafter
    obtain ⟨row, hrow, rfl⟩ := List.mem_map.mp hafter
    split_ifs with hmatch
    · simp only [JobTables.isNodeRow, decide_eq_true_eq] at hmatch
      exact .answered hrow hmatch.2.2 rfl
    · exact .kept hrow
  · rw [hsame] at hafter
    exact .kept hafter

theorem of_markWorkflowPaused {active : ActiveRun} {task : NodeTask} {paused : JobTables}
    {outcomes : List NodeBatchOutcome} {userId workflowId : Uuid} {nodeId : NodeId}
    {clarification : ClarificationPayload} (hactive : state.active = some active)
    (htask : task ∈ active.batch)
    (hresult : task.result = some (.ok (.waiting nodeId clarification)))
    (h : (state.recorded outcomes).tables.markWorkflowPaused userId workflowId nodeId
      clarification = .ok paused) : ∀ row ∈ paused.nodeRuns, RowOrigin env state row := by
  intro after hafter
  have hrecorded : (state.recorded outcomes).tables.nodeRuns = state.tables.nodeRuns :=
    recordDecisions_nodeRuns outcomes state.tables
  unfold JobTables.markWorkflowPaused at h
  split_ifs at h
  obtain rfl := Except.ok.inj h
  obtain ⟨row, hrow, rfl⟩ := List.mem_map.mp hafter
  rw [hrecorded] at hrow
  split_ifs with hmatch
  · simp only [JobTables.isNodeRow, decide_eq_true_eq] at hmatch
    obtain ⟨-, rfl, -⟩ := hmatch
    exact .paused hactive htask hresult hrow rfl rfl rfl
  · exact .kept hrow

theorem of_finishTask {active : ActiveRun} {index : ℕ} {task : NodeTask} {run : WorkflowNodeRun}
    {reply : ρ} {elapsed : Int32} (h : RunnerInv env state)
    (hactive : state.active = some active) (htask : active.batch[index]? = some task)
    (hrun : task.run = some run) (hresult : task.result = none) :
    ∀ row ∈ (finishTask env state.tables active.runs task run reply elapsed).2.nodeRuns,
      RowOrigin env state row := by
  have hmem := List.mem_of_getElem? htask
  obtain ⟨hown, -, hnode, -⟩ := ((h.call active hactive).tasks task hmem).in_flight run hrun hresult
  change ∀ row ∈ (settle env state.tables task.node run
    (taskExecution env state.tables active.runs task reply) elapsed).2.nodeRuns,
      RowOrigin env state row
  unfold settle
  split
  · exact fun row hrow => .kept hrow
  · rename_i output rows hexecution
    simp only
    split
    · exact fun row hrow => .kept hrow
    · rename_i completed hcompleted
      intro after hafter
      rw [JobTables.addBudgetConsumed_nodeRuns] at hafter
      unfold JobTables.completeNode at hcompleted
      split_ifs at hcompleted
      obtain rfl := Except.ok.inj hcompleted
      obtain ⟨row, hrow, rfl⟩ := List.mem_map.mp hafter
      split_ifs with hmatch
      · simp only [JobTables.isRunningRow, decide_eq_true_eq] at hmatch
        obtain rfl := h.rows.eq_of_id hrow hown hmatch.1
        exact .completed hactive hmem hrow hnode hexecution rfl
      · exact .kept hrow
  · exact fun row hrow => .kept hrow
  · exact of_failNode run elapsed

theorem of_beginTask {active : ActiveRun} {index : ℕ} {task : NodeTask} {runId : Uuid} {now : ℕ}
    (hactive : state.active = some active) (htask : active.batch[index]? = some task) :
    ∀ row ∈ (beginTask env state.tables active.runs task runId now).2.nodeRuns,
      RowOrigin env state row := by
  rcases beginTask_cases env state.tables active.runs task runId now with
    ⟨message, hbegin⟩ | ⟨run, hrun, -, hbegin⟩
  · rw [hbegin]
    exact fun row hrow => .kept hrow
  · rw [hbegin, hrun]
    intro row hrow
    rcases List.mem_append.mp hrow with hmem | hmem
    · exact .kept hmem
    · obtain rfl := List.mem_singleton.mp hmem
      exact .begun hactive (List.mem_of_getElem? htask) rfl rfl

theorem of_collected {active : ActiveRun} {after : RunnerState}
    {results : Except String (List NodeBatchOutcome)} (hactive : state.active = some active)
    (hresults : batchResults active.batch = some results)
    (h : CollectEffect env state active results after) :
    ∀ row ∈ after.tables.nodeRuns, RowOrigin env state row := by
  have hrecorded (outcomes : List NodeBatchOutcome) :
      ∀ row ∈ (state.recorded outcomes).tables.nodeRuns, RowOrigin env state row := by
    intro row hrow
    apply RowOrigin.kept
    rwa [← recordDecisions_nodeRuns outcomes state.tables]
  cases h with
  | error _ => exact fun row hrow => .kept hrow
  | failed _ => exact hrecorded _
  | refused _ _ _ => exact hrecorded _
  | paused _ hwaiting hpause =>
    obtain ⟨outcome, houtcome, hread⟩ := List.exists_of_findSome?_eq_some hwaiting
    obtain ⟨task, htask, hresult⟩ := (batchResults_ok hresults).2 outcome houtcome
    cases outcome with
    | waiting nodeId clarification =>
      obtain ⟨rfl, rfl⟩ := Prod.mk.inj (Option.some.inj hread)
      exact of_markWorkflowPaused hactive htask hresult hpause
    | completed run decision nodeId cost => cases hread
    | failed => cases hread
    | cancelled => cases hread
  | continued _ _ => exact hrecorded _

end RowOrigin

/-- Every row after a step has its origin in the state before. -/
theorem RunnerEffect.rowOrigin {after : RunnerState} {action : RunnerAction ρ}
    (h : RunnerInv env state) (heffect : RunnerEffect env state action after) :
    ∀ row ∈ after.tables.nodeRuns, RowOrigin env state row := by
  cases heffect with
  | started _ => exact fun row hrow => .kept hrow
  | selected _ _ hselect => cases hselect <;> exact fun row hrow => .kept hrow
  | begun hactive htask _ _ _ => exact .of_beginTask hactive htask
  | finished hactive htask hrun hresult => exact .of_finishTask h hactive htask hrun hresult
  | cancelled _ _ _ _ =>
    simp only [RunnerState.setTask, cancelTask]
    split
    · exact fun row hrow => .kept hrow
    · exact .of_failNode _ _
  | collected hactive _ hresults hcollect => exact .of_collected hactive hresults hcollect
  | resumed request => exact .of_resume request
  | stateFailed _ _ _ => exact fun row hrow => .kept hrow
  | auditFailed hactive htask hrun hresult => exact .of_finishTask h hactive htask hrun hresult
  | collectFailed _ _ _ => exact fun row hrow => .kept hrow

end FineractReports.Workflow
