import FineractReports.Workflow.BudgetAdmission

/-!
# Safety and termination of a call

Every batch a call goes on after completes all of its nodes, so the number of
nodes it has not completed bounds the batches it can still start. A batch with a
failed or cancelled node is the last one.
-/

namespace FineractReports.Workflow

variable {ρ : Type} {env : RunnerEnv ρ}

/-- The nodes a list of runs does not count as completed. -/
def openNodes (workflow : ExecutionWorkflow) (runs : List WorkflowNodeRun) : List WorkflowNode :=
  workflow.nodes.filter fun node => node.id ∉ completedIds runs

def NodeTask.stopped (task : NodeTask) : Bool :=
  match task.result with
  | some (.ok .failed) | some (.ok .cancelled) => true
  | _ => false

/-- Some node of the current batch has failed or was cancelled. -/
def ActiveRun.stopped (active : ActiveRun) : Bool := active.batch.any NodeTask.stopped

/-- Does the action put a batch on its way? -/
def startsBatch (action : RunnerAction ρ) (after : RunnerState) : Bool :=
  match action with
  | .select => after.active.any fun active => !active.batch.isEmpty
  | _ => false

/-- The batches the call in progress starts along a list of actions. -/
def batchesStarted (env : RunnerEnv ρ) (state : RunnerState) : List (RunnerAction ρ) → ℕ
  | [] => 0
  | action :: rest =>
    if state.active.isNone then 0
    else match runnerStep env state action with
      | some after =>
        (if startsBatch action after then 1 else 0) + batchesStarted env after rest
      | none => 0

/-- A bound on the batches the call in progress can still start. -/
def batchesLeft (workflow : ExecutionWorkflow) (state : RunnerState) : ℕ :=
  match state.active with
  | none => 0
  | some active =>
    if active.batch = [] then (openNodes workflow active.runs).length
    else if active.stopped then 0
    else (openNodes workflow active.runs).length - 1

section Measure

variable {state after : RunnerState} {active : ActiveRun} {action : RunnerAction ρ}

theorem mem_openNodes {workflow : ExecutionWorkflow} {runs : List WorkflowNodeRun}
    {node : WorkflowNode} :
    node ∈ openNodes workflow runs ↔ node ∈ workflow.nodes ∧ node.id ∉ completedIds runs := by
  simp [openNodes]

theorem openNodes_of_runnable {workflow : ExecutionWorkflow} {runs : List WorkflowNodeRun}
    {node : WorkflowNode} (hmem : node ∈ workflow.nodes)
    (h : runnable node workflow runs = true) : node ∈ openNodes workflow runs := by
  refine mem_openNodes.mpr ⟨hmem, fun hdone => ?_⟩
  obtain ⟨run, hrun, hid, hstatus⟩ := mem_completedIds.mp hdone
  have hfree := (runnable_iff.mp h).1 run hrun hid
  simp [WorkflowNodeRun.blocks, hstatus] at hfree

/-- A batch the call goes on after leaves its nodes completed. -/
theorem openNodes_collectCompleted {rows : List WorkflowNodeRun}
    {outcomes : List NodeBatchOutcome} (hids : (env.workflow.nodes.map (·.id)).Nodup)
    (hcall : CallInv env rows active) (hresults : batchResults active.batch = some (.ok outcomes))
    (hfailed : anyFailed outcomes = false) (hwaiting : firstWaiting outcomes = none) :
    (openNodes env.workflow (collectCompleted outcomes active).runs).length +
      active.batch.length ≤ (openNodes env.workflow active.runs).length := by
  have hnodes : env.workflow.nodes.Nodup := hids.of_map
  have hdone : ∀ task ∈ active.batch,
      task.node.id ∈ completedIds (collectCompleted outcomes active).runs := by
    intro task htask
    obtain ⟨outcome, hmem, hresult⟩ := (batchResults_ok hresults).1 task htask
    obtain ⟨run, decision, nodeId, cost, rfl⟩ := outcome_completed hfailed hwaiting hmem
    obtain ⟨-, hstatus, hid, -⟩ := (hcall.tasks task htask).finished _ _ _ _ hresult
    exact mem_completedIds.mpr
      ⟨run, mem_collectCompleted.mpr (Or.inr ⟨_, _, _, hmem⟩), hid, hstatus⟩
  have hsubperm : (openNodes env.workflow (collectCompleted outcomes active).runs ++
      active.batch.map (·.node)).Subperm (openNodes env.workflow active.runs) := by
    refine List.subperm_of_subset (List.nodup_append.mpr ⟨hnodes.filter _, ?_, ?_⟩) ?_
    · exact List.Nodup.of_map (·.id) (by simpa [Function.comp_def] using hcall.tasks_nodup)
    · rintro node hopen _ hbatch rfl
      obtain ⟨task, htask, rfl⟩ := List.mem_map.mp hbatch
      exact (mem_openNodes.mp hopen).2 (hdone task htask)
    · intro node hnode
      rcases List.mem_append.mp hnode with hopen | hbatch
      · obtain ⟨hmem, hpending⟩ := mem_openNodes.mp hopen
        refine mem_openNodes.mpr ⟨hmem, fun hold => hpending ?_⟩
        rw [collectCompleted_runs, completedIds_append]
        exact List.mem_append_left _ hold
      · obtain ⟨task, htask, rfl⟩ := List.mem_map.mp hbatch
        exact openNodes_of_runnable (hcall.tasks task htask).node_mem
          (hcall.tasks task htask).runnable
  simpa using hsubperm.length_le

/-- A task that has no result yet can be replaced without undoing a failure. -/
theorem stopped_setTask {index : ℕ} {task task' : NodeTask}
    (htask : active.batch[index]? = some task) (hresult : task.result = none)
    (h : active.stopped = true) :
    ActiveRun.stopped { active with batch := active.batch.set index task' } = true := by
  obtain ⟨other, hother, hstopped⟩ := List.any_eq_true.mp h
  refine List.any_eq_true.mpr ⟨other, mem_set_of_ne hother htask ?_, hstopped⟩
  rintro rfl
  simp [NodeTask.stopped, hresult] at hstopped

theorem batchesLeft_setTask {workflow : ExecutionWorkflow} {index : ℕ} {task : NodeTask}
    {written : NodeTask × JobTables} (hactive : state.active = some active)
    (htask : active.batch[index]? = some task) (hresult : task.result = none) :
    batchesLeft workflow (state.setTask active index written) ≤ batchesLeft workflow state := by
  have hbatch : active.batch ≠ [] := by
    rintro hnil
    simp [hnil] at htask
  simp only [batchesLeft, RunnerState.setTask, hactive, List.set_eq_nil_iff, hbatch, if_false]
  by_cases hstopped : active.stopped = true
  · simp [stopped_setTask htask hresult hstopped]
  · rw [if_neg hstopped]
    split_ifs <;> omega

/-- A batch with a stopped node ends the call. -/
theorem anyFailed_of_stopped {outcomes : List NodeBatchOutcome}
    (hresults : batchResults active.batch = some (.ok outcomes)) (h : active.stopped = true) :
    anyFailed outcomes = true := by
  obtain ⟨task, htask, hstopped⟩ := List.any_eq_true.mp h
  obtain ⟨outcome, hmem, hresult⟩ := (batchResults_ok hresults).1 task htask
  refine List.any_eq_true.mpr ⟨outcome, hmem, ?_⟩
  cases outcome <;> simp_all [NodeTask.stopped]

/-- A step of a call in progress uses up the batch it starts. -/
theorem batchesLeft_step (hids : (env.workflow.nodes.map (·.id)).Nodup)
    (hinv : RunnerInv env state) (hcalling : state.active ≠ none)
    (heffect : RunnerEffect env state action after) :
    (if startsBatch action after then 1 else 0) + batchesLeft env.workflow after ≤
      batchesLeft env.workflow state := by
  cases heffect with
  | started hidle => exact absurd hidle hcalling
  | @selected active _ hactive hhead hselect =>
    have hbound : batchesLeft env.workflow state =
        (openNodes env.workflow active.runs).length := by
      simp [batchesLeft, hactive, hhead]
    rw [hbound]
    cases hselect with
    | chosen hchosen =>
      obtain ⟨node, hnode⟩ := List.exists_mem_of_ne_nil _ hchosen
      obtain ⟨hmem, hrunnable⟩ := mem_runnableNodes.mp ((selectBatch_sublist _ _ _).subset hnode)
      have hopen := List.length_pos_of_mem (openNodes_of_runnable hmem hrunnable)
      have hfresh : ∀ nodes : List WorkflowNode, ActiveRun.stopped { active with
          batch := nodes.map fun node => ⟨node, none, none⟩ } = false := by
        simp [ActiveRun.stopped, NodeTask.stopped]
      have hstarts : (selectBatch env.workflow active.runs active.consumed).isEmpty = false := by
        simpa using hchosen
      simp only [startsBatch, batchesLeft, Option.any_some, List.map_eq_nil_iff, hchosen, hfresh,
        List.isEmpty_map, hstarts, Bool.not_false, Bool.false_eq_true, if_true, if_false]
      omega
    | _ => simp [startsBatch, batchesLeft, RunnerState.ended]
  | begun hactive htask _ hresult _ =>
    simpa [startsBatch] using batchesLeft_setTask hactive htask hresult
  | finished hactive htask _ hresult =>
    simpa [startsBatch] using batchesLeft_setTask hactive htask hresult
  | cancelled hactive htask _ hresult =>
    simpa [startsBatch] using batchesLeft_setTask hactive htask hresult
  | @collected active results _ hactive hbatch hresults hcollect =>
    cases hcollect with
    | continued hfailed hwaiting =>
      have hopen := openNodes_collectCompleted hids (hinv.call active hactive) hresults hfailed
        hwaiting
      have hpos := List.length_pos_of_ne_nil hbatch
      have hstopped : ¬ active.stopped = true := fun h => by
        simp [anyFailed_of_stopped hresults h] at hfailed
      simp only [startsBatch, batchesLeft, hactive, hbatch, hstopped, Bool.false_eq_true, if_true,
        if_false]
      omega
    | _ => simp [startsBatch, batchesLeft, RunnerState.ended]
  | resumed request => simp [startsBatch, batchesLeft]
  | stateFailed hactive htask hresult =>
    simpa [startsBatch] using batchesLeft_setTask hactive htask hresult
  | auditFailed hactive htask _ hresult =>
    simpa [startsBatch] using batchesLeft_setTask hactive htask hresult
  | collectFailed _ _ _ => simp [startsBatch, batchesLeft, RunnerState.ended]

theorem batchesStarted_le (hids : (env.workflow.nodes.map (·.id)).Nodup)
    (hinv : RunnerInv env state) (actions : List (RunnerAction ρ)) :
    batchesStarted env state actions ≤ batchesLeft env.workflow state := by
  induction actions generalizing state with
  | nil => exact Nat.zero_le _
  | cons action rest ih =>
    rw [batchesStarted]
    split_ifs with hidle
    · exact Nat.zero_le _
    · split
      · rename_i after hstep
        have heffect := runnerStep_effect hstep
        have hrest := ih (hinv.effect hids heffect)
        exact le_trans (Nat.add_le_add_left hrest _)
          (batchesLeft_step hids hinv (by simpa using hidle) heffect)
      · exact Nat.zero_le _

end Measure

/-- A batch holds one node at least allowed, and no more than may run in parallel. -/
theorem batch_length_reachable {state : RunnerState} (h : (runner env).Reachable state) :
    ∀ active, state.active = some active →
      active.batch.length ≤ max 1 env.workflow.budgets.maxParallelQueries.toNat := by
  refine Machine.ReachableVia.invariant (P := fun s : RunnerState => ∀ active,
    s.active = some active →
      active.batch.length ≤ max 1 env.workflow.budgets.maxParallelQueries.toNat)
    (fun s hinit => by simp [hinit.1]) (fun s a s' hlength _ hstep => ?_) h
  have hset : ∀ {active : ActiveRun} {index : ℕ} {written : NodeTask × JobTables},
      s.active = some active → ∀ call, (s.setTask active index written).active = some call →
        call.batch.length ≤ max 1 env.workflow.budgets.maxParallelQueries.toNat := by
    intro active index written hactive call hcall
    obtain rfl := Option.some.inj hcall
    simpa using hlength active hactive
  intro call hcall
  cases runnerStep_effect hstep with
  | started _ =>
    obtain rfl := Option.some.inj hcall
    simp
  | selected _ _ hselect =>
    cases hselect with
    | chosen _ =>
      obtain rfl := Option.some.inj hcall
      rw [List.length_map, max_comm]
      exact (takeWithinBudget_isInitial _ _ _).length_le.trans (List.length_take_le _ _)
    | _ => cases hcall
  | begun hactive _ _ _ _ => exact hset hactive call hcall
  | finished hactive _ _ _ => exact hset hactive call hcall
  | cancelled hactive _ _ _ => exact hset hactive call hcall
  | collected _ _ _ hcollect =>
    cases hcollect with
    | continued _ _ =>
      obtain rfl := Option.some.inj hcall
      simp
    | _ => cases hcall
  | resumed _ => exact hlength call hcall
  | stateFailed hactive _ _ => exact hset hactive call hcall
  | auditFailed hactive _ _ _ => exact hset hactive call hcall
  | collectFailed _ _ _ => cases hcall

/-- A call starts no more batches than the workflow has nodes, no node completes twice
over the original call and every resumed one, no batch is too wide, and a batch with a
failed or cancelled node is followed by none. -/
theorem scheduler_safe {state : RunnerState} (hids : (env.workflow.nodes.map (·.id)).Nodup)
    (hreach : (runner env).Reachable state) :
    (∀ actions, batchesStarted env state actions ≤ env.workflow.nodes.length) ∧
    ((state.tables.nodeRuns.filter fun row =>
      row.workflowId = env.workflow.id ∧ row.status = .completed).map (·.nodeId)).Nodup ∧
    ∀ active, state.active = some active →
      active.batch.length ≤ max 1 env.workflow.budgets.maxParallelQueries.toNat ∧
      (active.stopped = true → ∀ actions, batchesStarted env state actions = 0) := by
  have hinv := runner_reachable hids hreach
  refine ⟨fun actions => ?_, ?_,
    fun active hactive => ⟨batch_length_reachable hreach active hactive,
    fun hstopped actions => ?_⟩⟩
  · refine (batchesStarted_le hids hinv actions).trans ?_
    unfold batchesLeft
    split
    · exact Nat.zero_le _
    · rename_i active _
      have hopen : (openNodes env.workflow active.runs).length ≤ env.workflow.nodes.length :=
        List.length_filter_le _ _
      split_ifs <;> omega
  · refine List.Nodup.map_on ?_ (hinv.rows.ids_nodup.of_map.filter _)
    intro a ha b hb hid
    simp only [List.mem_filter, decide_eq_true_eq] at ha hb
    exact hinv.rows.done_unique ha hb hid
  · have hbatch : active.batch ≠ [] := by
      rintro hnil
      simp [ActiveRun.stopped, hnil] at hstopped
    have hbound := batchesStarted_le hids hinv actions
    simpa [batchesLeft, hactive, hbatch, hstopped] using hbound

namespace Bypass

/-- The probe fails. -/
def failing : List (RunnerAction NodeExecution) :=
  [.run, .select, .begin 0 11 1, .finish 0 .failed 5]

end Bypass

theorem scheduler_safe_after_failure : ∃ state active, (runner Bypass.setup).Reachable state ∧
    state.active = some active ∧ active.batch.length ≤ 2 ∧
    ∀ actions, batchesStarted Bypass.setup state actions = 0 := by
  have hrun : ((runner Bypass.setup).run Bypass.start Bypass.failing).any
      (fun state => state.active.any ActiveRun.stopped) = true := by decide
  obtain ⟨state, hreach, htest⟩ := Bypass.start_reachable.exists_of_run hrun
  obtain ⟨active, hactive, hstopped⟩ := (Option.any_eq_true _ _).mp htest
  obtain ⟨-, -, hcall⟩ := scheduler_safe (by decide) hreach
  obtain ⟨hlength, hnone⟩ := hcall active hactive
  exact ⟨state, active, hreach, hactive, hlength, hnone hstopped⟩

end FineractReports.Workflow
