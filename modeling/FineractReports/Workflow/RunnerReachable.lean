import FineractReports.Workflow.RunnerInvariant

/-!
# The runner's invariant along every run

One lemma a kind of step, assembled into the invariant of all reachable states of
a workflow whose node ids are distinct.
-/

namespace FineractReports.Workflow

variable {ρ : Type} {env : RunnerEnv ρ}

structure RunnerInv (env : RunnerEnv ρ) (state : RunnerState) : Prop where
  rows : RowsInv env.workflow.id state.tables.nodeRuns
  call : ∀ active, state.active = some active → CallInv env state.tables.nodeRuns active

theorem RunnerInv.of_idle {state : RunnerState} (hidle : state.active = none)
    (hrows : RowsInv env.workflow.id state.tables.nodeRuns) : RunnerInv env state where
  rows := hrows
  call active hactive := by simp [hidle] at hactive

theorem runner_init {state : RunnerState} (h : (runner env).init state) : RunnerInv env state := by
  obtain ⟨hidle, hids, hforeign⟩ := h
  refine .of_idle hidle ⟨hids, ?_⟩
  intro a ha b _ hwa
  exact absurd hwa (hforeign a ha)

/-- A call starts from the durable rows, so it has seen every row that blocks. -/
theorem RunnerInv.started {state : RunnerState} (h : RunnerInv env state) {totals : BudgetTotals} :
    RunnerInv env { state with
      active := some ⟨state.tables.nodeRunsOf env.workflow.id, totals, []⟩, outcome := none } where
  rows := h.rows
  call active hactive := by
    obtain rfl := Option.some.inj hactive
    refine ⟨?_, List.nodup_nil, by simp, ?_⟩
    · intro run hrun _
      exact JobTables.mem_nodeRunsOf.mp hrun
    · intro row hrow hworkflow hblocks
      exact Or.inl ⟨row, JobTables.mem_nodeRunsOf.mpr ⟨hrow, hworkflow⟩, rfl, hblocks⟩

theorem mem_runnableNodes {workflow : ExecutionWorkflow} {runs : List WorkflowNodeRun}
    {node : WorkflowNode} : node ∈ runnableNodes workflow runs ↔
      node ∈ workflow.nodes ∧ runnable node workflow runs = true := by
  simp [runnableNodes]

theorem takeWithinBudget_isInitial (budgets : WorkflowBudgets) (projected : BudgetTotals)
    (nodes : List WorkflowNode) : takeWithinBudget budgets projected nodes <+: nodes := by
  induction nodes generalizing projected with
  | nil => exact List.prefix_refl _
  | cons node rest ih =>
    rw [takeWithinBudget]
    split_ifs
    · exact List.nil_prefix
    · exact (List.prefix_cons_inj node).mpr (ih _)

theorem selectBatch_sublist (workflow : ExecutionWorkflow) (runs : List WorkflowNodeRun)
    (consumed : BudgetTotals) :
    (selectBatch workflow runs consumed).Sublist (runnableNodes workflow runs) :=
  (takeWithinBudget_isInitial _ _ _).sublist.trans (List.take_sublist _ _)

theorem selectBatch_ids_nodup {workflow : ExecutionWorkflow} (runs : List WorkflowNodeRun)
    (consumed : BudgetTotals) (hids : (workflow.nodes.map (·.id)).Nodup) :
    ((selectBatch workflow runs consumed).map (·.id)).Nodup :=
  hids.sublist (((selectBatch_sublist workflow runs consumed).trans
    List.filter_sublist).map _)

/-- At the loop head every row that blocks is in the list, so the chosen nodes have
no such row. -/
theorem RunnerInv.selected {state after : RunnerState} {active : ActiveRun}
    (hids : (env.workflow.nodes.map (·.id)).Nodup) (h : RunnerInv env state)
    (hactive : state.active = some active) (hhead : active.batch = [])
    (hselect : SelectEffect env state active after) : RunnerInv env after := by
  have hcall := h.call active hactive
  cases hselect with
  | exhausted _ => exact .of_idle rfl h.rows
  | repeated _ _ => exact .of_idle rfl h.rows
  | starved _ _ => exact .of_idle rfl h.rows
  | chosen _ =>
    refine ⟨h.rows, fun chosen hchosen => ?_⟩
    obtain rfl := Option.some.inj hchosen
    refine ⟨hcall.completed_mem, ?_, ?_, ?_⟩
    · simpa [List.map_map, Function.comp_def] using selectBatch_ids_nodup active.runs
        active.consumed hids
    · intro task htask
      obtain ⟨node, hnode, rfl⟩ := List.mem_map.mp htask
      obtain ⟨hmem, hrunnable⟩ := mem_runnableNodes.mp
        ((selectBatch_sublist _ _ _).subset hnode)
      refine ⟨hmem, hrunnable, ?_, by simp, by simp⟩
      intro _ _ row hrow hworkflow hid
      rw [Bool.eq_false_iff]
      intro hblocks
      rcases hcall.seen row hrow hworkflow hblocks with ⟨run, hrun, hrunId, hrunBlocks⟩ | hbatch
      · have hfree := (runnable_iff.mp hrunnable).1 run hrun (hrunId.trans hid)
        simp [hfree] at hrunBlocks
      · simp [hhead] at hbatch
    · intro row hrow hworkflow hblocks
      rcases hcall.seen row hrow hworkflow hblocks with hrun | hbatch
      · exact Or.inl hrun
      · simp [hhead] at hbatch

/-- A task that got a result without touching the rows. -/
theorem TaskInv.withError {rows runs : List WorkflowNodeRun} {task : NodeTask} {message : String}
    (h : TaskInv env rows runs task) :
    TaskInv env rows runs { task with result := some (.error message) } :=
  ⟨h.node_mem, h.runnable, by simp, by simp, by simp⟩

theorem RunnerInv.withError {state : RunnerState} {active : ActiveRun} {index : ℕ}
    {task : NodeTask} {message : String} (h : RunnerInv env state)
    (hactive : state.active = some active) (htask : active.batch[index]? = some task) :
    RunnerInv env (state.setTask active index
      ({ task with result := some (.error message) }, state.tables)) := by
  have hcall := h.call active hactive
  refine ⟨h.rows, fun call heq => ?_⟩
  obtain rfl := Option.some.inj heq
  exact hcall.setTask htask rfl (hcall.tasks task (List.mem_of_getElem? htask)).withError
    (fun other hother _ => hcall.tasks other hother) hcall.completed_mem hcall.seen

theorem RunnerInv.begun {state : RunnerState} {active : ActiveRun} {index : ℕ} {task : NodeTask}
    {runId : Uuid} {now : ℕ} (h : RunnerInv env state) (hactive : state.active = some active)
    (htask : active.batch[index]? = some task) (hrun : task.run = none)
    (hresult : task.result = none) (hfresh : ∀ row ∈ state.tables.nodeRuns, row.id ≠ runId) :
    RunnerInv env
      (state.setTask active index (beginTask env state.tables active.runs task runId now)) := by
  have hcall := h.call active hactive
  have hinv := hcall.tasks task (List.mem_of_getElem? htask)
  have hfailed : ∀ message : String, RunnerInv env (state.setTask active index
      ({ task with result := some (.error message) }, state.tables)) :=
    fun _ => h.withError hactive htask
  unfold beginTask
  split
  · exact hfailed _
  · rename_i hpolicy
    simp only
    split_ifs
    · exact hfailed _
    · set run := JobTables.startedRun env.workflow.id task.node.id
        (nextAttempt active.runs task.node.id) runId now with hrunDef
      have hrows : RowsInv env.workflow.id (state.tables.nodeRuns ++ [run]) :=
        h.rows.append hfresh (hinv.unstarted hrun hresult)
      refine ⟨hrows, fun call heq => ?_⟩
      obtain rfl := Option.some.inj heq
      refine hcall.setTask htask rfl ⟨hinv.node_mem, hinv.runnable, by simp, ?_, ?_⟩ ?_ ?_ ?_
      · intro own hown _
        obtain rfl : run = own := by simpa using hown
        exact ⟨List.mem_append_right _ (List.mem_singleton_self _), rfl, rfl, rfl, hpolicy⟩
      · intro done decision nodeId cost hdone
        simp [hresult] at hdone
      · intro other hother hne
        exact (hcall.tasks other hother).append (Ne.symm hne)
      · intro done hdone hcompleted
        obtain ⟨hmem, hworkflow⟩ := hcall.completed_mem done hdone hcompleted
        exact ⟨List.mem_append_left _ hmem, hworkflow⟩
      · intro row hrow hworkflow hblocks
        rcases List.mem_append.mp hrow with hrow | hrow
        · exact hcall.seen row hrow hworkflow hblocks
        · obtain rfl := List.mem_singleton.mp hrow
          exact Or.inr ⟨task, List.mem_of_getElem? htask, rfl⟩

/-- A begun task that settles: the rows change by an update of its own row. -/
theorem RunnerInv.settled {state : RunnerState} {active : ActiveRun} {index : ℕ} {task : NodeTask}
    {run : WorkflowNodeRun} {result : Except String NodeBatchOutcome} {after : JobTables}
    {update : WorkflowNodeRun → WorkflowNodeRun} (h : RunnerInv env state)
    (hactive : state.active = some active) (htask : active.batch[index]? = some task)
    (hrun : task.run = some run) (hresult : task.result = none)
    (hupdate : UpdatesRows state.tables after update)
    (hother : ∀ row, row.id ≠ run.id → update row = row)
    (hdone : ∀ done decision nodeId cost, result = .ok (.completed done decision nodeId cost) →
      done ∈ after.nodeRuns ∧ done.status = .completed ∧ done.nodeId = run.nodeId ∧
        done.workflowId = run.workflowId) :
    RunnerInv env (state.setTask active index ({ task with result := some result }, after)) := by
  have hcall := h.call active hactive
  have hinv := hcall.tasks task (List.mem_of_getElem? htask)
  obtain ⟨hmem, -, hnode, hworkflow, -⟩ := hinv.in_flight run hrun hresult
  obtain ⟨hrowUpdate, hrows⟩ := hupdate
  refine ⟨by simpa [RunnerState.setTask, hrows] using h.rows.map hrowUpdate, fun call heq => ?_⟩
  obtain rfl := Option.some.inj heq
  simp only [RunnerState.setTask, hrows] at hdone ⊢
  refine hcall.setTask htask rfl ⟨hinv.node_mem, hinv.runnable, by simp, by simp, ?_⟩ ?_
    (hcall.completed_mem_map hrowUpdate) (hcall.seen_map hrowUpdate)
  · intro done decision nodeId cost heq
    obtain ⟨hd1, hd2, hd3, hd4⟩ := hdone done decision nodeId cost (by simpa using heq)
    exact ⟨hd1, hd2, hd3.trans hnode, hd4.trans hworkflow⟩
  · intro other hotherMem hne
    refine (hcall.tasks other hotherMem).map hrowUpdate fun own hown hpending => hother own ?_
    obtain ⟨hownMem, -, hownNode, -, -⟩ :=
      (hcall.tasks other hotherMem).in_flight own hown hpending
    intro hid
    have := h.rows.eq_of_id hownMem hmem hid
    exact hne (by rw [← hownNode, this, hnode])

theorem RunnerInv.finished {state : RunnerState} {active : ActiveRun} {index : ℕ} {task : NodeTask}
    {run : WorkflowNodeRun} {reply : ρ} {elapsed : Int32} (h : RunnerInv env state)
    (hactive : state.active = some active) (htask : active.batch[index]? = some task)
    (hrun : task.run = some run) (hresult : task.result = none) :
    RunnerInv env (state.setTask active index
      (finishTask env state.tables active.runs task run reply elapsed)) := by
  have hinv := (h.call active hactive).tasks task (List.mem_of_getElem? htask)
  obtain ⟨hmem, hrunning, -⟩ := hinv.in_flight run hrun hresult
  obtain ⟨update, hupdate, hother, hdone⟩ := settle_spec (Eq.refl (settle env state.tables
    task.node run (bindingsFor task.node active.runs env.principal >>= fun bindings =>
      resolveExecution env state.tables task.node bindings active.runs reply) elapsed))
    hmem hrunning
  exact h.settled hactive htask hrun hresult hupdate hother hdone

theorem RunnerInv.auditFailed {state : RunnerState} {active : ActiveRun} {index : ℕ}
    {task : NodeTask} {run : WorkflowNodeRun} {reply : ρ} {elapsed : Int32} {message : String}
    (h : RunnerInv env state) (hactive : state.active = some active)
    (htask : active.batch[index]? = some task) (hrun : task.run = some run)
    (hresult : task.result = none) :
    RunnerInv env (state.setTask active index ({ task with result := some (.error message) },
      (finishTask env state.tables active.runs task run reply elapsed).2)) := by
  have hinv := (h.call active hactive).tasks task (List.mem_of_getElem? htask)
  obtain ⟨hmem, hrunning, -⟩ := hinv.in_flight run hrun hresult
  obtain ⟨update, hupdate, hother, -⟩ := settle_spec (Eq.refl (settle env state.tables
    task.node run (bindingsFor task.node active.runs env.principal >>= fun bindings =>
      resolveExecution env state.tables task.node bindings active.runs reply) elapsed))
    hmem hrunning
  exact h.settled hactive htask hrun hresult hupdate hother (by simp)

theorem RunnerInv.cancelled {state : RunnerState} {active : ActiveRun} {index : ℕ}
    {task : NodeTask} {run : WorkflowNodeRun} {elapsed : Int32} (h : RunnerInv env state)
    (hactive : state.active = some active) (htask : active.batch[index]? = some task)
    (hrun : task.run = some run) (hresult : task.result = none) :
    RunnerInv env (state.setTask active index
      (cancelTask env state.tables active.runs task run elapsed)) := by
  unfold cancelTask
  split
  · exact h.settled hactive htask hrun hresult (.refl _) (fun _ _ => rfl) (by simp)
  · obtain ⟨update, hupdate, hother⟩ := failNode_updatesRows state.tables run elapsed
    exact h.settled hactive htask hrun hresult hupdate hother (by simp)

/-- The results of a batch stand in the order of its tasks. -/
theorem batchResults_forall₂ {batch : List NodeTask} {outcomes : List NodeBatchOutcome}
    (h : batchResults batch = some (.ok outcomes)) :
    List.Forall₂ (fun task outcome => task.result = some (.ok outcome)) batch outcomes := by
  induction batch generalizing outcomes with
  | nil =>
    obtain rfl : [] = outcomes := by simpa [batchResults] using h
    exact .nil
  | cons task rest ih =>
    simp only [batchResults, Option.bind_eq_bind, Option.bind_eq_some_iff, Option.some.injEq,
      Option.pure_def] at h
    obtain ⟨result, hresult, results, hresults, hjoin⟩ := h
    simp only [bind_eq_ok_iff] at hjoin
    obtain ⟨outcome, rfl, hmap⟩ := hjoin
    cases results with
    | error message => simp [Except.map] at hmap
    | ok others =>
      obtain rfl : outcome :: others = outcomes := by simpa [Except.map] using hmap
      exact .cons hresult (ih hresults)

theorem batchResults_ok {batch : List NodeTask} {outcomes : List NodeBatchOutcome}
    (h : batchResults batch = some (.ok outcomes)) :
    (∀ task ∈ batch, ∃ outcome ∈ outcomes, task.result = some (.ok outcome)) ∧
      ∀ outcome ∈ outcomes, ∃ task ∈ batch, task.result = some (.ok outcome) := by
  have hresults := batchResults_forall₂ h
  clear h
  induction hresults with
  | nil => simp
  | @cons task outcome rest others hresult _ ih =>
    obtain ⟨hall, hback⟩ := ih
    constructor
    · intro other hother
      rcases List.mem_cons.mp hother with rfl | hother
      · exact ⟨outcome, List.mem_cons_self, hresult⟩
      · obtain ⟨o, ho, heq⟩ := hall other hother
        exact ⟨o, List.mem_cons_of_mem _ ho, heq⟩
    · intro o ho
      rcases List.mem_cons.mp ho with rfl | ho
      · exact ⟨task, List.mem_cons_self, hresult⟩
      · obtain ⟨other, hother, heq⟩ := hback o ho
        exact ⟨other, List.mem_cons_of_mem _ hother, heq⟩

/-- The run of a completed outcome. -/
def completedRun? : NodeBatchOutcome → Option WorkflowNodeRun
  | .completed run _ _ _ => some run
  | _ => none

theorem collectCompleted_runs (outcomes : List NodeBatchOutcome) (active : ActiveRun) :
    (collectCompleted outcomes active).runs = active.runs ++ outcomes.filterMap completedRun? := by
  induction outcomes generalizing active with
  | nil => simp [collectCompleted]
  | cons outcome rest ih =>
    rw [collectCompleted, List.foldl_cons]
    refine (ih _).trans ?_
    cases outcome <;> simp [List.filterMap_cons, completedRun?]

/-- The runs a batch adds to the list are those of its completed outcomes. -/
theorem mem_collectCompleted {outcomes : List NodeBatchOutcome} {active : ActiveRun}
    {run : WorkflowNodeRun} : run ∈ (collectCompleted outcomes active).runs ↔
      run ∈ active.runs ∨ ∃ decision nodeId cost,
        .completed run decision nodeId cost ∈ outcomes := by
  rw [collectCompleted_runs, List.mem_append, List.mem_filterMap]
  constructor
  · rintro (hrun | ⟨outcome, hmem, hsome⟩)
    · exact Or.inl hrun
    · cases outcome with
      | completed done decision nodeId cost =>
        obtain rfl : done = run := Option.some.inj hsome
        exact Or.inr ⟨decision, nodeId, cost, hmem⟩
      | waiting nodeId clarification => cases hsome
      | failed => cases hsome
      | cancelled => cases hsome
  · rintro (hrun | ⟨decision, nodeId, cost, hmem⟩)
    · exact Or.inl hrun
    · exact Or.inr ⟨_, hmem, rfl⟩

/-- A batch the call goes on after has only completed outcomes. -/
theorem outcome_completed {outcomes : List NodeBatchOutcome} (hfailed : anyFailed outcomes = false)
    (hwaiting : firstWaiting outcomes = none) {outcome : NodeBatchOutcome}
    (hmem : outcome ∈ outcomes) : ∃ run decision nodeId cost,
      outcome = .completed run decision nodeId cost := by
  have hnot := List.any_eq_false.mp hfailed outcome hmem
  have hfree := List.findSome?_eq_none_iff.mp hwaiting outcome hmem
  cases outcome with
  | completed run decision nodeId cost => exact ⟨run, decision, nodeId, cost, rfl⟩
  | waiting nodeId clarification => simp at hfree
  | failed => simp at hnot
  | cancelled => simp at hnot

theorem RunnerInv.collected {state after : RunnerState} {active : ActiveRun}
    {results : Except String (List NodeBatchOutcome)} (h : RunnerInv env state)
    (hactive : state.active = some active) (hresults : batchResults active.batch = some results)
    (hcollect : CollectEffect env state active results after) : RunnerInv env after := by
  have hcall := h.call active hactive
  cases hcollect with
  | error _ => exact .of_idle rfl h.rows
  | failed _ => exact .of_idle rfl (by simpa [RunnerState.ended, RunnerState.recorded] using h.rows)
  | refused _ _ _ =>
    exact .of_idle rfl (by simpa [RunnerState.ended, RunnerState.recorded] using h.rows)
  | paused _ _ hpause =>
    obtain ⟨update, hupdate, hrows⟩ := markWorkflowPaused_updatesRows hpause
    refine .of_idle rfl ?_
    simpa [RunnerState.ended, RunnerState.recorded, hrows] using h.rows.map hupdate
  | continued hfailed hwaiting =>
    obtain ⟨hall, hback⟩ := batchResults_ok hresults
    refine ⟨by simpa [RunnerState.recorded] using h.rows, fun call heq => ?_⟩
    obtain rfl := Option.some.inj heq
    simp only [RunnerState.recorded, recordDecisions_nodeRuns]
    refine ⟨?_, List.nodup_nil, by simp, ?_⟩
    · intro run hrun hdone
      rcases mem_collectCompleted.mp hrun with hrun | ⟨decision, nodeId, cost, hmem⟩
      · exact hcall.completed_mem run hrun hdone
      · obtain ⟨task, htask, heq⟩ := hback _ hmem
        obtain ⟨hrow, -, -, hworkflow⟩ := (hcall.tasks task htask).finished _ _ _ _ heq
        exact ⟨hrow, hworkflow⟩
    · intro row hrow hworkflow hblocks
      rcases hcall.seen row hrow hworkflow hblocks with ⟨run, hrun, hid⟩ | ⟨task, htask, hid⟩
      · exact Or.inl ⟨run, mem_collectCompleted.mpr (Or.inl hrun), hid⟩
      · obtain ⟨outcome, hmem, heq⟩ := hall task htask
        obtain ⟨run, decision, nodeId, cost, rfl⟩ := outcome_completed hfailed hwaiting hmem
        obtain ⟨-, hdone, hnode, -⟩ := (hcall.tasks task htask).finished _ _ _ _ heq
        refine Or.inl ⟨run, mem_collectCompleted.mpr (Or.inr ⟨_, _, _, hmem⟩), ?_, ?_⟩
        · rw [hnode, hid]
        · simp [WorkflowNodeRun.blocks, hdone]

theorem RunnerInv.resumed {state : RunnerState} (h : RunnerInv env state)
    (request : WorkflowResumeRequest) :
    RunnerInv env { state with tables := (state.tables.resume request).2 } := by
  obtain ⟨update, ⟨hupdate, hrows⟩, hrunning⟩ := resume_updatesRows state.tables request
  refine ⟨by simpa [hrows] using h.rows.map hupdate, fun active hactive => ?_⟩
  have hcall := h.call active hactive
  simp only [hrows]
  refine ⟨hcall.completed_mem_map hupdate, hcall.tasks_nodup, fun task htask => ?_,
    hcall.seen_map hupdate⟩
  refine (hcall.tasks task htask).map hupdate fun own hown hpending => hrunning own ?_
  exact ((hcall.tasks task htask).in_flight own hown hpending).2.1

theorem RunnerInv.effect {state after : RunnerState} {action : RunnerAction ρ}
    (hids : (env.workflow.nodes.map (·.id)).Nodup) (h : RunnerInv env state)
    (heffect : RunnerEffect env state action after) : RunnerInv env after := by
  cases heffect with
  | started _ => exact h.started
  | selected hactive hhead hselect => exact h.selected hids hactive hhead hselect
  | begun hactive htask hrun hresult hfresh => exact h.begun hactive htask hrun hresult hfresh
  | finished hactive htask hrun hresult => exact h.finished hactive htask hrun hresult
  | cancelled hactive htask hrun hresult => exact h.cancelled hactive htask hrun hresult
  | collected hactive _ hresults hcollect => exact h.collected hactive hresults hcollect
  | resumed request => exact h.resumed request
  | stateFailed hactive htask _ => exact h.withError hactive htask
  | auditFailed hactive htask hrun hresult => exact h.auditFailed hactive htask hrun hresult
  | collectFailed _ _ _ => exact .of_idle rfl h.rows

/-- The invariant holds in every state the runner reaches. -/
theorem runner_reachable {state : RunnerState} (hids : (env.workflow.nodes.map (·.id)).Nodup)
    (h : (runner env).Reachable state) : RunnerInv env state :=
  h.invariant (fun _ => runner_init) fun _ _ _ hinv _ hstep =>
    hinv.effect hids (runnerStep_effect hstep)

end FineractReports.Workflow
