import FineractReports.Workflow.Runner

/-!
# What every state of the runner satisfies

The rows of a job keep their identity while their status moves, a node never has
two rows that block it, and the list of runs a call keeps in memory agrees with
the durable rows on everything completed. Each step of the machine is inverted
once; the invariants are read off the inversion.
-/

namespace FineractReports.Workflow

/-- A change of rows that keeps their identity, frees nodes but never blocks one,
and leaves completed rows alone. -/
structure RowUpdate (update : WorkflowNodeRun → WorkflowNodeRun) : Prop where
  id_eq : ∀ row, (update row).id = row.id
  workflowId_eq : ∀ row, (update row).workflowId = row.workflowId
  nodeId_eq : ∀ row, (update row).nodeId = row.nodeId
  blocks_of : ∀ row, (update row).blocks = true → row.blocks = true
  completed_fixed : ∀ row, row.status = .completed → update row = row

namespace RowUpdate

theorem refl : RowUpdate fun row => row :=
  ⟨fun _ => rfl, fun _ => rfl, fun _ => rfl, fun _ h => h, fun _ _ => rfl⟩

/-- The conditional updates of the repository: only rows in the `from` status, which
blocks and is not final, are touched, and only in fields other than the identity. -/
theorem ite {matching : WorkflowNodeRun → Bool} {update : WorkflowNodeRun → WorkflowNodeRun}
    (hblocks : ∀ row, matching row = true → row.blocks = true ∧ row.status ≠ .completed)
    (hkeep : ∀ row, (update row).id = row.id ∧ (update row).workflowId = row.workflowId ∧
      (update row).nodeId = row.nodeId) :
    RowUpdate fun row => if matching row then update row else row where
  id_eq row := by split_ifs; exacts [(hkeep row).1, rfl]
  workflowId_eq row := by split_ifs; exacts [(hkeep row).2.1, rfl]
  nodeId_eq row := by split_ifs; exacts [(hkeep row).2.2, rfl]
  blocks_of row := by
    split_ifs with h
    · exact fun _ => (hblocks row h).1
    · exact fun hrow => hrow
  completed_fixed row hrow := by
    split_ifs with h
    · exact absurd hrow (hblocks row h).2
    · rfl

end RowUpdate

theorem isRunningRow_blocks {runId : Uuid} {row : WorkflowNodeRun}
    (h : JobTables.isRunningRow runId row = true) :
    row.blocks = true ∧ row.status ≠ .completed := by
  simp only [JobTables.isRunningRow, decide_eq_true_eq] at h
  simp [WorkflowNodeRun.blocks, h.2]

theorem isNodeRow_blocks {workflowId : Uuid} {nodeId : NodeId} {status : NodeRunStatus}
    {row : WorkflowNodeRun} (hstatus : status = .running ∨ status = .waiting)
    (h : JobTables.isNodeRow workflowId nodeId status row = true) :
    row.blocks = true ∧ row.status ≠ .completed := by
  simp only [JobTables.isNodeRow, decide_eq_true_eq] at h
  rcases hstatus with rfl | rfl <;> simp [WorkflowNodeRun.blocks, h.2.2]

/-- The durable effect of a repository call: a row update, nothing else about rows. -/
def UpdatesRows (before after : JobTables) (update : WorkflowNodeRun → WorkflowNodeRun) : Prop :=
  RowUpdate update ∧ after.nodeRuns = before.nodeRuns.map update

theorem UpdatesRows.refl (tables : JobTables) : UpdatesRows tables tables fun row => row :=
  ⟨.refl, by simp⟩

theorem failNode_updatesRows (tables : JobTables) (run : WorkflowNodeRun) (elapsed : Int32) :
    ∃ update, UpdatesRows tables (tables.failNode run elapsed) update ∧
      ∀ row, row.id ≠ run.id → update row = row := by
  refine ⟨_, ⟨?_, rfl⟩, fun row hrow => by simp [JobTables.isRunningRow, hrow]⟩
  exact .ite (fun _ h => isRunningRow_blocks h) fun _ => ⟨rfl, rfl, rfl⟩

theorem completeNode_updatesRows {tables after : JobTables} {run : WorkflowNodeRun} {output : Json}
    {rowsReturned elapsed : Int32}
    (h : tables.completeNode run output rowsReturned elapsed = .ok after) :
    ∃ update, UpdatesRows tables after update ∧ (∀ row, row.id ≠ run.id → update row = row) ∧
      (run.status = .running → update run = completedWith run elapsed output rowsReturned) := by
  unfold JobTables.completeNode at h
  split_ifs at h
  obtain rfl := Except.ok.inj h
  refine ⟨_, ⟨?_, rfl⟩, fun row hrow => by simp [JobTables.isRunningRow, hrow], fun hrun => ?_⟩
  · exact .ite (fun _ h => isRunningRow_blocks h) fun _ => ⟨rfl, rfl, rfl⟩
  · simp [JobTables.isRunningRow, hrun, completedWith]

theorem markWorkflowPaused_updatesRows {tables after : JobTables} {userId workflowId : Uuid}
    {nodeId : NodeId} {clarification : ClarificationPayload}
    (h : tables.markWorkflowPaused userId workflowId nodeId clarification = .ok after) :
    ∃ update, UpdatesRows tables after update := by
  unfold JobTables.markWorkflowPaused at h
  split_ifs at h
  obtain rfl := Except.ok.inj h
  refine ⟨_, ?_, rfl⟩
  exact .ite (fun _ h => isNodeRow_blocks (Or.inl rfl) h) fun _ => ⟨rfl, rfl, rfl⟩

@[simp] theorem recordDecisions_nodeRuns (outcomes : List NodeBatchOutcome) (tables : JobTables) :
    (recordDecisions outcomes tables).nodeRuns = tables.nodeRuns := by
  induction outcomes generalizing tables with
  | nil => rfl
  | cons outcome rest ih =>
    rw [recordDecisions, List.foldl_cons]
    refine (ih _).trans ?_
    split <;> rfl

theorem resume_updatesRows (tables : JobTables) (request : WorkflowResumeRequest) :
    ∃ update, UpdatesRows tables (tables.resume request).2 update ∧
      ∀ row, row.status = .running → update row = row := by
  rcases tables.resume_snd request with hafter | hafter
  · rw [hafter]
    refine ⟨_, ⟨?_, rfl⟩, fun row hrow => by simp [JobTables.isNodeRow, hrow]⟩
    exact .ite (fun _ h => isNodeRow_blocks (Or.inr rfl) h) fun _ => ⟨rfl, rfl, rfl⟩
  · rw [hafter]
    exact ⟨_, .refl tables, fun _ _ => rfl⟩

variable {ρ : Type} {env : RunnerEnv ρ}

/-- How `execute_node` ends: the row it inserted is updated, and a completed result
carries the completed row. -/
theorem settle_spec {tables after : JobTables} {node : WorkflowNode} {run : WorkflowNodeRun}
    {execution : Except String NodeExecution} {elapsed : Int32}
    {result : Except String NodeBatchOutcome}
    (h : settle env tables node run execution elapsed = (result, after))
    (hmem : run ∈ tables.nodeRuns) (hrunning : run.status = .running) :
    ∃ update, UpdatesRows tables after update ∧ (∀ row, row.id ≠ run.id → update row = row) ∧
      ∀ done decision nodeId cost, result = .ok (.completed done decision nodeId cost) →
        done ∈ after.nodeRuns ∧ done.status = .completed ∧ done.nodeId = run.nodeId ∧
          done.workflowId = run.workflowId := by
  unfold settle at h
  split at h
  · obtain ⟨rfl, rfl⟩ := Prod.mk.inj h
    exact ⟨_, .refl tables, fun _ _ => rfl, by simp⟩
  · simp only at h
    split at h
    · obtain ⟨rfl, rfl⟩ := Prod.mk.inj h
      exact ⟨_, .refl tables, fun _ _ => rfl, by simp⟩
    · rename_i completed hcompleted
      obtain ⟨rfl, rfl⟩ := Prod.mk.inj h
      obtain ⟨update, ⟨hupdate, hrows⟩, hother, hself⟩ := completeNode_updatesRows hcompleted
      refine ⟨update, ⟨hupdate, by simpa using hrows⟩, hother, ?_⟩
      rintro done decision nodeId cost hresult
      simp only [Except.ok.injEq, NodeBatchOutcome.completed.injEq] at hresult
      obtain ⟨rfl, -, -, -⟩ := hresult
      refine ⟨?_, rfl, rfl, rfl⟩
      rw [JobTables.addBudgetConsumed_nodeRuns, hrows]
      exact List.mem_map.mpr ⟨run, hmem, hself hrunning⟩
  · obtain ⟨rfl, rfl⟩ := Prod.mk.inj h
    exact ⟨_, .refl tables, fun _ _ => rfl, by simp⟩
  · obtain ⟨rfl, rfl⟩ := Prod.mk.inj h
    obtain ⟨update, hupdate, hother⟩ := failNode_updatesRows tables run elapsed
    exact ⟨update, hupdate, hother, by simp⟩

/-- A task begins with an inserted row, or it is refused before anything is written. -/
theorem beginTask_cases (env : RunnerEnv ρ) (tables : JobTables) (runs : List WorkflowNodeRun)
    (task : NodeTask) (runId : Uuid) (now : ℕ) :
    (∃ message, beginTask env tables runs task runId now =
      ({ task with result := some (.error message) }, tables)) ∨
    ∃ run, run = JobTables.startedRun env.workflow.id task.node.id
        (nextAttempt runs task.node.id) runId now ∧
      checkNodePolicy task.node env.principal env.catalog = .ok () ∧
      beginTask env tables runs task runId now =
        ({ task with run := some run }, tables.beginNode run) := by
  unfold beginTask
  split
  · exact Or.inl ⟨_, rfl⟩
  · rename_i hpolicy
    simp only
    split_ifs
    · exact Or.inl ⟨_, rfl⟩
    · exact Or.inr ⟨_, rfl, hpolicy, rfl⟩

/-- How a turn of the loop head ends. -/
inductive SelectEffect (env : RunnerEnv ρ) (state : RunnerState) (active : ActiveRun) :
    RunnerState → Prop
  | exhausted (hnodes : runnableNodes env.workflow active.runs = []) :
      SelectEffect env state active
        (state.ended (.ok (exhaustedOutcome env.workflow active.runs)))
  | repeated (hnodes : runnableNodes env.workflow active.runs ≠ [])
      (hrepeated :
        executeOnceRepeated (runnableNodes env.workflow active.runs) active.runs = true) :
      SelectEffect env state active
        (state.ended (.error "execute-once workflow node reached twice"))
  | starved (hnodes : runnableNodes env.workflow active.runs ≠ [])
      (hbatch : selectBatch env.workflow active.runs active.consumed = []) :
      SelectEffect env state active (state.ended (.ok .failed))
  | chosen (hbatch : selectBatch env.workflow active.runs active.consumed ≠ []) :
      SelectEffect env state active { state with
        active := some { active with
          batch := (selectBatch env.workflow active.runs active.consumed).map
            fun node => ⟨node, none, none⟩ } }

theorem selectStep_effect (env : RunnerEnv ρ) (state : RunnerState) (active : ActiveRun) :
    SelectEffect env state active (selectStep env state active) := by
  unfold selectStep
  simp only
  split_ifs with hnodes hrepeated hbatch
  · exact .exhausted hnodes
  · exact .repeated hnodes hrepeated
  · exact .starved hnodes hbatch
  · exact .chosen hbatch

/-- How a batch ends, by the results of its tasks. -/
inductive CollectEffect (env : RunnerEnv ρ) (state : RunnerState) (active : ActiveRun) :
    Except String (List NodeBatchOutcome) → RunnerState → Prop
  | error (message : String) :
      CollectEffect env state active (.error message) (state.ended (.error message))
  | failed {outcomes} (hfailed : anyFailed outcomes = true) :
      CollectEffect env state active (.ok outcomes)
        ((state.recorded outcomes).ended (.ok .failed))
  | refused {outcomes nodeId clarification message} (hfailed : anyFailed outcomes = false)
      (hwaiting : firstWaiting outcomes = some (nodeId, clarification))
      (hpause : (state.recorded outcomes).tables.markWorkflowPaused env.principal.userId
        env.workflow.id nodeId clarification = .error message) :
      CollectEffect env state active (.ok outcomes)
        ((state.recorded outcomes).ended (.error message))
  | paused {outcomes nodeId clarification paused} (hfailed : anyFailed outcomes = false)
      (hwaiting : firstWaiting outcomes = some (nodeId, clarification))
      (hpause : (state.recorded outcomes).tables.markWorkflowPaused env.principal.userId
        env.workflow.id nodeId clarification = .ok paused) :
      CollectEffect env state active (.ok outcomes)
        ({ state with tables := paused }.ended (.ok (.waitingForUserInput nodeId)))
  | continued {outcomes} (hfailed : anyFailed outcomes = false)
      (hwaiting : firstWaiting outcomes = none) :
      CollectEffect env state active (.ok outcomes) { state.recorded outcomes with
        active := some { collectCompleted outcomes active with batch := [] } }

theorem collectStep_effect (env : RunnerEnv ρ) (state : RunnerState) (active : ActiveRun)
    (results : Except String (List NodeBatchOutcome)) :
    CollectEffect env state active results (collectStep env state active results) := by
  unfold collectStep
  split
  · exact .error _
  · split_ifs with hfailed
    · exact .failed hfailed
    · rw [Bool.not_eq_true] at hfailed
      split
      · rename_i hwaiting
        split
        · rename_i hpause
          exact .refused hfailed hwaiting hpause
        · rename_i hpause
          exact .paused hfailed hwaiting hpause
      · rename_i hwaiting
        exact .continued hfailed hwaiting

/-- What the step of an action can do. -/
inductive RunnerEffect (env : RunnerEnv ρ) (state : RunnerState) :
    RunnerAction ρ → RunnerState → Prop
  | started (hidle : state.active = none) :
      RunnerEffect env state .run { state with
        active := some ⟨state.tables.nodeRunsOf env.workflow.id, BudgetTotals.fromCompleted
          env.workflow (state.tables.nodeRunsOf env.workflow.id), []⟩
        outcome := none }
  | selected {active after} (hactive : state.active = some active) (hhead : active.batch = [])
      (hselect : SelectEffect env state active after) : RunnerEffect env state .select after
  | begun {active index task runId now} (hactive : state.active = some active)
      (htask : active.batch[index]? = some task) (hrun : task.run = none)
      (hresult : task.result = none) (hfresh : ∀ row ∈ state.tables.nodeRuns, row.id ≠ runId) :
      RunnerEffect env state (.begin index runId now)
        (state.setTask active index (beginTask env state.tables active.runs task runId now))
  | finished {active index task run reply elapsed} (hactive : state.active = some active)
      (htask : active.batch[index]? = some task) (hrun : task.run = some run)
      (hresult : task.result = none) :
      RunnerEffect env state (.finish index reply elapsed) (state.setTask active index
        (finishTask env state.tables active.runs task run reply elapsed))
  | cancelled {active index task run elapsed} (hactive : state.active = some active)
      (htask : active.batch[index]? = some task) (hrun : task.run = some run)
      (hresult : task.result = none) :
      RunnerEffect env state (.cancel index elapsed) (state.setTask active index
        (cancelTask env state.tables active.runs task run elapsed))
  | collected {active results after} (hactive : state.active = some active)
      (hbatch : active.batch ≠ []) (hresults : batchResults active.batch = some results)
      (hcollect : CollectEffect env state active results after) :
      RunnerEffect env state .collect after
  | resumed (request : WorkflowResumeRequest) :
      RunnerEffect env state (.resume request)
        { state with tables := (state.tables.resume request).2 }
  | stateFailed {active index task message} (hactive : state.active = some active)
      (htask : active.batch[index]? = some task) (hresult : task.result = none) :
      RunnerEffect env state (.stateError index message) (state.setTask active index
        ({ task with result := some (.error message) }, state.tables))
  | auditFailed {active index task run reply elapsed message}
      (hactive : state.active = some active) (htask : active.batch[index]? = some task)
      (hrun : task.run = some run) (hresult : task.result = none) :
      RunnerEffect env state (.auditError index reply elapsed message)
        (state.setTask active index ({ task with result := some (.error message) },
          (finishTask env state.tables active.runs task run reply elapsed).2))
  | collectFailed {active results message} (hactive : state.active = some active)
      (hbatch : active.batch ≠ []) (hresults : batchResults active.batch = some results) :
      RunnerEffect env state (.collectError message) (state.ended (.error message))

theorem runnerStep_effect {state after : RunnerState} {action : RunnerAction ρ}
    (h : runnerStep env state action = some after) : RunnerEffect env state action after := by
  unfold runnerStep at h
  split at h
  · rename_i hidle
    obtain rfl := Option.some.inj h
    exact .started hidle
  · rename_i active hactive
    split_ifs at h with hhead
    obtain rfl := Option.some.inj h
    exact .selected hactive hhead (selectStep_effect env state active)
  · rename_i index runId now active hactive
    split at h
    · rename_i task htask
      split_ifs at h with hguard
      obtain rfl := Option.some.inj h
      exact .begun hactive htask hguard.1 (by simpa using hguard.2.1) hguard.2.2
    · simp at h
  · rename_i index reply elapsed active hactive
    split at h
    · rename_i task htask
      split at h
      · rename_i run hrun hresult
        obtain rfl := Option.some.inj h
        exact .finished hactive htask hrun hresult
      · simp at h
    · simp at h
  · rename_i index elapsed active hactive
    split at h
    · rename_i task htask
      split at h
      · rename_i run hrun hresult
        split_ifs at h
        obtain rfl := Option.some.inj h
        exact .cancelled hactive htask hrun hresult
      · simp at h
    · simp at h
  · rename_i active hactive
    split_ifs at h with hbatch
    obtain ⟨results, hresults, rfl⟩ := Option.map_eq_some_iff.mp h
    exact .collected hactive hbatch hresults (collectStep_effect env state active results)
  · rename_i _ request
    obtain rfl := Option.some.inj h
    exact .resumed request
  · rename_i index message active hactive
    split at h
    · rename_i task htask
      split_ifs at h with hresult
      obtain rfl := Option.some.inj h
      exact .stateFailed hactive htask (by simpa using hresult)
    · simp at h
  · rename_i index reply elapsed message active hactive
    split at h
    · rename_i task htask
      split at h
      · rename_i run hrun hresult
        obtain rfl := Option.some.inj h
        exact .auditFailed hactive htask hrun hresult
      · simp at h
    · simp at h
  · rename_i message active hactive
    split_ifs at h with hbatch
    obtain ⟨results, hresults, rfl⟩ := Option.map_eq_some_iff.mp h
    exact .collectFailed hactive hbatch hresults
  · simp at h

/-- Row ids are unique, and of a workflow's node at most one row blocks it. -/
structure RowsInv (workflowId : Uuid) (rows : List WorkflowNodeRun) : Prop where
  ids_nodup : (rows.map (·.id)).Nodup
  blocking_unique : ∀ a ∈ rows, ∀ b ∈ rows, a.workflowId = workflowId →
    b.workflowId = workflowId → a.nodeId = b.nodeId → a.blocks = true → b.blocks = true → a = b

theorem RowsInv.eq_of_id {workflowId : Uuid} {rows : List WorkflowNodeRun}
    (h : RowsInv workflowId rows) {a b : WorkflowNodeRun} (ha : a ∈ rows) (hb : b ∈ rows)
    (hid : a.id = b.id) : a = b :=
  List.inj_on_of_nodup_map h.ids_nodup ha hb hid

theorem RowsInv.map {workflowId : Uuid} {rows : List WorkflowNodeRun}
    {update : WorkflowNodeRun → WorkflowNodeRun} (h : RowsInv workflowId rows)
    (hupdate : RowUpdate update) : RowsInv workflowId (rows.map update) where
  ids_nodup := by
    have hids : (rows.map update).map (·.id) = rows.map (·.id) := by
      rw [List.map_map]
      exact List.map_congr_left fun row _ => hupdate.id_eq row
    rw [hids]
    exact h.ids_nodup
  blocking_unique := by
    intro a ha b hb hwa hwb hnode hba hbb
    obtain ⟨a, hmemA, rfl⟩ := List.mem_map.mp ha
    obtain ⟨b, hmemB, rfl⟩ := List.mem_map.mp hb
    rw [hupdate.workflowId_eq] at hwa hwb
    rw [hupdate.nodeId_eq, hupdate.nodeId_eq] at hnode
    rw [h.blocking_unique a hmemA b hmemB hwa hwb hnode (hupdate.blocks_of a hba)
      (hupdate.blocks_of b hbb)]

theorem RowsInv.append {workflowId : Uuid} {rows : List WorkflowNodeRun} {run : WorkflowNodeRun}
    (h : RowsInv workflowId rows) (hfresh : ∀ row ∈ rows, row.id ≠ run.id)
    (hfree : ∀ row ∈ rows, row.workflowId = workflowId → row.nodeId = run.nodeId →
      row.blocks = false) : RowsInv workflowId (rows ++ [run]) where
  ids_nodup := by
    rw [List.map_append, List.nodup_append]
    refine ⟨h.ids_nodup, List.nodup_singleton _, ?_⟩
    intro a ha b hb
    obtain ⟨row, hrow, rfl⟩ := List.mem_map.mp ha
    obtain rfl := List.mem_singleton.mp hb
    exact hfresh row hrow
  blocking_unique := by
    intro a ha b hb hwa hwb hnode hba hbb
    rcases List.mem_append.mp ha with hmemA | hmemA <;>
      rcases List.mem_append.mp hb with hmemB | hmemB
    · exact h.blocking_unique a hmemA b hmemB hwa hwb hnode hba hbb
    · obtain rfl := List.mem_singleton.mp hmemB
      simp [hfree a hmemA hwa hnode] at hba
    · obtain rfl := List.mem_singleton.mp hmemA
      simp [hfree b hmemB hwb hnode.symm] at hbb
    · rw [List.mem_singleton.mp hmemA, List.mem_singleton.mp hmemB]

/-- What is known of one node of the current batch. -/
structure TaskInv (env : RunnerEnv ρ) (rows runs : List WorkflowNodeRun) (task : NodeTask) :
    Prop where
  node_mem : task.node ∈ env.workflow.nodes
  runnable : runnable task.node env.workflow runs = true
  unstarted : task.run = none → task.result = none → ∀ row ∈ rows,
    row.workflowId = env.workflow.id → row.nodeId = task.node.id → row.blocks = false
  in_flight : ∀ run, task.run = some run → task.result = none → run ∈ rows ∧
    run.status = .running ∧ run.nodeId = task.node.id ∧ run.workflowId = env.workflow.id ∧
      checkNodePolicy task.node env.principal env.catalog = .ok ()
  finished : ∀ done decision nodeId cost,
    task.result = some (.ok (.completed done decision nodeId cost)) → done ∈ rows ∧
      done.status = .completed ∧ done.nodeId = task.node.id ∧ done.workflowId = env.workflow.id

theorem TaskInv.map {rows runs : List WorkflowNodeRun} {task : NodeTask}
    {update : WorkflowNodeRun → WorkflowNodeRun} (h : TaskInv env rows runs task)
    (hupdate : RowUpdate update)
    (hown : ∀ run, task.run = some run → task.result = none → update run = run) :
    TaskInv env (rows.map update) runs task where
  node_mem := h.node_mem
  runnable := h.runnable
  unstarted hrun hresult row hrow hworkflow hnode := by
    obtain ⟨row, hmem, rfl⟩ := List.mem_map.mp hrow
    rw [hupdate.workflowId_eq] at hworkflow
    rw [hupdate.nodeId_eq] at hnode
    have hfree := h.unstarted hrun hresult row hmem hworkflow hnode
    rw [Bool.eq_false_iff] at hfree ⊢
    exact fun hblocks => hfree (hupdate.blocks_of row hblocks)
  in_flight run hrun hresult := by
    obtain ⟨hmem, hrest⟩ := h.in_flight run hrun hresult
    exact ⟨List.mem_map.mpr ⟨run, hmem, hown run hrun hresult⟩, hrest⟩
  finished done decision nodeId cost hresult := by
    obtain ⟨hmem, hdone, hrest⟩ := h.finished done decision nodeId cost hresult
    exact ⟨List.mem_map.mpr ⟨done, hmem, hupdate.completed_fixed done hdone⟩, hdone, hrest⟩

theorem TaskInv.append {rows runs : List WorkflowNodeRun} {task : NodeTask}
    {run : WorkflowNodeRun} (h : TaskInv env rows runs task) (hnode : run.nodeId ≠ task.node.id) :
    TaskInv env (rows ++ [run]) runs task where
  node_mem := h.node_mem
  runnable := h.runnable
  unstarted hrun hresult row hrow hworkflow hrowNode := by
    rcases List.mem_append.mp hrow with hrow | hrow
    · exact h.unstarted hrun hresult row hrow hworkflow hrowNode
    · obtain rfl := List.mem_singleton.mp hrow
      exact absurd hrowNode hnode
  in_flight own hown hresult := by
    obtain ⟨hmem, hrest⟩ := h.in_flight own hown hresult
    exact ⟨List.mem_append_left _ hmem, hrest⟩
  finished done decision nodeId cost hresult := by
    obtain ⟨hmem, hrest⟩ := h.finished done decision nodeId cost hresult
    exact ⟨List.mem_append_left _ hmem, hrest⟩

/-- What is known of a `run` call in progress: its list of runs agrees with the
durable rows on what has completed, and every row that blocks a node is either in
that list or belongs to the batch. -/
structure CallInv (env : RunnerEnv ρ) (rows : List WorkflowNodeRun) (active : ActiveRun) :
    Prop where
  completed_mem : ∀ run ∈ active.runs, run.status = .completed →
    run ∈ rows ∧ run.workflowId = env.workflow.id
  tasks_nodup : (active.batch.map fun task => task.node.id).Nodup
  tasks : ∀ task ∈ active.batch, TaskInv env rows active.runs task
  seen : ∀ row ∈ rows, row.workflowId = env.workflow.id → row.blocks = true →
    (∃ run ∈ active.runs, run.nodeId = row.nodeId ∧ run.blocks = true) ∨
      ∃ task ∈ active.batch, task.node.id = row.nodeId

theorem CallInv.completed_mem_map {rows : List WorkflowNodeRun} {active : ActiveRun}
    {update : WorkflowNodeRun → WorkflowNodeRun} (h : CallInv env rows active)
    (hupdate : RowUpdate update) : ∀ run ∈ active.runs, run.status = .completed →
      run ∈ rows.map update ∧ run.workflowId = env.workflow.id := by
  intro run hrun hdone
  obtain ⟨hmem, hworkflow⟩ := h.completed_mem run hrun hdone
  exact ⟨List.mem_map.mpr ⟨run, hmem, hupdate.completed_fixed run hdone⟩, hworkflow⟩

theorem CallInv.seen_map {rows : List WorkflowNodeRun} {active : ActiveRun}
    {update : WorkflowNodeRun → WorkflowNodeRun} (h : CallInv env rows active)
    (hupdate : RowUpdate update) : ∀ row ∈ rows.map update, row.workflowId = env.workflow.id →
      row.blocks = true → (∃ run ∈ active.runs, run.nodeId = row.nodeId ∧ run.blocks = true) ∨
        ∃ task ∈ active.batch, task.node.id = row.nodeId := by
  intro row hrow hworkflow hblocks
  obtain ⟨row, hmem, rfl⟩ := List.mem_map.mp hrow
  rw [hupdate.workflowId_eq] at hworkflow
  rw [hupdate.nodeId_eq]
  exact h.seen row hmem hworkflow (hupdate.blocks_of row hblocks)

/-- Two different tasks of a batch are about different nodes, so replacing one of
them leaves only tasks about other nodes. -/
theorem mem_set_of_nodup {α β : Type*} {f : α → β} {l : List α} {i : ℕ} {a a' b : α}
    (hnodup : (l.map f).Nodup) (ha : l[i]? = some a) (hb : b ∈ l.set i a') :
    b = a' ∨ (b ∈ l ∧ f b ≠ f a) := by
  induction l generalizing i with
  | nil => simp at ha
  | cons x xs ih =>
    simp only [List.map_cons, List.nodup_cons] at hnodup
    cases i with
    | zero =>
      obtain rfl : x = a := by simpa using ha
      rcases List.mem_cons.mp hb with rfl | hb
      · exact Or.inl rfl
      · refine Or.inr ⟨List.mem_cons_of_mem _ hb, fun hfb => hnodup.1 ?_⟩
        exact List.mem_map.mpr ⟨b, hb, hfb⟩
    | succ i =>
      rw [List.getElem?_cons_succ] at ha
      rcases List.mem_cons.mp hb with rfl | hb
      · refine Or.inr ⟨List.mem_cons_self, fun hfb => hnodup.1 ?_⟩
        exact List.mem_map.mpr ⟨a, List.mem_of_getElem? ha, hfb.symm⟩
      · rcases ih hnodup.2 ha hb with rfl | ⟨hmem, hne⟩
        · exact Or.inl rfl
        · exact Or.inr ⟨List.mem_cons_of_mem _ hmem, hne⟩

theorem mem_set_of_ne {α : Type*} {l : List α} {i : ℕ} {a b c : α} (ha : a ∈ l)
    (hb : l[i]? = some b) (hne : a ≠ b) : a ∈ l.set i c := by
  obtain ⟨j, hj⟩ := List.getElem?_of_mem ha
  refine List.mem_of_getElem? (i := j) ?_
  rw [List.getElem?_set_ne (fun hij => hne ?_), hj]
  rw [hij] at hb
  exact Option.some.inj (hj.symm.trans hb)

theorem mem_set_self {α : Type*} {l : List α} {i : ℕ} {a c : α} (ha : l[i]? = some a) :
    c ∈ l.set i c :=
  List.mem_set (List.getElem?_eq_some_iff.mp ha).1 c

theorem map_set_eq {α β : Type*} {f : α → β} {l : List α} {i : ℕ} {a a' : α}
    (ha : l[i]? = some a) (hf : f a' = f a) : (l.set i a').map f = l.map f := by
  induction l generalizing i with
  | nil => simp at ha
  | cons x xs ih =>
    cases i with
    | zero =>
      obtain rfl : x = a := by simpa using ha
      simp [hf]
    | succ i =>
      rw [List.getElem?_cons_succ] at ha
      simp [ih ha]

/-- Replacing a task by one about the same node keeps what is known of the call,
given what is known of the new task and of the others under the new rows. -/
theorem CallInv.setTask {rows rows' : List WorkflowNodeRun} {active : ActiveRun} {index : ℕ}
    {task task' : NodeTask} (h : CallInv env rows active) (htask : active.batch[index]? = some task)
    (hnode : task'.node = task.node) (hnew : TaskInv env rows' active.runs task')
    (hothers : ∀ other ∈ active.batch, other.node.id ≠ task.node.id →
      TaskInv env rows' active.runs other)
    (hcompleted : ∀ run ∈ active.runs, run.status = .completed →
      run ∈ rows' ∧ run.workflowId = env.workflow.id)
    (hseen : ∀ row ∈ rows', row.workflowId = env.workflow.id → row.blocks = true →
      (∃ run ∈ active.runs, run.nodeId = row.nodeId ∧ run.blocks = true) ∨
        ∃ task ∈ active.batch, task.node.id = row.nodeId) :
    CallInv env rows' { active with batch := active.batch.set index task' } where
  completed_mem := hcompleted
  tasks_nodup := by
    simp only
    rw [map_set_eq htask (by rw [hnode])]
    exact h.tasks_nodup
  tasks other hother := by
    rcases mem_set_of_nodup h.tasks_nodup htask hother with rfl | ⟨hmem, hne⟩
    · exact hnew
    · exact hothers other hmem hne
  seen row hrow hworkflow hblocks := by
    rcases hseen row hrow hworkflow hblocks with hrun | ⟨other, hother, hid⟩
    · exact Or.inl hrun
    · right
      have hids : row.nodeId ∈ (active.batch.set index task').map fun task => task.node.id := by
        rw [map_set_eq htask (by rw [hnode])]
        exact List.mem_map.mpr ⟨other, hother, hid⟩
      obtain ⟨found, hfound, hfid⟩ := List.mem_map.mp hids
      exact ⟨found, hfound, hfid⟩

end FineractReports.Workflow
