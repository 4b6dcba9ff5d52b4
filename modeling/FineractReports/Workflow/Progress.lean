import FineractReports.Workflow.BranchWays
import FineractReports.Workflow.SchedulerSafety
import FineractReports.Workflow.StrandedRuns

/-!
# Progress of an unhindered call

A call is unhindered when every node it starts completes and no batch is held back.
The scheduler follows edges, so such a call ends well exactly as far as the edges
lead: the nodes it completes are those on the ways its outcomes admit.
-/

namespace FineractReports.Workflow

variable {ρ : Type}

/-- A step of a call in which every node begins and completes and every batch with a
runnable node is admitted. -/
def unhindered (env : RunnerEnv ρ) (state : RunnerState) (action : RunnerAction ρ) : Bool :=
  match state.active, action with
  | none, .run => true
  | some active, .select =>
    decide (runnableNodes env.workflow active.runs = [] ∨
      selectBatch env.workflow active.runs active.consumed ≠ [])
  | some active, .begin index runId now =>
    (active.batch[index]?).any fun task =>
      (beginTask env state.tables active.runs task runId now).1.run.isSome
  | some active, .finish index reply elapsed =>
    (active.batch[index]?).any fun task => task.run.any fun run =>
      (finishTask env state.tables active.runs task run reply elapsed).1.completes
  | some _, .collect => true
  | _, _ => false

/-- The actions a call takes by itself when nothing fails. -/
def callAction : RunnerAction ρ → Bool
  | .select | .begin _ _ _ | .finish _ _ _ | .collect => true
  | _ => false

/-- The steps a node of the batch still has before it. -/
def NodeTask.work (task : NodeTask) : ℕ :=
  if task.result.isSome then 0 else if task.run.isSome then 1 else 2

/-- A bound on the steps an unhindered call still takes. -/
def callWork (workflow : ExecutionWorkflow) (state : RunnerState) : ℕ :=
  match state.active with
  | none => 0
  | some active =>
    if active.batch = [] then 4 * (openNodes workflow active.runs).length + 1
    else (active.batch.map NodeTask.work).sum + 2 +
      4 * ((openNodes workflow active.runs).length - active.batch.length)

variable {env : RunnerEnv ρ}

/-- What an unhindered step does. -/
inductive UnhinderedEffect (env : RunnerEnv ρ) (state : RunnerState) : RunnerState → Prop
  | started (hidle : state.active = none) : UnhinderedEffect env state { state with
      active := some ⟨state.tables.nodeRunsOf env.workflow.id, BudgetTotals.fromCompleted
        env.workflow (state.tables.nodeRunsOf env.workflow.id), []⟩
      outcome := none }
  | exhausted {active} (hactive : state.active = some active) (hhead : active.batch = [])
      (hnodes : runnableNodes env.workflow active.runs = []) : UnhinderedEffect env state
        (state.ended (.ok (exhaustedOutcome env.workflow active.runs)))
  | chosen {active} (hactive : state.active = some active) (hhead : active.batch = [])
      (hbatch : selectBatch env.workflow active.runs active.consumed ≠ []) :
      UnhinderedEffect env state { state with
        active := some { active with
          batch := (selectBatch env.workflow active.runs active.consumed).map
            fun node => ⟨node, none, none⟩ } }
  | begun {active index task run} (hactive : state.active = some active)
      (htask : active.batch[index]? = some task) (hrun : task.run = none)
      (hresult : task.result = none) (hstarted : ∃ attempt runId now,
        run = JobTables.startedRun env.workflow.id task.node.id attempt runId now) :
      UnhinderedEffect env state (state.setTask active index
        ({ task with run := some run }, state.tables.beginNode run))
  | completed {active index task run reply elapsed output rows outcome tables}
      (hactive : state.active = some active) (htask : active.batch[index]? = some task)
      (hrun : task.run = some run) (hresult : task.result = none)
      (hexecution : taskExecution env state.tables active.runs task reply =
        .ok (.completed output rows))
      (hrows : tables.nodeRuns = state.tables.nodeRuns.map fun row =>
        if JobTables.isRunningRow run.id row then
          completedWith row elapsed (persistedOutput task.node.inputs output) rows
        else row)
      (houtcome : NodeTask.completes { task with result := some outcome } = true) :
      UnhinderedEffect env state (state.setTask active index
        ({ task with result := some outcome }, tables))
  | collected {active results after} (hactive : state.active = some active)
      (hbatch : active.batch ≠ []) (hresults : batchResults active.batch = some results)
      (hcollect : CollectEffect env state active results after) :
      UnhinderedEffect env state after

theorem completeNode_rows {tables after : JobTables} {run : WorkflowNodeRun} {output : Json}
    {rows elapsed : Int32} (h : tables.completeNode run output rows elapsed = .ok after) :
    after.nodeRuns = tables.nodeRuns.map fun row =>
      if JobTables.isRunningRow run.id row then completedWith row elapsed output rows else row := by
  unfold JobTables.completeNode at h
  split_ifs at h
  obtain rfl := Except.ok.inj h
  exact List.map_congr_left fun row _ => by split_ifs <;> rfl

/-- A task that completes has executed to an output, which is now in its row. -/
theorem finishTask_completes {tables : JobTables} {runs : List WorkflowNodeRun} {task : NodeTask}
    {run : WorkflowNodeRun} {reply : ρ} {elapsed : Int32}
    (h : (finishTask env tables runs task run reply elapsed).1.completes = true) :
    ∃ output rows outcome after,
      finishTask env tables runs task run reply elapsed =
        ({ task with result := some outcome }, after) ∧
      taskExecution env tables runs task reply = .ok (.completed output rows) ∧
      after.nodeRuns = tables.nodeRuns.map fun row =>
        if JobTables.isRunningRow run.id row then
          completedWith row elapsed (persistedOutput task.node.inputs output) rows
        else row := by
  change NodeTask.completes { task with result := some (settle env tables task.node run
    (taskExecution env tables runs task reply) elapsed).1 } = true at h
  generalize hsettled : settle env tables task.node run
    (taskExecution env tables runs task reply) elapsed = settled at h
  have hfinish : finishTask env tables runs task run reply elapsed =
      ({ task with result := some settled.1 }, settled.2) := hsettled ▸ rfl
  unfold settle at hsettled
  split at hsettled
  · subst hsettled
    cases h
  · rename_i output rows hexecution
    simp only at hsettled
    split at hsettled
    · subst hsettled
      cases h
    · rename_i after hcompleted
      refine ⟨output, rows, _, _, hfinish, hexecution, ?_⟩
      rw [← hsettled, JobTables.addBudgetConsumed_nodeRuns]
      exact completeNode_rows hcompleted
  · subst hsettled
    cases h
  · subst hsettled
    cases h

/-- What is runnable has not completed. -/
theorem executeOnceRepeated_runnableNodes (workflow : ExecutionWorkflow)
    (runs : List WorkflowNodeRun) :
    executeOnceRepeated (runnableNodes workflow runs) runs = false := by
  refine List.any_eq_false.mpr fun node hnode => ?_
  have hfree := (runnable_iff.mp (mem_runnableNodes.mp hnode).2).1
  rw [Bool.and_eq_true, List.any_eq_true]
  rintro ⟨-, run, hrun, hrepeated⟩
  obtain ⟨hid, hstatus⟩ := of_decide_eq_true hrepeated
  have hblocks := hfree run hrun hid
  simp [WorkflowNodeRun.blocks, hstatus] at hblocks

theorem RunnerEffect.unhindered {state after : RunnerState} {action : RunnerAction ρ}
    (h : RunnerEffect env state action after) (hclear : unhindered env state action = true) :
    UnhinderedEffect env state after := by
  cases h with
  | started hidle => exact .started hidle
  | selected hactive hhead hselect =>
    simp only [Workflow.unhindered, hactive, decide_eq_true_eq] at hclear
    cases hselect with
    | exhausted hnodes => exact .exhausted hactive hhead hnodes
    | repeated hnodes hrepeated => simp [executeOnceRepeated_runnableNodes] at hrepeated
    | starved hnodes hbatch => exact absurd hclear (by simp [hnodes, hbatch])
    | chosen hbatch => exact .chosen hactive hhead hbatch
  | @begun active index task runId now hactive htask hrun hresult _ =>
    simp only [Workflow.unhindered, hactive, htask, Option.any_some] at hclear
    rcases beginTask_cases env state.tables active.runs task runId now with
      ⟨message, hbegin⟩ | ⟨run, hstarted, -, hbegin⟩
    · simp [hbegin, hrun] at hclear
    · rw [hbegin]
      exact .begun hactive htask hrun hresult ⟨_, _, _, hstarted⟩
  | @finished active index task run reply elapsed hactive htask hrun hresult =>
    simp only [Workflow.unhindered, hactive, htask, hrun, Option.any_some] at hclear
    obtain ⟨output, rows, outcome, tables, hfinish, hexecution, hrows⟩ :=
      finishTask_completes hclear
    rw [hfinish] at hclear ⊢
    exact .completed hactive htask hrun hresult hexecution hrows hclear
  | collected hactive hbatch hresults hcollect => exact .collected hactive hbatch hresults hcollect
  | cancelled hactive _ _ _ => simp [Workflow.unhindered, hactive] at hclear
  | resumed request => simp [Workflow.unhindered] at hclear
  | stateFailed hactive _ _ => simp [Workflow.unhindered, hactive] at hclear
  | auditFailed hactive _ _ _ => simp [Workflow.unhindered, hactive] at hclear
  | collectFailed hactive _ _ => simp [Workflow.unhindered, hactive] at hclear

/-- The end of a way of completed nodes. -/
def ReachedThrough (workflow : ExecutionWorkflow) (rows : List WorkflowNodeRun) (id : NodeId) :
    Prop :=
  ∃ way, Way workflow (outcomesOf workflow.id rows) way id ∧
    ∀ other ∈ way, durablyCompleted workflow.id rows other

/-- The rows of a job whose calls were unhindered so far. -/
structure WayRows (env : RunnerEnv ρ) (rows : List WorkflowNodeRun) : Prop where
  settled : ∀ row ∈ rows, row.workflowId = env.workflow.id →
    row.status = .completed ∨ row.status = .running
  reached : ∀ row ∈ rows, row.workflowId = env.workflow.id →
    ReachedThrough env.workflow rows row.nodeId
  decided : ∀ row, IsDone env.workflow.id rows row →
    Decided env.workflow (outcomesOf env.workflow.id rows) row.nodeId

section Rows

variable {rows after runs : List WorkflowNodeRun} {active : ActiveRun} {id : NodeId}
  {node : WorkflowNode} {run : WorkflowNodeRun}

theorem durablyCompleted_iff {workflowId : Uuid} : durablyCompleted workflowId rows id ↔
    ∃ row, IsDone workflowId rows row ∧ row.nodeId = id := by
  constructor
  · rintro ⟨row, hrow, hworkflow, hid, hstatus⟩
    exact ⟨row, ⟨hrow, hworkflow, hstatus⟩, hid⟩
  · rintro ⟨row, ⟨hrow, hworkflow, hstatus⟩, hid⟩
    exact ⟨row, hrow, hworkflow, hid, hstatus⟩

theorem ReachedThrough.mono (h : ReachedThrough env.workflow rows id)
    (hafter : RowsInv env.workflow.id after)
    (hkept : ∀ row, IsDone env.workflow.id rows row → IsDone env.workflow.id after row) :
    ReachedThrough env.workflow after id := by
  obtain ⟨way, hway, hcompleted⟩ := h
  refine ⟨way, hway.mono (outcomesOf_mono hafter hkept), fun other hother => ?_⟩
  obtain ⟨row, hdone, hid⟩ := durablyCompleted_iff.mp (hcompleted other hother)
  exact durablyCompleted_iff.mpr ⟨row, hkept row hdone, hid⟩

theorem mem_completedIds_of_cardinalityFor {decision : Cardinality}
    (h : cardinalityFor runs id = .ok decision) : id ∈ completedIds runs := by
  simp only [cardinalityFor, bind_eq_ok_iff, okOr_eq_ok] at h
  obtain ⟨row, hrow, -⟩ := h
  exact completedRun_isSome.mp (by simp [hrow])

/-- A call reads the cardinality of a node it counts as completed off the durable row. -/
theorem CallInv.cardinalityFor_eq_ok (h : CallInv env rows active)
    (hrows : RowsInv env.workflow.id rows) (hid : id ∈ completedIds active.runs)
    {decision : Cardinality} : cardinalityFor active.runs id = .ok decision ↔
      outcomesOf env.workflow.id rows id = some decision := by
  obtain ⟨row, hrow⟩ := Option.isSome_iff_exists.mp (completedRun_isSome.mpr hid)
  obtain ⟨hmem, rfl, hstatus⟩ := completedRun_spec hrow
  rw [Workflow.cardinalityFor_eq hrow, hrows.outcomesOf_eq (h.isDone row hmem hstatus),
    toOption_eq_some]

theorem CallInv.edgeConditionMatches_iff (h : CallInv env rows active)
    (hrows : RowsInv env.workflow.id rows) {edge : WorkflowEdge}
    (hid : edge.source ∈ completedIds active.runs) :
    edgeConditionMatches edge.condition edge.source active.runs = true ↔
      edge.Admitted (outcomesOf env.workflow.id rows) := by
  unfold edgeConditionMatches WorkflowEdge.Admitted
  cases edge.condition with
  | always => simp
  | clarificationAnswered => simp
  | cardinality expected =>
    rw [decide_eq_true_eq]
    exact h.cardinalityFor_eq_ok hrows hid

/-- A node the scheduler finds runnable lies at the end of a way of completed nodes. -/
theorem ReachedThrough.of_runnable (hreached : ∀ row ∈ rows, row.workflowId = env.workflow.id →
      ReachedThrough env.workflow rows row.nodeId) (hcall : CallInv env rows active)
    (hrows : RowsInv env.workflow.id rows) (hnode : node ∈ env.workflow.nodes)
    (hrunnable : runnable node env.workflow active.runs = true) :
    ReachedThrough env.workflow rows node.id := by
  rcases dependenciesSatisfied_iff.mp (runnable_iff.mp hrunnable).2 with
    hentry | ⟨edge, hedge, htarget, hsource, hcondition⟩
  · exact ⟨[], .entry hnode hentry, by simp⟩
  · have hdone := hcall.durablyCompleted hsource
    obtain ⟨row, ⟨hmem, hworkflow, -⟩, hid⟩ := durablyCompleted_iff.mp hdone
    obtain ⟨way, hway, hcompleted⟩ := hreached row hmem hworkflow
    rw [hid] at hway
    refine ⟨edge.source :: way, htarget ▸ .step hway hedge
      ((hcall.edgeConditionMatches_iff hrows hsource).mp hcondition), fun other hother => ?_⟩
    rcases List.mem_cons.mp hother with rfl | hbefore
    · exact hdone
    · exact hcompleted other hbefore

/-- A running row of a reached node is added. -/
theorem WayRows.begun (h : WayRows env rows) (hafter : RowsInv env.workflow.id (rows ++ [run]))
    (hrunning : run.status = .running) (hreached : ReachedThrough env.workflow rows run.nodeId) :
    WayRows env (rows ++ [run]) := by
  have hkept : ∀ row, IsDone env.workflow.id rows row →
      IsDone env.workflow.id (rows ++ [run]) row :=
    fun row hdone => ⟨List.mem_append_left _ hdone.1, hdone.2⟩
  refine ⟨fun row hrow hworkflow => ?_, fun row hrow hworkflow => ?_, fun row hdone => ?_⟩
  · rcases List.mem_append.mp hrow with hmem | hmem
    · exact h.settled row hmem hworkflow
    · exact Or.inr (List.mem_singleton.mp hmem ▸ hrunning)
  · rcases List.mem_append.mp hrow with hmem | hmem
    · exact (h.reached row hmem hworkflow).mono hafter hkept
    · exact (List.mem_singleton.mp hmem ▸ hreached).mono hafter hkept
  · rcases List.mem_append.mp hdone.1 with hmem | hmem
    · exact (h.decided row ⟨hmem, hdone.2⟩).mono (outcomesOf_mono hafter hkept)
    · have hstatus := hdone.2.2
      rw [List.mem_singleton.mp hmem, hrunning] at hstatus
      cases hstatus

/-- What a branch task decided is what its completed row and its source count for. -/
theorem decided_of_execution {tables : JobTables} {task : NodeTask} {reply : ρ} {output : Json}
    {rowsReturned elapsed : Int32} (hids : (env.workflow.nodes.map (·.id)).Nodup)
    (hcall : CallInv env rows active) (hrows : RowsInv env.workflow.id rows)
    (hreached : ∀ row ∈ rows, row.workflowId = env.workflow.id →
      ReachedThrough env.workflow rows row.nodeId) (hafter : RowsInv env.workflow.id after)
    (hkept : ∀ row, IsDone env.workflow.id rows row → IsDone env.workflow.id after row)
    (hmem : task.node ∈ env.workflow.nodes)
    (hexecution : taskExecution env tables active.runs task reply =
      .ok (.completed output rowsReturned)) (hid : run.nodeId = task.node.id)
    (hdone : IsDone env.workflow.id after (completedWith run elapsed
      (persistedOutput task.node.inputs output) rowsReturned)) :
    Decided env.workflow (outcomesOf env.workflow.id after) task.node.id := by
  intro node hnode hnodeId branch hkind
  obtain rfl := node_eq_of_id hids hnode hmem hnodeId
  simp only [taskExecution, bind_eq_ok_iff] at hexecution
  obtain ⟨bindings, -, hresolved⟩ := hexecution
  simp only [resolveExecution, hkind, bind_eq_ok_iff, pure_eq_ok, NodeExecution.completed.injEq]
    at hresolved
  obtain ⟨decision, hcardinality, rfl, rfl⟩ := hresolved
  have hsource := mem_completedIds_of_cardinalityFor hcardinality
  have houtcome := (hcall.cardinalityFor_eq_ok hrows hsource).mp hcardinality
  obtain ⟨row, ⟨hrow, hworkflow, -⟩, hrowId⟩ :=
    durablyCompleted_iff.mp (hcall.durablyCompleted hsource)
  obtain ⟨way, hway, -⟩ := (hreached row hrow hworkflow).mono hafter hkept
  refine ⟨⟨way, hrowId ▸ hway⟩, decision, outcomesOf_mono hafter hkept _ _ houtcome, ?_⟩
  have hown := hafter.outcomesOf_eq hdone
  rw [rowCardinality_branch] at hown
  rw [← hid]
  exact hown

/-- A running row of a reached node completes. -/
theorem WayRows.completed (h : WayRows env rows) (run : WorkflowNodeRun)
    {update : WorkflowNodeRun → WorkflowNodeRun}
    (hupdate : RowUpdate update) (hafter : RowsInv env.workflow.id (rows.map update))
    (hmoves : ∀ row ∈ rows, row = run ∨ update row = row)
    (hcompletes : (update run).status = .completed)
    (hdecided : Decided env.workflow (outcomesOf env.workflow.id (rows.map update)) run.nodeId) :
    WayRows env (rows.map update) := by
  have hkept : ∀ row, IsDone env.workflow.id rows row →
      IsDone env.workflow.id (rows.map update) row := fun row hdone =>
    ⟨List.mem_map.mpr ⟨row, hdone.1, hupdate.completed_fixed row hdone.2.2⟩, hdone.2⟩
  refine ⟨fun row' hrow' hworkflow => ?_, fun row' hrow' hworkflow => ?_, fun row' hdone => ?_⟩
  · obtain ⟨row, hrow, rfl⟩ := List.mem_map.mp hrow'
    rcases hmoves row hrow with rfl | hsame
    · exact Or.inl hcompletes
    · rw [hsame] at hworkflow ⊢
      exact h.settled row hrow hworkflow
  · obtain ⟨row, hrow, rfl⟩ := List.mem_map.mp hrow'
    rw [hupdate.workflowId_eq] at hworkflow
    rw [hupdate.nodeId_eq]
    exact (h.reached row hrow hworkflow).mono hafter hkept
  · obtain ⟨row, hrow, rfl⟩ := List.mem_map.mp hdone.1
    rcases hmoves row hrow with rfl | hsame
    · rw [hupdate.nodeId_eq]
      exact hdecided
    · have hold := hdone.2
      rw [hsame] at hold ⊢
      exact (h.decided row ⟨hrow, hold⟩).mono (outcomesOf_mono hafter hkept)

end Rows

/-- Between the steps of unhindered calls everything that has ended has completed. -/
structure UnhinderedInv (env : RunnerEnv ρ) (state : RunnerState) : Prop where
  rows : WayRows env state.tables.nodeRuns
  idle : state.active = none → ∀ row ∈ state.tables.nodeRuns,
    row.workflowId = env.workflow.id → row.status ≠ .running
  memory : ∀ active, state.active = some active → ∀ run ∈ active.runs, run.status = .completed
  tasks : ∀ active, state.active = some active → ∀ task ∈ active.batch,
    task.result.isSome = true → task.completes = true

section Runs

variable {state after : RunnerState} {active : ActiveRun}

theorem UnhinderedInv.init (h : (runner env).init state) : UnhinderedInv env state where
  rows := by
    refine ⟨fun row hrow hworkflow => ?_, fun row hrow hworkflow => ?_, fun row hdone => ?_⟩
    · exact absurd hworkflow (h.2.2 row hrow)
    · exact absurd hworkflow (h.2.2 row hrow)
    · exact absurd hdone.2.1 (h.2.2 row hdone.1)
  idle _ row hrow hworkflow := absurd hworkflow (h.2.2 row hrow)
  memory active hactive := by simp [h.1] at hactive
  tasks active hactive := by simp [h.1] at hactive

/-- A batch whose tasks all complete is one the call goes on after. -/
theorem CollectEffect.continued_of_completes {results : Except String (List NodeBatchOutcome)}
    (hcompletes : ∀ task ∈ active.batch, task.completes = true)
    (hresults : batchResults active.batch = some results)
    (hcollect : CollectEffect env state active results after) :
    ∃ outcomes, results = .ok outcomes ∧ anyFailed outcomes = false ∧
      firstWaiting outcomes = none ∧ after = { state.recorded outcomes with
        active := some { collectCompleted outcomes active with batch := [] } } := by
  have hall : ∀ task ∈ active.batch, task.waits = true ∨ task.completes = true :=
    fun task htask => Or.inr (hcompletes task htask)
  have hasks : ∀ {outcomes asked}, results = .ok outcomes →
      firstWaiting outcomes ≠ some asked := by
    rintro outcomes ⟨nodeId, clarification⟩ rfl hfirst
    obtain ⟨task, htask, hwaiting⟩ := firstWaiting_eq_some hresults hfirst
    obtain ⟨run, decision, id, cost, hown⟩ := NodeTask.completes_iff.mp (hcompletes task htask)
    simp [hwaiting] at hown
  cases hcollect with
  | error message =>
    obtain ⟨task, htask, herrs⟩ := batchResults_error hresults
    simp [NodeTask.errs_eq_false (hall task htask)] at herrs
  | failed hfailed => simp [anyFailed_eq_false hresults hall] at hfailed
  | refused _ hfirst _ => exact absurd hfirst (hasks rfl)
  | paused _ hfirst _ => exact absurd hfirst (hasks rfl)
  | continued hfailed hfirst => exact ⟨_, rfl, hfailed, hfirst, rfl⟩

/-- What a call has in its list has completed, and nothing else blocks a node at a loop
head, so no row is running there. -/
theorem UnhinderedInv.none_running (h : UnhinderedInv env state) (hinv : RunnerInv env state)
    (hactive : state.active = some active) (hhead : active.batch = []) :
    ∀ row ∈ state.tables.nodeRuns, row.workflowId = env.workflow.id → row.status ≠ .running := by
  intro row hrow hworkflow hrunning
  have hblocks : row.blocks = true := by simp [WorkflowNodeRun.blocks, hrunning]
  rcases (hinv.call active hactive).seen row hrow hworkflow hblocks with
    ⟨run, hrun, hid, -⟩ | ⟨task, htask, -⟩
  · have hstatus := h.memory active hactive run hrun
    obtain ⟨hmem, hown⟩ := (hinv.call active hactive).completed_mem run hrun hstatus
    have hsame := hinv.rows.blocking_unique run hmem row hrow hown hworkflow hid
      (by simp [WorkflowNodeRun.blocks, hstatus]) hblocks
    rw [← hsame, hstatus] at hrunning
    cases hrunning
  · simp [hhead] at htask

theorem UnhinderedInv.setTask {index : ℕ} {task : NodeTask} {tables : JobTables}
    (h : UnhinderedInv env state) (hactive : state.active = some active)
    (hrows : WayRows env tables.nodeRuns)
    (htask : task.result.isSome = true → task.completes = true) :
    UnhinderedInv env (state.setTask active index (task, tables)) where
  rows := hrows
  idle hidle := by cases hidle
  memory call hcall := by
    obtain rfl := Option.some.inj hcall
    exact h.memory active hactive
  tasks call hcall other hother := by
    obtain rfl := Option.some.inj hcall
    rcases List.mem_or_eq_of_mem_set hother with hmem | rfl
    · exact h.tasks active hactive other hmem
    · exact htask

theorem UnhinderedInv.step (h : UnhinderedInv env state) (hinv : RunnerInv env state)
    (hids : (env.workflow.nodes.map (·.id)).Nodup) (hafter : RunnerInv env after)
    (heffect : UnhinderedEffect env state after) : UnhinderedInv env after := by
  cases heffect with
  | started hidle =>
    refine ⟨h.rows, fun hnone => by simp at hnone, fun call hcall run hrun => ?_,
      fun call hcall task htask => ?_⟩
    · obtain rfl := Option.some.inj hcall
      obtain ⟨hmem, hworkflow⟩ := JobTables.mem_nodeRunsOf.mp hrun
      exact (h.rows.settled run hmem hworkflow).resolve_right (h.idle hidle run hmem hworkflow)
    · obtain rfl := Option.some.inj hcall
      simp at htask
  | exhausted hactive hhead _ =>
    refine ⟨h.rows, fun _ => h.none_running hinv hactive hhead, fun call hcall => ?_,
      fun call hcall => ?_⟩
    · cases hcall
    · cases hcall
  | @chosen active hactive _ _ =>
    refine ⟨h.rows, fun hnone => by simp at hnone, fun call hcall => ?_,
      fun call hcall task htask => ?_⟩
    · obtain rfl := Option.some.inj hcall
      exact h.memory active hactive
    · obtain rfl := Option.some.inj hcall
      obtain ⟨node, -, rfl⟩ := List.mem_map.mp htask
      simp
  | @begun active index task run hactive htask hrun hresult hstarted =>
    have hcall := hinv.call active hactive
    have htaskInv := hcall.tasks task (List.mem_of_getElem? htask)
    obtain ⟨attempt, runId, now, rfl⟩ := hstarted
    refine h.setTask hactive (h.rows.begun hafter.rows rfl ?_) (by simp [hresult])
    exact .of_runnable h.rows.reached hcall hinv.rows htaskInv.node_mem htaskInv.runnable
  | @completed active index task run reply elapsed output rows outcome tables hactive htask hrun
      hresult hexecution hrows houtcome =>
    have hcall := hinv.call active hactive
    have htaskInv := hcall.tasks task (List.mem_of_getElem? htask)
    obtain ⟨hmem, hrunning, hid, hworkflow, -⟩ := htaskInv.in_flight run hrun hresult
    refine h.setTask hactive ?_ fun _ => houtcome
    have hrowsInv := hafter.rows
    simp only [RunnerState.setTask, hrows] at hrowsInv
    rw [hrows]
    have hupdate : RowUpdate fun row => if JobTables.isRunningRow run.id row then
        completedWith row elapsed (persistedOutput task.node.inputs output) rows else row :=
      .ite (fun _ hmatch => isRunningRow_blocks hmatch) fun _ => ⟨rfl, rfl, rfl⟩
    have hself : JobTables.isRunningRow run.id run = true := by
      simp [JobTables.isRunningRow, hrunning]
    refine h.rows.completed run hupdate hrowsInv (fun row hrow => ?_) ?_ ?_
    · by_cases hmatch : JobTables.isRunningRow run.id row = true
      · simp only [JobTables.isRunningRow, decide_eq_true_eq] at hmatch
        exact Or.inl (hinv.rows.eq_of_id hrow hmem hmatch.1)
      · exact Or.inr (if_neg hmatch)
    · simp [hself, completedWith]
    · rw [hid]
      have hdone : IsDone env.workflow.id (state.tables.nodeRuns.map fun row =>
          if JobTables.isRunningRow run.id row then
            completedWith row elapsed (persistedOutput task.node.inputs output) rows
          else row) (completedWith run elapsed (persistedOutput task.node.inputs output) rows) :=
        ⟨List.mem_map.mpr ⟨run, hmem, by simp [hself]⟩, hworkflow, rfl⟩
      refine decided_of_execution hids hcall hinv.rows h.rows.reached hrowsInv (fun row hkept => ?_)
        htaskInv.node_mem hexecution hid hdone
      exact ⟨List.mem_map.mpr ⟨row, hkept.1, hupdate.completed_fixed row hkept.2.2⟩, hkept.2⟩
  | @collected active results _ hactive hbatch hresults hcollect =>
    have hcompletes : ∀ task ∈ active.batch, task.completes = true := fun task htask =>
      h.tasks active hactive task htask (batchResults_isSome hresults task htask)
    obtain ⟨outcomes, rfl, hfailed, hwaiting, rfl⟩ :=
      hcollect.continued_of_completes hcompletes hresults
    refine ⟨by simpa [RunnerState.recorded] using h.rows, fun hnone => by simp at hnone,
      fun call hcall run hrun => ?_, fun call hcall task htask => ?_⟩
    · obtain rfl := Option.some.inj hcall
      rcases mem_collectCompleted.mp hrun with hold | ⟨decision, nodeId, cost, houtcome⟩
      · exact h.memory active hactive run hold
      · obtain ⟨task, htask, hresult⟩ := (batchResults_ok hresults).2 _ houtcome
        exact (((hinv.call active hactive).tasks task htask).finished _ _ _ _ hresult).2.1
    · obtain rfl := Option.some.inj hcall
      simp at htask

theorem unhindered_reachable (hids : (env.workflow.nodes.map (·.id)).Nodup)
    (h : (runner env).ReachableVia (fun s a => unhindered env s a = true) state) :
    UnhinderedInv env state :=
  h.invariant_under (fun hr => runner_reachable hids hr.reachable) (fun _ => .init)
    fun _ _ _ hinv hclear hcond hstep => hclear.step hinv hids
      (hinv.effect hids (runnerStep_effect hstep)) ((runnerStep_effect hstep).unhindered hcond)

/-- Nothing but completion keeps a node whose dependencies are satisfied from running. -/
theorem runnable_or_completed {workflow : ExecutionWorkflow} {runs : List WorkflowNodeRun}
    {node : WorkflowNode} (hruns : ∀ run ∈ runs, run.status = .completed)
    (h : dependenciesSatisfied node workflow runs = true) :
    runnable node workflow runs = true ∨ node.id ∈ completedIds runs := by
  by_cases hdone : node.id ∈ completedIds runs
  · exact Or.inr hdone
  · refine Or.inl (runnable_iff.mpr ⟨fun run hrun hid => absurd ?_ hdone, h⟩)
    exact mem_completedIds.mpr ⟨run, hrun, hid, hruns run hrun⟩

/-- At a loop head the call counts as completed whatever has durably completed. -/
theorem UnhinderedInv.mem_completedIds (h : UnhinderedInv env state) (hinv : RunnerInv env state)
    (hactive : state.active = some active) (hhead : active.batch = []) {id : NodeId}
    (hdone : durablyCompleted env.workflow.id state.tables.nodeRuns id) :
    id ∈ completedIds active.runs := by
  obtain ⟨row, hrow, rfl⟩ := durablyCompleted_iff.mp hdone
  rcases (hinv.call active hactive).seen row hrow.1 hrow.2.1 hrow.blocks with
    ⟨run, hrun, hid, -⟩ | ⟨task, htask, -⟩
  · exact Workflow.mem_completedIds.mpr ⟨run, hrun, hid, h.memory active hactive run hrun⟩
  · simp [hhead] at htask

/-- A call with nothing left to run has completed everything its outcomes lead to. -/
theorem UnhinderedInv.completed_of_way (h : UnhinderedInv env state) (hinv : RunnerInv env state)
    (hknown : env.workflow.EdgesKnown) (hactive : state.active = some active)
    (hnodes : runnableNodes env.workflow active.runs = []) {way : List NodeId} {id : NodeId}
    (hway : Way env.workflow (outcomesOf env.workflow.id state.tables.nodeRuns) way id) :
    id ∈ completedIds active.runs := by
  have hended : ∀ node ∈ env.workflow.nodes,
      dependenciesSatisfied node env.workflow active.runs = true →
        node.id ∈ completedIds active.runs := by
    intro node hnode hdependencies
    rcases runnable_or_completed (h.memory active hactive) hdependencies with hrunnable | hdone
    · have := mem_runnableNodes.mpr ⟨hnode, hrunnable⟩
      simp [hnodes] at this
    · exact hdone
  induction hway with
  | entry hnode hentry => exact hended _ hnode (dependenciesSatisfied_iff.mpr (Or.inl hentry))
  | @step way edge _ hedge hadmitted ih =>
    obtain ⟨target, htarget, hid⟩ := List.mem_map.mp (hknown edge hedge).2
    rw [← hid]
    refine hended target htarget
      (dependenciesSatisfied_iff.mpr (Or.inr ⟨edge, hedge, hid.symm, ih, ?_⟩))
    exact ((hinv.call active hactive).edgeConditionMatches_iff hinv.rows ih).mpr hadmitted

/-- So when the outcomes always lead to a terminal node the call ends well. -/
theorem UnhinderedInv.exhaustedOutcome_eq (h : UnhinderedInv env state) (hinv : RunnerInv env state)
    (hknown : env.workflow.EdgesKnown) (hprogress : Progresses env.workflow)
    (hactive : state.active = some active)
    (hnodes : runnableNodes env.workflow active.runs = []) :
    exhaustedOutcome env.workflow active.runs = .completed := by
  have hcompleted : ∀ id, Reached env.workflow
      (outcomesOf env.workflow.id state.tables.nodeRuns) id → id ∈ completedIds active.runs :=
    fun id ⟨_, hway⟩ => h.completed_of_way hinv hknown hactive hnodes hway
  obtain ⟨node, hnode, hterminal, hreached⟩ := hprogress.completes _ fun id hreached => by
    obtain ⟨row, hdone, rfl⟩ := durablyCompleted_iff.mp
      ((hinv.call active hactive).durablyCompleted (hcompleted id hreached))
    exact h.rows.decided row hdone
  refine if_pos (List.any_eq_true.mpr ⟨node, hnode, ?_⟩)
  simp [hterminal, hcompleted node.id hreached]

/-- At a loop head the arm of every completed branch is runnable or has completed. -/
theorem UnhinderedInv.arm (h : UnhinderedInv env state) (hinv : RunnerInv env state)
    (hprogress : Progresses env.workflow) (hactive : state.active = some active)
    (hhead : active.batch = []) {node : WorkflowNode} (hnode : node ∈ env.workflow.nodes)
    {branch : CardinalityBranchNode} (hkind : node.kind = .cardinalityBranch branch)
    (hdone : node.id ∈ completedIds active.runs) :
    ∃ decision, cardinalityFor active.runs branch.source = .ok decision ∧
      ∀ arm ∈ env.workflow.nodes, arm.id = branch.arm decision →
        runnable arm env.workflow active.runs = true ∨ arm.id ∈ completedIds active.runs := by
  have hcall := hinv.call active hactive
  have hcompleted : ∀ {id}, durablyCompleted env.workflow.id state.tables.nodeRuns id →
      id ∈ completedIds active.runs := h.mem_completedIds hinv hactive hhead
  have hdecided : ∀ {id}, durablyCompleted env.workflow.id state.tables.nodeRuns id →
      Decided env.workflow (outcomesOf env.workflow.id state.tables.nodeRuns) id := by
    intro id hid
    obtain ⟨row, hrow, rfl⟩ := durablyCompleted_iff.mp hid
    exact h.rows.decided row hrow
  have hdurable := hcall.durablyCompleted hdone
  obtain ⟨-, decision, hsource, -⟩ := hdecided hdurable node hnode rfl branch hkind
  obtain ⟨source, hsourceDone, hsourceId, -⟩ := exists_done_of_outcomesOf hsource
  have hsourceCompleted := hcompleted (durablyCompleted_iff.mpr ⟨source, hsourceDone, hsourceId⟩)
  refine ⟨decision, (hcall.cardinalityFor_eq_ok hinv.rows hsourceCompleted).mpr hsource,
    fun arm harm hid => runnable_or_completed (h.memory active hactive) ?_⟩
  obtain ⟨row, ⟨hrow, hworkflow, -⟩, hrowId⟩ := durablyCompleted_iff.mp hdurable
  obtain ⟨way, hway, hbefore⟩ := h.rows.reached row hrow hworkflow
  rw [hrowId] at hway
  have hdurableWay : ∀ id ∈ node.id :: way,
      durablyCompleted env.workflow.id state.tables.nodeRuns id := by
    intro id hmem
    rcases List.mem_cons.mp hmem with rfl | hmem
    · exact hdurable
    · exact hbefore id hmem
  rcases hprogress.arms _ way node hnode branch decision hkind hway
    (fun id hmem => hdecided (hdurableWay id hmem)) hsource with
      hentry | ⟨edge, hedge, htarget, hmem, hadmitted⟩
  · exact dependenciesSatisfied_iff.mpr (Or.inl (hid ▸ hentry))
  · have hedgeDone := hcompleted (hdurableWay edge.source hmem)
    exact dependenciesSatisfied_iff.mpr (Or.inr ⟨edge, hedge, htarget.trans hid.symm, hedgeDone,
      (hcall.edgeConditionMatches_iff hinv.rows hedgeDone).mpr hadmitted⟩)

end Runs

section Work

variable {state after : RunnerState} {active : ActiveRun}

theorem sum_map_set_lt {α : Type*} {f : α → ℕ} {l : List α} {i : ℕ} {a a' : α}
    (ha : l[i]? = some a) (hless : f a' < f a) : ((l.set i a').map f).sum < (l.map f).sum := by
  induction l generalizing i with
  | nil => simp at ha
  | cons x xs ih =>
    cases i with
    | zero =>
      obtain rfl : x = a := by simpa using ha
      simpa using hless
    | succ i => simpa using ih (by simpa using ha)

theorem callWork_setTask {workflow : ExecutionWorkflow} {index : ℕ} {task : NodeTask}
    {written : NodeTask × JobTables} (hactive : state.active = some active)
    (htask : active.batch[index]? = some task) (hless : written.1.work < task.work) :
    callWork workflow (state.setTask active index written) < callWork workflow state := by
  have hbatch : active.batch ≠ [] := by
    rintro hnil
    simp [hnil] at htask
  have hsum := sum_map_set_lt htask hless
  simp only [callWork, RunnerState.setTask, hactive, List.set_eq_nil_iff, hbatch, if_false,
    List.length_set]
  omega

/-- Every step of an unhindered call uses up some of its work. -/
theorem callWork_step (hids : (env.workflow.nodes.map (·.id)).Nodup)
    (hinv : RunnerInv env state) (hclear : UnhinderedInv env state) (hcalling : state.active ≠ none)
    (heffect : UnhinderedEffect env state after) :
    callWork env.workflow after < callWork env.workflow state := by
  cases heffect with
  | started hidle => exact absurd hidle hcalling
  | exhausted hactive hhead _ => simp [callWork, RunnerState.ended, hactive, hhead]
  | @chosen active hactive hhead hbatch =>
    have hlength : (selectBatch env.workflow active.runs active.consumed).length ≤
        (openNodes env.workflow active.runs).length := by
      refine (List.subperm_of_subset ?_ fun node hnode => ?_).length_le
      · exact (selectBatch_ids_nodup active.runs active.consumed hids).of_map
      · obtain ⟨hmem, hrunnable⟩ := mem_runnableNodes.mp ((selectBatch_sublist _ _ _).subset hnode)
        exact openNodes_of_runnable hmem hrunnable
    have hpos := List.length_pos_of_ne_nil hbatch
    have hfresh : ∀ nodes : List WorkflowNode, ((nodes.map fun node =>
        (⟨node, none, none⟩ : NodeTask)).map NodeTask.work).sum = 2 * nodes.length := by
      intro nodes
      simp [Function.comp_def, NodeTask.work, mul_comm]
    simp only [callWork, hactive, hhead, if_true, List.map_eq_nil_iff, hbatch, if_false, hfresh,
      List.length_map]
    omega
  | begun hactive htask hrun hresult _ =>
    exact callWork_setTask hactive htask (by simp [NodeTask.work, hrun, hresult])
  | completed hactive htask hrun hresult _ _ _ =>
    exact callWork_setTask hactive htask (by simp [NodeTask.work, hrun, hresult])
  | @collected active results _ hactive hbatch hresults hcollect =>
    have hcompletes : ∀ task ∈ active.batch, task.completes = true := fun task htask =>
      hclear.tasks active hactive task htask (batchResults_isSome hresults task htask)
    obtain ⟨outcomes, rfl, hfailed, hwaiting, rfl⟩ :=
      hcollect.continued_of_completes hcompletes hresults
    have hopen := openNodes_collectCompleted hids (hinv.call active hactive) hresults
      hfailed hwaiting
    simp only [callWork, hactive, hbatch, if_true, if_false]
    omega

/-- When every task has a result the batch has. -/
theorem batchResults_of_results {batch : List NodeTask}
    (h : ∀ task ∈ batch, task.result ≠ none) : (batchResults batch).isSome = true := by
  induction batch with
  | nil => rfl
  | cons task rest ih =>
    obtain ⟨result, hresult⟩ := Option.ne_none_iff_exists'.mp (h task List.mem_cons_self)
    obtain ⟨results, hresults⟩ := Option.isSome_iff_exists.mp
      (ih fun other hother => h other (List.mem_cons_of_mem _ hother))
    simp [batchResults, hresult, hresults]

/-- A call never has to wait for anything but its own nodes. -/
theorem exists_callAction (hactive : state.active = some active) (reply : ρ) :
    ∃ action, callAction action = true ∧ (runnerStep env state action).isSome = true := by
  by_cases hhead : active.batch = []
  · exact ⟨.select, rfl, by simp [runnerStep, hactive, hhead]⟩
  by_cases hopen : ∃ task ∈ active.batch, task.result = none
  · obtain ⟨task, htask, hresult⟩ := hopen
    obtain ⟨index, hindex⟩ := List.getElem?_of_mem htask
    cases hrun : task.run with
    | none =>
      obtain ⟨runId, hfresh⟩ := Infinite.exists_notMem_finset
        (state.tables.nodeRuns.map (·.id)).toFinset
      refine ⟨.begin index runId 0, rfl, ?_⟩
      have hnew : ∀ row ∈ state.tables.nodeRuns, row.id ≠ runId := by
        rintro row hrow rfl
        exact hfresh (List.mem_toFinset.mpr (List.mem_map.mpr ⟨row, hrow, rfl⟩))
      simp only [runnerStep, hactive, hindex, hrun, hresult]
      rw [if_pos ⟨trivial, rfl, hnew⟩]
      rfl
    | some run =>
      exact ⟨.finish index reply 0, rfl, by simp [runnerStep, hactive, hindex, hrun, hresult]⟩
  · refine ⟨.collect, rfl, ?_⟩
    simp only [runnerStep, hactive, hhead, if_false, Option.isSome_map]
    exact batchResults_of_results fun task htask hnone => hopen ⟨task, htask, hnone⟩

end Work

/-- In a verified workflow whose edges lead on whatever the nodes count for, an unhindered
call ends as completed, and at every loop head the node a completed branch decided for is
runnable or has completed. It always has a step to take, and only finitely many. -/
theorem call_progresses {sort : DirectedGraph.TopologicalSort NodeId} {verified : VerifiedWorkflow}
    {state : RunnerState}
    (hverify : verify sort env.workflow env.principal env.catalog = .ok verified)
    (hprogress : Progresses env.workflow)
    (hreach : (runner env).ReachableVia (fun s a => unhindered env s a = true) state) :
    ∀ active, state.active = some active →
      (∀ action after, unhindered env state action = true →
        runnerStep env state action = some after →
          (after.active = none → after.outcome = some (.ok .completed)) ∧
          callWork env.workflow after < callWork env.workflow state) ∧
      (∀ reply : ρ, ∃ action, callAction action = true ∧
        (runnerStep env state action).isSome = true) ∧
      (active.batch = [] → ∀ node ∈ env.workflow.nodes, ∀ branch,
        node.kind = .cardinalityBranch branch → node.id ∈ completedIds active.runs →
          ∃ decision, cardinalityFor active.runs branch.source = .ok decision ∧
            ∃ arm ∈ env.workflow.nodes, arm.id = branch.arm decision ∧
              (arm ∈ runnableNodes env.workflow active.runs ∨
                arm.id ∈ completedIds active.runs)) := by
  intro active hactive
  obtain ⟨-, hshape, -⟩ := verify_eq_ok.mp hverify
  have hinv := runner_reachable hshape.ids_nodup hreach.reachable
  have hclear := unhindered_reachable hshape.ids_nodup hreach
  refine ⟨fun action after hcond hstep => ⟨fun hidle => ?_, ?_⟩, exists_callAction hactive,
    fun hhead node hnode branch hkind hdone => ?_⟩
  · cases (runnerStep_effect hstep).unhindered hcond with
    | started hnone => simp [hactive] at hnone
    | @exhausted call hcall hhead hnodes =>
      rw [RunnerState.ended,
        hclear.exhaustedOutcome_eq hinv hshape.edges_known hprogress hcall hnodes]
    | chosen _ _ _ => cases hidle
    | begun _ _ _ _ _ => cases hidle
    | completed _ _ _ _ _ _ _ => cases hidle
    | @collected call results _ hcall _ hresults hcollect =>
      obtain ⟨outcomes, -, -, -, rfl⟩ := hcollect.continued_of_completes (fun task htask =>
        hclear.tasks call hcall task htask (batchResults_isSome hresults task htask)) hresults
      cases hidle
  · exact callWork_step hshape.ids_nodup hinv hclear (by simp [hactive])
      ((runnerStep_effect hstep).unhindered hcond)
  · obtain ⟨decision, hsource, harm⟩ :=
      hclear.arm hinv hprogress hactive hhead hnode hkind hdone
    have hnamed : branch.arm decision ∈ referencedNodes node := by
      cases decision <;> simp [referencedNodes, hkind, CardinalityBranchNode.arm]
    obtain ⟨arm, hmem, hid⟩ := verify_references hverify node hnode _ hnamed
    refine ⟨decision, hsource, arm, hmem, hid, ?_⟩
    exact (harm arm hmem hid).imp (fun hrunnable => mem_runnableNodes.mpr ⟨hmem, hrunnable⟩) id

namespace Bypass

/-- The branch decides by the probe and counts for its decision. -/
theorem decided_branch {outcomes : Outcomes} (h : Decided workflow outcomes branchId) :
    ∃ decision, outcomes probeId = some decision ∧ outcomes branchId = some decision := by
  obtain ⟨-, decision, hsource, hown⟩ := h
    (node branchId (.cardinalityBranch ⟨probeId, reportId, lookupId, doneId⟩) [] [] 0)
    (by decide) rfl ⟨probeId, reportId, lookupId, doneId⟩ rfl
  exact ⟨decision, hsource, hown⟩

/-- Every decision of the branch has its edge. -/
theorem progresses : Progresses workflow where
  completes outcomes hdecided := by
    have hprobe : Reached workflow outcomes probeId :=
      ⟨[], .entry (show node probeId query [scope] [] 1 ∈ workflow.nodes by decide) (by decide)⟩
    have hbranch := hprobe.step ⟨probeId, branchId, .always⟩ rfl (by decide) trivial
    obtain ⟨decision, -, hown⟩ := decided_branch (hdecided branchId hbranch)
    have hdone : Reached workflow outcomes doneId := by
      cases decision with
      | zero =>
        exact (hbranch.step ⟨branchId, reportId, .cardinality .zero⟩ rfl (by decide) hown).step
          ⟨reportId, doneId, .always⟩ rfl (by decide) trivial
      | one =>
        have hlookup := hbranch.step ⟨branchId, lookupId, .cardinality .one⟩ rfl (by decide) hown
        exact (hlookup.step ⟨lookupId, reportId, .always⟩ rfl (by decide) trivial).step
          ⟨reportId, doneId, .always⟩ rfl (by decide) trivial
      | many => exact hbranch.step ⟨branchId, doneId, .cardinality .many⟩ rfl (by decide) hown
    exact ⟨node doneId (.complete ⟨.success⟩) [] [] 0, by decide, rfl, hdone⟩
  arms outcomes way branchNode hnode branch decision hkind hway hdecided hsource := by
    obtain ⟨hid, rfl⟩ : branchNode.id = branchId ∧
        branch = ⟨probeId, reportId, lookupId, doneId⟩ := by
      fin_cases hnode <;> simp_all [Bypass.node, query]
    obtain ⟨other, hother, hown⟩ := decided_branch (hid ▸ hdecided branchNode.id
      List.mem_cons_self)
    obtain rfl : other = decision := Option.some.inj (hother.symm.trans hsource)
    right
    cases other with
    | zero =>
      exact ⟨⟨branchId, reportId, .cardinality .zero⟩, by decide, rfl, by simp [hid], hown⟩
    | one => exact ⟨⟨branchId, lookupId, .cardinality .one⟩, by decide, rfl, by simp [hid], hown⟩
    | many => exact ⟨⟨branchId, doneId, .cardinality .many⟩, by decide, rfl, by simp [hid], hown⟩

/-- The probe finds many rows and the branch decides for the terminal node. -/
def decidedMany : List (RunnerAction NodeExecution) :=
  probed 7 ++ [.select, .begin 0 12 2, .finish 0 (.completed (.obj []) 0) 5, .collect]

end Bypass

theorem call_progresses_after_branch : ∃ state active,
    (runner Bypass.setup).ReachableVia (fun s a => unhindered Bypass.setup s a = true) state ∧
      state.active = some active ∧ Bypass.branchId ∈ completedIds active.runs ∧
      ∃ decision, cardinalityFor active.runs Bypass.probeId = .ok decision ∧
        ∃ arm ∈ Bypass.workflow.nodes,
          arm ∈ runnableNodes Bypass.workflow active.runs ∨
            arm.id ∈ completedIds active.runs := by
  have hstart : (runner Bypass.setup).ReachableVia
      (fun s a => unhindered Bypass.setup s a = true) Bypass.start :=
    .init ⟨rfl, List.nodup_nil, by simp [Bypass.start]⟩
  have hrun : ((runner Bypass.setup).runVia (fun s a => unhindered Bypass.setup s a = true)
      Bypass.start Bypass.decidedMany).any (fun state => state.active.any fun active =>
        active.batch.isEmpty && decide (Bypass.branchId ∈ completedIds active.runs)) = true := by
    decide
  obtain ⟨state, hreach, htest⟩ := hstart.exists_of_runVia hrun
  obtain ⟨active, hactive, hhead⟩ := (Option.any_eq_true _ _).mp htest
  simp only [Bool.and_eq_true, List.isEmpty_iff, decide_eq_true_eq] at hhead
  obtain ⟨-, -, harm⟩ := call_progresses Bypass.accepted Bypass.progresses
    hreach active hactive
  obtain ⟨decision, hdecision, arm, hmem, -, hends⟩ := harm hhead.1
    (Bypass.node Bypass.branchId (.cardinalityBranch
      ⟨Bypass.probeId, Bypass.reportId, Bypass.lookupId, Bypass.doneId⟩) [] [] 0)
    (by decide) _ rfl hhead.2
  exact ⟨state, active, hreach, hactive, hhead.2, decision, hdecision, arm, hmem, hends⟩

namespace DeadEnd

/-! A branch whose arm for no rows has an edge under another decision only. -/

open Bypass

def workflow : ExecutionWorkflow :=
  { Bypass.workflow with
    nodes :=
      [node probeId query [scope] [] 1,
       node branchId (.cardinalityBranch ⟨probeId, reportId, reportId, doneId⟩) [] [] 0,
       node reportId query [scope] [] 1,
       node doneId (.complete ⟨.success⟩) [] [] 0]
    edges :=
      [⟨probeId, branchId, .always⟩, ⟨branchId, reportId, .cardinality .one⟩,
       ⟨branchId, doneId, .cardinality .many⟩, ⟨reportId, doneId, .always⟩] }

def setup : RunnerEnv NodeExecution := { Bypass.setup with workflow := workflow }

/-- The probe finds no rows and the branch decides. -/
def decidedZero : List (RunnerAction NodeExecution) :=
  probed 0 ++ [.select, .begin 0 12 2, .finish 0 (.completed (.obj []) 0) 5, .collect]

end DeadEnd

/-- A verified workflow, every node of which completes, ends as failed: the branch has
decided for the report, and the report never becomes runnable. -/
theorem unhindered_call_fails : ∃ before active after,
    verify DirectedGraph.sourceRemoval DeadEnd.setup.workflow DeadEnd.setup.principal
        DeadEnd.setup.catalog = .ok ⟨DeadEnd.workflow⟩ ∧
      (runner DeadEnd.setup).ReachableVia (fun s a => unhindered DeadEnd.setup s a = true) before ∧
      before.active = some active ∧ active.batch = [] ∧
      Bypass.branchId ∈ completedIds active.runs ∧
      cardinalityFor active.runs Bypass.probeId = .ok .zero ∧
      runnableNodes DeadEnd.workflow active.runs = [] ∧
      Bypass.reportId ∉ completedIds active.runs ∧
      unhindered DeadEnd.setup before .select = true ∧
      runnerStep DeadEnd.setup before .select = some after ∧
      after.active = none ∧ after.outcome = some (.ok .failed) := by
  have hstart : (runner DeadEnd.setup).ReachableVia
      (fun s a => unhindered DeadEnd.setup s a = true) Bypass.start :=
    .init ⟨rfl, List.nodup_nil, by simp [Bypass.start]⟩
  have hrun : ((runner DeadEnd.setup).runVia (fun s a => unhindered DeadEnd.setup s a = true)
      Bypass.start DeadEnd.decidedZero).any (fun state =>
        unhindered DeadEnd.setup state .select && (state.active.any fun active =>
          decide (active.batch = [] ∧ Bypass.branchId ∈ completedIds active.runs ∧
            cardinalityFor active.runs Bypass.probeId = .ok .zero ∧
            runnableNodes DeadEnd.workflow active.runs = [] ∧
            Bypass.reportId ∉ completedIds active.runs)) &&
        (runnerStep DeadEnd.setup state .select).any fun after => after.active.isNone &&
          decide (after.outcome = some (.ok .failed))) = true := by decide
  obtain ⟨before, hreach, htest⟩ := hstart.exists_of_runVia hrun
  simp only [Bool.and_eq_true] at htest
  obtain ⟨⟨hclear, hcall⟩, hends⟩ := htest
  obtain ⟨active, hactive, hhead⟩ := (Option.any_eq_true _ _).mp hcall
  obtain ⟨hbatch, hbranch, hzero, hnodes, hreport⟩ := of_decide_eq_true hhead
  obtain ⟨after, hstep, hafter⟩ := (Option.any_eq_true _ _).mp hends
  simp only [Bool.and_eq_true, Option.isNone_iff_eq_none, decide_eq_true_eq] at hafter
  exact ⟨before, active, after, by decide, hreach, hactive, hbatch, hbranch, hzero, hnodes,
    hreport, hclear, hstep, hafter.1, hafter.2⟩

end FineractReports.Workflow
