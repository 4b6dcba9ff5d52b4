import FineractReports.Workflow.BudgetLedger
import FineractReports.Workflow.ProducerOrder

/-!
# Rows left running

A row is inserted as running before the node executes and moved when the node
ends. Between the two lie the early exits of `execute_node` and of the batch: an
error after the row was written, and a waiting node whose pause never comes. The
runs without such an exit leave no row behind.
-/

namespace FineractReports.Workflow

variable {ρ : Type}

namespace NodeTask

def waits (task : NodeTask) : Bool :=
  match task.result with
  | some (.ok (.waiting _ _)) => true
  | _ => false

def completes (task : NodeTask) : Bool :=
  match task.result with
  | some (.ok (.completed _ _ _ _)) => true
  | _ => false

def errs (task : NodeTask) : Bool :=
  match task.result with
  | some (.error _) => true
  | _ => false

/-- Nothing has moved the row of the task yet. -/
def isOpen (task : NodeTask) : Bool := task.result.isNone || task.waits

end NodeTask

/-- The pause finds one running row of the node, and the job with this workflow on it. -/
def pauseAccepted (tables : JobTables) (userId workflowId : Uuid) (nodeId : NodeId) : Bool :=
  decide ((tables.nodeRuns.filter (JobTables.isNodeRow workflowId nodeId .running)).length = 1 ∧
    tables.userId = userId ∧ tables.workflowId = some workflowId)

/-- A batch nobody waits in, or one whose only waiting node is among completed ones and
can be paused at. -/
def waitsAlone (env : RunnerEnv ρ) (tables : JobTables) (batch : List NodeTask) : Bool :=
  !batch.any NodeTask.waits ||
    (batch.all (fun task => task.waits || task.completes) &&
      match batch.filter NodeTask.waits with
      | [task] =>
        pauseAccepted tables env.principal.userId env.workflow.id task.node.id
      | _ => false)

/-- The step is none of the exits that forget a running row. -/
def forgetsNoRow (env : RunnerEnv ρ) (state : RunnerState) (action : RunnerAction ρ) : Bool :=
  match state.active, action with
  | some active, .finish index reply elapsed =>
    (active.batch[index]?).all fun task => task.run.all fun run =>
      !(finishTask env state.tables active.runs task run reply elapsed).1.errs
  | some active, .cancel index elapsed =>
    (active.batch[index]?).all fun task => task.run.all fun run =>
      !(cancelTask env state.tables active.runs task run elapsed).1.errs
  | some active, .stateError index _ =>
    (active.batch[index]?).all fun task => task.run.isNone
  | some active, .auditError index reply elapsed _ =>
    (active.batch[index]?).all fun task => task.run.all fun run =>
      let ended := (finishTask env state.tables active.runs task run reply elapsed).1
      !(ended.errs || ended.waits)
  | some active, .collect => waitsAlone env state.tables active.batch
  | some active, .collectError _ => !active.batch.any NodeTask.waits
  | _, _ => true

variable {env : RunnerEnv ρ}

/-- Rows keep their identity, and none of them starts running. -/
structure RowsMoved (before after : List WorkflowNodeRun) : Prop where
  identity : ∀ row ∈ after, ∃ old ∈ before, old.id = row.id ∧ old.nodeId = row.nodeId
  ids : ∀ old ∈ before, old.id ∈ after.map (·.id)
  running : ∀ row ∈ after, row.status = .running → row ∈ before

namespace RowsMoved

variable {before after : List WorkflowNodeRun}

theorem refl (rows : List WorkflowNodeRun) : RowsMoved rows rows where
  identity row hrow := ⟨row, hrow, rfl, rfl⟩
  ids old hold := List.mem_map.mpr ⟨old, hold, rfl⟩
  running _ hrow _ := hrow

/-- The conditional updates of the repository. -/
theorem ite {matching : WorkflowNodeRun → Bool} {update : WorkflowNodeRun → WorkflowNodeRun}
    (rows : List WorkflowNodeRun)
    (hkeep : ∀ row, (update row).id = row.id ∧ (update row).nodeId = row.nodeId)
    (hstatus : ∀ row, (update row).status ≠ .running) :
    RowsMoved rows (rows.map fun row => if matching row then update row else row) where
  identity row hrow := by
    obtain ⟨old, hold, rfl⟩ := List.mem_map.mp hrow
    refine ⟨old, hold, ?_⟩
    split_ifs
    · exact ⟨(hkeep old).1.symm, (hkeep old).2.symm⟩
    · exact ⟨rfl, rfl⟩
  ids old hold := by
    refine List.mem_map.mpr ⟨_, List.mem_map.mpr ⟨old, hold, rfl⟩, ?_⟩
    split_ifs
    exacts [(hkeep old).1, rfl]
  running row hrow hrunning := by
    obtain ⟨old, hold, rfl⟩ := List.mem_map.mp hrow
    split_ifs at hrunning ⊢
    · exact absurd hrunning (hstatus old)
    · exact hold

end RowsMoved

theorem failNode_moved (tables : JobTables) (run : WorkflowNodeRun) (elapsed : Int32) :
    RowsMoved tables.nodeRuns (tables.failNode run elapsed).nodeRuns ∧
      ∀ row ∈ (tables.failNode run elapsed).nodeRuns, row.id = run.id → row.status ≠ .running := by
  refine ⟨.ite _ (fun _ => ⟨rfl, rfl⟩) (fun _ => by simp), fun row hrow hid => ?_⟩
  obtain ⟨old, -, rfl⟩ := List.mem_map.mp hrow
  split_ifs at hid ⊢ with hmatch
  · simp
  · simpa [JobTables.isRunningRow, hid] using hmatch

theorem completeNode_moved {tables after : JobTables} {run : WorkflowNodeRun} {output : Json}
    {rowsReturned elapsed : Int32}
    (h : tables.completeNode run output rowsReturned elapsed = .ok after) :
    RowsMoved tables.nodeRuns after.nodeRuns ∧
      ∀ row ∈ after.nodeRuns, row.id = run.id → row.status ≠ .running := by
  unfold JobTables.completeNode at h
  split_ifs at h
  obtain rfl := Except.ok.inj h
  refine ⟨.ite _ (fun _ => ⟨rfl, rfl⟩) (fun _ => by simp), fun row hrow hid => ?_⟩
  obtain ⟨old, -, rfl⟩ := List.mem_map.mp hrow
  split_ifs at hid ⊢ with hmatch
  · simp
  · simpa [JobTables.isRunningRow, hid] using hmatch

theorem resume_moved (tables : JobTables) (request : WorkflowResumeRequest) :
    RowsMoved tables.nodeRuns (tables.resume request).2.nodeRuns := by
  rcases tables.resume_snd request with hafter | hafter
  · rw [hafter]
    exact .ite _ (fun _ => ⟨rfl, rfl⟩) fun _ => by simp
  · rw [hafter]
    exact .refl _

/-- The end of a node that neither errs nor waits moves its row. -/
theorem settle_moved {tables after : JobTables} {node : WorkflowNode} {run : WorkflowNodeRun}
    {execution : Except String NodeExecution} {elapsed : Int32}
    {result : Except String NodeBatchOutcome}
    (h : settle env tables node run execution elapsed = (result, after)) :
    RowsMoved tables.nodeRuns after.nodeRuns ∧
      ((∃ message, result = .error message) ∨
        (∃ clarification, result = .ok (.waiting node.id clarification)) ∨
        ((∀ nodeId clarification, result ≠ .ok (.waiting nodeId clarification)) ∧
          ∀ row ∈ after.nodeRuns, row.id = run.id → row.status ≠ .running)) := by
  unfold settle at h
  split at h
  · obtain ⟨rfl, rfl⟩ := Prod.mk.inj h
    exact ⟨.refl _, Or.inl ⟨_, rfl⟩⟩
  · simp only at h
    split at h
    · obtain ⟨rfl, rfl⟩ := Prod.mk.inj h
      exact ⟨.refl _, Or.inl ⟨_, rfl⟩⟩
    · rename_i completed hcompleted
      obtain ⟨rfl, rfl⟩ := Prod.mk.inj h
      rw [JobTables.addBudgetConsumed_nodeRuns]
      obtain ⟨hmoved, hclosed⟩ := completeNode_moved hcompleted
      exact ⟨hmoved, Or.inr (Or.inr ⟨by simp, hclosed⟩)⟩
  · obtain ⟨rfl, rfl⟩ := Prod.mk.inj h
    exact ⟨.refl _, Or.inr (Or.inl ⟨_, rfl⟩)⟩
  · obtain ⟨rfl, rfl⟩ := Prod.mk.inj h
    obtain ⟨hmoved, hclosed⟩ := failNode_moved tables run elapsed
    exact ⟨hmoved, Or.inr (Or.inr ⟨by simp, hclosed⟩)⟩

theorem finishTask_moved (env : RunnerEnv ρ) (tables : JobTables) (runs : List WorkflowNodeRun)
    (task : NodeTask) (run : WorkflowNodeRun) (reply : ρ) (elapsed : Int32) :
    ∃ result after, finishTask env tables runs task run reply elapsed =
        ({ task with result := some result }, after) ∧
      RowsMoved tables.nodeRuns after.nodeRuns ∧
      ((∃ message, result = .error message) ∨
        (∃ clarification, result = .ok (.waiting task.node.id clarification)) ∨
        ((∀ nodeId clarification, result ≠ .ok (.waiting nodeId clarification)) ∧
          ∀ row ∈ after.nodeRuns, row.id = run.id → row.status ≠ .running)) :=
  ⟨_, _, rfl, settle_moved rfl⟩

/-- What is known of the row of one task. -/
structure TaskRow (rows : List WorkflowNodeRun) (task : NodeTask) : Prop where
  stored : ∀ run, task.run = some run → run.id ∈ rows.map (·.id)
  named : ∀ run, task.run = some run → ∀ row ∈ rows, row.id = run.id → row.nodeId = task.node.id
  closed : ∀ run, task.run = some run → task.isOpen = false → ∀ row ∈ rows, row.id = run.id →
    row.status ≠ .running
  asks : ∀ nodeId clarification, task.result = some (.ok (.waiting nodeId clarification)) →
    nodeId = task.node.id

/-- Every running row of the workflow is that of a task of the current batch. -/
structure OpenInv (env : RunnerEnv ρ) (state : RunnerState) : Prop where
  owner : ∀ row ∈ state.tables.nodeRuns, row.workflowId = env.workflow.id →
    row.status = .running → ∃ active task run, state.active = some active ∧
      task ∈ active.batch ∧ task.run = some run ∧ run.id = row.id
  tasks : ∀ active, state.active = some active → ∀ task ∈ active.batch,
    TaskRow state.tables.nodeRuns task

theorem TaskRow.moved {before after : List WorkflowNodeRun} {task : NodeTask}
    (h : TaskRow before task) (hmoved : RowsMoved before after) : TaskRow after task where
  stored run hrun := by
    obtain ⟨old, hold, hid⟩ := List.mem_map.mp (h.stored run hrun)
    exact hid ▸ hmoved.ids old hold
  named run hrun row hrow hid := by
    obtain ⟨old, hold, hsame, hnode⟩ := hmoved.identity row hrow
    exact hnode ▸ h.named run hrun old hold (hsame.trans hid)
  closed run hrun hclosed row hrow hid hrunning :=
    h.closed run hrun hclosed row (hmoved.running row hrow hrunning) hid hrunning
  asks := h.asks

/-- A task that ends with a result that is not open, its row moved. -/
theorem TaskRow.ended {rows : List WorkflowNodeRun} {task : NodeTask}
    {result : Except String NodeBatchOutcome} (h : TaskRow rows task)
    (hclosed : ∀ run, task.run = some run →
      (∀ nodeId clarification, result ≠ .ok (.waiting nodeId clarification)) →
        ∀ row ∈ rows, row.id = run.id → row.status ≠ .running)
    (hasks : ∀ nodeId clarification, result = .ok (.waiting nodeId clarification) →
      nodeId = task.node.id) : TaskRow rows { task with result := some result } where
  stored := h.stored
  named := h.named
  closed run hrun hopen := by
    refine hclosed run hrun fun nodeId clarification heq => ?_
    simp [NodeTask.isOpen, NodeTask.waits, heq] at hopen
  asks nodeId clarification heq := hasks nodeId clarification (Option.some.inj heq)

/-- Replacing a task keeps the owners of running rows, when its own row stays its own. -/
theorem OpenInv.setTask {state : RunnerState} {active : ActiveRun} {index : ℕ} {task : NodeTask}
    {written : NodeTask × JobTables} (h : OpenInv env state) (hactive : state.active = some active)
    (htask : active.batch[index]? = some task) (hrun : written.1.run = task.run)
    (hmoved : RowsMoved state.tables.nodeRuns written.2.nodeRuns)
    (hwritten : TaskRow written.2.nodeRuns written.1) :
    OpenInv env (state.setTask active index written) where
  owner row hrow hworkflow hrunning := by
    obtain ⟨call, owner, run, hcall, howner, hownerRun, hid⟩ :=
      h.owner row (hmoved.running row hrow hrunning) hworkflow hrunning
    obtain rfl := Option.some.inj (hactive.symm.trans hcall)
    by_cases hsame : owner = task
    · exact ⟨_, written.1, run, rfl, mem_set_self htask, hrun.trans (hsame ▸ hownerRun), hid⟩
    · exact ⟨_, owner, run, rfl, mem_set_of_ne howner htask hsame, hownerRun, hid⟩
  tasks call hcall other hother := by
    obtain rfl := Option.some.inj hcall
    rcases List.mem_or_eq_of_mem_set hother with hmem | rfl
    · exact (h.tasks active hactive other hmem).moved hmoved
    · exact hwritten

theorem OpenInv.of_idle {state : RunnerState} (hidle : state.active = none)
    (hrows : ∀ row ∈ state.tables.nodeRuns, row.workflowId = env.workflow.id →
      row.status ≠ .running) : OpenInv env state where
  owner row hrow hworkflow hrunning := absurd hrunning (hrows row hrow hworkflow)
  tasks active hactive := by simp [hidle] at hactive

/-- At a loop head nothing is running. -/
theorem OpenInv.none_running {state : RunnerState} {active : ActiveRun} (h : OpenInv env state)
    (hactive : state.active = some active) (hclosed : ∀ task ∈ active.batch, ∀ run,
      task.run = some run → task.isOpen = false) :
    ∀ row ∈ state.tables.nodeRuns, row.workflowId = env.workflow.id → row.status ≠ .running := by
  intro row hrow hworkflow hrunning
  obtain ⟨call, task, run, hcall, htask, hrun, hid⟩ := h.owner row hrow hworkflow hrunning
  obtain rfl := Option.some.inj (hactive.symm.trans hcall)
  exact (h.tasks active hactive task htask).closed run hrun (hclosed task htask run hrun) row hrow
    hid.symm hrunning

theorem OpenInv.begun {state : RunnerState} {active : ActiveRun} {index : ℕ} {task : NodeTask}
    {runId : Uuid} {now : ℕ} (h : OpenInv env state) (hactive : state.active = some active)
    (htask : active.batch[index]? = some task) (hrun : task.run = none)
    (hresult : task.result = none) (hfresh : ∀ row ∈ state.tables.nodeRuns, row.id ≠ runId) :
    OpenInv env
      (state.setTask active index (beginTask env state.tables active.runs task runId now)) := by
  have htaskRow := h.tasks active hactive task (List.mem_of_getElem? htask)
  rcases beginTask_cases env state.tables active.runs task runId now with
    ⟨message, hbegin⟩ | ⟨run, hstarted, -, hbegin⟩
  · rw [hbegin]
    exact h.setTask hactive htask rfl (.refl _) (htaskRow.ended (by simp [hrun]) (by simp))
  · rw [hbegin]
    have hid : run.id = runId := by rw [hstarted]; rfl
    have hrows : (state.tables.beginNode run).nodeRuns = state.tables.nodeRuns ++ [run] := rfl
    have hothers : ∀ other, TaskRow state.tables.nodeRuns other →
        TaskRow (state.tables.nodeRuns ++ [run]) other := by
      intro other hother
      have hne : ∀ own, other.run = some own → run.id ≠ own.id := by
        rintro own hown hsame
        obtain ⟨row, hrow, hrowId⟩ := List.mem_map.mp (hother.stored own hown)
        exact hfresh row hrow (hrowId.trans (hsame.symm.trans hid))
      refine ⟨fun own hown => ?_, fun own hown row hrow hrowId => ?_,
        fun own hown hclosed row hrow hrowId => ?_, hother.asks⟩
      · rw [List.map_append]
        exact List.mem_append_left _ (hother.stored own hown)
      · rcases List.mem_append.mp hrow with hmem | hmem
        · exact hother.named own hown row hmem hrowId
        · obtain rfl := List.mem_singleton.mp hmem
          exact absurd hrowId (hne own hown)
      · rcases List.mem_append.mp hrow with hmem | hmem
        · exact hother.closed own hown hclosed row hmem hrowId
        · obtain rfl := List.mem_singleton.mp hmem
          exact absurd hrowId (hne own hown)
    constructor
    · intro row hrow hworkflow hrunning
      rcases List.mem_append.mp hrow with hmem | hmem
      · obtain ⟨call, owner, own, hcall, howner, hown, hownId⟩ :=
          h.owner row hmem hworkflow hrunning
        obtain rfl := Option.some.inj (hactive.symm.trans hcall)
        have hne : owner ≠ task := by
          rintro rfl
          simp [hrun] at hown
        exact ⟨_, owner, own, rfl, mem_set_of_ne howner htask hne, hown, hownId⟩
      · obtain rfl := List.mem_singleton.mp hmem
        exact ⟨_, { task with run := some _ }, _, rfl, mem_set_self htask, rfl, rfl⟩
    · intro call hcall other hother
      obtain rfl := Option.some.inj hcall
      rcases List.mem_or_eq_of_mem_set hother with hmem | rfl
      · exact hothers other (h.tasks active hactive other hmem)
      · refine ⟨fun own hown => ?_, fun own hown row hrow hrowId => ?_, ?_, ?_⟩
        · obtain rfl : run = own := Option.some.inj hown
          rw [RunnerState.setTask, hrows, List.map_append]
          exact List.mem_append_right _ (List.mem_singleton_self _)
        · obtain rfl : run = own := Option.some.inj hown
          rcases List.mem_append.mp hrow with hmem | hmem
          · exact absurd (hrowId.trans hid) (hfresh row hmem)
          · obtain rfl := List.mem_singleton.mp hmem
            rw [hstarted]
            rfl
        · simp [NodeTask.isOpen, hresult]
        · simp [hresult]

/-- A batch with a result for every task has ended. -/
theorem batchResults_isSome {batch : List NodeTask}
    {results : Except String (List NodeBatchOutcome)} (h : batchResults batch = some results) :
    ∀ task ∈ batch, task.result.isSome = true := by
  induction batch generalizing results with
  | nil => simp
  | cons task rest ih =>
    simp only [batchResults, Option.bind_eq_bind, Option.bind_eq_some_iff] at h
    obtain ⟨result, hresult, others, hothers, -⟩ := h
    intro other hother
    rcases List.mem_cons.mp hother with rfl | hmem
    · simp [hresult]
    · exact ih hothers other hmem

/-- A batch errs only when one of its tasks does. -/
theorem batchResults_error {batch : List NodeTask} {message : String}
    (h : batchResults batch = some (.error message)) : ∃ task ∈ batch, task.errs = true := by
  induction batch generalizing message with
  | nil => simp [batchResults] at h
  | cons task rest ih =>
    simp only [batchResults, Option.bind_eq_bind, Option.bind_eq_some_iff, Option.some.injEq,
      Option.pure_def] at h
    obtain ⟨result, hresult, others, hothers, hjoin⟩ := h
    cases result with
    | error _ => exact ⟨task, List.mem_cons_self, by simp [NodeTask.errs, hresult]⟩
    | ok outcome =>
      cases others with
      | error _ =>
        obtain ⟨other, hother, herrs⟩ := ih hothers
        exact ⟨other, List.mem_cons_of_mem _ hother, herrs⟩
      | ok _ => cases hjoin

theorem waitsAlone_cases {tables : JobTables} {batch : List NodeTask}
    (h : waitsAlone env tables batch = true) :
    (∀ task ∈ batch, task.waits = false) ∨
      ∃ task, batch.filter NodeTask.waits = [task] ∧
        (∀ other ∈ batch, other.waits = true ∨ other.completes = true) ∧
        pauseAccepted tables env.principal.userId env.workflow.id task.node.id = true := by
  simp only [waitsAlone, Bool.or_eq_true, Bool.not_eq_true', List.any_eq_false, Bool.and_eq_true,
    List.all_eq_true] at h
  rcases h with hnone | ⟨hall, hpause⟩
  · exact Or.inl fun task htask => by simpa using hnone task htask
  · split at hpause
    · rename_i task hfilter
      exact Or.inr ⟨task, hfilter, hall, hpause⟩
    · cases hpause

theorem recordDecisions_pauseAccepted (outcomes : List NodeBatchOutcome) (tables : JobTables)
    (userId workflowId : Uuid) (nodeId : NodeId) :
    pauseAccepted (recordDecisions outcomes tables) userId workflowId nodeId =
      pauseAccepted tables userId workflowId nodeId := by
  induction outcomes generalizing tables with
  | nil => rfl
  | cons outcome rest ih =>
    rw [recordDecisions, List.foldl_cons]
    refine (ih _).trans ?_
    split <;> rfl

theorem markWorkflowPaused_of_accepted {tables : JobTables} {userId workflowId : Uuid}
    {nodeId : NodeId} {clarification : ClarificationPayload}
    (h : pauseAccepted tables userId workflowId nodeId = true) (message : String) :
    tables.markWorkflowPaused userId workflowId nodeId clarification ≠ .error message := by
  simp only [pauseAccepted, decide_eq_true_eq] at h
  simp [JobTables.markWorkflowPaused, h.1, h.2.1, h.2.2]

/-- Pausing at a node leaves no row of it running. -/
theorem markWorkflowPaused_moved {tables after : JobTables} {userId workflowId : Uuid}
    {nodeId : NodeId} {clarification : ClarificationPayload}
    (h : tables.markWorkflowPaused userId workflowId nodeId clarification = .ok after) :
    RowsMoved tables.nodeRuns after.nodeRuns ∧ ∀ row ∈ after.nodeRuns,
      row.workflowId = workflowId → row.status = .running → row.nodeId ≠ nodeId := by
  unfold JobTables.markWorkflowPaused at h
  split_ifs at h
  obtain rfl := Except.ok.inj h
  refine ⟨.ite _ (fun _ => ⟨rfl, rfl⟩) (fun _ => by simp), fun row hrow => ?_⟩
  obtain ⟨old, -, rfl⟩ := List.mem_map.mp hrow
  split_ifs with hmatch
  · simp
  · intro hworkflow hrunning hid
    simp [JobTables.isNodeRow, hworkflow, hrunning, hid] at hmatch

theorem NodeTask.waits_iff {task : NodeTask} : task.waits = true ↔
    ∃ nodeId clarification, task.result = some (.ok (.waiting nodeId clarification)) := by
  unfold NodeTask.waits
  split
  · rename_i nodeId clarification hresult
    exact iff_of_true rfl ⟨nodeId, clarification, hresult⟩
  · rename_i hnot
    exact iff_of_false (by simp) fun ⟨nodeId, clarification, hresult⟩ =>
      hnot nodeId clarification hresult

theorem NodeTask.completes_iff {task : NodeTask} : task.completes = true ↔
    ∃ run decision nodeId cost, task.result = some (.ok (.completed run decision nodeId cost)) := by
  unfold NodeTask.completes
  split
  · rename_i run decision nodeId cost hresult
    exact iff_of_true rfl ⟨run, decision, nodeId, cost, hresult⟩
  · rename_i hnot
    exact iff_of_false (by simp) fun ⟨run, decision, nodeId, cost, hresult⟩ =>
      hnot run decision nodeId cost hresult

theorem NodeTask.errs_eq_false {task : NodeTask}
    (h : task.waits = true ∨ task.completes = true) : task.errs = false := by
  rcases h with hwaits | hcompletes
  · obtain ⟨nodeId, clarification, hresult⟩ := NodeTask.waits_iff.mp hwaits
    rw [NodeTask.errs, hresult]
  · obtain ⟨run, decision, nodeId, cost, hresult⟩ := NodeTask.completes_iff.mp hcompletes
    rw [NodeTask.errs, hresult]

/-- A batch of nodes that wait or complete has no failure among its outcomes. -/
theorem anyFailed_eq_false {batch : List NodeTask} {outcomes : List NodeBatchOutcome}
    (hresults : batchResults batch = some (.ok outcomes))
    (hall : ∀ task ∈ batch, task.waits = true ∨ task.completes = true) :
    anyFailed outcomes = false := by
  refine List.any_eq_false.mpr fun outcome houtcome => ?_
  obtain ⟨task, htask, hresult⟩ := (batchResults_ok hresults).2 outcome houtcome
  rcases hall task htask with hwaits | hcompletes
  · obtain ⟨nodeId, clarification, hown⟩ := NodeTask.waits_iff.mp hwaits
    obtain rfl : outcome = .waiting nodeId clarification := by simpa [hresult] using hown
    simp
  · obtain ⟨run, decision, nodeId, cost, hown⟩ := NodeTask.completes_iff.mp hcompletes
    obtain rfl : outcome = .completed run decision nodeId cost := by simpa [hresult] using hown
    simp

/-- The question a batch asks first is that of one of its waiting tasks. -/
theorem firstWaiting_eq_some {batch : List NodeTask} {outcomes : List NodeBatchOutcome}
    {nodeId : NodeId} {clarification : ClarificationPayload}
    (hresults : batchResults batch = some (.ok outcomes))
    (hfirst : firstWaiting outcomes = some (nodeId, clarification)) :
    ∃ task ∈ batch, task.result = some (.ok (.waiting nodeId clarification)) := by
  obtain ⟨outcome, houtcome, hwait⟩ := List.exists_of_findSome?_eq_some hfirst
  obtain ⟨task, htask, hresult⟩ := (batchResults_ok hresults).2 outcome houtcome
  cases outcome with
  | waiting id payload =>
    obtain ⟨rfl, rfl⟩ : id = nodeId ∧ payload = clarification := by simpa using hwait
    exact ⟨task, htask, hresult⟩
  | completed _ _ _ _ => cases hwait
  | failed => cases hwait
  | cancelled => cases hwait

/-- A batch with a waiting task asks something. -/
theorem firstWaiting_ne_none {batch : List NodeTask} {outcomes : List NodeBatchOutcome}
    {task : NodeTask} (hresults : batchResults batch = some (.ok outcomes)) (htask : task ∈ batch)
    (hwaits : task.waits = true) : firstWaiting outcomes ≠ none := by
  intro hnone
  obtain ⟨outcome, houtcome, hresult⟩ := (batchResults_ok hresults).1 task htask
  obtain ⟨nodeId, clarification, hown⟩ := NodeTask.waits_iff.mp hwaits
  obtain rfl : outcome = .waiting nodeId clarification := by simpa [hresult] using hown
  simpa using List.findSome?_eq_none_iff.mp hnone _ houtcome

theorem not_isOpen_of_result {task : NodeTask} (hresult : task.result.isSome = true)
    (hwaits : task.waits = false) : task.isOpen = false := by
  simp [NodeTask.isOpen, hresult, hwaits]

/-- The end of a batch that neither errs nor lets a second node wait. -/
theorem OpenInv.collected {state after : RunnerState} {active : ActiveRun}
    {results : Except String (List NodeBatchOutcome)} (h : OpenInv env state)
    (hactive : state.active = some active) (hresults : batchResults active.batch = some results)
    (halone : waitsAlone env state.tables active.batch = true)
    (hcollect : CollectEffect env state active results after) : OpenInv env after := by
  have hsome := batchResults_isSome hresults
  have hclosed : (∀ task ∈ active.batch, task.waits = false) → ∀ row ∈ state.tables.nodeRuns,
      row.workflowId = env.workflow.id → row.status ≠ .running := fun hwaits =>
    h.none_running hactive fun task htask _ _ =>
      not_isOpen_of_result (hsome task htask) (hwaits task htask)
  have hwaiting : ∀ {outcomes nodeId clarification}, results = .ok outcomes →
      firstWaiting outcomes = some (nodeId, clarification) →
        ∃ task ∈ active.batch, task.waits = true ∧ task.node.id = nodeId := by
    rintro outcomes nodeId clarification rfl hfirst
    obtain ⟨task, htask, hresult⟩ := firstWaiting_eq_some hresults hfirst
    exact ⟨task, htask, NodeTask.waits_iff.mpr ⟨_, _, hresult⟩,
      ((h.tasks active hactive task htask).asks _ _ hresult).symm⟩
  rcases waitsAlone_cases halone with hnone | ⟨task, hfilter, hall, hpauses⟩
  · have hrows := hclosed hnone
    cases hcollect with
    | error _ => exact .of_idle rfl hrows
    | failed _ =>
      exact .of_idle rfl (by simpa [RunnerState.ended, RunnerState.recorded] using hrows)
    | refused _ hfirst _ =>
      obtain ⟨task, htask, hwaits, -⟩ := hwaiting rfl hfirst
      simp [hnone task htask] at hwaits
    | paused _ hfirst _ =>
      obtain ⟨task, htask, hwaits, -⟩ := hwaiting rfl hfirst
      simp [hnone task htask] at hwaits
    | continued _ _ =>
      refine ⟨fun row hrow hworkflow hrunning => ?_, fun call hcall other hother => ?_⟩
      · rw [RunnerState.recorded, recordDecisions_nodeRuns] at hrow
        exact absurd hrunning (hrows row hrow hworkflow)
      · obtain rfl := Option.some.inj hcall
        simp at hother
  · have hmem : task ∈ active.batch.filter NodeTask.waits := by simp [hfilter]
    obtain ⟨htask, hwaits⟩ := List.mem_filter.mp hmem
    have hsole : ∀ other ∈ active.batch, other.waits = true → other = task := by
      intro other hother hotherWaits
      have := List.mem_filter.mpr ⟨hother, hotherWaits⟩
      simpa [hfilter] using this
    cases hcollect with
    | error message =>
      obtain ⟨other, hother, herrs⟩ := batchResults_error hresults
      simp [NodeTask.errs_eq_false (hall other hother)] at herrs
    | failed hfailed =>
      rw [anyFailed_eq_false hresults hall] at hfailed
      cases hfailed
    | @refused outcomes nodeId clarification message _ hfirst hpause =>
      obtain ⟨other, hother, hotherWaits, rfl⟩ := hwaiting rfl hfirst
      obtain rfl := hsole other hother hotherWaits
      refine absurd hpause (markWorkflowPaused_of_accepted ?_ message)
      rw [RunnerState.recorded, recordDecisions_pauseAccepted]
      exact hpauses
    | @paused outcomes nodeId clarification paused _ hfirst hpause =>
      obtain ⟨other, hother, hotherWaits, rfl⟩ := hwaiting rfl hfirst
      obtain rfl := hsole other hother hotherWaits
      obtain ⟨hmoved, hclean⟩ := markWorkflowPaused_moved hpause
      rw [RunnerState.recorded, recordDecisions_nodeRuns] at hmoved
      refine .of_idle rfl fun row hrow hworkflow hrunning => ?_
      have hbefore := hmoved.running row hrow hrunning
      obtain ⟨call, owner, run, hcall, howner, hrun, hid⟩ :=
        h.owner row hbefore hworkflow hrunning
      obtain rfl := Option.some.inj (hactive.symm.trans hcall)
      have howned := h.tasks active hactive owner howner
      by_cases hownerWaits : owner.waits = true
      · obtain rfl := hsole owner howner hownerWaits
        exact hclean row hrow hworkflow hrunning (howned.named run hrun row hbefore hid.symm)
      · have hownerClosed := not_isOpen_of_result (hsome owner howner) (by simpa using hownerWaits)
        exact howned.closed run hrun hownerClosed row hbefore hid.symm hrunning
    | continued _ hfirst => exact absurd hfirst (firstWaiting_ne_none hresults htask hwaits)

theorem OpenInv.step {state after : RunnerState} {action : RunnerAction ρ} (h : OpenInv env state)
    (hkeeps : forgetsNoRow env state action = true)
    (heffect : RunnerEffect env state action after) :
    OpenInv env after := by
  cases heffect with
  | started hidle =>
    refine ⟨fun row hrow hworkflow hrunning => ?_, fun call hcall task htask => ?_⟩
    · obtain ⟨active, -, -, hactive, -⟩ := h.owner row hrow hworkflow hrunning
      simp [hidle] at hactive
    · obtain rfl := Option.some.inj hcall
      simp at htask
  | selected hactive hhead hselect =>
    have hrows := h.none_running hactive (by simp [hhead])
    cases hselect with
    | chosen _ =>
      refine ⟨fun row hrow hworkflow hrunning => absurd hrunning (hrows row hrow hworkflow),
        fun call hcall task htask => ?_⟩
      obtain rfl := Option.some.inj hcall
      obtain ⟨node, -, rfl⟩ := List.mem_map.mp htask
      exact ⟨by simp, by simp, by simp, by simp⟩
    | _ => exact .of_idle rfl hrows
  | begun hactive htask hrun hresult hfresh => exact h.begun hactive htask hrun hresult hfresh
  | @finished active index task run reply elapsed hactive htask hrun hresult =>
    obtain ⟨result, tables, hfinish, hmoved, hend⟩ :=
      finishTask_moved env state.tables active.runs task run reply elapsed
    simp only [forgetsNoRow, hactive, htask, hrun, Option.all_some, hfinish] at hkeeps
    rw [hfinish]
    have hrow := (h.tasks active hactive task (List.mem_of_getElem? htask)).moved hmoved
    refine h.setTask hactive htask rfl hmoved (hrow.ended (fun own hown hnot => ?_) ?_)
    · obtain rfl := Option.some.inj (hrun.symm.trans hown)
      rcases hend with ⟨message, rfl⟩ | ⟨clarification, hwaiting⟩ | ⟨-, hclosed⟩
      · cases hkeeps
      · exact absurd hwaiting (hnot _ _)
      · exact hclosed
    · rintro nodeId clarification rfl
      rcases hend with ⟨message, herror⟩ | ⟨payload, hwaiting⟩ | ⟨hnot, -⟩
      · cases herror
      · cases hwaiting
        rfl
      · exact absurd rfl (hnot nodeId clarification)
  | @cancelled active index task run elapsed hactive htask hrun _ =>
    have hclean : (cancelTask env state.tables active.runs task run elapsed).1.errs = false := by
      simpa [forgetsNoRow, hactive, htask, hrun] using hkeeps
    have hrow := h.tasks active hactive task (List.mem_of_getElem? htask)
    unfold cancelTask at hclean ⊢
    split at hclean
    · simp [NodeTask.errs] at hclean
    · obtain ⟨hmoved, hclosed⟩ := failNode_moved state.tables run elapsed
      refine h.setTask hactive htask rfl hmoved
        ((hrow.moved hmoved).ended (fun own hown _ => ?_) (by simp))
      obtain rfl := Option.some.inj (hrun.symm.trans hown)
      exact hclosed
  | collected hactive _ hresults hcollect =>
    exact h.collected hactive hresults (by simpa [forgetsNoRow, hactive] using hkeeps) hcollect
  | resumed request =>
    have hmoved := resume_moved state.tables request
    exact ⟨fun row hrow hworkflow hrunning =>
      h.owner row (hmoved.running row hrow hrunning) hworkflow hrunning,
      fun call hcall task htask => (h.tasks call hcall task htask).moved hmoved⟩
  | @stateFailed active index task message hactive htask _ =>
    have hnone : task.run = none := by simpa [forgetsNoRow, hactive, htask] using hkeeps
    refine h.setTask hactive htask rfl (.refl _)
      ((h.tasks active hactive task (List.mem_of_getElem? htask)).ended ?_ (by simp))
    simp [hnone]
  | @auditFailed active index task run reply elapsed message hactive htask hrun _ =>
    obtain ⟨result, tables, hfinish, hmoved, hend⟩ :=
      finishTask_moved env state.tables active.runs task run reply elapsed
    simp only [forgetsNoRow, hactive, htask, hrun, Option.all_some, hfinish] at hkeeps
    rw [hfinish]
    refine h.setTask hactive htask rfl hmoved (((h.tasks active hactive task
      (List.mem_of_getElem? htask)).moved hmoved).ended (fun own hown _ => ?_) (by simp))
    obtain rfl := Option.some.inj (hrun.symm.trans hown)
    rcases hend with ⟨message, rfl⟩ | ⟨clarification, rfl⟩ | ⟨-, hclosed⟩
    · cases hkeeps
    · cases hkeeps
    · exact hclosed
  | @collectFailed active results message hactive _ hresults =>
    have hnone : ∀ task ∈ active.batch, task.waits = false := by
      simpa [forgetsNoRow, hactive] using hkeeps
    exact .of_idle rfl (h.none_running hactive fun task htask _ _ =>
      not_isOpen_of_result (batchResults_isSome hresults task htask) (hnone task htask))

/-- When a call has returned no row is left running, in every run that takes none of the
forgetful exits. -/
theorem no_run_stranded {state : RunnerState}
    (hreach : (runner env).ReachableVia (fun s a => forgetsNoRow env s a = true) state)
    (hidle : state.active = none) : ∀ row ∈ state.tables.nodeRuns,
      row.workflowId = env.workflow.id → row.status ≠ .running := by
  have hopen : OpenInv env state := by
    refine hreach.invariant (fun s hinit => ?_) fun _ _ _ h hkeeps hstep =>
      h.step hkeeps (runnerStep_effect hstep)
    obtain ⟨hidle, -, hforeign⟩ := hinit
    exact .of_idle hidle fun row hrow hworkflow => absurd hworkflow (hforeign row hrow)
  intro row hrow hworkflow hrunning
  obtain ⟨active, -, -, hactive, -⟩ := hopen.owner row hrow hworkflow hrunning
  simp [hidle] at hactive

theorem no_run_stranded_after_failure : ∃ state, (runner Bypass.setup).ReachableVia
    (fun s a => forgetsNoRow Bypass.setup s a = true) state ∧ state.active = none ∧
      state.outcome = some (.ok .failed) ∧ state.tables.nodeRuns.length = 1 ∧
      ∀ row ∈ state.tables.nodeRuns, row.workflowId = Bypass.workflow.id →
        row.status ≠ .running := by
  have hstart : (runner Bypass.setup).ReachableVia
      (fun s a => forgetsNoRow Bypass.setup s a = true) Bypass.start :=
    .init ⟨rfl, List.nodup_nil, by simp [Bypass.start]⟩
  have hrun : ((runner Bypass.setup).runVia (fun s a => forgetsNoRow Bypass.setup s a = true)
      Bypass.start [.run, .select, .begin 0 11 1, .finish 0 .failed 5, .collect]).any
        (fun state => state.active.isNone && decide (state.outcome = some (.ok .failed) ∧
          state.tables.nodeRuns.length = 1)) = true := by decide
  obtain ⟨state, hreach, htest⟩ := hstart.exists_of_runVia hrun
  simp only [Bool.and_eq_true, Option.isNone_iff_eq_none, decide_eq_true_eq] at htest
  obtain ⟨hidle, houtcome, hlength⟩ := htest
  exact ⟨state, hreach, hidle, houtcome, hlength, no_run_stranded hreach hidle⟩

namespace TwoQuestions

/-! Two interrupts that become runnable together. -/

open Bypass

def firstId : NodeId := ⟨"first", NodeId.isValid_first⟩
def secondId : NodeId := ⟨"second", NodeId.isValid_second⟩

def ask (id : NodeId) : WorkflowNode :=
  node id (.clarificationInterrupt ⟨"choice", probeId, doneId⟩) [] [] 0

def workflow : ExecutionWorkflow :=
  { Bypass.workflow with
    nodes :=
      [node probeId query [scope] [] 1, ask firstId, ask secondId,
       node doneId (.complete ⟨.success⟩) [] [] 0]
    edges :=
      [⟨probeId, firstId, .always⟩, ⟨probeId, secondId, .always⟩,
       ⟨firstId, doneId, .clarificationAnswered⟩, ⟨secondId, doneId, .clarificationAnswered⟩] }

def setup : RunnerEnv NodeExecution := { Bypass.setup with workflow := workflow }

/-- Both interrupts wait, the call pauses at the first of them. -/
def paused : List (RunnerAction NodeExecution) :=
  probed 1 ++ [.select, .begin 0 12 2, .begin 1 13 3,
    .finish 0 (.waiting PausedLedger.question) 5, .finish 1 (.waiting PausedLedger.question) 5,
    .collect]

/-- The one question that was asked is answered and the job goes on to its end. -/
def answered : List (RunnerAction NodeExecution) :=
  paused ++ [.resume ⟨3, 1, 7, firstId, 5, 1, .str "north"⟩, .run, .select, .begin 0 14 4,
    .finish 0 .failed 5, .collect, .select]

/-- Returned as completed with no question open, and yet an interrupt is running. -/
def leftRunning (state : RunnerState) : Bool :=
  state.active.isNone && decide (state.outcome = some (.ok .completed)) &&
    state.tables.pendingClarification.isNone && state.tables.nodeRuns.any fun row =>
      decide (row.workflowId = workflow.id ∧ row.nodeId = secondId ∧ row.status = .running)

theorem answered_leftRunning : ((runner setup).run start answered).any leftRunning = true := by
  decide

end TwoQuestions

/-- In a verified workflow the second of two interrupts stays running for good, and its
question is never asked. -/
theorem second_question_stranded : ∃ state,
    verify DirectedGraph.sourceRemoval TwoQuestions.workflow TwoQuestions.setup.principal
        TwoQuestions.setup.catalog = .ok ⟨TwoQuestions.workflow⟩ ∧
      (runner TwoQuestions.setup).Reachable state ∧ state.active = none ∧
      state.outcome = some (.ok .completed) ∧ state.tables.pendingClarification = none ∧
      ∃ row ∈ state.tables.nodeRuns, row.workflowId = TwoQuestions.workflow.id ∧
        row.nodeId = TwoQuestions.secondId ∧ row.status = .running := by
  have hstart : (runner TwoQuestions.setup).Reachable Bypass.start :=
    .init ⟨rfl, List.nodup_nil, by simp [Bypass.start]⟩
  obtain ⟨state, hreach, htest⟩ := hstart.exists_of_run TwoQuestions.answered_leftRunning
  simp only [TwoQuestions.leftRunning, Bool.and_eq_true, Option.isNone_iff_eq_none,
    decide_eq_true_eq, List.any_eq_true] at htest
  obtain ⟨⟨⟨hidle, houtcome⟩, hpending⟩, hrow⟩ := htest
  exact ⟨state, by decide, hreach, hidle, houtcome, hpending, hrow⟩

end FineractReports.Workflow
