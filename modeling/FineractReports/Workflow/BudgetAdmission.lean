import FineractReports.Workflow.BudgetArithmetic
import FineractReports.Workflow.ProducerOrder
import FineractReports.Workflow.RowSteps

/-!
# Budget admission

Every node is charged what it declares until it completes and what it reported
from then on. As long as reports stay within declarations the charges only
shrink, and at a loop head they cover the ledger together with everything that
is still runnable.
-/

namespace FineractReports.Workflow

/-- A completed row of the workflow. -/
def IsDone (workflowId : Uuid) (rows : List WorkflowNodeRun) (row : WorkflowNodeRun) : Prop :=
  row ∈ rows ∧ row.workflowId = workflowId ∧ row.status = .completed

def doneRow? (workflowId : Uuid) (rows : List WorkflowNodeRun) (id : NodeId) :
    Option WorkflowNodeRun :=
  rows.find? fun row => row.workflowId = workflowId ∧ row.nodeId = id ∧ row.status = .completed

/-- What a node counts for: its report once it has completed, its declaration before. -/
def charge (workflowId : Uuid) (rows : List WorkflowNodeRun) (node : WorkflowNode) : Usage :=
  match doneRow? workflowId rows node.id with
  | some row => row.reported node.budget.queryCost
  | none => node.budget.declared

def Completion.usage (completion : Completion) : Usage :=
  (completion.node.budget.queryCost.toNat, completion.rows.toInt.toNat,
    completion.elapsed.toInt.toNat)

/-- The query cost of the node a run is about. -/
def queryCostOf (workflow : ExecutionWorkflow) (id : NodeId) : UInt8 :=
  (BudgetTotals.mappedNode workflow id).elim 0 (·.budget.queryCost)

/-- The exact sums over the completed runs. -/
def spent (workflow : ExecutionWorkflow) (runs : List WorkflowNodeRun) : Usage :=
  ((runs.filter fun run => run.status = .completed).map fun run =>
    run.reported (queryCostOf workflow run.nodeId)).sum

/-- The nodes looked at for a batch. -/
def consideredNodes (workflow : ExecutionWorkflow) (runs : List WorkflowNodeRun) :
    List WorkflowNode :=
  (runnableNodes workflow runs).take (max workflow.budgets.maxParallelQueries.toNat 1)

variable {ρ : Type} {env : RunnerEnv ρ}

/-- A completing node reports no more than it declares. -/
def reportsWithin (env : RunnerEnv ρ) (state : RunnerState) (action : RunnerAction ρ) : Bool :=
  (completionOf env state action).all fun completion =>
    decide (completion.usage ≤ completion.node.budget.declared)

section Charges

variable {workflowId : Uuid} {rows before after : List WorkflowNodeRun} {id : NodeId}
  {node : WorkflowNode}

theorem doneRow?_spec {row : WorkflowNodeRun} (h : doneRow? workflowId rows id = some row) :
    IsDone workflowId rows row ∧ row.nodeId = id := by
  have hmem := List.mem_of_find?_eq_some h
  have hp := List.find?_some h
  simp only [decide_eq_true_eq] at hp
  exact ⟨⟨hmem, hp.1, hp.2.2⟩, hp.2.1⟩

theorem doneRow?_eq_none :
    doneRow? workflowId rows id = none ↔ ∀ row, IsDone workflowId rows row → row.nodeId ≠ id := by
  simp only [doneRow?, List.find?_eq_none, decide_eq_true_eq, IsDone]
  constructor
  · rintro h row ⟨hmem, hworkflow, hdone⟩ hid
    exact h row hmem ⟨hworkflow, hid, hdone⟩
  · rintro h row hmem ⟨hworkflow, hid, hdone⟩
    exact h row ⟨hmem, hworkflow, hdone⟩ hid

theorem IsDone.blocks {row : WorkflowNodeRun} (h : IsDone workflowId rows row) :
    row.blocks = true := by
  simp [WorkflowNodeRun.blocks, h.2.2]

/-- A node has one completed row at most. -/
theorem RowsInv.done_unique (h : RowsInv workflowId rows) {a b : WorkflowNodeRun}
    (ha : IsDone workflowId rows a) (hb : IsDone workflowId rows b) (hid : a.nodeId = b.nodeId) :
    a = b :=
  h.blocking_unique a ha.1 b hb.1 ha.2.1 hb.2.1 hid ha.blocks hb.blocks

theorem RowsInv.doneRow?_eq (h : RowsInv workflowId rows) {row : WorkflowNodeRun}
    (hdone : IsDone workflowId rows row) : doneRow? workflowId rows row.nodeId = some row := by
  cases hfound : doneRow? workflowId rows row.nodeId with
  | none => exact absurd rfl (doneRow?_eq_none.mp hfound row hdone)
  | some other =>
    obtain ⟨hother, hid⟩ := doneRow?_spec hfound
    rw [h.done_unique hother hdone hid]

theorem RowsInv.charge_eq (h : RowsInv workflowId rows) {row : WorkflowNodeRun}
    (hdone : IsDone workflowId rows row) (hid : row.nodeId = node.id) :
    charge workflowId rows node = row.reported node.budget.queryCost := by
  rw [charge, ← hid, h.doneRow?_eq hdone]

theorem charge_of_unfinished (h : ∀ row, IsDone workflowId rows row → row.nodeId ≠ node.id) :
    charge workflowId rows node = node.budget.declared := by
  rw [charge, doneRow?_eq_none.mpr h]

/-- A row that is not completed has reported nothing yet. -/
def Unspent (workflowId : Uuid) (rows : List WorkflowNodeRun) : Prop :=
  ∀ row ∈ rows, row.workflowId = workflowId → row.status = .running ∨ row.status = .waiting →
    row.rowsReturned = 0 ∧ row.durationMs = none

/-- What a row that a step completes has reported. -/
theorem RowStep.reported {state : RunnerState} {action : RunnerAction ρ}
    {row row' : WorkflowNodeRun} (h : RowStep env state action row row')
    (hbefore : row.status ≠ .completed) (hafter : row'.status = .completed)
    (hunspent : row.status = .running ∨ row.status = .waiting →
      row.rowsReturned = 0 ∧ row.durationMs = none) :
    (∃ completion, completionOf env state action = some completion ∧
      row.nodeId = completion.node.id ∧
      row'.reported completion.node.budget.queryCost = completion.usage) ∨
    ∀ queryCost : UInt8, row'.reported queryCost = (queryCost.toNat, 0, 0) := by
  cases h with
  | kept => exact absurd hafter hbefore
  | failed _ elapsed => cases hafter
  | paused _ => cases hafter
  | answered hwaiting =>
    obtain ⟨hrows, hms⟩ := hunspent (Or.inr hwaiting)
    exact Or.inr fun queryCost => by simp [WorkflowNodeRun.reported, hrows, hms]
  | completed hrunning hcompletion hnode => exact Or.inl ⟨_, hcompletion, hnode, rfl⟩

theorem RowStep.unspent {state : RunnerState} {action : RunnerAction ρ}
    {row row' : WorkflowNodeRun} (h : RowStep env state action row row')
    (hbefore : row.status = .running ∨ row.status = .waiting →
      row.rowsReturned = 0 ∧ row.durationMs = none)
    (hopen : row'.status = .running ∨ row'.status = .waiting) :
    row'.rowsReturned = 0 ∧ row'.durationMs = none := by
  cases h with
  | kept => exact hbefore hopen
  | failed _ elapsed => simp at hopen
  | paused hrunning => exact hbefore (Or.inl hrunning)
  | answered _ => simp at hopen
  | completed _ _ _ => simp [completedWith] at hopen

/-- A completed row stays. -/
theorem RowsStep.isDone {state : RunnerState} {action : RunnerAction ρ}
    (h : RowsStep env state action before after) {row : WorkflowNodeRun}
    (hdone : IsDone workflowId before row) : IsDone workflowId after row := by
  obtain ⟨hmem, hworkflow, hstatus⟩ := hdone
  refine ⟨?_, hworkflow, hstatus⟩
  cases h with
  | inserted _ hrows => exact hrows ▸ List.mem_append_left _ hmem
  | moved hupdate hrows _ =>
    exact hrows ▸ List.mem_map.mpr ⟨row, hmem, hupdate.completed_fixed row hstatus⟩

/-- A completed row was completed before, or the step completed a row of its node. -/
theorem RowsStep.isDone_before {state : RunnerState} {action : RunnerAction ρ}
    (h : RowsStep env state action before after) {row' : WorkflowNodeRun}
    (hdone : IsDone workflowId after row') : IsDone workflowId before row' ∨
      ∃ row ∈ before, row.workflowId = workflowId ∧ row.nodeId = row'.nodeId ∧
        row.blocks = true ∧ row.status ≠ .completed ∧ RowStep env state action row row' := by
  obtain ⟨hmem, hworkflow, hstatus⟩ := hdone
  cases h with
  | inserted _ hrows =>
    rw [hrows] at hmem
    rcases List.mem_append.mp hmem with hmem | hmem
    · exact Or.inl ⟨hmem, hworkflow, hstatus⟩
    · obtain rfl := List.mem_singleton.mp hmem
      cases hstatus
  | @moved update hupdate hrows hsteps =>
    rw [hrows] at hmem
    obtain ⟨row, hrow, rfl⟩ := List.mem_map.mp hmem
    by_cases hbefore : row.status = .completed
    · rw [hupdate.completed_fixed row hbefore] at hworkflow hstatus ⊢
      exact Or.inl ⟨hrow, hworkflow, hstatus⟩
    · refine Or.inr ⟨row, hrow, ?_, (hupdate.nodeId_eq row).symm, ?_, hbefore, hsteps row hrow⟩
      · rwa [hupdate.workflowId_eq] at hworkflow
      · exact hupdate.blocks_of row (by simp [WorkflowNodeRun.blocks, hstatus])

/-- A step leaves the charge of a node alone or completes the node. -/
theorem RowsStep.charge_step {state : RunnerState} {action : RunnerAction ρ}
    (h : RowsStep env state action before after) (hbefore : RowsInv workflowId before)
    (hafter : RowsInv workflowId after) (hunspent : Unspent workflowId before)
    (node : WorkflowNode) :
    charge workflowId after node = charge workflowId before node ∨
      (charge workflowId before node = node.budget.declared ∧
        ((∃ completion, completionOf env state action = some completion ∧
            node.id = completion.node.id ∧ (node = completion.node →
              charge workflowId after node = completion.usage)) ∨
          charge workflowId after node ≤ node.budget.declared)) := by
  by_cases hnone : ∀ row, IsDone workflowId after row → row.nodeId ≠ node.id
  · refine Or.inl ?_
    rw [charge_of_unfinished hnone,
      charge_of_unfinished fun row hdone => hnone row (h.isDone hdone)]
  · obtain ⟨row', hdone, hid⟩ : ∃ row', IsDone workflowId after row' ∧ row'.nodeId = node.id := by
      simpa using hnone
    rw [hafter.charge_eq hdone hid]
    rcases h.isDone_before hdone with hold | ⟨row, hrow, hworkflow, hnode, hblocks, hopen, hstep⟩
    · exact Or.inl (hbefore.charge_eq hold hid).symm
    · refine Or.inr ⟨charge_of_unfinished fun other hother hotherId => ?_, ?_⟩
      · have hsame := hbefore.blocking_unique other hother.1 row hrow hother.2.1 hworkflow
          (hotherId.trans (hid.symm.trans hnode.symm)) hother.blocks hblocks
        exact hopen (hsame ▸ hother.2.2)
      · rcases hstep.reported hopen hdone.2.2 (hunspent row hrow hworkflow) with
          ⟨completion, hcompletion, hcompleted, hreport⟩ | hreport
        · refine Or.inl ⟨completion, hcompletion, ?_, ?_⟩
          · rw [← hid, ← hnode, hcompleted]
          · rintro rfl
            exact hreport
        · right
          rw [hreport]
          exact ⟨le_rfl, Nat.zero_le _, Nat.zero_le _⟩

end Charges

/-- The charges of the durable rows stay within a bound. -/
structure SpendInv (env : RunnerEnv ρ) (bound : Usage) (rows : List WorkflowNodeRun) : Prop where
  unspent : Unspent env.workflow.id rows
  known : ∀ row ∈ rows, row.workflowId = env.workflow.id →
    row.nodeId ∈ env.workflow.nodes.map (·.id)
  bounded : (env.workflow.nodes.map (charge env.workflow.id rows)).sum ≤ bound

section Rows

variable {bound : Usage} {state : RunnerState} {action : RunnerAction ρ}
  {before after : List WorkflowNodeRun}

theorem Unspent.step {workflowId : Uuid} (h : Unspent workflowId before)
    (hstep : RowsStep env state action before after) : Unspent workflowId after := by
  intro row' hmem hworkflow hopen
  cases hstep with
  | inserted _ hrows =>
    rcases List.mem_append.mp (hrows ▸ hmem) with hmem | hmem
    · exact h row' hmem hworkflow hopen
    · obtain rfl := List.mem_singleton.mp hmem
      exact ⟨rfl, rfl⟩
  | moved hupdate hrows hsteps =>
    obtain ⟨row, hrow, rfl⟩ := List.mem_map.mp (hrows ▸ hmem)
    rw [hupdate.workflowId_eq] at hworkflow
    exact (hsteps row hrow).unspent (h row hrow hworkflow) hopen

theorem known_step {workflow : ExecutionWorkflow} (hworkflow : workflow = env.workflow)
    (h : ∀ row ∈ before, row.workflowId = workflow.id → row.nodeId ∈ workflow.nodes.map (·.id))
    (hstep : RowsStep env state action before after) :
    ∀ row ∈ after, row.workflowId = workflow.id → row.nodeId ∈ workflow.nodes.map (·.id) := by
  subst hworkflow
  intro row' hmem hown
  cases hstep with
  | inserted hnode hrows =>
    rcases List.mem_append.mp (hrows ▸ hmem) with hmem | hmem
    · exact h row' hmem hown
    · obtain rfl := List.mem_singleton.mp hmem
      exact List.mem_map.mpr ⟨_, hnode, rfl⟩
  | moved hupdate hrows _ =>
    obtain ⟨row, hrow, rfl⟩ := List.mem_map.mp (hrows ▸ hmem)
    rw [hupdate.workflowId_eq] at hown
    rw [hupdate.nodeId_eq]
    exact h row hrow hown

theorem node_eq_of_id {workflow : ExecutionWorkflow} (hids : (workflow.nodes.map (·.id)).Nodup)
    {a b : WorkflowNode} (ha : a ∈ workflow.nodes) (hb : b ∈ workflow.nodes) (hid : a.id = b.id) :
    a = b :=
  List.inj_on_of_nodup_map hids ha hb hid

/-- The charges after a step: the completed node is charged its report, no other node
more than before. -/
theorem SpendInv.bounded_step (h : SpendInv env bound before)
    (hids : (env.workflow.nodes.map (·.id)).Nodup) (hbefore : RowsInv env.workflow.id before)
    (hafter : RowsInv env.workflow.id after) (hstep : RowsStep env state action before after)
    (hreport : ∀ completion, completionOf env state action = some completion →
      completion.node ∈ env.workflow.nodes ∧
        (env.workflow.nodes.map fun node => if node.id = completion.node.id then completion.usage
          else charge env.workflow.id before node).sum ≤ bound) :
    (env.workflow.nodes.map (charge env.workflow.id after)).sum ≤ bound := by
  have hcharge := hstep.charge_step hbefore hafter h.unspent
  by_cases hcompletes : ∃ completion, completionOf env state action = some completion ∧
      charge env.workflow.id after completion.node = completion.usage
  · obtain ⟨completion, hcompletion, heq⟩ := hcompletes
    obtain ⟨hmem, hsum⟩ := hreport completion hcompletion
    refine le_trans (List.sum_le_sum fun node hnode => ?_) hsum
    split_ifs with hid
    · rw [node_eq_of_id hids hnode hmem hid, heq]
    · rcases hcharge node with hsame | ⟨hdeclared, ⟨other, hother, hotherId, -⟩ | hless⟩
      · exact hsame.le
      · obtain rfl := Option.some.inj (hcompletion.symm.trans hother)
        exact absurd hotherId hid
      · exact hless.trans hdeclared.ge
  · refine le_trans (List.sum_le_sum fun node hnode => ?_) h.bounded
    rcases hcharge node with hsame | ⟨hdeclared, ⟨completion, hcompletion, hid, heq⟩ | hless⟩
    · exact hsame.le
    · obtain rfl := node_eq_of_id hids hnode (hreport completion hcompletion).1 hid
      exact absurd ⟨completion, hcompletion, heq rfl⟩ hcompletes
    · exact hless.trans hdeclared.ge

end Rows

/-- The ledger a call keeps is the one its list of runs gives, each node counted once. -/
structure SpendCall (env : RunnerEnv ρ) (active : ActiveRun) : Prop where
  ledger : active.consumed = BudgetTotals.fromCompleted env.workflow active.runs
  once : (completedIds active.runs).Nodup
  costs : ∀ task ∈ active.batch, ∀ done decision nodeId cost,
    task.result = some (.ok (.completed done decision nodeId cost)) →
      cost = task.node.budget.queryCost

section Call

variable {state : RunnerState} {active : ActiveRun} {action : RunnerAction ρ}

theorem mappedNode_eq {workflow : ExecutionWorkflow} (hids : (workflow.nodes.map (·.id)).Nodup)
    {node : WorkflowNode} (hnode : node ∈ workflow.nodes) :
    BudgetTotals.mappedNode workflow node.id = some node := by
  cases hfound : BudgetTotals.mappedNode workflow node.id with
  | none =>
    have := List.find?_eq_none.mp hfound node (List.mem_reverse.mpr hnode)
    simp at this
  | some other =>
    have hmem := List.mem_reverse.mp (List.mem_of_find?_eq_some hfound)
    have hid : other.id = node.id := by simpa using List.find?_some hfound
    rw [node_eq_of_id hids hmem hnode hid]

theorem queryCostOf_eq {workflow : ExecutionWorkflow} (hids : (workflow.nodes.map (·.id)).Nodup)
    {node : WorkflowNode} (hnode : node ∈ workflow.nodes) :
    queryCostOf workflow node.id = node.budget.queryCost := by
  rw [queryCostOf, mappedNode_eq hids hnode, Option.elim_some]

theorem completedIds_append (runs others : List WorkflowNodeRun) :
    completedIds (runs ++ others) = completedIds runs ++ completedIds others := by
  simp [completedIds]

theorem fromCompleted_append (workflow : ExecutionWorkflow) (runs : List WorkflowNodeRun)
    {run : WorkflowNodeRun} (hrun : run.status = .completed) :
    BudgetTotals.fromCompleted workflow (runs ++ [run]) =
      (BudgetTotals.fromCompleted workflow runs).addActual
        (queryCostOf workflow run.nodeId) run := by
  simp [BudgetTotals.fromCompleted, List.filter_append, hrun, queryCostOf]

/-- The durable runs a call starts from complete every node once. -/
theorem completedIds_nodeRunsOf_nodup {tables : JobTables} {workflowId : Uuid}
    (h : RowsInv workflowId tables.nodeRuns) :
    (completedIds (tables.nodeRunsOf workflowId)).Nodup := by
  have hrows : (tables.nodeRunsOf workflowId).Nodup :=
    (tables.nodeRunsOf_perm workflowId).nodup_iff.mpr (h.ids_nodup.of_map.filter _)
  refine List.Nodup.map_on ?_ (hrows.filter _)
  intro a ha b hb hid
  simp only [List.mem_filter, decide_eq_true_eq, JobTables.mem_nodeRunsOf] at ha hb
  exact h.done_unique ⟨ha.1.1, ha.1.2, ha.2⟩ ⟨hb.1.1, hb.1.2, hb.2⟩ hid

theorem collectCompleted_consumed {workflow : ExecutionWorkflow}
    {outcomes : List NodeBatchOutcome} {active : ActiveRun}
    (hcosts : ∀ run decision nodeId cost, .completed run decision nodeId cost ∈ outcomes →
      run.status = .completed ∧ cost = queryCostOf workflow run.nodeId)
    (h : active.consumed = BudgetTotals.fromCompleted workflow active.runs) :
    (collectCompleted outcomes active).consumed =
      BudgetTotals.fromCompleted workflow (collectCompleted outcomes active).runs := by
  induction outcomes generalizing active with
  | nil => exact h
  | cons outcome rest ih =>
    have hrest : ∀ run decision nodeId cost, .completed run decision nodeId cost ∈ rest →
        run.status = .completed ∧ cost = queryCostOf workflow run.nodeId :=
      fun run decision nodeId cost hmem =>
        hcosts run decision nodeId cost (List.mem_cons_of_mem _ hmem)
    rw [collectCompleted, List.foldl_cons]
    refine ih hrest ?_
    cases outcome with
    | completed run decision nodeId cost =>
      obtain ⟨hdone, rfl⟩ := hcosts run decision nodeId cost List.mem_cons_self
      rw [h, fromCompleted_append workflow active.runs hdone]
    | waiting nodeId clarification => exact h
    | failed => exact h
    | cancelled => exact h

/-- The completed runs of a batch are about different nodes. -/
theorem completedRuns_sublist {rows runs : List WorkflowNodeRun} {batch : List NodeTask}
    {outcomes : List NodeBatchOutcome} (htasks : ∀ task ∈ batch, TaskInv env rows runs task)
    (h : List.Forall₂ (fun task outcome => task.result = some (.ok outcome)) batch outcomes) :
    (completedIds (outcomes.filterMap completedRun?)).Sublist
      (batch.map fun task => task.node.id) := by
  induction h with
  | nil => exact List.nil_sublist _
  | @cons task outcome rest others hresult _ ih =>
    have hrest := ih fun other hother => htasks other (List.mem_cons_of_mem _ hother)
    rw [List.map_cons]
    cases outcome with
    | completed run decision nodeId cost =>
      obtain ⟨-, hdone, hid, -⟩ := (htasks task List.mem_cons_self).finished _ _ _ _ hresult
      simpa [completedIds, completedRun?, hdone, hid] using hrest
    | waiting nodeId clarification => exact hrest.cons _
    | failed => exact hrest.cons _
    | cancelled => exact hrest.cons _

theorem SpendCall.started (h : RunnerInv env state) :
    SpendCall env ⟨state.tables.nodeRunsOf env.workflow.id, BudgetTotals.fromCompleted
      env.workflow (state.tables.nodeRunsOf env.workflow.id), []⟩ where
  ledger := rfl
  once := completedIds_nodeRunsOf_nodup h.rows
  costs := by simp

theorem SpendCall.setTask {task' : NodeTask} {index : ℕ} (h : SpendCall env active)
    (hcosts : ∀ done decision nodeId cost,
      task'.result = some (.ok (.completed done decision nodeId cost)) →
        cost = task'.node.budget.queryCost) :
    SpendCall env { active with batch := active.batch.set index task' } where
  ledger := h.ledger
  once := h.once
  costs other hother := by
    rcases List.mem_or_eq_of_mem_set hother with hmem | rfl
    · exact h.costs other hmem
    · exact hcosts

theorem SpendCall.collected {outcomes : List NodeBatchOutcome} (h : SpendCall env active)
    (hids : (env.workflow.nodes.map (·.id)).Nodup) {rows : List WorkflowNodeRun}
    (hcall : CallInv env rows active) (hresults : batchResults active.batch = some (.ok outcomes)) :
    SpendCall env { collectCompleted outcomes active with batch := [] } where
  ledger := by
    refine collectCompleted_consumed (fun run decision nodeId cost hmem => ?_) h.ledger
    obtain ⟨task, htask, hresult⟩ := (batchResults_ok hresults).2 _ hmem
    have htaskInv := hcall.tasks task htask
    obtain ⟨-, hdone, hid, -⟩ := htaskInv.finished _ _ _ _ hresult
    refine ⟨hdone, ?_⟩
    rw [h.costs task htask _ _ _ _ hresult, hid, queryCostOf_eq hids htaskInv.node_mem]
  once := by
    have hsub := completedRuns_sublist hcall.tasks (batchResults_forall₂ hresults)
    simp only [collectCompleted_runs, completedIds_append]
    refine List.nodup_append.mpr ⟨h.once, hsub.nodup hcall.tasks_nodup, ?_⟩
    rintro id hold _ hnew rfl
    obtain ⟨task, htask, rfl⟩ := List.mem_map.mp (hsub.subset hnew)
    obtain ⟨run, hrun, hid, hdone⟩ := mem_completedIds.mp hold
    have hfree := (runnable_iff.mp (hcall.tasks task htask).runnable).1 run hrun hid
    simp [WorkflowNodeRun.blocks, hdone] at hfree
  costs := by simp

theorem settle_cost {tables after : JobTables} {node : WorkflowNode} {run done : WorkflowNodeRun}
    {execution : Except String NodeExecution} {elapsed : Int32} {decision : Option String}
    {nodeId : NodeId} {cost : UInt8} (h : settle env tables node run execution elapsed =
      (.ok (.completed done decision nodeId cost), after)) : cost = node.budget.queryCost := by
  unfold settle at h
  split at h
  · simp at h
  · simp only at h
    split at h
    · simp at h
    · simp only [Prod.mk.injEq, Except.ok.injEq, NodeBatchOutcome.completed.injEq] at h
      exact h.1.2.2.2.symm
  · simp at h
  · simp at h

theorem SpendCall.step {after : RunnerState} (hids : (env.workflow.nodes.map (·.id)).Nodup)
    (hinv : RunnerInv env state) (h : ∀ active, state.active = some active → SpendCall env active)
    (heffect : RunnerEffect env state action after) :
    ∀ active, after.active = some active → SpendCall env active := by
  intro call hcall
  cases heffect with
  | started _ =>
    obtain rfl := Option.some.inj hcall
    exact .started hinv
  | @selected active _ hactive _ hselect =>
    cases hselect with
    | chosen _ =>
      obtain rfl := Option.some.inj hcall
      exact ⟨(h active hactive).ledger, (h active hactive).once, by simp⟩
    | _ => cases hcall
  | @begun active index task runId now hactive _ _ hresult _ =>
    obtain rfl := Option.some.inj hcall
    refine (h active hactive).setTask ?_
    rcases beginTask_cases env state.tables active.runs task runId now with
      ⟨message, hbegin⟩ | ⟨run, -, -, hbegin⟩
    · simp [hbegin]
    · simp [hbegin, hresult]
  | @finished active index task run reply elapsed hactive _ _ _ =>
    obtain rfl := Option.some.inj hcall
    refine (h active hactive).setTask fun done decision nodeId cost hdone => ?_
    have hsettled : settle env state.tables task.node run
        (taskExecution env state.tables active.runs task reply) elapsed =
          (.ok (.completed done decision nodeId cost), _) := Prod.ext (Option.some.inj hdone) rfl
    exact settle_cost hsettled
  | @cancelled active index task run elapsed hactive _ _ _ =>
    obtain rfl := Option.some.inj hcall
    refine (h active hactive).setTask ?_
    unfold cancelTask
    split <;> simp
  | @collected active results _ hactive _ hresults hcollect =>
    cases hcollect with
    | continued _ _ =>
      obtain rfl := Option.some.inj hcall
      exact (h active hactive).collected hids (hinv.call active hactive) hresults
    | _ => cases hcall
  | resumed _ => exact h call hcall
  | stateFailed hactive _ _ =>
    obtain rfl := Option.some.inj hcall
    exact (h _ hactive).setTask (by simp)
  | auditFailed hactive _ _ _ =>
    obtain rfl := Option.some.inj hcall
    exact (h _ hactive).setTask (by simp)
  | collectFailed _ _ _ => cases hcall

theorem spendCall_reachable {cond : RunnerState → RunnerAction ρ → Prop}
    (hids : (env.workflow.nodes.map (·.id)).Nodup) (h : (runner env).ReachableVia cond state) :
    ∀ active, state.active = some active → SpendCall env active := by
  refine h.invariant_under (fun hr => runner_reachable hids hr.reachable) (fun s hinit => ?_)
    fun _ _ _ hinv hspend _ hstep => SpendCall.step hids hinv hspend (runnerStep_effect hstep)
  simp [hinit.1]

end Call

section Runs

variable {bound : Usage} {state after : RunnerState} {action : RunnerAction ρ}

/-- The node of a task in flight is still charged its declaration. -/
theorem RunnerInv.charge_in_flight {active : ActiveRun} {index : ℕ} {task : NodeTask}
    {run : WorkflowNodeRun} (h : RunnerInv env state) (hactive : state.active = some active)
    (htask : active.batch[index]? = some task) (hrun : task.run = some run)
    (hresult : task.result = none) : task.node ∈ env.workflow.nodes ∧
      charge env.workflow.id state.tables.nodeRuns task.node = task.node.budget.declared := by
  have htaskInv := (h.call active hactive).tasks task (List.mem_of_getElem? htask)
  obtain ⟨hmem, hrunning, hid, hworkflow, -⟩ := htaskInv.in_flight run hrun hresult
  refine ⟨htaskInv.node_mem, charge_of_unfinished fun row hdone hrowId => ?_⟩
  have hsame := h.rows.blocking_unique row hdone.1 run hmem hdone.2.1 hworkflow
    (hrowId.trans hid.symm) hdone.blocks (by simp [WorkflowNodeRun.blocks, hrunning])
  have hstatus := hsame ▸ hdone.2.2
  simp [hrunning] at hstatus

theorem completionOf_finish {active : ActiveRun} {index : ℕ} {task : NodeTask} {reply : ρ}
    {elapsed : Int32} {completion : Completion} (hactive : state.active = some active)
    (htask : active.batch[index]? = some task)
    (h : completionOf env state (.finish index reply elapsed) = some completion) :
    completion.node = task.node := by
  simp only [completionOf, hactive, htask, Option.bind_eq_bind, Option.bind_some] at h
  split at h
  · rw [← Option.some.inj h]
  · cases h

/-- The node an action completes is one of the workflow that has not completed. -/
theorem RunnerEffect.completion {completion : Completion} (hinv : RunnerInv env state)
    (heffect : RunnerEffect env state action after)
    (h : completionOf env state action = some completion) :
    completion.node ∈ env.workflow.nodes ∧ charge env.workflow.id state.tables.nodeRuns
      completion.node = completion.node.budget.declared := by
  cases heffect with
  | finished hactive htask hrun hresult =>
    rw [completionOf_finish hactive htask h]
    exact hinv.charge_in_flight hactive htask hrun hresult
  | @auditFailed active index task run reply elapsed _ hactive htask hrun hresult =>
    have hfinish : completionOf env state (.finish index reply elapsed) = some completion := h
    rw [completionOf_finish hactive htask hfinish]
    exact hinv.charge_in_flight hactive htask hrun hresult
  | _ => cases h

theorem SpendInv.step (hids : (env.workflow.nodes.map (·.id)).Nodup) (hinv : RunnerInv env state)
    (h : SpendInv env bound state.tables.nodeRuns) (heffect : RunnerEffect env state action after)
    (hreport : ∀ completion, completionOf env state action = some completion →
      (env.workflow.nodes.map fun node => if node.id = completion.node.id then completion.usage
        else charge env.workflow.id state.tables.nodeRuns node).sum ≤ bound) :
    SpendInv env bound after.tables.nodeRuns where
  unspent := h.unspent.step (heffect.rowsStep hinv)
  known := known_step rfl h.known (heffect.rowsStep hinv)
  bounded := by
    refine h.bounded_step hids hinv.rows (hinv.effect hids heffect).rows (heffect.rowsStep hinv)
      fun completion hcompletion => ?_
    exact ⟨(heffect.completion hinv hcompletion).1, hreport completion hcompletion⟩

/-- Before any node has run every node is charged its declaration. -/
theorem spend_init (h : (runner env).init state) (hbound : env.workflow.declaredTotal ≤ bound) :
    SpendInv env bound state.tables.nodeRuns where
  unspent row hrow hworkflow := absurd hworkflow (h.2.2 row hrow)
  known row hrow hworkflow := absurd hworkflow (h.2.2 row hrow)
  bounded := by
    refine le_trans (List.sum_le_sum fun node _ => ?_) hbound
    exact (charge_of_unfinished fun row hdone => absurd hdone.2.1 (h.2.2 row hdone.1)).le

/-- Reports within the declarations keep the charges within every bound on the
declarations. -/
theorem spend_reachable (hids : (env.workflow.nodes.map (·.id)).Nodup)
    (hbound : env.workflow.declaredTotal ≤ bound)
    (h : (runner env).ReachableVia (fun s a => reportsWithin env s a = true) state) :
    SpendInv env bound state.tables.nodeRuns := by
  refine h.invariant_under (fun hr => runner_reachable hids hr.reachable)
    (fun s hinit => spend_init hinit hbound) fun s a s' hinv hspend hcond hstep => ?_
  refine hspend.step hids hinv (runnerStep_effect hstep) fun completion hcompletion => ?_
  obtain ⟨hmem, hcharge⟩ := (runnerStep_effect hstep).completion hinv hcompletion
  have hwithin : completion.usage ≤ completion.node.budget.declared := by
    simpa [reportsWithin, hcompletion] using hcond
  refine le_trans (List.sum_le_sum fun node hnode => ?_) hspend.bounded
  split_ifs with hid
  · rw [node_eq_of_id hids hnode hmem hid, hcharge]
    exact hwithin
  · exact le_rfl

end Runs

section Coverage

variable {bound : Usage} {rows runs : List WorkflowNodeRun} {state : RunnerState}
  {active : ActiveRun}

theorem sum_le_of_subperm {ids others : List NodeId} (usage : NodeId → Usage)
    (h : ids.Subperm others) : (ids.map usage).sum ≤ (others.map usage).sum := by
  obtain ⟨same, hperm, hsub⟩ := h
  rw [← (hperm.map usage).sum_eq]
  exact (hsub.map usage).sum_le_sum fun _ _ => zero_le

/-- The charges cover what completed runs have spent together with what unfinished
nodes declare. -/
theorem SpendInv.covers (h : SpendInv env bound rows)
    (hids : (env.workflow.nodes.map (·.id)).Nodup) (hrows : RowsInv env.workflow.id rows)
    (hruns : ∀ run ∈ runs, run.status = .completed → IsDone env.workflow.id rows run)
    (honce : (completedIds runs).Nodup) {nodes : List WorkflowNode}
    (hnodes : nodes.Sublist env.workflow.nodes)
    (hfree : ∀ node ∈ nodes, ∀ row, IsDone env.workflow.id rows row → row.nodeId ≠ node.id) :
    spent env.workflow runs + (nodes.map fun node => node.budget.declared).sum ≤ bound := by
  -- the charge of the node of an id
  let chargeOf : NodeId → Usage := fun id =>
    (BudgetTotals.mappedNode env.workflow id).elim 0 (charge env.workflow.id rows)
  have hchargeOf : ∀ node ∈ env.workflow.nodes,
      chargeOf node.id = charge env.workflow.id rows node :=
    fun node hnode => by simp only [chargeOf, mappedNode_eq hids hnode, Option.elim_some]
  have hspent : spent env.workflow runs = ((completedIds runs).map chargeOf).sum := by
    rw [spent, completedIds, List.map_map]
    congr 1
    refine List.map_congr_left fun run hrun => ?_
    obtain ⟨hmem, hstatus⟩ := List.mem_filter.mp hrun
    have hdone := hruns run hmem (by simpa using hstatus)
    obtain ⟨node, hnode, hid⟩ := List.mem_map.mp (h.known run hdone.1 hdone.2.1)
    rw [Function.comp_apply, ← hid, queryCostOf_eq hids hnode, hchargeOf node hnode,
      hrows.charge_eq hdone hid.symm]
  have hdeclared : (nodes.map fun node => node.budget.declared).sum =
      ((nodes.map (·.id)).map chargeOf).sum := by
    rw [List.map_map]
    congr 1
    refine List.map_congr_left fun node hnode => ?_
    rw [Function.comp_apply, hchargeOf node (hnodes.subset hnode),
      charge_of_unfinished (hfree node hnode)]
  have hsubperm : (completedIds runs ++ nodes.map (·.id)).Subperm
      (env.workflow.nodes.map (·.id)) := by
    refine List.subperm_of_subset
      (List.nodup_append.mpr ⟨honce, hids.sublist (hnodes.map _), ?_⟩) ?_
    · rintro id hdone _ hpending rfl
      obtain ⟨node, hnode, rfl⟩ := List.mem_map.mp hpending
      obtain ⟨run, hrun, hid, hstatus⟩ := mem_completedIds.mp hdone
      exact hfree node hnode run (hruns run hrun hstatus) hid
    · intro id hid
      rcases List.mem_append.mp hid with hdone | hpending
      · obtain ⟨run, hrun, rfl, hstatus⟩ := mem_completedIds.mp hdone
        obtain ⟨hrow, hworkflow, -⟩ := hruns run hrun hstatus
        exact h.known run hrow hworkflow
      · exact (hnodes.map _).subset hpending
  calc spent env.workflow runs + (nodes.map fun node => node.budget.declared).sum
      = ((completedIds runs ++ nodes.map (·.id)).map chargeOf).sum := by
        rw [hspent, hdeclared, List.map_append, List.sum_append]
    _ ≤ ((env.workflow.nodes.map (·.id)).map chargeOf).sum := sum_le_of_subperm chargeOf hsubperm
    _ = (env.workflow.nodes.map (charge env.workflow.id rows)).sum := by
        rw [List.map_map]
        exact congrArg List.sum (List.map_congr_left hchargeOf)
    _ ≤ bound := h.bounded

theorem SpendInv.spent_le (h : SpendInv env bound rows)
    (hids : (env.workflow.nodes.map (·.id)).Nodup) (hrows : RowsInv env.workflow.id rows)
    (hruns : ∀ run ∈ runs, run.status = .completed → IsDone env.workflow.id rows run)
    (honce : (completedIds runs).Nodup) : spent env.workflow runs ≤ bound := by
  simpa using h.covers hids hrows hruns honce (List.nil_sublist _) (by simp)

theorem CallInv.isDone (h : CallInv env rows active) : ∀ run ∈ active.runs,
    run.status = .completed → IsDone env.workflow.id rows run := by
  intro run hrun hstatus
  obtain ⟨hrow, hworkflow⟩ := h.completed_mem run hrun hstatus
  exact ⟨hrow, hworkflow, hstatus⟩

/-- At a loop head the charges cover the ledger together with whatever runnable nodes
declare. -/
theorem spent_add_declared_le (hids : (env.workflow.nodes.map (·.id)).Nodup)
    (hinv : RunnerInv env state) (hactive : state.active = some active)
    (hhead : active.batch = []) (honce : (completedIds active.runs).Nodup)
    (h : SpendInv env bound state.tables.nodeRuns) {nodes : List WorkflowNode}
    (hnodes : nodes.Sublist (runnableNodes env.workflow active.runs)) :
    spent env.workflow active.runs + (nodes.map fun node => node.budget.declared).sum ≤ bound := by
  have hcall := hinv.call active hactive
  refine h.covers hids hinv.rows hcall.isDone honce (hnodes.trans List.filter_sublist) ?_
  intro node hnode row hdone hid
  obtain ⟨-, hrunnable⟩ := mem_runnableNodes.mp (hnodes.subset hnode)
  rcases hcall.seen row hdone.1 hdone.2.1 hdone.blocks with ⟨run, hrun, hrunId, hblocks⟩ | hbatch
  · simp [(runnable_iff.mp hrunnable).1 run hrun (hrunId.trans hid)] at hblocks
  · simp [hhead] at hbatch

/-- The ledger is exact when the charges fit the machine type. -/
theorem ledger_usage (hids : (env.workflow.nodes.map (·.id)).Nodup)
    (hinv : RunnerInv env state) (hactive : state.active = some active)
    (hcall : SpendCall env active) (h : SpendInv env bound state.tables.nodeRuns)
    (hbound : bound ≤ ledgerLimit) :
    active.consumed.usage = spent env.workflow active.runs := by
  have hspent := h.spent_le hids hinv.rows (hinv.call active hactive).isDone hcall.once
  have hfits : BudgetTotals.zero.usage + spent env.workflow active.runs ≤ ledgerLimit := by
    simpa using hspent.trans hbound
  have hfold := BudgetTotals.foldl_addActual_usage
    (fun run => queryCostOf env.workflow run.nodeId) hfits
  rw [hcall.ledger]
  refine hfold.trans ?_
  simp [spent]

/-- Nodes whose declarations fit the budgets together are all taken. -/
theorem takeWithinBudget_eq_self {budgets : WorkflowBudgets} {totals : BudgetTotals}
    {nodes : List WorkflowNode}
    (h : totals.usage + (nodes.map fun node => node.budget.declared).sum ≤ budgets.limit) :
    takeWithinBudget budgets totals nodes = nodes := by
  induction nodes generalizing totals with
  | nil => rfl
  | cons node rest ih =>
    rw [List.map_cons, List.sum_cons, ← add_assoc] at h
    have hhead : totals.usage + node.budget.declared ≤ budgets.limit := le_trans le_self_add h
    have hfits := hhead.trans budgets.limit_le_ledgerLimit
    rw [takeWithinBudget, (BudgetTotals.wouldExceed_eq_false hfits).mpr hhead, if_neg (by simp)]
    rw [ih (by rwa [BudgetTotals.addDeclared_usage hfits])]

end Coverage

/-- While completed nodes stay within what they declare, a workflow whose exact sums
are within its budgets never has a node held back, and the ledger is exact. -/
theorem admission_never_starves {state : RunnerState} {active : ActiveRun}
    (hids : (env.workflow.nodes.map (·.id)).Nodup)
    (hfits : env.workflow.declaredTotal ≤ env.workflow.budgets.limit)
    (hreach : (runner env).ReachableVia (fun s a => reportsWithin env s a = true) state)
    (hactive : state.active = some active) (hhead : active.batch = []) :
    (∀ before node after, consideredNodes env.workflow active.runs = before ++ node :: after →
      (before.foldl (fun sum node => sum.addDeclared node.budget) active.consumed).wouldExceed
        env.workflow.budgets node.budget = false) ∧
    (runnableNodes env.workflow active.runs ≠ [] →
      selectBatch env.workflow active.runs active.consumed ≠ []) ∧
    active.consumed.usage = spent env.workflow active.runs := by
  have hinv := runner_reachable hids hreach.reachable
  have hcall := spendCall_reachable hids hreach active hactive
  have hspend := spend_reachable hids hfits hreach
  have hlimit := env.workflow.budgets.limit_le_ledgerLimit
  have hledger := ledger_usage hids hinv hactive hcall hspend hlimit
  have hroom : ∀ {nodes : List WorkflowNode},
      nodes.Sublist (consideredNodes env.workflow active.runs) →
      active.consumed.usage + (nodes.map fun node => node.budget.declared).sum ≤
        env.workflow.budgets.limit := fun hsub =>
    hledger ▸ spent_add_declared_le hids hinv hactive hhead hcall.once hspend
      (hsub.trans (List.take_sublist _ _))
  refine ⟨fun before node after hsplit => ?_, fun hnodes => ?_, hledger⟩
  · have hsub : (before ++ [node]).Sublist (consideredNodes env.workflow active.runs) := by
      rw [hsplit]
      exact (List.singleton_sublist.mpr List.mem_cons_self).append_left before
    have hroomNode := hroom hsub
    rw [List.map_append, List.sum_append, ← add_assoc, List.map_singleton, List.sum_singleton]
      at hroomNode
    have hbefore := BudgetTotals.foldl_addDeclared_usage
      ((le_trans le_self_add hroomNode).trans hlimit)
    rw [BudgetTotals.wouldExceed_eq_false (by rw [hbefore]; exact hroomNode.trans hlimit), hbefore]
    exact hroomNode
  · have htaken : selectBatch env.workflow active.runs active.consumed =
        consideredNodes env.workflow active.runs :=
      takeWithinBudget_eq_self (hroom (List.Sublist.refl _))
    rw [htaken]
    cases hrunnable : runnableNodes env.workflow active.runs with
    | nil => exact absurd hrunnable hnodes
    | cons node rest => simp [consideredNodes, hrunnable]

namespace Bypass

/-- At a loop head, with those nodes completed and others still to run. -/
def headAfter (completed : List NodeId) (state : RunnerState) : Bool :=
  state.active.any fun active => decide (active.batch = [] ∧ completedIds active.runs = completed ∧
    runnableNodes workflow active.runs ≠ [])

end Bypass

theorem admission_never_starves_after_probe : ∃ state active,
    (runner Bypass.setup).ReachableVia (fun s a => reportsWithin Bypass.setup s a = true) state ∧
      state.active = some active ∧ completedIds active.runs = [Bypass.probeId] ∧
      selectBatch Bypass.workflow active.runs active.consumed ≠ [] ∧
      active.consumed.usage = spent Bypass.workflow active.runs := by
  have hstart : (runner Bypass.setup).ReachableVia
      (fun s a => reportsWithin Bypass.setup s a = true) Bypass.start :=
    .init ⟨rfl, List.nodup_nil, by simp [Bypass.start]⟩
  have hrun : ((runner Bypass.setup).runVia (fun s a => reportsWithin Bypass.setup s a = true)
      Bypass.start (Bypass.probed 7)).any (Bypass.headAfter [Bypass.probeId]) = true := by decide
  obtain ⟨state, hreach, htest⟩ := hstart.exists_of_runVia hrun
  obtain ⟨active, hactive, hhead⟩ := (Option.any_eq_true _ _).mp htest
  obtain ⟨hbatch, hcompleted, hnodes⟩ := of_decide_eq_true hhead
  obtain ⟨-, hselect, hledger⟩ := admission_never_starves (by decide)
    (by decide) hreach hactive hbatch
  exact ⟨state, active, hreach, hactive, hcompleted, hselect hnodes, hledger⟩

end FineractReports.Workflow
