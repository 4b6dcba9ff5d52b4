import FineractReports.Workflow.RunnerReachable

/-!
# Producers before consumers

A node is fired as soon as one of its incoming edges is satisfied, so what has
certainly completed before a node are the producers on every edge path to it.
The verifier compares positions in one topological order instead, and accepts a
consumer that a branch can reach around its producer.
-/

namespace FineractReports.Workflow

open DirectedGraph

variable {ρ : Type} {env : RunnerEnv ρ}

/-- The nodes a list of runs counts as completed. -/
def completedIn (runs : List WorkflowNodeRun) (id : NodeId) : Prop := id ∈ completedIds runs

/-- Every node of `visited` can be reached around any node that has not completed. -/
def ReachedAround (workflow : ExecutionWorkflow) (completed visited : NodeId → Prop) : Prop :=
  ∀ r, ¬ completed r → ∀ id, visited id → id ≠ r →
    (WorkflowGraph.new workflow).ReachesAvoiding r id

/-- A completed row of the workflow exists for the node. -/
def durablyCompleted (workflowId : Uuid) (rows : List WorkflowNodeRun) (id : NodeId) : Prop :=
  ∃ row ∈ rows, row.workflowId = workflowId ∧ row.nodeId = id ∧ row.status = .completed

/-- A row of the workflow, of any status, exists for the node. -/
def durablyStarted (workflowId : Uuid) (rows : List WorkflowNodeRun) (id : NodeId) : Prop :=
  ∃ row ∈ rows, row.workflowId = workflowId ∧ row.nodeId = id

/-- No node was started on a way around an unfinished producer of it, neither in the
durable rows nor in the list a call keeps. -/
structure OrderInv (env : RunnerEnv ρ) (state : RunnerState) : Prop where
  rows : ReachedAround env.workflow (durablyCompleted env.workflow.id state.tables.nodeRuns)
    (durablyStarted env.workflow.id state.tables.nodeRuns)
  call : ∀ active, state.active = some active →
    ReachedAround env.workflow (completedIn active.runs) (completedIn active.runs)

/-- The scheduler's rule is the any-edge rule of the graph. -/
theorem firedBy_of_runnable {workflow : ExecutionWorkflow} {runs : List WorkflowNodeRun}
    {node : WorkflowNode} (hknown : workflow.EdgesKnown) (hnode : node ∈ workflow.nodes)
    (h : runnable node workflow runs = true) :
    FiredBy (WorkflowGraph.new workflow) (completedIn runs) node.id := by
  rcases dependenciesSatisfied_iff.mp (runnable_iff.mp h).2 with
    hnone | ⟨edge, hedge, htarget, hdone, -⟩
  · refine Or.inl ⟨List.mem_map.mpr ⟨node, hnode, rfl⟩, fun b hadj => ?_⟩
    obtain ⟨edge, hedge, -, htarget⟩ := (WorkflowGraph.adj_iff hknown).mp hadj
    exact hnone edge hedge htarget
  · exact Or.inr ⟨edge.source,
      (WorkflowGraph.adj_iff hknown).mpr ⟨edge, hedge, rfl, htarget⟩, hdone⟩

/-- A runnable node is reached around whatever else has not completed. -/
theorem ReachedAround.of_runnable {workflow : ExecutionWorkflow} {runs : List WorkflowNodeRun}
    {node : WorkflowNode} {r : NodeId}
    (h : ReachedAround workflow (completedIn runs) (completedIn runs))
    (hknown : workflow.EdgesKnown) (hnode : node ∈ workflow.nodes)
    (hrunnable : runnable node workflow runs = true) (hr : ¬ completedIn runs r)
    (hne : node.id ≠ r) : (WorkflowGraph.new workflow).ReachesAvoiding r node.id :=
  .of_firedBy (fun id hid => h r hr id hid fun heq => hr (heq ▸ hid))
    (firedBy_of_runnable hknown hnode hrunnable) hne

/-- Row updates keep what is completed and start nothing. -/
theorem ReachedAround.map {workflow : ExecutionWorkflow} {rows : List WorkflowNodeRun}
    {update : WorkflowNodeRun → WorkflowNodeRun}
    (h : ReachedAround workflow (durablyCompleted workflow.id rows)
      (durablyStarted workflow.id rows)) (hupdate : RowUpdate update) :
    ReachedAround workflow (durablyCompleted workflow.id (rows.map update))
      (durablyStarted workflow.id (rows.map update)) := by
  intro r hr id ⟨row, hrow, hworkflow, hid⟩ hne
  obtain ⟨row, hmem, rfl⟩ := List.mem_map.mp hrow
  rw [hupdate.workflowId_eq] at hworkflow
  rw [hupdate.nodeId_eq] at hid
  refine h r ?_ id ⟨row, hmem, hworkflow, hid⟩ hne
  rintro ⟨done, hdone, hown, hdoneId, hstatus⟩
  refine hr ⟨done, List.mem_map.mpr ⟨done, hdone, ?_⟩, hown, hdoneId, hstatus⟩
  exact hupdate.completed_fixed done hstatus

/-- What a call counts as completed is durably completed. -/
theorem CallInv.durablyCompleted {rows : List WorkflowNodeRun} {active : ActiveRun}
    (h : CallInv env rows active) {id : NodeId} (hid : completedIn active.runs id) :
    durablyCompleted env.workflow.id rows id := by
  obtain ⟨run, hrun, hnode, hstatus⟩ := mem_completedIds.mp hid
  obtain ⟨hrow, hworkflow⟩ := h.completed_mem run hrun hstatus
  exact ⟨run, hrow, hworkflow, hnode, hstatus⟩

theorem OrderInv.of_idle {state : RunnerState} (hidle : state.active = none)
    (hrows : ReachedAround env.workflow (durablyCompleted env.workflow.id state.tables.nodeRuns)
      (durablyStarted env.workflow.id state.tables.nodeRuns)) : OrderInv env state where
  rows := hrows
  call active hactive := by simp [hidle] at hactive

theorem order_init {state : RunnerState} (h : (runner env).init state) : OrderInv env state := by
  obtain ⟨hidle, -, hforeign⟩ := h
  refine .of_idle hidle ?_
  rintro r - id ⟨row, hrow, hworkflow, -⟩ -
  exact absurd hworkflow (hforeign row hrow)

/-- A new call reads as completed exactly what is durably completed. -/
theorem OrderInv.started {state : RunnerState} (h : OrderInv env state) {totals : BudgetTotals} :
    OrderInv env { state with
      active := some ⟨state.tables.nodeRunsOf env.workflow.id, totals, []⟩, outcome := none } where
  rows := h.rows
  call active hactive := by
    obtain rfl := Option.some.inj hactive
    intro r hr id hid hne
    obtain ⟨run, hrun, hnode, -⟩ := mem_completedIds.mp hid
    obtain ⟨hrow, hworkflow⟩ := JobTables.mem_nodeRunsOf.mp hrun
    refine h.rows r ?_ id ⟨run, hrow, hworkflow, hnode⟩ hne
    rintro ⟨done, hdone, hown, hdoneId, hstatus⟩
    exact hr (mem_completedIds.mpr
      ⟨done, JobTables.mem_nodeRunsOf.mpr ⟨hdone, hown⟩, hdoneId, hstatus⟩)

theorem OrderInv.selected {state after : RunnerState} {active : ActiveRun}
    (h : OrderInv env state) (hactive : state.active = some active)
    (hselect : SelectEffect env state active after) : OrderInv env after := by
  cases hselect with
  | exhausted _ => exact .of_idle rfl h.rows
  | repeated _ _ => exact .of_idle rfl h.rows
  | starved _ _ => exact .of_idle rfl h.rows
  | chosen _ =>
    refine ⟨h.rows, fun chosen hchosen => ?_⟩
    obtain rfl := Option.some.inj hchosen
    exact h.call active hactive

/-- The row of a begun task is that of a node the call found runnable. -/
theorem OrderInv.begun {state : RunnerState} {active : ActiveRun} {index : ℕ} {task : NodeTask}
    {runId : Uuid} {now : ℕ} (h : OrderInv env state) (hinv : RunnerInv env state)
    (hknown : env.workflow.EdgesKnown) (hactive : state.active = some active)
    (htask : active.batch[index]? = some task) :
    OrderInv env
      (state.setTask active index (beginTask env state.tables active.runs task runId now)) := by
  have hcall := hinv.call active hactive
  have htaskInv := hcall.tasks task (List.mem_of_getElem? htask)
  unfold beginTask
  split
  · refine ⟨h.rows, fun call heq => ?_⟩
    obtain rfl := Option.some.inj heq
    exact h.call active hactive
  · simp only
    split_ifs
    · refine ⟨h.rows, fun call heq => ?_⟩
      obtain rfl := Option.some.inj heq
      exact h.call active hactive
    · refine ⟨?_, fun call heq => ?_⟩
      · intro r hr id ⟨row, hrow, hworkflow, hid⟩ hne
        have hbefore : ¬ durablyCompleted env.workflow.id state.tables.nodeRuns r := by
          rintro ⟨done, hdone, hrest⟩
          exact hr ⟨done, List.mem_append_left _ hdone, hrest⟩
        rcases List.mem_append.mp hrow with hmem | hmem
        · exact h.rows r hbefore id ⟨row, hmem, hworkflow, hid⟩ hne
        · obtain rfl := List.mem_singleton.mp hmem
          obtain rfl : task.node.id = id := hid
          exact (h.call active hactive).of_runnable hknown htaskInv.node_mem htaskInv.runnable
            (fun hdone => hbefore (hcall.durablyCompleted hdone)) hne
      · obtain rfl := Option.some.inj heq
        exact h.call active hactive

/-- Settling a task updates rows and leaves the call's list of runs alone. -/
theorem OrderInv.settled {state : RunnerState} {active : ActiveRun} {index : ℕ}
    {written : NodeTask × JobTables} {update : WorkflowNodeRun → WorkflowNodeRun}
    (h : OrderInv env state) (hactive : state.active = some active)
    (hupdate : UpdatesRows state.tables written.2 update) :
    OrderInv env (state.setTask active index written) where
  rows := by simpa [RunnerState.setTask, hupdate.2] using h.rows.map hupdate.1
  call call heq := by
    obtain rfl := Option.some.inj heq
    exact h.call active hactive

/-- The end of a node, whatever result its task is left with. -/
theorem OrderInv.finished {state : RunnerState} {active : ActiveRun} {index : ℕ}
    {task written : NodeTask} {run : WorkflowNodeRun} {reply : ρ} {elapsed : Int32}
    (h : OrderInv env state) (hinv : RunnerInv env state) (hactive : state.active = some active)
    (htask : active.batch[index]? = some task) (hrun : task.run = some run)
    (hresult : task.result = none) :
    OrderInv env (state.setTask active index
      (written, (finishTask env state.tables active.runs task run reply elapsed).2)) := by
  obtain ⟨hmem, hrunning, -⟩ := ((hinv.call active hactive).tasks task
    (List.mem_of_getElem? htask)).in_flight run hrun hresult
  obtain ⟨update, hupdate, -⟩ := settle_spec (Eq.refl (settle env state.tables task.node run
    (bindingsFor task.node active.runs env.principal >>= fun bindings =>
      resolveExecution env state.tables task.node bindings active.runs reply) elapsed))
    hmem hrunning
  exact h.settled hactive hupdate

theorem OrderInv.cancelled {state : RunnerState} {active : ActiveRun} {index : ℕ}
    {task : NodeTask} {run : WorkflowNodeRun} {elapsed : Int32} (h : OrderInv env state)
    (hactive : state.active = some active) :
    OrderInv env (state.setTask active index
      (cancelTask env state.tables active.runs task run elapsed)) := by
  unfold cancelTask
  split
  · exact h.settled hactive (.refl _)
  · obtain ⟨update, hupdate, -⟩ := failNode_updatesRows state.tables run elapsed
    exact h.settled hactive hupdate

/-- The runs a batch adds are those of nodes the call found runnable before. -/
theorem OrderInv.collected {state after : RunnerState} {active : ActiveRun}
    {results : Except String (List NodeBatchOutcome)} (h : OrderInv env state)
    (hinv : RunnerInv env state) (hknown : env.workflow.EdgesKnown)
    (hactive : state.active = some active) (hresults : batchResults active.batch = some results)
    (hcollect : CollectEffect env state active results after) : OrderInv env after := by
  have hcall := hinv.call active hactive
  cases hcollect with
  | error _ => exact .of_idle rfl h.rows
  | failed _ => exact .of_idle rfl (by simpa [RunnerState.ended, RunnerState.recorded] using h.rows)
  | refused _ _ _ =>
    exact .of_idle rfl (by simpa [RunnerState.ended, RunnerState.recorded] using h.rows)
  | paused _ _ hpause =>
    obtain ⟨update, hupdate, hrows⟩ := markWorkflowPaused_updatesRows hpause
    exact .of_idle rfl
      (by simpa [RunnerState.ended, RunnerState.recorded, hrows] using h.rows.map hupdate)
  | continued _ _ =>
    refine ⟨by simpa [RunnerState.recorded] using h.rows, fun call heq => ?_⟩
    obtain rfl := Option.some.inj heq
    intro r hr id hid hne
    have hbefore : ¬ completedIn active.runs r := by
      intro hdone
      obtain ⟨run, hrun, hrest⟩ := mem_completedIds.mp hdone
      exact hr (mem_completedIds.mpr ⟨run, mem_collectCompleted.mpr (Or.inl hrun), hrest⟩)
    obtain ⟨run, hrun, hnode, hstatus⟩ := mem_completedIds.mp hid
    rcases mem_collectCompleted.mp hrun with hold | ⟨decision, nodeId, cost, houtcome⟩
    · exact h.call active hactive r hbefore id
        (mem_completedIds.mpr ⟨run, hold, hnode, hstatus⟩) hne
    · obtain ⟨task, htask, heq⟩ := (batchResults_ok hresults).2 _ houtcome
      have htaskInv := hcall.tasks task htask
      obtain ⟨-, -, hid', -⟩ := htaskInv.finished _ _ _ _ heq
      obtain rfl : task.node.id = id := hid'.symm.trans hnode
      exact (h.call active hactive).of_runnable hknown htaskInv.node_mem htaskInv.runnable
        hbefore hne

theorem OrderInv.resumed {state : RunnerState} (h : OrderInv env state)
    (request : WorkflowResumeRequest) :
    OrderInv env { state with tables := (state.tables.resume request).2 } := by
  obtain ⟨update, hupdate, -⟩ := resume_updatesRows state.tables request
  exact ⟨by simpa [hupdate.2] using h.rows.map hupdate.1, h.call⟩

theorem OrderInv.effect {state after : RunnerState} {action : RunnerAction ρ}
    (h : OrderInv env state)
    (hinv : RunnerInv env state) (hknown : env.workflow.EdgesKnown)
    (heffect : RunnerEffect env state action after) : OrderInv env after := by
  cases heffect with
  | started _ => exact h.started
  | selected hactive _ hselect => exact h.selected hactive hselect
  | begun hactive htask _ _ _ => exact h.begun hinv hknown hactive htask
  | finished hactive htask hrun hresult => exact h.finished hinv hactive htask hrun hresult
  | cancelled hactive _ _ _ => exact h.cancelled hactive
  | collected hactive _ hresults hcollect =>
    exact h.collected hinv hknown hactive hresults hcollect
  | resumed request => exact h.resumed request
  | stateFailed hactive _ _ => exact h.settled hactive (.refl _)
  | auditFailed hactive htask hrun hresult => exact h.finished hinv hactive htask hrun hresult
  | collectFailed _ _ _ => exact .of_idle rfl h.rows

/-- No reachable state has a node started around an unfinished producer of it. -/
theorem order_reachable {state : RunnerState} (hids : (env.workflow.nodes.map (·.id)).Nodup)
    (hknown : env.workflow.EdgesKnown) (h : (runner env).Reachable state) : OrderInv env state :=
  h.invariant_under (fun hr => runner_reachable hids hr) (fun _ => order_init)
    fun _ _ _ hinv horder _ hstep => horder.effect hinv hknown (runnerStep_effect hstep)

/-- Every producer a runnable node reads has completed, provided it lies on every
edge path from the entry to that node. -/
theorem runnable_reads_completed {sort : TopologicalSort NodeId} {verified : VerifiedWorkflow}
    {state : RunnerState} {active : ActiveRun} {node : WorkflowNode}
    (hverify : verify sort env.workflow env.principal env.catalog = .ok verified)
    (hreach : (runner env).Reachable state) (hactive : state.active = some active)
    (hnode : node ∈ runnableNodes env.workflow active.runs) :
    ∀ producer ∈ node.reads,
      (WorkflowGraph.new env.workflow).StrictlyDominates producer node.id →
        ∃ run, completedRun active.runs producer = some run := by
  intro producer _ hdominates
  obtain ⟨-, hshape, -⟩ := verify_eq_ok.mp hverify
  have horder := order_reachable hshape.ids_nodup hshape.edges_known hreach
  obtain ⟨hmem, hrunnable⟩ := mem_runnableNodes.mp hnode
  have hfired := firedBy_of_runnable hshape.edges_known hmem hrunnable
  have hdone : completedIn active.runs producer := by
    refine hdominates.fired (fun hr id hid => ?_) hfired
    exact horder.call active hactive producer hr id hid fun heq => hr (heq ▸ hid)
  exact Option.isSome_iff_exists.mp (completedRun_isSome.mpr hdone)

namespace Bypass

/-! A branch that skips the node whose output the report reads. -/

def probeId : NodeId := ⟨"probe", by decide⟩
def branchId : NodeId := ⟨"branch", NodeId.isValid_branch⟩
def lookupId : NodeId := ⟨"lookup", by decide⟩
def reportId : NodeId := ⟨"report", by decide⟩
def doneId : NodeId := ⟨"complete", NodeId.isValid_complete⟩

def scope : NodeInput := ⟨"office_ids", .integerArray, .authorizedScope⟩

def node (id : NodeId) (kind : NodeKind) (inputs : List NodeInput) (outputs : List NodeOutputSlot)
    (queryCost : UInt8) : WorkflowNode where
  id := id
  kind := kind
  inputs := inputs
  outputs := outputs
  policy := ⟨none, .authorizedIntersection, .publicBusiness, false⟩
  budget := ⟨1000, 10, queryCost⟩
  idempotency := .replayable
  retry := ⟨0⟩

def query : NodeKind := .executeQuery ⟨none, none, none, none, none⟩

def workflow : ExecutionWorkflow where
  id := 7
  contractVersion := WORKFLOW_CONTRACT_VERSION
  catalogVersion := 0
  nodes :=
    [node probeId query [scope] [] 1,
     node branchId (.cardinalityBranch ⟨probeId, reportId, lookupId, doneId⟩) [] [] 0,
     node lookupId query [scope] [⟨"account_id", .integer, .publicBusiness, .one⟩] 1,
     node reportId query [scope, ⟨"account_id", .integer, .priorStep lookupId "account_id"⟩] [] 1,
     node doneId (.complete ⟨.success⟩) [] [] 0]
  edges :=
    [⟨probeId, branchId, .always⟩, ⟨branchId, lookupId, .cardinality .one⟩,
     ⟨branchId, reportId, .cardinality .zero⟩, ⟨lookupId, reportId, .always⟩,
     ⟨branchId, doneId, .cardinality .many⟩, ⟨reportId, doneId, .always⟩]
  budgets := ⟨30000, 1000, 5, 2, 2, 0⟩
  failPolicy := .failFast
  outputContract := ⟨.table, false, .publicBusiness⟩

def setup : RunnerEnv NodeExecution where
  workflow := workflow
  principal := ⟨1, "analyst", [], [1], false⟩
  catalog := ⟨[], [], [], [], [], [], [], [], [], [], [],
    ⟨⟨0, "0"⟩, ⟨0, "0"⟩, "others", "Others"⟩, []⟩
  executor := fun _ _ _ reply => .ok reply

def start : RunnerState where
  tables :=
    { jobId := 3, userId := 1, sessionArchived := false, status := .running, currentStep := ""
      resumeFromStep := none, stateJson := .obj [], resultJson := none, errorJson := none
      workflowId := some 7, workflowRevision := 0, currentNodeId := none
      pendingClarification := none, memoryRevision := 0, nodeRuns := [], events := [] }
  active := none
  outcome := none

theorem accepted : verify sourceRemoval setup.workflow setup.principal setup.catalog =
    .ok ⟨workflow⟩ := by decide

theorem start_reachable : (runner setup).Reachable start :=
  .init ⟨rfl, List.nodup_nil, by simp [start]⟩

/-- The probe completes with that many rows. -/
def probed (rows : Int32) : List (RunnerAction NodeExecution) :=
  [.run, .select, .begin 0 11 1, .finish 0 (.completed (.obj []) rows) 5, .collect]

/-- Without rows the branch goes to the report directly. -/
def bypassed : List (RunnerAction NodeExecution) :=
  probed 0 ++ [.select, .begin 0 12 2, .finish 0 (.completed (.obj []) 0) 5, .collect]

def runnableWhere (test : ActiveRun → WorkflowNode → Bool) (state : RunnerState) : Bool :=
  state.active.any fun active =>
    (runnableNodes workflow active.runs).any fun node => test active node

theorem exists_runnable (actions : List (RunnerAction NodeExecution))
    (test : ActiveRun → WorkflowNode → Bool)
    (h : ((runner setup).run start actions).any (runnableWhere test) = true) :
    ∃ state active, (runner setup).Reachable state ∧ state.active = some active ∧
      ∃ node ∈ runnableNodes workflow active.runs, test active node = true := by
  obtain ⟨state, hreach, htest⟩ := start_reachable.exists_of_run h
  obtain ⟨active, hactive, hnode⟩ := (Option.any_eq_true _ _).mp htest
  exact ⟨state, active, hreach, hactive, List.any_eq_true.mp hnode⟩

end Bypass

theorem runnable_reads_completed_after_probe : ∃ state active,
    (runner Bypass.setup).Reachable state ∧ state.active = some active ∧
      ∃ run, completedRun active.runs Bypass.probeId = some run := by
  obtain ⟨state, active, hreach, hactive, node, hnode, htest⟩ := Bypass.exists_runnable
    (Bypass.probed 0) (fun _ node => decide
      ((WorkflowGraph.new Bypass.workflow).predecessors node.id = [Bypass.probeId] ∧
        Bypass.probeId ∈ node.reads)) (by decide)
  obtain ⟨hsole, hread⟩ := of_decide_eq_true htest
  refine ⟨state, active, hreach, hactive, ?_⟩
  exact runnable_reads_completed Bypass.accepted hreach hactive hnode _ hread
    (strictlyDominates_of_sole_predecessor hsole)

/-- The verifier accepts a workflow in which a runnable node reads a producer that
has not completed. -/
theorem runnable_reads_incomplete : ∃ state active node producer,
    verify sourceRemoval Bypass.setup.workflow Bypass.setup.principal Bypass.setup.catalog =
        .ok ⟨Bypass.workflow⟩ ∧
      (runner Bypass.setup).Reachable state ∧ state.active = some active ∧
      node ∈ runnableNodes Bypass.workflow active.runs ∧ producer ∈ node.reads ∧
      completedRun active.runs producer = none := by
  obtain ⟨state, active, hreach, hactive, node, hnode, htest⟩ := Bypass.exists_runnable
    Bypass.bypassed (fun active node =>
      node.reads.any fun producer => (completedRun active.runs producer).isNone) (by decide)
  obtain ⟨producer, hread, hnone⟩ := List.any_eq_true.mp htest
  exact ⟨state, active, node, producer, Bypass.accepted, hreach, hactive, hnode, hread,
    Option.isNone_iff_eq_none.mp hnone⟩

end FineractReports.Workflow
