import FineractReports.Workflow.DataTools
import FineractReports.Workflow.RunnerReachable

/-!
# The guard and the scheduler

What the scheduler has chosen is a runnable member for the guard as well, both on
the list the call keeps and on the durable rows the executor reads again. The
query budgets differ: the scheduler adds up declared costs, the guard counts
completed runs of every kind.
-/

namespace FineractReports.Workflow

open DirectedGraph

variable {ρ : Type} {env : RunnerEnv ρ}

/-- A call of the guard for a node the scheduler chose, with the node's own bindings:
at the loop head on the list of runs the choice was made from, or while the node
executes on the durable rows. -/
inductive GuardedCall (env : RunnerEnv ρ) (state : RunnerState) :
    WorkflowNode → List WorkflowNodeRun → Bindings → Prop
  | chosen {active node bindings} (hactive : state.active = some active)
      (hhead : active.batch = [])
      (hnode : node ∈ selectBatch env.workflow active.runs active.consumed)
      (hpolicy : checkNodePolicy node env.principal env.catalog = .ok ())
      (hbindings : bindingsFor node active.runs env.principal = .ok bindings) :
      GuardedCall env state node active.runs bindings
  | executing {active task run bindings} (hactive : state.active = some active)
      (htask : task ∈ active.batch) (hrun : task.run = some run) (hresult : task.result = none)
      (hbindings : bindingsFor task.node active.runs env.principal = .ok bindings) :
      GuardedCall env state task.node (state.tables.nodeRunsOf env.workflow.id) bindings

/-- A completed row is the only one of its node that is completed. -/
theorem RowsInv.completed_unique {workflowId : Uuid} {rows : List WorkflowNodeRun}
    (h : RowsInv workflowId rows) {a b : WorkflowNodeRun} (ha : a ∈ rows) (hb : b ∈ rows)
    (hwa : a.workflowId = workflowId) (hwb : b.workflowId = workflowId)
    (hnode : a.nodeId = b.nodeId) (hda : a.status = .completed) (hdb : b.blocks = true) : a = b :=
  h.blocking_unique a ha b hb hwa hwb hnode (by simp [WorkflowNodeRun.blocks, hda]) hdb

/-- The durable rows show the completed run a call reads. -/
theorem RunnerInv.completedRun_durable {state : RunnerState} {active : ActiveRun} {id : NodeId}
    {run : WorkflowNodeRun} (h : RunnerInv env state) (hactive : state.active = some active)
    (hrun : completedRun active.runs id = some run) :
    completedRun (state.tables.nodeRunsOf env.workflow.id) id = some run := by
  obtain ⟨hmem, hid, hdone⟩ := completedRun_spec hrun
  obtain ⟨hrow, hworkflow⟩ := (h.call active hactive).completed_mem run hmem hdone
  refine completedRun_eq_of_unique (JobTables.mem_nodeRunsOf.mpr ⟨hrow, hworkflow⟩) hid hdone ?_
  intro other hother hotherId hotherDone
  obtain ⟨hotherRow, hotherWorkflow⟩ := JobTables.mem_nodeRunsOf.mp hother
  exact h.rows.completed_unique hotherRow hrow hotherWorkflow hworkflow (hotherId.trans hid.symm)
    hotherDone (by simp [WorkflowNodeRun.blocks, hdone])

/-- An edge satisfied on the list a call keeps is satisfied on the durable rows. -/
theorem RunnerInv.dependenciesSatisfied_durable {state : RunnerState} {active : ActiveRun}
    {node : WorkflowNode} (h : RunnerInv env state) (hactive : state.active = some active)
    (hdeps : dependenciesSatisfied node env.workflow active.runs = true) :
    dependenciesSatisfied node env.workflow (state.tables.nodeRunsOf env.workflow.id) = true := by
  rcases dependenciesSatisfied_iff.mp hdeps with hnone | ⟨edge, hedge, htarget, hdone, hcond⟩
  · exact dependenciesSatisfied_iff.mpr (Or.inl hnone)
  · obtain ⟨run, hrun⟩ := Option.isSome_iff_exists.mp (completedRun_isSome.mpr hdone)
    have hdurable := h.completedRun_durable hactive hrun
    refine dependenciesSatisfied_iff.mpr (Or.inr ⟨edge, hedge, htarget, ?_, ?_⟩)
    · exact completedRun_isSome.mp (by rw [hdurable]; rfl)
    · have hsame : cardinalityFor (state.tables.nodeRunsOf env.workflow.id) edge.source =
          cardinalityFor active.runs edge.source := by
        simp only [cardinalityFor, hrun, hdurable]
      unfold edgeConditionMatches at hcond ⊢
      rwa [hsame]

/-- The row of an executing node is running, so the node has no completed row. -/
theorem RunnerInv.executing_open {state : RunnerState} {active : ActiveRun} {task : NodeTask}
    {run : WorkflowNodeRun} (h : RunnerInv env state) (hactive : state.active = some active)
    (htask : task ∈ active.batch) (hrun : task.run = some run) (hresult : task.result = none) :
    task.node.id ∉ completedIds (state.tables.nodeRunsOf env.workflow.id) := by
  intro hdone
  obtain ⟨done, hmem, hid, hstatus⟩ := mem_completedIds.mp hdone
  obtain ⟨hrow, hworkflow⟩ := JobTables.mem_nodeRunsOf.mp hmem
  obtain ⟨hown, hrunning, hownId, hownWorkflow, -⟩ :=
    ((h.call active hactive).tasks task htask).in_flight run hrun hresult
  have hsame := h.rows.completed_unique hrow hown hworkflow hownWorkflow (hid.trans hownId.symm)
    hstatus (by simp [WorkflowNodeRun.blocks, hrunning])
  rw [hsame, hrunning] at hstatus
  exact NodeRunStatus.noConfusion hstatus

/-- Every node the guard is called for is a member it may run, with declared
bindings, and passed the scheduler's policy check. -/
theorem GuardedCall.spec {state : RunnerState} {node : WorkflowNode} {runs : List WorkflowNodeRun}
    {bindings : Bindings} (hids : (env.workflow.nodes.map (·.id)).Nodup)
    (h : RunnerInv env state) (hcall : GuardedCall env state node runs bindings) :
    runnableMember env.workflow runs node.id = some node ∧
      checkNodePolicy node env.principal env.catalog = .ok () ∧
      parametersHaveDeclaredProvenance node bindings = true := by
  cases hcall with
  | chosen hactive _ hnode hpolicy hbindings =>
    obtain ⟨hmem, hrunnable⟩ := mem_runnableNodes.mp ((selectBatch_sublist _ _ _).subset hnode)
    obtain ⟨hfree, hdeps⟩ := runnable_iff.mp hrunnable
    refine ⟨runnableMember_eq_some hids hmem (fun hdone => ?_) hdeps, hpolicy,
      bindingsFor_provenance hbindings⟩
    obtain ⟨run, hrun, hid, hstatus⟩ := mem_completedIds.mp hdone
    simpa [WorkflowNodeRun.blocks, hstatus] using hfree run hrun hid
  | executing hactive htask hrun hresult hbindings =>
    have htaskInv := (h.call _ hactive).tasks _ htask
    obtain ⟨-, -, -, -, hpolicy⟩ := htaskInv.in_flight _ hrun hresult
    refine ⟨runnableMember_eq_some hids htaskInv.node_mem ?_ ?_, hpolicy,
      bindingsFor_provenance hbindings⟩
    · exact h.executing_open hactive htask hrun hresult
    · exact h.dependenciesSatisfied_durable hactive (runnable_iff.mp htaskInv.runnable).2

theorem fitsQueryBudget_iff {workflow : ExecutionWorkflow} {runs : List WorkflowNodeRun}
    {node : WorkflowNode} : fitsQueryBudget workflow runs node ↔
      ((runs.filter fun run => run.status = .completed).length + node.budget.queryCost.toNat) %
        2 ^ 16 ≤ workflow.budgets.maxQueryCount.toNat := by
  simp [fitsQueryBudget, usedQueries, UInt16.le_iff_toNat_le]

/-- The guard never rejects a chosen node as a step that is not a member, and it
rejects it over the query budget exactly when the completed runs of any kind,
counted as queries, and the node's own cost exceed the query count. -/
theorem guard_agrees_iff {sort : TopologicalSort NodeId} {verified : VerifiedWorkflow}
    {state : RunnerState} {node : WorkflowNode} {runs : List WorkflowNodeRun} {bindings : Bindings}
    {capability : String} {probe : Bool}
    (hverify : verify sort env.workflow env.principal env.catalog = .ok verified)
    (hreach : (runner env).Reachable state) (hcall : GuardedCall env state node runs bindings)
    (hserves : toolServes probe node = true)
    (hcapability : declaredCapability node = some capability)
    (htimeout : node.budget.timeoutMs ≠ 0) (hrows : node.budget.rowCap ≠ 0) :
    GuardedDataTools.checkRequest env.workflow runs env.principal env.catalog
        (ownRequest node capability bindings) probe ≠ .error .workflowStepMembership ∧
      (GuardedDataTools.checkRequest env.workflow runs env.principal env.catalog
          (ownRequest node capability bindings) probe ≠ .error .queryBudget ↔
        ((runs.filter fun run => run.status = .completed).length +
          node.budget.queryCost.toNat) % 2 ^ 16 ≤ env.workflow.budgets.maxQueryCount.toNat) := by
  obtain ⟨-, hshape, -⟩ := verify_eq_ok.mp hverify
  obtain ⟨hmember, hpolicy, hprovenance⟩ :=
    hcall.spec hshape.ids_nodup (runner_reachable hshape.ids_nodup hreach)
  rw [checkRequest_ownRequest hmember hserves hpolicy hcapability hprovenance htimeout hrows,
    ← fitsQueryBudget_iff]
  by_cases hfits : fitsQueryBudget env.workflow runs node
  · simp [failIf, hfits]
  · simp [failIf, hfits]

namespace CountedBranch

/-! Two queries with a branch between them, within a budget of two queries. -/

def capability : CapabilityKnowledge where
  id := "savings_summary"
  status := "approved_mvp"
  domain := "savings"
  queryId := "savings.summary"
  outputMode := "table"
  requestShape := ⟨.summary, .savingsAccount, .none, .summary, .none⟩
  kind := .terminal
  memberCapabilityIds := []
  displayName := some "Savings summary"
  description := none
  dataAreas := []
  metrics := []
  examples := []
  requiredParameters := []
  optionalParameters := []
  defaultLimit := none
  guards := ⟨none, none⟩
  datasetRecipe := none
  parameterPolicies := []

def firstId : NodeId := ⟨"first", NodeId.isValid_first⟩
def branchId : NodeId := ⟨"branch", NodeId.isValid_branch⟩
def secondId : NodeId := ⟨"second", NodeId.isValid_second⟩
def doneId : NodeId := ⟨"complete", NodeId.isValid_complete⟩

def node (id : NodeId) (kind : NodeKind) (inputs : List NodeInput) (queryCost : UInt8) :
    WorkflowNode where
  id := id
  kind := kind
  inputs := inputs
  outputs := []
  policy := ⟨none, .authorizedIntersection, .publicBusiness, false⟩
  budget := ⟨1000, 10, queryCost⟩
  idempotency := .replayable
  retry := ⟨0⟩

def query : NodeKind := .executeQuery ⟨some "savings_summary", none, none, none, none⟩

def scope : NodeInput := ⟨"office_ids", .integerArray, .authorizedScope⟩

def workflow : ExecutionWorkflow where
  id := 7
  contractVersion := WORKFLOW_CONTRACT_VERSION
  catalogVersion := 0
  nodes :=
    [node firstId query [scope] 1,
     node branchId (.cardinalityBranch ⟨firstId, doneId, secondId, doneId⟩) [] 0,
     node secondId query [scope] 1, node doneId (.complete ⟨.success⟩) [] 0]
  edges :=
    [⟨firstId, branchId, .always⟩, ⟨branchId, secondId, .cardinality .one⟩,
     ⟨branchId, doneId, .cardinality .zero⟩, ⟨branchId, doneId, .cardinality .many⟩,
     ⟨secondId, doneId, .always⟩]
  budgets := ⟨30000, 1000, 2, 2, 2, 0⟩
  failPolicy := .failFast
  outputContract := ⟨.table, false, .publicBusiness⟩

def setup : RunnerEnv NodeExecution where
  workflow := workflow
  principal := ⟨1, "analyst", ["savings_summary"], [1], false⟩
  catalog := ⟨[], [], [], [], [], [capability], [], [], [], [], [],
    ⟨⟨0, "0"⟩, ⟨0, "0"⟩, "others", "Others"⟩, []⟩
  executor := fun _ _ _ reply => .ok reply

def start : RunnerState where
  tables :=
    { jobId := 3, userId := 1, sessionArchived := false, status := .running, currentStep := ""
      resumeFromStep := none, stateJson := .obj [], resultJson := none, errorJson := none
      workflowId := some 7, workflowRevision := 0, currentNodeId := none
      pendingClarification := none, memoryRevision := 0, nodeRuns := [], events := [] }
  active := none
  outcome := none

theorem accepted : verify sourceRemoval setup.workflow setup.principal setup.catalog =
    .ok ⟨workflow⟩ := by decide

theorem start_reachable : (runner setup).Reachable start :=
  .init ⟨rfl, List.nodup_nil, by simp [start]⟩

/-- The first query is executing. -/
def firstExecuting : List (RunnerAction NodeExecution) := [.run, .select, .begin 0 11 1]

/-- One row and the branch's decision later, the second query is executing. -/
def secondExecuting : List (RunnerAction NodeExecution) :=
  firstExecuting ++
    [.finish 0 (.completed (.obj []) 1) 5, .collect, .select, .begin 0 12 2,
     .finish 0 (.completed (.obj []) 0) 5, .collect, .select, .begin 0 13 3]

def executingWhere (id : NodeId) (test : WorkflowNode → List WorkflowNodeRun → Bindings → Bool)
    (state : RunnerState) : Bool :=
  state.active.any fun active => active.batch.any fun task =>
    decide (task.node.id = id ∧ task.run.isSome = true ∧ task.result.isNone = true) &&
      match bindingsFor task.node active.runs setup.principal with
      | .ok bindings => test task.node (state.tables.nodeRunsOf workflow.id) bindings
      | .error _ => false

theorem exists_executing {id : NodeId} {actions : List (RunnerAction NodeExecution)}
    {test : WorkflowNode → List WorkflowNodeRun → Bindings → Bool}
    (h : ((runner setup).run start actions).any (executingWhere id test) = true) :
    ∃ state node runs bindings, (runner setup).Reachable state ∧
      GuardedCall setup state node runs bindings ∧ node.id = id ∧
      test node runs bindings = true := by
  obtain ⟨state, hreach, htest⟩ := start_reachable.exists_of_run h
  obtain ⟨active, hactive, hbatch⟩ := (Option.any_eq_true _ _).mp htest
  obtain ⟨task, htask, hguard⟩ := List.any_eq_true.mp hbatch
  obtain ⟨hflight, hmatch⟩ := Bool.and_eq_true_iff.mp hguard
  obtain ⟨hid, hrun, hresult⟩ := of_decide_eq_true hflight
  obtain ⟨run, hrun⟩ := Option.isSome_iff_exists.mp hrun
  split at hmatch
  · rename_i bindings hbindings
    exact ⟨state, task.node, _, bindings, hreach, .executing hactive htask hrun
      (Option.isNone_iff_eq_none.mp hresult) hbindings, hid, hmatch⟩
  · exact absurd hmatch (by simp)

end CountedBranch

theorem guard_agrees_iff_first : ∃ state node runs bindings,
    (runner CountedBranch.setup).Reachable state ∧
      GuardedCall CountedBranch.setup state node runs bindings ∧
      GuardedDataTools.checkRequest CountedBranch.workflow runs CountedBranch.setup.principal
        CountedBranch.setup.catalog (ownRequest node "savings_summary" bindings) false ≠
          .error .queryBudget := by
  obtain ⟨state, node, runs, bindings, hreach, hcall, -, htest⟩ := CountedBranch.exists_executing
    (show ((runner CountedBranch.setup).run CountedBranch.start CountedBranch.firstExecuting).any
      (CountedBranch.executingWhere CountedBranch.firstId fun node runs _ => decide
        (toolServes false node = true ∧ declaredCapability node = some "savings_summary" ∧
          node.budget.timeoutMs ≠ 0 ∧ node.budget.rowCap ≠ 0 ∧
          ((runs.filter fun run => run.status = .completed).length +
            node.budget.queryCost.toNat) % 2 ^ 16 ≤ 2)) = true by decide)
  obtain ⟨hserves, hcapability, htimeout, hrows, hcount⟩ := of_decide_eq_true htest
  refine ⟨state, node, runs, bindings, hreach, hcall, ?_⟩
  exact (guard_agrees_iff CountedBranch.accepted hreach hcall hserves hcapability htimeout
    hrows).2.mpr hcount

/-- The second query fits the scheduler's budget and is rejected by the guard: the
branch between the queries was counted as one. -/
theorem guard_rejects_chosen_query : ∃ state node runs bindings,
    verify sourceRemoval CountedBranch.setup.workflow CountedBranch.setup.principal
        CountedBranch.setup.catalog = .ok ⟨CountedBranch.workflow⟩ ∧
      (runner CountedBranch.setup).Reachable state ∧
      GuardedCall CountedBranch.setup state node runs bindings ∧ toolServes false node = true ∧
      declaredCapability node = some "savings_summary" ∧ node.budget.timeoutMs ≠ 0 ∧
      node.budget.rowCap ≠ 0 ∧
      GuardedDataTools.checkRequest CountedBranch.workflow runs CountedBranch.setup.principal
        CountedBranch.setup.catalog (ownRequest node "savings_summary" bindings) false =
          .error .queryBudget := by
  obtain ⟨state, node, runs, bindings, hreach, hcall, -, htest⟩ := CountedBranch.exists_executing
    (show ((runner CountedBranch.setup).run CountedBranch.start CountedBranch.secondExecuting).any
      (CountedBranch.executingWhere CountedBranch.secondId fun node runs bindings => decide
        (toolServes false node = true ∧ declaredCapability node = some "savings_summary" ∧
          node.budget.timeoutMs ≠ 0 ∧ node.budget.rowCap ≠ 0 ∧
          GuardedDataTools.checkRequest CountedBranch.workflow runs CountedBranch.setup.principal
            CountedBranch.setup.catalog (ownRequest node "savings_summary" bindings) false =
              .error .queryBudget)) = true by decide)
  obtain ⟨hserves, hcapability, htimeout, hrows, hrejected⟩ := of_decide_eq_true htest
  exact ⟨state, node, runs, bindings, CountedBranch.accepted, hreach, hcall, hserves, hcapability,
    htimeout, hrows, hrejected⟩

end FineractReports.Workflow
