import FineractReports.Workflow.BudgetAdmission

/-!
# When the budget sums are exact

The verifier's sums and the scheduler's ledger wrap around. They are exact as
long as what the nodes declare fits the verifier's types and every report fits
beside the charges of the other nodes.
-/

namespace FineractReports.Workflow

variable {ρ : Type} {env : RunnerEnv ρ}

/-- A report still fits the ledger together with what the other nodes are charged. -/
def reportFits (env : RunnerEnv ρ) (state : RunnerState) (action : RunnerAction ρ) : Prop :=
  ∀ completion, completionOf env state action = some completion →
    (env.workflow.nodes.map fun node => if node.id = completion.node.id then completion.usage
      else charge env.workflow.id state.tables.nodeRuns node).sum ≤ ledgerLimit

/-- What an outcome adds to the ledger. -/
def outcomeUsage : NodeBatchOutcome → Option Usage
  | .completed run _ _ queryCost => some (run.reported queryCost)
  | _ => none

/-- None of the additions an action makes to the ledger or to its projection overflows:
`from_completed` at the start of a call, `would_exceed` and `add_declared` over the nodes
considered, `add_actual` over the outcomes of a batch. -/
def additionsFit (env : RunnerEnv ρ) (state : RunnerState) : RunnerAction ρ → Prop
  | .run => AddsWithin ledgerLimit 0
      (((state.tables.nodeRunsOf env.workflow.id).filter fun run => run.status = .completed).map
        fun run => run.reported (queryCostOf env.workflow run.nodeId))
  | .select => ∀ active, state.active = some active →
      AddsWithin ledgerLimit active.consumed.usage
        ((consideredNodes env.workflow active.runs).map fun node => node.budget.declared)
  | .collect => ∀ active outcomes, state.active = some active →
      batchResults active.batch = some (.ok outcomes) →
        AddsWithin ledgerLimit active.consumed.usage (outcomes.filterMap outcomeUsage)
  | _ => True

/-- Reports that fit keep the charges within the ledger's type. -/
theorem spend_reachable_of_fits {state : RunnerState}
    (hids : (env.workflow.nodes.map (·.id)).Nodup)
    (hbound : env.workflow.declaredTotal ≤ ledgerLimit)
    (h : (runner env).ReachableVia (reportFits env) state) :
    SpendInv env ledgerLimit state.tables.nodeRuns :=
  h.invariant_under (fun hr => runner_reachable hids hr.reachable)
    (fun _ hinit => spend_init hinit hbound)
    fun _ _ _ hinv hspend hcond hstep => hspend.step hids hinv (runnerStep_effect hstep) hcond

theorem spent_append (workflow : ExecutionWorkflow) (runs others : List WorkflowNodeRun) :
    spent workflow (runs ++ others) = spent workflow runs + spent workflow others := by
  simp [spent, List.filter_append]

/-- What the outcomes of a batch add is what its completed runs have spent. -/
theorem outcomes_usage {rows : List WorkflowNodeRun} {active : ActiveRun}
    {outcomes : List NodeBatchOutcome} (hids : (env.workflow.nodes.map (·.id)).Nodup)
    (hcall : CallInv env rows active) (hspend : SpendCall env active)
    (hresults : batchResults active.batch = some (.ok outcomes)) :
    (outcomes.filterMap outcomeUsage).sum =
      spent env.workflow (outcomes.filterMap completedRun?) := by
  have hcompleted : ∀ run decision nodeId cost, .completed run decision nodeId cost ∈ outcomes →
      run.status = .completed ∧ queryCostOf env.workflow run.nodeId = cost := by
    intro run decision nodeId cost hmem
    obtain ⟨task, htask, hresult⟩ := (batchResults_ok hresults).2 _ hmem
    obtain ⟨-, hdone, hid, -⟩ := (hcall.tasks task htask).finished _ _ _ _ hresult
    refine ⟨hdone, ?_⟩
    rw [hid, queryCostOf_eq hids (hcall.tasks task htask).node_mem,
      hspend.costs task htask _ _ _ _ hresult]
  clear hresults
  induction outcomes with
  | nil => rfl
  | cons outcome rest ih =>
    have hrest := ih fun run decision nodeId cost hmem =>
      hcompleted run decision nodeId cost (List.mem_cons_of_mem _ hmem)
    cases outcome with
    | completed run decision nodeId cost =>
      obtain ⟨hdone, hcost⟩ := hcompleted run decision nodeId cost List.mem_cons_self
      simp only [List.filterMap_cons, outcomeUsage, completedRun?, List.sum_cons, hrest]
      simp [spent, hdone, hcost]
    | waiting nodeId clarification => exact hrest
    | failed => exact hrest
    | cancelled => exact hrest

/-- No scheduler addition overflows while the charges fit. -/
theorem additionsFit_of_spend {state after : RunnerState} {action : RunnerAction ρ}
    (hids : (env.workflow.nodes.map (·.id)).Nodup) (hinv : RunnerInv env state)
    (hcalls : ∀ active, state.active = some active → SpendCall env active)
    (hspend : SpendInv env ledgerLimit state.tables.nodeRuns)
    (heffect : RunnerEffect env state action after) : additionsFit env state action := by
  have hledger : ∀ active, state.active = some active →
      active.consumed.usage = spent env.workflow active.runs := fun active hactive =>
    ledger_usage hids hinv hactive (hcalls active hactive) hspend le_rfl
  cases heffect with
  | started _ =>
    refine (addsWithin_iff (by decide)).mpr ?_
    rw [zero_add]
    refine hspend.spent_le hids hinv.rows (fun run hrun hdone => ?_)
      (completedIds_nodeRunsOf_nodup hinv.rows)
    obtain ⟨hrow, hworkflow⟩ := JobTables.mem_nodeRunsOf.mp hrun
    exact ⟨hrow, hworkflow, hdone⟩
  | selected hactive hhead _ =>
    intro active heq
    obtain rfl := Option.some.inj (hactive.symm.trans heq)
    refine (addsWithin_iff (BudgetTotals.usage_le_ledgerLimit _)).mpr ?_
    rw [hledger _ hactive]
    exact spent_add_declared_le hids hinv hactive hhead (hcalls _ hactive).once hspend
      (List.take_sublist _ _)
  | collected hactive _ _ _ =>
    intro active outcomes heq hresults
    obtain rfl := Option.some.inj (hactive.symm.trans heq)
    have hcall := hinv.call _ hactive
    have hcollected := (hcalls _ hactive).collected hids hcall hresults
    refine (addsWithin_iff (BudgetTotals.usage_le_ledgerLimit _)).mpr ?_
    rw [hledger _ hactive, outcomes_usage hids hcall (hcalls _ hactive) hresults, ← spent_append,
      ← collectCompleted_runs]
    refine hspend.spent_le hids hinv.rows (fun run hrun hdone => ?_) hcollected.once
    rcases mem_collectCompleted.mp hrun with hold | ⟨decision, nodeId, cost, hmem⟩
    · exact hcall.isDone run hold hdone
    · obtain ⟨task, htask, hresult⟩ := (batchResults_ok hresults).2 _ hmem
      obtain ⟨hrow, -, -, hworkflow⟩ := (hcall.tasks task htask).finished _ _ _ _ hresult
      exact ⟨hrow, hworkflow, hdone⟩
  | _ => trivial

/-- Of an accepted workflow the sums are exact precisely when they fit the verifier's
types, and then no addition of the scheduler overflows while the reports fit. -/
theorem budget_sums_exact_iff {sort : DirectedGraph.TopologicalSort NodeId}
    {verified : VerifiedWorkflow}
    (hverify : verify sort env.workflow env.principal env.catalog = .ok verified) :
    ((env.workflow.declaredTotal ≤ env.workflow.budgets.limit ∧
        AddsWithin verifierLimit 0 (env.workflow.nodes.map fun node => node.budget.declared)) ↔
      env.workflow.declaredTotal ≤ verifierLimit) ∧
    (env.workflow.declaredTotal ≤ verifierLimit → ∀ state action after,
      (runner env).ReachableVia (reportFits env) state →
        runnerStep env state action = some after → additionsFit env state action) := by
  obtain ⟨-, hshape, -, hbudgets, -⟩ := verify_eq_ok.mp hverify
  have hadds : AddsWithin verifierLimit 0
      (env.workflow.nodes.map fun node => node.budget.declared) ↔
        env.workflow.declaredTotal ≤ verifierLimit := by
    rw [addsWithin_iff (by decide), zero_add, ExecutionWorkflow.declaredTotal]
  refine ⟨⟨fun h => hadds.mp h.2, fun h => ⟨hbudgets.declaredTotal_le h, hadds.mpr h⟩⟩, ?_⟩
  intro hfits state action after hreach hstep
  have hids := hshape.ids_nodup
  refine additionsFit_of_spend hids (runner_reachable hids hreach.reachable)
    (spendCall_reachable hids hreach) ?_ (runnerStep_effect hstep)
  exact spend_reachable_of_fits hids (hfits.trans verifierLimit_le_ledgerLimit) hreach

theorem budget_sums_exact_bypass :
    Bypass.workflow.declaredTotal ≤ Bypass.workflow.budgets.limit ∧
      AddsWithin verifierLimit 0 (Bypass.workflow.nodes.map fun node => node.budget.declared) :=
  (budget_sums_exact_iff Bypass.accepted).1.mpr (by decide)

namespace Bypass

/-- A query and a terminal node of `2 ^ 63` milliseconds each. -/
def endless : ExecutionWorkflow :=
  { workflow with
    nodes :=
      [{ node probeId query [scope] [] 1 with budget := ⟨9223372036854775808, 10, 1⟩ },
       { node doneId (.complete ⟨.success⟩) [] [] 0 with
          budget := ⟨9223372036854775808, 0, 0⟩ }]
    edges := [⟨probeId, doneId, .always⟩] }

end Bypass

/-- The verifier accepts a workflow of `2 ^ 64` milliseconds against a budget of thirty
seconds. -/
theorem endless_accepted :
    verify DirectedGraph.sourceRemoval Bypass.endless Bypass.setup.principal Bypass.setup.catalog =
        .ok ⟨Bypass.endless⟩ ∧
      Bypass.endless.declaredTotal.2.2 = 2 ^ 64 ∧
      ¬ Bypass.endless.declaredTotal ≤ Bypass.endless.budgets.limit := by
  decide

end FineractReports.Workflow
