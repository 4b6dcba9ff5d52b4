import Mathlib.Algebra.Order.BigOperators.Group.List
import Mathlib.Algebra.Order.Monoid.Prod
import FineractReports.Workflow.Runner

/-!
# Budget sums in unbounded numbers

The verifier and the scheduler add budgets up in machine types. Here the same
amounts are triples of natural numbers, and the machine sums agree with them as
long as the running sum fits.
-/

namespace FineractReports.Workflow

/-- Queries, rows and milliseconds, compared component by component. -/
abbrev Usage := ℕ × ℕ × ℕ

/-- What the three sums of the verifier can hold. -/
def verifierLimit : Usage := (2 ^ 16 - 1, 2 ^ 64 - 1, 2 ^ 64 - 1)

/-- What the ledger of the scheduler can hold. -/
def ledgerLimit : Usage := (2 ^ 64 - 1, 2 ^ 64 - 1, 2 ^ 64 - 1)

def WorkflowBudgets.limit (budgets : WorkflowBudgets) : Usage :=
  (budgets.maxQueryCount.toNat, budgets.sharedRowCap.toNat, budgets.sharedTimeoutMs.toNat)

def NodeBudget.declared (budget : NodeBudget) : Usage :=
  (budget.queryCost.toNat, budget.rowCap.toNat, budget.timeoutMs.toNat)

/-- What a run reports once it has ended; negative numbers count as nothing. -/
def WorkflowNodeRun.reported (run : WorkflowNodeRun) (queryCost : UInt8) : Usage :=
  (queryCost.toNat, run.rowsReturned.toInt.toNat, (run.durationMs.getD 0).toInt.toNat)

def BudgetTotals.usage (totals : BudgetTotals) : Usage :=
  (totals.queries.toNat, totals.rows.toNat, totals.ms.toNat)

/-- What all nodes together declare. -/
def ExecutionWorkflow.declaredTotal (workflow : ExecutionWorkflow) : Usage :=
  (workflow.nodes.map fun node => node.budget.declared).sum

/-- Adding the amounts one after the other never leaves the limit. -/
def AddsWithin (limit : Usage) : Usage → List Usage → Prop
  | _, [] => True
  | sum, amount :: rest => sum + amount ≤ limit ∧ AddsWithin limit (sum + amount) rest

theorem addsWithin_iff {limit sum : Usage} {amounts : List Usage} (h : sum ≤ limit) :
    AddsWithin limit sum amounts ↔ sum + amounts.sum ≤ limit := by
  induction amounts generalizing sum with
  | nil => simpa [AddsWithin] using h
  | cons amount rest ih =>
    rw [AddsWithin, List.sum_cons, ← add_assoc]
    constructor
    · rintro ⟨hhead, hrest⟩
      exact (ih hhead).mp hrest
    · intro hall
      have hhead : sum + amount ≤ limit := le_trans le_self_add hall
      exact ⟨hhead, (ih hhead).mpr hall⟩

theorem usage_le_iff {a b : Usage} : a ≤ b ↔ a.1 ≤ b.1 ∧ a.2.1 ≤ b.2.1 ∧ a.2.2 ≤ b.2.2 :=
  Iff.rfl

@[simp] theorem clampedU64_toNat (value : Int32) :
    (clampedU64 value).toNat = value.toInt.toNat := by
  have hlt := value.toInt_lt
  rw [clampedU64, UInt64.toNat_ofNat', Nat.mod_eq_of_lt]
  omega

namespace BudgetTotals

variable {totals : BudgetTotals}

@[simp] theorem usage_zero : zero.usage = 0 := rfl

theorem usage_le_ledgerLimit (totals : BudgetTotals) : totals.usage ≤ ledgerLimit := by
  have hqueries := totals.queries.toNat_lt
  have hrows := totals.rows.toNat_lt
  have hms := totals.ms.toNat_lt
  simp only [usage_le_iff, usage, ledgerLimit]
  omega

theorem addActual_usage {queryCost : UInt8} {run : WorkflowNodeRun}
    (h : totals.usage + run.reported queryCost ≤ ledgerLimit) :
    (totals.addActual queryCost run).usage = totals.usage + run.reported queryCost := by
  simp only [usage_le_iff, usage, WorkflowNodeRun.reported, ledgerLimit, Prod.fst_add,
    Prod.snd_add] at h
  simp only [usage, addActual, WorkflowNodeRun.reported, Prod.mk_add_mk, UInt64.toNat_add,
    UInt8.toNat_toUInt64, clampedU64_toNat, Prod.mk.injEq]
  omega

theorem addDeclared_usage {budget : NodeBudget}
    (h : totals.usage + budget.declared ≤ ledgerLimit) :
    (totals.addDeclared budget).usage = totals.usage + budget.declared := by
  simp only [usage_le_iff, usage, NodeBudget.declared, ledgerLimit, Prod.fst_add,
    Prod.snd_add] at h
  simp only [usage, addDeclared, NodeBudget.declared, Prod.mk_add_mk, UInt64.toNat_add,
    UInt8.toNat_toUInt64, UInt32.toNat_toUInt64, Prod.mk.injEq]
  omega

/-- Without an overflow the scheduler compares the exact sums. -/
theorem wouldExceed_eq_false {budgets : WorkflowBudgets} {budget : NodeBudget}
    (h : totals.usage + budget.declared ≤ ledgerLimit) :
    totals.wouldExceed budgets budget = false ↔ totals.usage + budget.declared ≤ budgets.limit := by
  simp only [usage_le_iff, usage, NodeBudget.declared, ledgerLimit, Prod.fst_add,
    Prod.snd_add] at h
  simp only [wouldExceed, Bool.or_eq_false_iff, decide_eq_false_iff_not, gt_iff_lt,
    UInt64.lt_iff_toNat_lt, UInt64.toNat_add, UInt8.toNat_toUInt64, UInt32.toNat_toUInt64,
    usage_le_iff, usage, NodeBudget.declared, WorkflowBudgets.limit, Prod.fst_add, Prod.snd_add]
  omega

/-- A sum of reports that fits is the ledger they are added up to. -/
theorem foldl_addActual_usage {runs : List WorkflowNodeRun} (cost : WorkflowNodeRun → UInt8)
    (h : totals.usage + (runs.map fun run => run.reported (cost run)).sum ≤ ledgerLimit) :
    (runs.foldl (fun sum run => sum.addActual (cost run) run) totals).usage =
      totals.usage + (runs.map fun run => run.reported (cost run)).sum := by
  induction runs generalizing totals with
  | nil => simp
  | cons run rest ih =>
    rw [List.map_cons, List.sum_cons, ← add_assoc] at h ⊢
    have hadd := addActual_usage (le_trans le_self_add h)
    rw [List.foldl_cons, ih (by rwa [hadd]), hadd]

/-- Declarations that fit are projected exactly. -/
theorem foldl_addDeclared_usage {nodes : List WorkflowNode}
    (h : totals.usage + (nodes.map fun node => node.budget.declared).sum ≤ ledgerLimit) :
    (nodes.foldl (fun sum node => sum.addDeclared node.budget) totals).usage =
      totals.usage + (nodes.map fun node => node.budget.declared).sum := by
  induction nodes generalizing totals with
  | nil => simp
  | cons node rest ih =>
    rw [List.map_cons, List.sum_cons, ← add_assoc] at h ⊢
    have hadd := addDeclared_usage (le_trans le_self_add h)
    rw [List.foldl_cons, ih (by rwa [hadd]), hadd]

end BudgetTotals

section Verifier

variable {workflow : ExecutionWorkflow}

/-- The verifier's sum of queries is taken modulo `2 ^ 16`. -/
theorem spentQueries_toNat (workflow : ExecutionWorkflow) :
    (spentQueries workflow).toNat = workflow.declaredTotal.1 % 2 ^ 16 := by
  unfold spentQueries ExecutionWorkflow.declaredTotal
  induction workflow.nodes with
  | nil => rfl
  | cons node rest ih =>
    simp only [List.map_cons, List.sum_cons, Prod.fst_add, UInt16.toNat_add, ih,
      NodeBudget.declared, UInt8.toNat_toUInt16]
    exact (Nat.add_mod_mod _ _ _)

theorem spentRows_toNat (workflow : ExecutionWorkflow) :
    (spentRows workflow).toNat = workflow.declaredTotal.2.1 % 2 ^ 64 := by
  unfold spentRows ExecutionWorkflow.declaredTotal
  induction workflow.nodes with
  | nil => rfl
  | cons node rest ih =>
    simp only [List.map_cons, List.sum_cons, Prod.fst_add, Prod.snd_add, UInt64.toNat_add, ih,
      NodeBudget.declared, UInt32.toNat_toUInt64]
    exact (Nat.add_mod_mod _ _ _)

theorem spentTime_toNat (workflow : ExecutionWorkflow) :
    (spentTime workflow).toNat = workflow.declaredTotal.2.2 % 2 ^ 64 := by
  unfold spentTime ExecutionWorkflow.declaredTotal
  induction workflow.nodes with
  | nil => rfl
  | cons node rest ih =>
    simp only [List.map_cons, List.sum_cons, Prod.snd_add, UInt64.toNat_add, ih,
      NodeBudget.declared]
    exact (Nat.add_mod_mod _ _ _)

theorem WorkflowBudgets.limit_le_verifierLimit (budgets : WorkflowBudgets) :
    budgets.limit ≤ verifierLimit := by
  have hqueries := budgets.maxQueryCount.toNat_lt
  have hrows := budgets.sharedRowCap.toNat_lt
  have hms := budgets.sharedTimeoutMs.toNat_lt
  simp only [usage_le_iff, WorkflowBudgets.limit, verifierLimit]
  omega

theorem verifierLimit_le_ledgerLimit : verifierLimit ≤ ledgerLimit := by decide

theorem WorkflowBudgets.limit_le_ledgerLimit (budgets : WorkflowBudgets) :
    budgets.limit ≤ ledgerLimit :=
  budgets.limit_le_verifierLimit.trans verifierLimit_le_ledgerLimit

/-- Of an accepted workflow the exact sums are within the budgets as soon as they fit the
types the verifier adds in. -/
theorem ExecutionWorkflow.WithinBudgets.declaredTotal_le (h : workflow.WithinBudgets)
    (hfits : workflow.declaredTotal ≤ verifierLimit) :
    workflow.declaredTotal ≤ workflow.budgets.limit := by
  have hqueries := UInt16.le_iff_toNat_le.mp h.queries
  have hrows := UInt64.le_iff_toNat_le.mp h.rows
  have htime := UInt64.le_iff_toNat_le.mp h.time
  rw [spentQueries_toNat] at hqueries
  rw [spentRows_toNat] at hrows
  rw [spentTime_toNat] at htime
  simp only [usage_le_iff, verifierLimit] at hfits
  simp only [UInt8.toNat_toUInt16, UInt32.toNat_toUInt64] at hqueries hrows
  simp only [usage_le_iff, WorkflowBudgets.limit]
  omega

/-- Exact sums within the budgets are what the verifier adds up. -/
theorem withinBudgets_of_declaredTotal_le
    (h : workflow.declaredTotal ≤ workflow.budgets.limit)
    (hparallel : workflow.budgets.maxParallelQueries ≠ 0)
    (hwidth : (WorkflowGraph.new workflow).maxReadyWidth ≤
      workflow.budgets.maxParallelQueries.toNat) : workflow.WithinBudgets := by
  have hfits := h.trans workflow.budgets.limit_le_verifierLimit
  have hqueries := spentQueries_toNat workflow
  have hrows := spentRows_toNat workflow
  have htime := spentTime_toNat workflow
  simp only [usage_le_iff, WorkflowBudgets.limit, verifierLimit] at h hfits
  refine ⟨?_, ?_, ?_, hparallel, hwidth⟩
  · rw [UInt16.le_iff_toNat_le, UInt8.toNat_toUInt16]
    omega
  · rw [UInt64.le_iff_toNat_le, UInt32.toNat_toUInt64]
    omega
  · rw [UInt64.le_iff_toNat_le]
    omega

end Verifier

end FineractReports.Workflow
