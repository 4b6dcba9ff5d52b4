import FineractReports.Workflow.GuardAgreement

/-!
# What the guard lets through

The guard reaches the data executor only for a request it has checked against the workflow,
the principal and the catalog. Its count of queries is narrowed to sixteen bits first.
-/

namespace FineractReports.Workflow

variable {workflow : ExecutionWorkflow} {runs : List WorkflowNodeRun}
  {principal : PrincipalContext} {catalog : KnowledgeCatalog} {request : DataToolRequest}
  {probe : Bool} {node : WorkflowNode}

/-- Runs that have completed, whatever kind of node they are of. -/
def completedCount (runs : List WorkflowNodeRun) : ℕ :=
  (runs.filter fun run => run.status = .completed).length

/-- A node has an incoming edge that is satisfied, or none at all. -/
def Enabled (workflow : ExecutionWorkflow) (runs : List WorkflowNodeRun) (id : NodeId) : Prop :=
  (∀ edge ∈ workflow.edges, edge.target ≠ id) ∨
    ∃ edge ∈ workflow.edges, edge.target = id ∧
      (∃ run ∈ runs, run.nodeId = edge.source ∧ run.status = .completed) ∧
      edgeConditionMatches edge.condition edge.source runs = true

/-- What the guard checks of a request before it counts queries. -/
@[mk_iff] structure Permits (workflow : ExecutionWorkflow) (runs : List WorkflowNodeRun)
    (principal : PrincipalContext) (catalog : KnowledgeCatalog) (request : DataToolRequest)
    (probe : Bool) (node : WorkflowNode) : Prop where
  named : workflow.node? request.nodeId = some node
  not_completed : ∀ run ∈ runs, run.nodeId = request.nodeId → run.status ≠ .completed
  enabled : Enabled workflow runs node.id
  kind : if probe = true then ∃ config, node.kind = .resolveEntity config
    else ∃ config, node.kind = .executeQuery config
  declares : declaredCapability node = some request.capabilityId
  approved : ∃ capability ∈ catalog.capabilities,
    capability.id = request.capabilityId ∧ capability.status = "approved_mvp"
  held : request.capabilityId ∈ principal.capabilityIds
  provenance : ∀ parameter ∈ Assoc.keys request.parameters,
    ∃ input ∈ node.inputs, input.parameter = parameter ∧ input.source ≠ .exactSensitiveInput
  pii : node.policy.piiRequired = true → principal.canViewPii = true
  offices : principal.officeIds ≠ []
  timeout : 0 < request.timeoutMs.toNat ∧ request.timeoutMs.toNat ≤ node.budget.timeoutMs.toNat
  rows : 0 < request.rowCap.toNat ∧ request.rowCap.toNat ≤ node.budget.rowCap.toNat

/-- The outcome of a tool call depends on its executor. -/
def CallsExecutor (workflow : ExecutionWorkflow) (runs : List WorkflowNodeRun)
    (principal : PrincipalContext) (catalog : KnowledgeCatalog) (request : DataToolRequest)
    (probe : Bool) : Prop :=
  ∃ executor other, GuardedDataTools.execute executor workflow runs principal catalog request
    probe ≠ GuardedDataTools.execute other workflow runs principal catalog request probe

theorem callsExecutor_iff : CallsExecutor workflow runs principal catalog request probe ↔
    GuardedDataTools.checkRequest workflow runs principal catalog request probe = .ok () := by
  unfold CallsExecutor GuardedDataTools.execute
  cases hcheck : GuardedDataTools.checkRequest workflow runs principal catalog request probe with
  | error rejection => simp [bind, Except.bind]
  | ok _ =>
    refine iff_of_true ⟨fun _ => .ok .null, fun _ => .error "", ?_⟩ rfl
    simp [bind, Except.bind, mapError, pure, Except.pure]

theorem toolServes_iff : toolServes probe node = true ↔
    if probe = true then ∃ config, node.kind = .resolveEntity config
    else ∃ config, node.kind = .executeQuery config := by
  cases hkind : node.kind <;> cases probe <;> simp [toolServes, hkind]

theorem runnableMember_iff : runnableMember workflow runs request.nodeId = some node ↔
    workflow.node? request.nodeId = some node ∧
      (∀ run ∈ runs, run.nodeId = request.nodeId → run.status ≠ .completed) ∧
      Enabled workflow runs node.id := by
  have hopen : request.nodeId ∉ completedIds runs ↔
      ∀ run ∈ runs, run.nodeId = request.nodeId → run.status ≠ .completed := by
    simp [mem_completedIds]
  have henabled : dependenciesSatisfied node workflow runs = true ↔
      Enabled workflow runs node.id := by
    rw [dependenciesSatisfied_iff]
    simp only [Enabled, mem_completedIds]
  unfold runnableMember
  split_ifs with hdone
  · simp only [← hopen, hdone, not_true_eq_false, false_and, and_false]
  · rw [Option.filter_eq_some_iff, henabled, ← hopen]
    simp [hdone]

theorem timeout_passes {request bound : UInt64} :
    (request ≠ 0 ∧ ¬ bound < request) ↔ 0 < request.toNat ∧ request.toNat ≤ bound.toNat := by
  rw [UInt64.not_lt, UInt64.le_iff_toNat_le, Nat.pos_iff_ne_zero, ← UInt64.toNat_zero, ne_eq,
    ne_eq, UInt64.toNat_inj]

theorem rows_pass {request bound : UInt32} :
    (request ≠ 0 ∧ ¬ bound < request) ↔ 0 < request.toNat ∧ request.toNat ≤ bound.toNat := by
  rw [UInt32.not_lt, UInt32.le_iff_toNat_le, Nat.pos_iff_ne_zero, ← UInt32.toNat_zero, ne_eq,
    ne_eq, UInt32.toNat_inj]

theorem parametersHaveDeclaredProvenance_iff {parameters : Bindings} :
    parametersHaveDeclaredProvenance node parameters = true ↔
      ∀ parameter ∈ Assoc.keys parameters,
        ∃ input ∈ node.inputs, input.parameter = parameter ∧
          input.source ≠ .exactSensitiveInput := by
  simp [parametersHaveDeclaredProvenance]

/-- The guard asks for a permitted request and, last, for room in its count of queries. -/
theorem checkRequest_eq_ok :
    GuardedDataTools.checkRequest workflow runs principal catalog request probe = .ok () ↔
      ∃ node, Permits workflow runs principal catalog request probe node ∧
        fitsQueryBudget workflow runs node := by
  have hoffices : (∃ u, (effectiveOfficeScope principal none) = .ok u) ↔
      principal.officeIds ≠ [] := by
    simp [effectiveOfficeScope_none]
  simp only [GuardedDataTools.checkRequest, bind_eq_ok_iff, exists_unit_iff, okOr_eq_ok,
    failIf_eq_ok, mapError_eq_ok, map_eq_ok_iff, ensureCapabilityAllowed_eq_ok,
    ensurePiiAllowed_eq_ok, not_or, not_not, gt_iff_lt, runnableMember_iff, toolServes_iff,
    parametersHaveDeclaredProvenance_iff, and_true, hoffices, permits_iff]
  apply exists_congr
  intro node
  rw [← timeout_passes, ← rows_pass]
  tauto

/-- The executor is called for a permitted request only, whatever the count of queries says. -/
theorem CallsExecutor.permits (h : CallsExecutor workflow runs principal catalog request probe) :
    ∃ node, Permits workflow runs principal catalog request probe node := by
  obtain ⟨node, hpermits, -⟩ := checkRequest_eq_ok.mp (callsExecutor_iff.mp h)
  exact ⟨node, hpermits⟩

theorem Permits.unique {other : WorkflowNode}
    (h : Permits workflow runs principal catalog request probe node)
    (hother : Permits workflow runs principal catalog request probe other) : other = node :=
  Option.some_injective _ (hother.named.symm.trans h.named)

/-- A count that the narrowing leaves within the budget is within it, or was not narrowed. -/
theorem count_within_iff {count max : ℕ} (hmax : max < 2 ^ 16) :
    (count % 2 ^ 16 ≤ max → count ≤ max) ↔ count < 2 ^ 16 ∨ max < count % 2 ^ 16 := by
  constructor
  · intro h
    by_cases hfits : count % 2 ^ 16 ≤ max
    · left
      have := h hfits
      omega
    · right
      omega
  · rintro (h | h) hfits
    · rwa [Nat.mod_eq_of_lt h] at hfits
    · omega

/-- The guard is sound as long as the count of a permitted request is not narrowed to one
that fits the budget. -/
theorem guard_sound_iff (workflow : ExecutionWorkflow) (runs : List WorkflowNodeRun)
    (principal : PrincipalContext) (catalog : KnowledgeCatalog) (request : DataToolRequest)
    (probe : Bool) :
    (CallsExecutor workflow runs principal catalog request probe →
      ∃ node, Permits workflow runs principal catalog request probe node ∧
        completedCount runs + node.budget.queryCost.toNat ≤
          workflow.budgets.maxQueryCount.toNat) ↔
      ∀ node, Permits workflow runs principal catalog request probe node →
        completedCount runs + node.budget.queryCost.toNat < 2 ^ 16 ∨
          workflow.budgets.maxQueryCount.toNat <
            (completedCount runs + node.budget.queryCost.toNat) % 2 ^ 16 := by
  have hmax : workflow.budgets.maxQueryCount.toNat < 2 ^ 16 :=
    lt_trans workflow.budgets.maxQueryCount.toNat_lt (by norm_num)
  constructor
  · intro h node hpermits
    apply (count_within_iff hmax).mp
    intro hfits
    have hcalls : CallsExecutor workflow runs principal catalog request probe := by
      apply callsExecutor_iff.mpr
      apply checkRequest_eq_ok.mpr
      exact ⟨node, hpermits, fitsQueryBudget_iff.mpr hfits⟩
    obtain ⟨other, hother, hwithin⟩ := h hcalls
    rwa [← hpermits.unique hother]
  · intro h hcalls
    obtain ⟨node, hpermits, hfits⟩ := checkRequest_eq_ok.mp (callsExecutor_iff.mp hcalls)
    refine ⟨node, hpermits, ?_⟩
    apply (count_within_iff hmax).mpr (h node hpermits)
    exact fitsQueryBudget_iff.mp hfits

namespace CountedBranch

/-- A completed row of the branch. -/
def branchRow : WorkflowNodeRun where
  id := 12
  workflowId := 7
  nodeId := branchId
  attempt := 1
  status := .completed
  outputJson := none
  rowsReturned := 0
  durationMs := none
  startedAt := none

def firstRequest : DataToolRequest where
  nodeId := firstId
  capabilityId := "savings_summary"
  parameters := []
  timeoutMs := 1000
  rowCap := 10

theorem firstRequest_permitted (count : ℕ) :
    Permits CountedBranch.workflow (List.replicate count branchRow) setup.principal setup.catalog
      firstRequest false (CountedBranch.node firstId query [scope] 1) where
  named := by decide
  not_completed := by
    intro run hrun hid
    rw [List.eq_of_mem_replicate hrun] at hid
    exact absurd hid (by decide)
  enabled := Or.inl (by decide)
  kind := ⟨_, rfl⟩
  declares := by decide
  approved := ⟨capability, by decide, by decide, by decide⟩
  held := by decide
  provenance := by decide
  pii := by decide
  offices := by decide
  timeout := by decide
  rows := by decide

theorem completedCount_replicate (count : ℕ) :
    completedCount (List.replicate count branchRow) = count := by
  simp [completedCount, branchRow]

end CountedBranch

/-- With 65536 completed rows the narrowed count is zero and the executor is called. -/
theorem narrowed_count_admitted :
    CallsExecutor CountedBranch.workflow (List.replicate 65536 CountedBranch.branchRow)
        CountedBranch.setup.principal CountedBranch.setup.catalog CountedBranch.firstRequest
        false ∧
      ¬ ∃ node, Permits CountedBranch.workflow (List.replicate 65536 CountedBranch.branchRow)
          CountedBranch.setup.principal CountedBranch.setup.catalog CountedBranch.firstRequest
          false node ∧
        completedCount (List.replicate 65536 CountedBranch.branchRow) +
            node.budget.queryCost.toNat ≤
          CountedBranch.workflow.budgets.maxQueryCount.toNat := by
  have hpermits := CountedBranch.firstRequest_permitted 65536
  constructor
  · apply callsExecutor_iff.mpr
    apply checkRequest_eq_ok.mpr
    refine ⟨_, hpermits, fitsQueryBudget_iff.mpr ?_⟩
    have hcount := CountedBranch.completedCount_replicate 65536
    rw [completedCount] at hcount
    rw [hcount]
    decide
  · rintro ⟨node, -, hwithin⟩
    rw [CountedBranch.completedCount_replicate] at hwithin
    have hmax : CountedBranch.workflow.budgets.maxQueryCount.toNat = 2 := by decide
    omega

end FineractReports.Workflow
