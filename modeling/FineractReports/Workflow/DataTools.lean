import FineractReports.Workflow.Run

/-!
# The guard in front of the data executor

Both data tools go through one sequence of checks; the executor is reached only
after the last of them. What the executor returns is wrapped as untrusted.
-/

namespace FineractReports.Workflow

structure DataToolRequest where
  nodeId : NodeId
  capabilityId : String
  parameters : Bindings
  timeoutMs : UInt64
  rowCap : UInt32

inductive DataToolRejection where
  | workflowStepMembership | capability | parameterProvenance | policy | pii | officeScope
  | timeout | rowCap | queryBudget
deriving DecidableEq, Repr

def DataToolRejection.clientMessage (_ : DataToolRejection) : String :=
  "The requested workflow step is not available."

/-- The node, when it has not completed and one incoming edge is satisfied. -/
def runnableMember (workflow : ExecutionWorkflow) (runs : List WorkflowNodeRun)
    (nodeId : NodeId) : Option WorkflowNode :=
  if nodeId ∈ completedIds runs then none
  else (workflow.node? nodeId).filter fun node => dependenciesSatisfied node workflow runs

/-- Probes are for resolver nodes, the capability tool is for query nodes. -/
def toolServes (probe : Bool) (node : WorkflowNode) : Bool :=
  match node.kind, probe with
  | .resolveEntity _, true => true
  | .executeQuery _, false => true
  | _, _ => false

def declaredCapability (node : WorkflowNode) : Option String :=
  match node.kind with
  | .executeQuery query => query.capabilityId
  | _ => node.policy.requiredCapability

def parametersHaveDeclaredProvenance (node : WorkflowNode) (parameters : Bindings) : Bool :=
  (Assoc.keys parameters).all fun parameter => node.inputs.any fun input =>
    decide (input.parameter = parameter ∧ input.source ≠ .exactSensitiveInput)

/-- `count() as u16` of the completed runs, whatever kind of node they are of. -/
def usedQueries (runs : List WorkflowNodeRun) : UInt16 :=
  UInt16.ofNat (runs.filter fun run => run.status = .completed).length

/-- The guard's own query budget; the sum wraps as `u16` does. -/
def fitsQueryBudget (workflow : ExecutionWorkflow) (runs : List WorkflowNodeRun)
    (node : WorkflowNode) : Prop :=
  usedQueries runs + node.budget.queryCost.toUInt16 ≤ workflow.budgets.maxQueryCount.toUInt16

instance (workflow : ExecutionWorkflow) (runs : List WorkflowNodeRun) (node : WorkflowNode) :
    Decidable (fitsQueryBudget workflow runs node) := by
  unfold fitsQueryBudget; infer_instance

namespace GuardedDataTools

/-- The checks before the executor, in their required order. -/
def checkRequest (workflow : ExecutionWorkflow) (runs : List WorkflowNodeRun)
    (principal : PrincipalContext) (catalog : KnowledgeCatalog) (request : DataToolRequest)
    (probe : Bool) : Except DataToolRejection Unit := do
  let node ← okOr (runnableMember workflow runs request.nodeId) .workflowStepMembership
  failIf (¬ toolServes probe node = true) .workflowStepMembership
  failIf (declaredCapability node ≠ some request.capabilityId ∨
      ¬ ∃ capability ∈ catalog.capabilities,
        capability.id = request.capabilityId ∧ capability.status = "approved_mvp") .capability
  failIf (¬ parametersHaveDeclaredProvenance node request.parameters = true) .parameterProvenance
  mapError (fun _ => .policy) (ensureCapabilityAllowed principal request.capabilityId)
  mapError (fun _ => .pii) (ensurePiiAllowed principal node.policy.piiRequired)
  mapError (fun _ => .officeScope) ((effectiveOfficeScope principal none).map fun _ => ())
  failIf (request.timeoutMs = 0 ∨ request.timeoutMs > node.budget.timeoutMs) .timeout
  failIf (request.rowCap = 0 ∨ request.rowCap > node.budget.rowCap) .rowCap
  failIf (¬ fitsQueryBudget workflow runs node) .queryBudget

/-- The checks, then the executor. Its failures carry the last rejection too. -/
def execute (executeApproved : DataToolRequest → Except String Json)
    (workflow : ExecutionWorkflow) (runs : List WorkflowNodeRun) (principal : PrincipalContext)
    (catalog : KnowledgeCatalog) (request : DataToolRequest) (probe : Bool) :
    Except DataToolRejection Json := do
  checkRequest workflow runs principal catalog request probe
  let output ← mapError (fun _ => .queryBudget) (executeApproved request)
  return .obj [("untrusted_tool_output", output)]

end GuardedDataTools

/-- The request a node's executor makes: its own bindings and its own budget. -/
def ownRequest (node : WorkflowNode) (capability : String) (bindings : Bindings) :
    DataToolRequest where
  nodeId := node.id
  capabilityId := capability
  parameters := bindings
  timeoutMs := node.budget.timeoutMs
  rowCap := node.budget.rowCap

section Lemmas

variable {runs : List WorkflowNodeRun} {principal : PrincipalContext}
  {catalog : KnowledgeCatalog} {workflow : ExecutionWorkflow} {node : WorkflowNode}

/-- The keys of a node's bindings are names of its inputs that are not exact sensitive ones. -/
theorem bindInputs_keys {inputs : List NodeInput} {bindings result : Bindings}
    (h : bindInputs runs principal inputs bindings = .ok result) :
    ∀ key ∈ Assoc.keys result, key ∈ Assoc.keys bindings ∨
      ∃ input ∈ inputs, input.parameter = key ∧ input.source ≠ .exactSensitiveInput := by
  induction inputs generalizing bindings with
  | nil =>
    obtain rfl : bindings = result := by simpa [bindInputs] using h
    exact fun key hkey => Or.inl hkey
  | cons input rest ih =>
    intro key hkey
    rw [bindInputs] at h
    split_ifs at h with hexact
    · rcases ih h key hkey with hold | ⟨other, hother, hrest⟩
      · exact Or.inl hold
      · exact Or.inr ⟨other, List.mem_cons_of_mem _ hother, hrest⟩
    · obtain ⟨value, -, h⟩ := bind_eq_ok_iff.mp h
      rcases ih h key hkey with hold | ⟨other, hother, hrest⟩
      · rcases Assoc.mem_keys_insert.mp hold with rfl | hold
        · exact Or.inr ⟨input, List.mem_cons_self, rfl, hexact⟩
        · exact Or.inl hold
      · exact Or.inr ⟨other, List.mem_cons_of_mem _ hother, hrest⟩

theorem bindingsFor_provenance {bindings : Bindings}
    (h : bindingsFor node runs principal = .ok bindings) :
    parametersHaveDeclaredProvenance node bindings = true := by
  simp only [parametersHaveDeclaredProvenance, List.all_eq_true, List.any_eq_true,
    decide_eq_true_eq]
  intro key hkey
  rcases bindInputs_keys h key hkey with hnil | hinput
  · simp [Assoc.keys] at hnil
  · exact hinput

theorem checkCapability_eq_ok {capability : String} :
    checkCapability capability principal catalog = .ok () ↔
      (∃ item ∈ catalog.capabilities, item.id = capability ∧ item.status = "approved_mvp") ∧
        capability ∈ principal.capabilityIds := by
  simp only [checkCapability, bind_eq_ok_iff, exists_unit_iff, failIf_eq_ok, not_not,
    mapError_eq_ok, ensureCapabilityAllowed_eq_ok]

/-- What the check immediately before a node establishes for the guard. -/
theorem checkNodePolicy_spec {capability : String}
    (h : checkNodePolicy node principal catalog = .ok ())
    (hcapability : declaredCapability node = some capability) :
    (∃ item ∈ catalog.capabilities, item.id = capability ∧ item.status = "approved_mvp") ∧
      capability ∈ principal.capabilityIds ∧
      (node.policy.piiRequired = true → principal.canViewPii = true) ∧
      principal.officeIds ≠ [] := by
  simp only [checkNodePolicy, bind_eq_ok_iff, exists_unit_iff, forSome_eq_ok, mapError_eq_ok,
    checkCapability_eq_ok, ensurePiiAllowed_eq_ok] at h
  obtain ⟨hrequired, hkind, hpii, hscope⟩ := h
  have hoffices : principal.officeIds ≠ [] := by
    intro hnil
    simp [effectiveOfficeScope, hnil, Except.map] at hscope
  have hheld : (∃ item ∈ catalog.capabilities, item.id = capability ∧
      item.status = "approved_mvp") ∧ capability ∈ principal.capabilityIds := by
    unfold declaredCapability at hcapability
    split at hcapability
    · rename_i query hquery
      simp only [checkQueryCapability, hquery, forSome_eq_ok, checkCapability_eq_ok] at hkind
      exact hkind capability hcapability
    · exact hrequired capability hcapability
  exact ⟨hheld.1, hheld.2, hpii, hoffices⟩

theorem runnableMember_eq_some (hids : (workflow.nodes.map (·.id)).Nodup)
    (hnode : node ∈ workflow.nodes) (hopen : node.id ∉ completedIds runs)
    (hdeps : dependenciesSatisfied node workflow runs = true) :
    runnableMember workflow runs node.id = some node := by
  rw [runnableMember, if_neg hopen, ExecutionWorkflow.node?_of_mem hids hnode, Option.filter_some,
    if_pos hdeps]

/-- On the request of a node that may run, every check but the query budget passes. -/
theorem checkRequest_ownRequest {capability : String} {bindings : Bindings} {probe : Bool}
    (hmember : runnableMember workflow runs node.id = some node)
    (hserves : toolServes probe node = true)
    (hpolicy : checkNodePolicy node principal catalog = .ok ())
    (hcapability : declaredCapability node = some capability)
    (hprovenance : parametersHaveDeclaredProvenance node bindings = true)
    (htimeout : node.budget.timeoutMs ≠ 0) (hrows : node.budget.rowCap ≠ 0) :
    GuardedDataTools.checkRequest workflow runs principal catalog
      (ownRequest node capability bindings)
      probe = failIf (¬ fitsQueryBudget workflow runs node) .queryBudget := by
  obtain ⟨happroved, hheld, hpii, hoffices⟩ := checkNodePolicy_spec hpolicy hcapability
  have h1 : ensureCapabilityAllowed principal capability = .ok () :=
    ensureCapabilityAllowed_eq_ok.mpr hheld
  have h2 : ensurePiiAllowed principal node.policy.piiRequired = .ok () :=
    ensurePiiAllowed_eq_ok.mpr hpii
  have h3 : effectiveOfficeScope principal none = .ok principal.officeIds :=
    effectiveOfficeScope_none.mpr ⟨hoffices, rfl⟩
  simp only [GuardedDataTools.checkRequest, ownRequest, hmember, okOr, hserves,
    hcapability, happroved,
    hprovenance, h1, h2, h3, htimeout, hrows, mapError, Except.map, failIf, bind, Except.bind,
    not_true_eq_false, ne_eq, or_self, if_false, gt_iff_lt, UInt64.lt_irrefl, UInt32.lt_irrefl]

end Lemmas

end FineractReports.Workflow
