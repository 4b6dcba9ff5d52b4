import FineractReports.Policy.Authorization
import FineractReports.Workflow.State
import FineractReports.Workflow.Verify

/-!
# The scheduler's rules

Which nodes are runnable, what the shared budgets still allow, what a node is
bound to and what a branch decides, all computed from the list of node runs.
-/

namespace FineractReports.Workflow

/-- The run that is read for a node: the last completed one. -/
def completedRun (runs : List WorkflowNodeRun) (node : NodeId) : Option WorkflowNodeRun :=
  runs.reverse.find? fun run => run.nodeId = node ∧ run.status = .completed

def completedIds (runs : List WorkflowNodeRun) : List NodeId :=
  (runs.filter fun run => run.status = .completed).map (·.nodeId)

/-- The decision recorded by a branch, or else the row count of a data node. -/
def cardinalityFor (runs : List WorkflowNodeRun) (source : NodeId) : Except String Cardinality := do
  let run ← okOr (completedRun runs source) "branch source has not completed"
  match (run.outputJson.bind (·.get? "cardinality")).bind Json.asStr? with
  | some decision =>
    if decision = "zero" then .ok .zero
    else if decision = "one" then .ok .one
    else if decision = "many" then .ok .many
    else .error "branch cardinality decision is invalid"
  | none =>
    let rows := ((run.outputJson.bind (·.get? "row_count")).bind Json.asI64?).getD
      run.rowsReturned.toInt
    if rows = 0 then .ok .zero
    else if rows = 1 then .ok .one
    else if rows > 1 then .ok .many
    else .error "branch row count is invalid"

/-- Shared budget ledger of one `run` call. -/
structure BudgetTotals where
  queries : UInt64
  rows : UInt64
  ms : UInt64
deriving DecidableEq

/-- `u64::try_from(value.max(0))`. -/
def clampedU64 (value : Int32) : UInt64 := UInt64.ofNat value.toInt.toNat

namespace BudgetTotals

def zero : BudgetTotals := ⟨0, 0, 0⟩

def addActual (totals : BudgetTotals) (queryCost : UInt8) (run : WorkflowNodeRun) :
    BudgetTotals where
  queries := totals.queries + queryCost.toUInt64
  rows := totals.rows + clampedU64 run.rowsReturned
  ms := totals.ms + clampedU64 (run.durationMs.getD 0)

/-- The node a map from ids to nodes holds: the last one of that id. -/
def mappedNode (workflow : ExecutionWorkflow) (nodeId : NodeId) : Option WorkflowNode :=
  workflow.nodes.reverse.find? fun node => node.id = nodeId

/-- Reconstructed from the durable runs when a job is resumed. -/
def fromCompleted (workflow : ExecutionWorkflow) (runs : List WorkflowNodeRun) : BudgetTotals :=
  (runs.filter fun run => run.status = .completed).foldl
    (fun totals run => totals.addActual
      ((mappedNode workflow run.nodeId).elim 0 (·.budget.queryCost)) run) zero

def wouldExceed (totals : BudgetTotals) (budgets : WorkflowBudgets) (budget : NodeBudget) : Bool :=
  decide (totals.queries + budget.queryCost.toUInt64 > budgets.maxQueryCount.toUInt64) ||
    decide (totals.rows + budget.rowCap.toUInt64 > budgets.sharedRowCap.toUInt64) ||
    decide (totals.ms + budget.timeoutMs > budgets.sharedTimeoutMs)

def addDeclared (totals : BudgetTotals) (budget : NodeBudget) : BudgetTotals where
  queries := totals.queries + budget.queryCost.toUInt64
  rows := totals.rows + budget.rowCap.toUInt64
  ms := totals.ms + budget.timeoutMs

end BudgetTotals

def nextAttempt (runs : List WorkflowNodeRun) (nodeId : NodeId) : ℕ :=
  match ((runs.filter fun run => run.nodeId = nodeId).map (·.attempt)).max? with
  | some attempt => attempt + 1
  | none => 0

def edgeConditionMatches (condition : EdgeCondition) (source : NodeId)
    (runs : List WorkflowNodeRun) : Bool :=
  match condition with
  | .always | .clarificationAnswered => true
  | .cardinality expected => decide (cardinalityFor runs source = .ok expected)

def incomingEdges (node : WorkflowNode) (workflow : ExecutionWorkflow) : List WorkflowEdge :=
  workflow.edges.filter fun edge => edge.target = node.id

/-- An entry node, or one incoming edge is satisfied by a completed source. -/
def dependenciesSatisfied (node : WorkflowNode) (workflow : ExecutionWorkflow)
    (runs : List WorkflowNodeRun) : Bool :=
  (incomingEdges node workflow).isEmpty ||
    (incomingEdges node workflow).any fun edge =>
      decide (edge.source ∈ completedIds runs) &&
        edgeConditionMatches edge.condition edge.source runs

/-- A run that keeps its node from being scheduled again. -/
def WorkflowNodeRun.blocks (run : WorkflowNodeRun) : Bool :=
  decide (run.status = .completed ∨ run.status = .running ∨ run.status = .waiting)

def runnable (node : WorkflowNode) (workflow : ExecutionWorkflow) (runs : List WorkflowNodeRun) :
    Bool :=
  !(decide (node.id ∈ completedIds runs) || runs.any fun run =>
      decide (run.nodeId = node.id ∧ (run.status = .running ∨ run.status = .waiting))) &&
    dependenciesSatisfied node workflow runs

/-- The capability is in the catalog, approved and held by the principal. -/
def checkCapability (capability : String) (principal : PrincipalContext)
    (catalog : KnowledgeCatalog) : Except String Unit := do
  failIf (¬ ∃ item ∈ catalog.capabilities, item.id = capability ∧ item.status = "approved_mvp")
    "workflow node capability is unavailable"
  mapError AuthorizationError.message (ensureCapabilityAllowed principal capability)

def checkQueryCapability (node : WorkflowNode) (principal : PrincipalContext)
    (catalog : KnowledgeCatalog) : Except String Unit :=
  match node.kind with
  | .executeQuery query =>
    forSome query.capabilityId fun capability => checkCapability capability principal catalog
  | _ => .ok ()

/-- The check made on every node immediately before it runs. -/
def checkNodePolicy (node : WorkflowNode) (principal : PrincipalContext)
    (catalog : KnowledgeCatalog) : Except String Unit := do
  forSome node.policy.requiredCapability fun capability =>
    checkCapability capability principal catalog
  checkQueryCapability node principal catalog
  mapError AuthorizationError.message (ensurePiiAllowed principal node.policy.piiRequired)
  mapError AuthorizationError.message
    ((effectiveOfficeScope principal none).map fun _ => ())

def nodeOutput (runs : List WorkflowNodeRun) (node : NodeId) : Except String Json :=
  okOr ((completedRun runs node).bind (·.outputJson)) "completed workflow output is missing"

def outputSlot (runs : List WorkflowNodeRun) (node : NodeId) (slot : String) :
    Except String Json :=
  okOr (((completedRun runs node).bind (·.outputJson)).bind (·.get? slot))
    "completed workflow output slot is missing"

abbrev Bindings := List (String × Json)

def officeIdsJson (offices : List ℤ) : Json := .arr (offices.map .int)

/-- The value an input contributes. Values a user or the catalog supplied are not
made up here, they stay null. -/
def inputValue (runs : List WorkflowNodeRun) (principal : PrincipalContext)
    (source : BindingSource) : Except String Json :=
  match source with
  | .authorizedScope =>
    (mapError AuthorizationError.message (effectiveOfficeScope principal none)).map officeIdsJson
  | .priorStep node slot | .authorizedDataProbe node slot => outputSlot runs node slot
  | _ => .ok .null

/-- Exact sensitive inputs are skipped, they never travel through bindings. -/
def bindInputs (runs : List WorkflowNodeRun) (principal : PrincipalContext) :
    List NodeInput → Bindings → Except String Bindings
  | [], bindings => .ok bindings
  | input :: rest, bindings =>
    if input.source = .exactSensitiveInput then bindInputs runs principal rest bindings
    else inputValue runs principal input.source >>= fun value =>
      bindInputs runs principal rest (Assoc.insert bindings input.parameter value)

def bindingsFor (node : WorkflowNode) (runs : List WorkflowNodeRun)
    (principal : PrincipalContext) : Except String Bindings :=
  bindInputs runs principal node.inputs []

section Lemmas

variable {runs : List WorkflowNodeRun} {node : WorkflowNode} {workflow : ExecutionWorkflow}

theorem mem_completedIds {id : NodeId} :
    id ∈ completedIds runs ↔ ∃ run ∈ runs, run.nodeId = id ∧ run.status = .completed := by
  simp only [completedIds, List.mem_map, List.mem_filter, decide_eq_true_eq]
  constructor
  · rintro ⟨run, ⟨hrun, hstatus⟩, hid⟩
    exact ⟨run, hrun, hid, hstatus⟩
  · rintro ⟨run, hrun, hid, hstatus⟩
    exact ⟨run, ⟨hrun, hstatus⟩, hid⟩

theorem completedRun_spec {id : NodeId} {run : WorkflowNodeRun}
    (h : completedRun runs id = some run) :
    run ∈ runs ∧ run.nodeId = id ∧ run.status = .completed := by
  have hmem := List.mem_of_find?_eq_some h
  have hp := List.find?_some h
  simp only [decide_eq_true_eq] at hp
  exact ⟨List.mem_reverse.mp hmem, hp.1, hp.2⟩

theorem completedRun_isSome {id : NodeId} :
    (completedRun runs id).isSome = true ↔ id ∈ completedIds runs := by
  simp [completedRun, mem_completedIds, List.find?_isSome]

/-- When a node has one completed run only, that run is the one read. -/
theorem completedRun_eq_of_unique {id : NodeId} {run : WorkflowNodeRun} (hmem : run ∈ runs)
    (hid : run.nodeId = id) (hcompleted : run.status = .completed)
    (hunique : ∀ other ∈ runs, other.nodeId = id → other.status = .completed → other = run) :
    completedRun runs id = some run := by
  have hsome : (completedRun runs id).isSome = true :=
    completedRun_isSome.mpr (mem_completedIds.mpr ⟨run, hmem, hid, hcompleted⟩)
  obtain ⟨other, hother⟩ := Option.isSome_iff_exists.mp hsome
  obtain ⟨hm, hi, hc⟩ := completedRun_spec hother
  rw [hother, hunique other hm hi hc]

theorem mem_incomingEdges {edge : WorkflowEdge} :
    edge ∈ incomingEdges node workflow ↔ edge ∈ workflow.edges ∧ edge.target = node.id := by
  simp [incomingEdges]

theorem dependenciesSatisfied_iff :
    dependenciesSatisfied node workflow runs = true ↔
      (∀ edge ∈ workflow.edges, edge.target ≠ node.id) ∨
      ∃ edge ∈ workflow.edges, edge.target = node.id ∧ edge.source ∈ completedIds runs ∧
        edgeConditionMatches edge.condition edge.source runs = true := by
  simp only [dependenciesSatisfied, Bool.or_eq_true, List.isEmpty_iff, List.any_eq_true,
    Bool.and_eq_true, decide_eq_true_eq]
  constructor
  · rintro (hnil | ⟨edge, hedge, hdone, hcond⟩)
    · refine Or.inl fun edge hedge htarget => ?_
      have : edge ∈ incomingEdges node workflow := mem_incomingEdges.mpr ⟨hedge, htarget⟩
      simp [hnil] at this
    · obtain ⟨hmem, htarget⟩ := mem_incomingEdges.mp hedge
      exact Or.inr ⟨edge, hmem, htarget, hdone, hcond⟩
  · rintro (hnone | ⟨edge, hedge, htarget, hdone, hcond⟩)
    · refine Or.inl (List.eq_nil_iff_forall_not_mem.mpr fun edge hedge => ?_)
      obtain ⟨hmem, htarget⟩ := mem_incomingEdges.mp hedge
      exact hnone edge hmem htarget
    · exact Or.inr ⟨edge, mem_incomingEdges.mpr ⟨hedge, htarget⟩, hdone, hcond⟩

theorem runnable_iff :
    runnable node workflow runs = true ↔
      (∀ run ∈ runs, run.nodeId = node.id → run.blocks = false) ∧
        dependenciesSatisfied node workflow runs = true := by
  simp only [runnable, Bool.and_eq_true, Bool.not_eq_true', Bool.or_eq_false_iff,
    decide_eq_false_iff_not, mem_completedIds, List.any_eq_false, decide_eq_true_eq,
    WorkflowNodeRun.blocks]
  constructor
  · rintro ⟨⟨hcompleted, hbusy⟩, hdeps⟩
    refine ⟨fun run hrun hid => ?_, hdeps⟩
    rintro (hc | hb)
    · exact hcompleted ⟨run, hrun, hid, hc⟩
    · exact hbusy run hrun ⟨hid, hb⟩
  · rintro ⟨hfree, hdeps⟩
    refine ⟨⟨?_, fun run hrun hb => ?_⟩, hdeps⟩
    · rintro ⟨run, hrun, hid, hc⟩
      exact hfree run hrun hid (Or.inl hc)
    · exact hfree run hrun hb.1 (Or.inr hb.2)

end Lemmas

end FineractReports.Workflow
