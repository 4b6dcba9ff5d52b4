import FineractReports.Library.Checks
import FineractReports.Policy.Authorization
import FineractReports.Workflow.Graph
import Mathlib.Data.UInt

/-!
# The workflow verifier

The checks V1 to V12 in the order the verifier makes them. Sums are taken in the
machine types of the source, where they wrap. The topological sort is the graph
library's and enters as a parameter with its contract.
-/

namespace FineractReports.Workflow

open DirectedGraph

inductive VerifyError where
  | cycle | unknownResource | typeIncompatibleBinding | dataDependentSqlIdentifier
  | missingOfficeScope | budgetExceeded | partialResultsNotPermitted | sensitivityWidening
  | unreachableOrOrphanNode | danglingResume | unboundRequiredInput | capabilityNotPermitted
deriving DecidableEq, Repr

namespace VerifyError

def clientMessage : VerifyError → String
  | cycle => "The requested workflow is invalid."
  | unknownResource => "The requested report is unavailable."
  | typeIncompatibleBinding => "The requested workflow has incompatible inputs."
  | dataDependentSqlIdentifier => "The requested report contains an invalid identifier."
  | missingOfficeScope => "The requested report has no authorized office scope."
  | budgetExceeded => "The requested report exceeds its execution budget."
  | partialResultsNotPermitted => "The requested report does not permit partial results."
  | sensitivityWidening => "The requested report exceeds its data sensitivity."
  | unreachableOrOrphanNode => "The requested workflow is incomplete."
  | danglingResume => "The requested workflow cannot be resumed."
  | unboundRequiredInput => "The requested report is missing a required input."
  | capabilityNotPermitted => "The requested report is not permitted."

def auditReasonCode : VerifyError → String
  | cycle => "V1_CYCLE"
  | unknownResource => "V2_UNKNOWN_RESOURCE"
  | typeIncompatibleBinding => "V3_TYPE_INCOMPATIBLE_BINDING"
  | dataDependentSqlIdentifier => "V4_DATA_DEPENDENT_SQL_IDENTIFIER"
  | missingOfficeScope => "V5_MISSING_OFFICE_SCOPE"
  | budgetExceeded => "V6_BUDGET_EXCEEDED"
  | partialResultsNotPermitted => "V7_PARTIAL_RESULTS_NOT_PERMITTED"
  | sensitivityWidening => "V8_SENSITIVITY_WIDENING"
  | unreachableOrOrphanNode => "V9_UNREACHABLE_OR_ORPHAN_NODE"
  | danglingResume => "V10_DANGLING_RESUME"
  | unboundRequiredInput => "V11_UNBOUND_REQUIRED_INPUT"
  | capabilityNotPermitted => "V12_CAPABILITY_NOT_PERMITTED"

end VerifyError

structure VerifiedWorkflow where
  workflow : ExecutionWorkflow
deriving DecidableEq

def sensitivityRank : Sensitivity → ℕ
  | .publicBusiness => 0
  | .maskedOutput => 1
  | .filterOnly => 2
  | .pii => 3
  | .neverUse => 4

/-- Query parameter types and policy types are different vocabularies; both map
here onto the same type. -/
def parameterType (value : String) : Option ParameterType :=
  if value = "date" then some .date
  else if value = "integer" then some .integer
  else if value = "integer_array" ∨ value = "array_bigint" then some .integerArray
  else if value = "string" then some .string
  else if value = "currency" ∨ value = "decimal" then some .currency
  else none

def looksLikeSqlIdentifier (value : String) : Bool :=
  value.toList.any (fun c => c ∈ [' ', ';', '"', '\'', '(', ')', '.']) ||
    decide (['-', '-'] <:+: value.toList)

/-- `a >= b` on optional positions, where a missing position is the smallest. -/
def notBefore : Option ℕ → Option ℕ → Bool
  | _, none => true
  | none, some _ => false
  | some i, some j => decide (j ≤ i)

def ExecutionWorkflow.node? (workflow : ExecutionWorkflow) (id : NodeId) : Option WorkflowNode :=
  workflow.nodes.find? fun node => node.id = id

def catalogQuery? (catalog : KnowledgeCatalog) (id : String) : Option QueryKnowledge :=
  catalog.queries.find? fun query => query.id = id

def catalogDataset? (catalog : KnowledgeCatalog) (id : String) : Option DatasetKnowledge :=
  catalog.datasets.find? fun dataset => dataset.id = id

def verifyNodeResources (node : WorkflowNode) (catalog : KnowledgeCatalog) :
    Except VerifyError Unit :=
  match node.kind with
  | .executeQuery exec => do
    forSome exec.capabilityId fun id => do
      -- the first capability of that id must be the approved one
      let cap ← okOr ((catalog.capabilities.find? fun cap => cap.id = id).filter
        fun cap => cap.status = "approved_mvp") .unknownResource
      failIf (exec.queryId.any (· ≠ cap.queryId) = true) .unknownResource
    failIf (exec.queryId.any (fun id => (catalogQuery? catalog id).isNone) = true)
      .unknownResource
    failIf (exec.datasetId.isSome ≠ exec.shapeId.isSome) .unknownResource
    forSome exec.datasetId fun datasetId => forSome exec.shapeId fun shapeId => do
      let dataset ← okOr (catalogDataset? catalog datasetId) .unknownResource
      failIf ((dataset.shape shapeId).isNone = true) .unknownResource
  | .resolveEntity resolve => do
    let dataset ← okOr (catalogDataset? catalog resolve.datasetId) .unknownResource
    failIf ((dataset.shape resolve.resolverShapeId).map (·.role) ≠ some .resolver)
      .unknownResource
  | _ => .ok ()

/-- The checks on what an input reads from another node. -/
def verifyProducer (input : NodeInput) (consumer : WorkflowNode) (workflow : ExecutionWorkflow)
    (topo : List NodeId) : Except VerifyError Unit :=
  match input.source with
  | .safePriorSelection clarification => do
    let producer ← okOr (workflow.node? clarification) .typeIncompatibleBinding
    failIf (notBefore (topo.idxOf? clarification) (topo.idxOf? consumer.id) = true ∨
        ¬ producer.isClarificationInterrupt = true) .typeIncompatibleBinding
  | .priorStep node slot | .authorizedDataProbe node slot => do
    let producer ← okOr (workflow.node? node) .typeIncompatibleBinding
    failIf (notBefore (topo.idxOf? node) (topo.idxOf? consumer.id) = true)
      .typeIncompatibleBinding
    let output ← okOr (producer.outputs.find? fun output => output.name = slot)
      .typeIncompatibleBinding
    failIf (output.kind ≠ input.kind ∨
        sensitivityRank output.sensitivity > sensitivityRank consumer.policy.maxSensitivity)
      .sensitivityWidening
  | _ => .ok ()

/-- The query parameter an input of a query node is for, when the query declares it. -/
def queryParameter? (input : NodeInput) (consumer : WorkflowNode) (catalog : KnowledgeCatalog) :
    Option QueryParameter :=
  match consumer.kind with
  | .executeQuery exec => do
    let query ← exec.queryId.bind (catalogQuery? catalog)
    query.parameters.find? fun parameter => parameter.name = input.parameter
  | _ => none

def verifyInput (input : NodeInput) (consumer : WorkflowNode) (workflow : ExecutionWorkflow)
    (topo : List NodeId) (catalog : KnowledgeCatalog) : Except VerifyError Unit := do
  failIf (looksLikeSqlIdentifier input.parameter = true) .dataDependentSqlIdentifier
  failIf (input.source = .authorizedScope ∧
      (input.parameter ≠ "office_ids" ∨ input.kind ≠ .integerArray)) .typeIncompatibleBinding
  verifyProducer input consumer workflow topo
  forSome (queryParameter? input consumer catalog) fun parameter => do
    failIf (parameterType parameter.kind ≠ some input.kind) .typeIncompatibleBinding
    failIf (parameter.required = true ∧ input.source = .exactSensitiveInput ∧
        input.kind ≠ .string) .unboundRequiredInput

/-- Nodes a branch or a composition names in its configuration. -/
def referencedNodes (node : WorkflowNode) : List NodeId :=
  match node.kind with
  | .cardinalityBranch branch => [branch.source, branch.zero, branch.one, branch.many]
  | .composeResult compose => compose.sources
  | _ => []

def composesNothing (node : WorkflowNode) : Bool :=
  match node.kind with
  | .composeResult compose => compose.sources.isEmpty
  | _ => false

def hasAuthorizedScope (node : WorkflowNode) : Bool :=
  node.inputs.any fun input =>
    decide (input.parameter = "office_ids" ∧ input.source = .authorizedScope)

/-- V12 and V11 for a query node. -/
def verifyExecuteQuery (node : WorkflowNode) (principal : PrincipalContext)
    (catalog : KnowledgeCatalog) : Except VerifyError Unit :=
  match node.kind with
  | .executeQuery exec => do
    forSome exec.capabilityId fun capability =>
      mapError (fun _ => .capabilityNotPermitted) (ensureCapabilityAllowed principal capability)
    forSome (exec.queryId.bind (catalogQuery? catalog)) fun query =>
      failIf (∃ parameter ∈ query.parameters, parameter.required = true ∧
          ∀ input ∈ node.inputs, input.parameter ≠ parameter.name) .unboundRequiredInput
  | _ => .ok ()

def verifyResume (node : WorkflowNode) (graph : DirectedGraph NodeId) :
    Except VerifyError Unit :=
  match node.kind with
  | .clarificationInterrupt interrupt =>
    failIf (interrupt.resume ∉ graph.nodes ∨
      interrupt.resume ∉ graph.reachableFrom node.id) .danglingResume
  | _ => .ok ()

/-- One pass of the node loop. -/
def verifyNode (workflow : ExecutionWorkflow) (topo : List NodeId) (principal : PrincipalContext)
    (catalog : KnowledgeCatalog) (node : WorkflowNode) : Except VerifyError Unit := do
  verifyNodeResources node catalog
  failIf ((∃ reference ∈ referencedNodes node, (workflow.node? reference).isNone = true) ∨
      composesNothing node = true) .unreachableOrOrphanNode
  failIf (node.budget.queryCost > 0 ∧ ¬ hasAuthorizedScope node = true) .missingOfficeScope
  failIf (sensitivityRank node.policy.maxSensitivity >
        sensitivityRank workflow.outputContract.maxSensitivity ∨
      ∃ output ∈ node.outputs, sensitivityRank output.sensitivity >
        sensitivityRank workflow.outputContract.maxSensitivity) .sensitivityWidening
  failIf (node.policy.piiRequired = true ∧ ¬ principal.canViewPii = true) .capabilityNotPermitted
  forSome node.policy.requiredCapability fun capability =>
    mapError (fun _ => .capabilityNotPermitted) (ensureCapabilityAllowed principal capability)
  verifyExecuteQuery node principal catalog
  forEach node.inputs fun input => verifyInput input node workflow topo catalog
  verifyResume node (WorkflowGraph.new workflow)

/-- V9: distinct ids, known edge ends, one entry that reaches every node, and a
terminal node. -/
def verifyShape (workflow : ExecutionWorkflow) : Except VerifyError Unit := do
  let graph := WorkflowGraph.new workflow
  failIf ((workflow.nodes.map (·.id)).dedup.length ≠ workflow.nodes.length ∨
      ¬ workflow.EdgesKnown ∨ graph.entryNodes.length ≠ 1 ∨
      ¬ workflow.nodes.any WorkflowNode.isComplete = true) .unreachableOrOrphanNode
  failIf (graph.entryNodes.getLast?.any (fun entry =>
      (graph.reachableFrom entry).length ≠ workflow.nodes.length) = true) .unreachableOrOrphanNode

def spentQueries (workflow : ExecutionWorkflow) : UInt16 :=
  (workflow.nodes.map fun node => node.budget.queryCost.toUInt16).sum

def spentRows (workflow : ExecutionWorkflow) : UInt64 :=
  (workflow.nodes.map fun node => node.budget.rowCap.toUInt64).sum

def spentTime (workflow : ExecutionWorkflow) : UInt64 :=
  (workflow.nodes.map fun node => node.budget.timeoutMs).sum

/-- V6: the declared costs and the graph's width fit the shared budgets. -/
def verifyBudgets (workflow : ExecutionWorkflow) : Except VerifyError Unit :=
  failIf (spentQueries workflow > workflow.budgets.maxQueryCount.toUInt16 ∨
      spentRows workflow > workflow.budgets.sharedRowCap.toUInt64 ∨
      spentTime workflow > workflow.budgets.sharedTimeoutMs ∨
      workflow.budgets.maxParallelQueries = 0 ∨
      (WorkflowGraph.new workflow).maxReadyWidth > workflow.budgets.maxParallelQueries.toNat)
    .budgetExceeded

def verify (sort : TopologicalSort NodeId) (workflow : ExecutionWorkflow)
    (principal : PrincipalContext) (catalog : KnowledgeCatalog) :
    Except VerifyError VerifiedWorkflow := do
  let graph := WorkflowGraph.new workflow
  failIf (graph.isCyclic = true) .cycle
  verifyShape workflow
  failIf (workflow.failPolicy = .continueLabelled ∧
      ¬ workflow.outputContract.allowsPartial = true) .partialResultsNotPermitted
  verifyBudgets workflow
  let topo ← okOr (sort.sort graph) .cycle
  forEach workflow.nodes (verifyNode workflow topo principal catalog)
  return ⟨workflow⟩

/-- What V1 and V9 establish about the graph. -/
structure ExecutionWorkflow.WellShaped (workflow : ExecutionWorkflow) : Prop where
  ids_nodup : (workflow.nodes.map (·.id)).Nodup
  edges_known : workflow.EdgesKnown
  single_entry : ∃ entry, (WorkflowGraph.new workflow).entryNodes = [entry] ∧
    ∀ id ∈ workflow.nodes.map (·.id), (WorkflowGraph.new workflow).Path entry id
  complete_exists : ∃ node ∈ workflow.nodes, node.isComplete = true

/-- What V6 establishes, in the machine types the sums are taken in. -/
structure ExecutionWorkflow.WithinBudgets (workflow : ExecutionWorkflow) : Prop where
  queries : spentQueries workflow ≤ workflow.budgets.maxQueryCount.toUInt16
  rows : spentRows workflow ≤ workflow.budgets.sharedRowCap.toUInt64
  time : spentTime workflow ≤ workflow.budgets.sharedTimeoutMs
  parallel : workflow.budgets.maxParallelQueries ≠ 0
  width : (WorkflowGraph.new workflow).maxReadyWidth ≤ workflow.budgets.maxParallelQueries.toNat

theorem dedup_length_eq_iff {α : Type*} [DecidableEq α] {l : List α} :
    l.dedup.length = l.length ↔ l.Nodup := by
  constructor
  · intro h
    have hsub := (List.dedup_sublist l).eq_of_length h
    exact hsub ▸ List.nodup_dedup l
  · intro h
    rw [h.dedup]

/-- The search finds the only match there is. -/
theorem find?_eq_some_of_unique {α : Type*} {p : α → Bool} {l : List α} {a : α} (ha : a ∈ l)
    (hp : p a = true) (hunique : ∀ b ∈ l, p b = true → b = a) : l.find? p = some a := by
  obtain ⟨b, hb⟩ := Option.isSome_iff_exists.mp (List.find?_isSome.mpr ⟨a, ha, hp⟩)
  rw [hb, hunique b (List.mem_of_find?_eq_some hb) (List.find?_some hb)]

/-- With distinct keys an element is found by its own. -/
theorem find?_eq_some_of_nodup {α κ : Type*} [DecidableEq κ] {key : α → κ} {l : List α} {a : α}
    (hkeys : (l.map key).Nodup) (ha : a ∈ l) : (l.find? fun b => key b = key a) = some a :=
  find?_eq_some_of_unique ha (decide_eq_true rfl) fun _ hb hkey =>
    List.inj_on_of_nodup_map hkeys hb ha (of_decide_eq_true hkey)

theorem ExecutionWorkflow.node?_of_mem {workflow : ExecutionWorkflow} {node : WorkflowNode}
    (hids : (workflow.nodes.map (·.id)).Nodup) (hnode : node ∈ workflow.nodes) :
    workflow.node? node.id = some node :=
  find?_eq_some_of_nodup hids hnode

theorem verifyShape_eq_ok {workflow : ExecutionWorkflow} :
    verifyShape workflow = .ok () ↔ workflow.WellShaped := by
  simp only [verifyShape, bind_eq_ok_iff, exists_unit_iff, failIf_eq_ok, not_or, not_not]
  constructor
  · rintro ⟨⟨hids, hedges, hone, hcomplete⟩, hreach⟩
    have hnodup : (workflow.nodes.map (·.id)).Nodup :=
      dedup_length_eq_iff.mp (by simpa using hids)
    obtain ⟨entry, hentry⟩ := List.length_eq_one_iff.mp hone
    refine ⟨hnodup, hedges, ⟨entry, hentry, ?_⟩, by simpa using hcomplete⟩
    have hmem : entry ∈ (WorkflowGraph.new workflow).nodes :=
      (mem_entryNodes.mp (hentry ▸ List.mem_singleton_self entry)).1
    have hlen : ((WorkflowGraph.new workflow).reachableFrom entry).length =
        (WorkflowGraph.new workflow).nodes.length := by
      simpa [hentry] using hreach
    intro id hid
    exact (mem_reachableFrom hmem).mp ((reachableFrom_length_eq hnodup).mp hlen id hid)
  · rintro ⟨hnodup, hedges, ⟨entry, hentry, hall⟩, hcomplete⟩
    refine ⟨⟨?_, hedges, by simp [hentry], by simpa using hcomplete⟩, ?_⟩
    · simpa using dedup_length_eq_iff.mpr hnodup
    · have hmem : entry ∈ (WorkflowGraph.new workflow).nodes :=
        (mem_entryNodes.mp (hentry ▸ List.mem_singleton_self entry)).1
      have hlen := (reachableFrom_length_eq (g := WorkflowGraph.new workflow) (a := entry)
        hnodup).mpr fun id hid => (mem_reachableFrom hmem).mpr (hall id hid)
      simpa [hentry] using hlen

theorem verifyBudgets_eq_ok {workflow : ExecutionWorkflow} :
    verifyBudgets workflow = .ok () ↔ workflow.WithinBudgets := by
  simp only [verifyBudgets, failIf_eq_ok, not_or, not_lt, gt_iff_lt, UInt16.not_lt, UInt64.not_lt]
  constructor
  · rintro ⟨h1, h2, h3, h4, h5⟩
    exact ⟨h1, h2, h3, h4, h5⟩
  · rintro ⟨h1, h2, h3, h4, h5⟩
    exact ⟨h1, h2, h3, h4, h5⟩

/-- The verifier accepts exactly the acyclic, well-shaped workflows within their
budgets whose nodes all pass in one topological order. -/
theorem verify_eq_ok {sort : TopologicalSort NodeId} {workflow : ExecutionWorkflow}
    {principal : PrincipalContext} {catalog : KnowledgeCatalog} {verified : VerifiedWorkflow} :
    verify sort workflow principal catalog = .ok verified ↔
      (WorkflowGraph.new workflow).Acyclic ∧ workflow.WellShaped ∧
      (workflow.failPolicy = .continueLabelled → workflow.outputContract.allowsPartial = true) ∧
      workflow.WithinBudgets ∧
      (∃ topo, sort.sort (WorkflowGraph.new workflow) = some topo ∧
        ∀ node ∈ workflow.nodes, verifyNode workflow topo principal catalog node = .ok ()) ∧
      verified = ⟨workflow⟩ := by
  simp only [verify, exists_unit_iff, failIf_eq_ok, Bool.not_eq_true, isCyclic_eq_false,
    verifyShape_eq_ok, verifyBudgets_eq_ok, bind_eq_ok_iff, okOr_eq_ok, forEach_eq_ok,
    pure_eq_ok, not_and, Bool.not_eq_false]
  constructor
  · rintro ⟨hacyclic, hshape, hpartial, hbudget, topo, htopo, hnodes, rfl⟩
    exact ⟨hacyclic, hshape, hpartial, hbudget, ⟨topo, htopo, hnodes⟩, rfl⟩
  · rintro ⟨hacyclic, hshape, hpartial, hbudget, ⟨topo, htopo, hnodes⟩, rfl⟩
    exact ⟨hacyclic, hshape, hpartial, hbudget, topo, htopo, hnodes, rfl⟩

end FineractReports.Workflow
