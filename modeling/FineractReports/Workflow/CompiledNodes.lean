import FineractReports.Execution.StatementSafety
import FineractReports.Workflow.BudgetArithmetic
import FineractReports.Workflow.FrontGraph

/-!
# The verifier on compiled nodes

What the checks of the verifier come to on each of the nodes the compiler makes.
-/

namespace FineractReports.KnowledgeValidator

variable {catalog : KnowledgeCatalog} {files : List String × String → Option String}
  {toLowercase : String → String}

theorem validateUniqueIds_nodup {label : String} {ids : List String}
    (h : validateUniqueIds label ids = .ok ()) : ids.Nodup := by
  have hnodup : (([] ++ ids).map fun id : String => id).Nodup := by
    refine forEachAfter_nodup (fun seen id hchecked => ?_) h List.nodup_nil
    simp only [bind_eq_ok_iff, exists_unit_iff, failIf_eq_ok] at hchecked
    simpa using hchecked.2
  simpa using hnodup

theorem validate_capability_ids (h : validate catalog files toLowercase = .ok ()) :
    (catalog.capabilities.map (·.id)).Nodup := by
  simp only [validate, validateIds, bind_eq_ok_iff, exists_unit_iff] at h
  exact validateUniqueIds_nodup h.2.1.2.2.2.2.1

theorem validate_capability (h : validate catalog files toLowercase = .ok ())
    {capability : CapabilityKnowledge} (hlisted : capability ∈ catalog.capabilities) :
    validateCapability catalog capability = .ok () := by
  simp only [validate, bind_eq_ok_iff, exists_unit_iff, forEach_eq_ok] at h
  exact h.2.2.2.2.2.2.1 capability hlisted

/-- The query of an approved capability exists, and so does the shape its recipe selects. -/
theorem validateCapability_resources {capability : CapabilityKnowledge}
    (h : validateCapability catalog capability = .ok ())
    (happroved : capability.status = "approved_mvp") :
    ∃ query, (catalog.queries.find? fun query => query.id = capability.queryId) = some query ∧
      ∀ recipe, capability.datasetRecipe = some recipe →
        ∃ dataset, (catalog.datasets.find? fun dataset => dataset.id = recipe.datasetId) =
          some dataset ∧ (dataset.shape recipe.shapeId).isSome = true := by
  simp only [validateCapability, bind_eq_ok_iff, exists_unit_iff, happroved, if_true,
    validateContracts, okOr_eq_ok] at h
  obtain ⟨-, -, -, -, -, -, -, ⟨query, hquery, -, -, hrecipe⟩, -⟩ := h
  refine ⟨query, hquery, fun recipe hsome => ?_⟩
  simp only [validateDatasetRecipe, forSome_eq_ok, bind_eq_ok_iff, okOr_eq_ok] at hrecipe
  obtain ⟨dataset, hdataset, shape, hshape, -⟩ := hrecipe recipe hsome
  exact ⟨dataset, hdataset, Option.isSome_iff_exists.mpr ⟨shape, hshape⟩⟩

end FineractReports.KnowledgeValidator

namespace FineractReports.Workflow

open Dataset (ShapeOption ProducedSlot)

section Nodes

variable {workflow : ExecutionWorkflow} {topo : List NodeId} {principal : PrincipalContext}
  {catalog : KnowledgeCatalog} {node : WorkflowNode}

theorem sensitivityRank_le_pii {sensitivity : Sensitivity} :
    sensitivityRank sensitivity ≤ sensitivityRank .pii ↔ sensitivity ≠ .neverUse := by
  cases sensitivity <;> simp [sensitivityRank]

theorem verifyInput_eq_ok {input : NodeInput} :
    verifyInput input node workflow topo catalog = .ok () ↔
      looksLikeSqlIdentifier input.parameter = false ∧
      (input.source = .authorizedScope →
        input.parameter = "office_ids" ∧ input.kind = .integerArray) ∧
      verifyProducer input node workflow topo = .ok () ∧
      ∀ parameter, queryParameter? input node catalog = some parameter →
        parameterType parameter.kind = some input.kind ∧
        (parameter.required = true → input.source = .exactSensitiveInput →
          input.kind = .string) := by
  simp [verifyInput, not_or]

/-- What the verifier asks of one node. -/
structure Passes (workflow : ExecutionWorkflow) (topo : List NodeId) (principal : PrincipalContext)
    (catalog : KnowledgeCatalog) (node : WorkflowNode) : Prop where
  resources : verifyNodeResources node catalog = .ok ()
  references : ∀ reference ∈ referencedNodes node, (workflow.node? reference).isSome = true
  composes : composesNothing node = false
  scope : 0 < node.budget.queryCost → hasAuthorizedScope node = true
  policySensitivity : sensitivityRank node.policy.maxSensitivity ≤
    sensitivityRank workflow.outputContract.maxSensitivity
  outputSensitivity : ∀ output ∈ node.outputs, sensitivityRank output.sensitivity ≤
    sensitivityRank workflow.outputContract.maxSensitivity
  pii : node.policy.piiRequired = true → principal.canViewPii = true
  permitted : ∀ capability, node.policy.requiredCapability = some capability →
    capability ∈ principal.capabilityIds
  query : verifyExecuteQuery node principal catalog = .ok ()
  inputs : ∀ input ∈ node.inputs, verifyInput input node workflow topo catalog = .ok ()
  resume : verifyResume node (WorkflowGraph.new workflow) = .ok ()

theorem verifyNode_eq_ok : verifyNode workflow topo principal catalog node = .ok () ↔
    Passes workflow topo principal catalog node := by
  simp only [verifyNode, bind_eq_ok_iff, exists_unit_iff, failIf_eq_ok, forSome_eq_ok,
    forEach_eq_ok, mapError_eq_ok, ensureCapabilityAllowed_eq_ok, not_or, not_exists, not_and,
    not_lt, gt_iff_lt, Bool.not_eq_true, Option.isNone_eq_false_iff]
  constructor
  · rintro ⟨h1, ⟨h2, h3⟩, h4, ⟨h5, h6⟩, h7, h8, h9, h10, h11⟩
    exact ⟨h1, h2, h3, by simpa using h4, h5, by simpa using h6, by simpa using h7, h8, h9, h10,
      h11⟩
  · rintro ⟨h1, h2, h3, h4, h5, h6, h7, h8, h9, h10, h11⟩
    exact ⟨h1, ⟨h2, h3⟩, by simpa using h4, ⟨h5, by simpa using h6⟩, by simpa using h7, h8, h9,
      h10, h11⟩

theorem resolver_passes {id : NodeId} {datasetId shapeId : String} {dataset : DatasetKnowledge}
    {shape : ShapeOption} {output : ProducedSlot} {backing : CapabilityKnowledge}
    (hdataset : catalogDataset? catalog datasetId = some dataset)
    (hshape : dataset.shape shapeId = some shape)
    (hcontract : workflow.outputContract.maxSensitivity = .pii) :
    Passes workflow topo principal catalog (resolverNode id dataset shape output backing) ↔
      shape.role = .resolver ∧ output.sensitivity ≠ .neverUse ∧
        backing.id ∈ principal.capabilityIds := by
  have hdatasetId : dataset.id = datasetId := by simpa using List.find?_some hdataset
  have hshapeId : shape.id = shapeId := by simpa using List.find?_some hshape
  have hresources : verifyNodeResources (resolverNode id dataset shape output backing) catalog =
      .ok () ↔ shape.role = .resolver := by
    simp [resolverNode, verifyNodeResources, hdatasetId, hshapeId, hdataset, hshape]
  constructor
  · intro h
    have houtput := h.outputSensitivity _ List.mem_cons_self
    rw [hcontract, sensitivityRank_le_pii] at houtput
    exact ⟨hresources.mp h.resources, houtput, h.permitted backing.id rfl⟩
  · rintro ⟨hrole, houtput, hheld⟩
    refine ⟨hresources.mpr hrole, by simp [resolverNode, referencedNodes], rfl, fun _ => rfl, ?_,
      ?_, by simp [resolverNode, nodePolicy], ?_, rfl, ?_, rfl⟩
    · rw [hcontract]; rfl
    · intro found hfound
      obtain rfl := List.mem_singleton.mp hfound
      rw [hcontract]
      exact sensitivityRank_le_pii.mpr houtput
    · intro capability hcapability
      obtain rfl := Option.some.inj hcapability
      exact hheld
    · intro input hinput
      obtain rfl := List.mem_singleton.mp hinput
      apply verifyInput_eq_ok.mpr
      exact ⟨by decide, fun _ => ⟨rfl, rfl⟩, rfl, by simp [queryParameter?, resolverNode]⟩

theorem control_passes {id : NodeId} {kind : NodeKind} {idempotency : Idempotency}
    (hplain : IsPlain (controlNode id kind idempotency))
    (hkind : ∀ resolve, kind ≠ .resolveEntity resolve)
    (hcontract : workflow.outputContract.maxSensitivity = .pii) :
    Passes workflow topo principal catalog (controlNode id kind idempotency) ↔
      (∀ reference ∈ referencedNodes (controlNode id kind idempotency),
        (workflow.node? reference).isSome = true) ∧
      verifyResume (controlNode id kind idempotency) (WorkflowGraph.new workflow) = .ok () := by
  constructor
  · intro h
    exact ⟨h.references, h.resume⟩
  · rintro ⟨hreferences, hresume⟩
    refine ⟨?_, hreferences, ?_, by simp [controlNode, terminalBudget], ?_, by simp [controlNode],
      by simp [controlNode, nodePolicy], by simp [controlNode, nodePolicy], ?_,
      by simp [controlNode], hresume⟩
    · cases kind <;> simp_all [controlNode, verifyNodeResources, IsPlain]
    · cases kind <;> simp_all [controlNode, composesNothing, IsPlain]
    · rw [hcontract]; rfl
    · cases kind <;> simp_all [controlNode, verifyExecuteQuery, IsPlain]

section Query

variable {capability : CapabilityKnowledge} {budgets : WorkflowBudgets} {inputs : List NodeInput}

/-- The parameters of a capability's query. -/
def queryParameters (capability : CapabilityKnowledge) (catalog : KnowledgeCatalog) :
    List QueryParameter :=
  match catalogQuery? catalog capability.queryId with
  | some query => query.parameters
  | none => []

theorem queryParameter?_execute {input : NodeInput} :
    queryParameter? input (executeNode capability catalog budgets inputs) catalog =
      (queryParameters capability catalog).find? fun parameter =>
        parameter.name = input.parameter := by
  unfold queryParameters
  cases hquery : catalogQuery? catalog capability.queryId <;>
    simp [queryParameter?, executeNode, hquery]

theorem mem_queryRequired {name : String} : name ∈ queryRequired capability catalog ↔
    ∃ parameter ∈ queryParameters capability catalog,
      parameter.required = true ∧ parameter.name = name := by
  unfold queryRequired queryParameters
  cases catalogQuery? catalog capability.queryId <;> simp [and_assoc]

/-- A valid catalog has everything the query node of an approved capability names. -/
theorem execute_resources (hunique : (catalog.capabilities.map (·.id)).Nodup)
    (hlisted : capability ∈ catalog.capabilities)
    (hvalid : KnowledgeValidator.validateCapability catalog capability = .ok ())
    (happroved : capability.status = "approved_mvp") :
    verifyNodeResources (executeNode capability catalog budgets inputs) catalog = .ok () := by
  have hfound : (catalog.capabilities.find? fun other => other.id = capability.id) =
      some capability :=
    find?_eq_some_of_nodup hunique hlisted
  obtain ⟨query, hquery, hrecipe⟩ :=
    KnowledgeValidator.validateCapability_resources hvalid happroved
  have hqueryFound : catalogQuery? catalog capability.queryId = some query := hquery
  cases hselects : capability.datasetRecipe with
  | none => simp [verifyNodeResources, executeNode, hfound, happroved, hqueryFound, hselects]
  | some recipe =>
    obtain ⟨dataset, hdataset, hshape⟩ := hrecipe recipe hselects
    have hdatasetFound : catalogDataset? catalog recipe.datasetId = some dataset := hdataset
    simp [verifyNodeResources, executeNode, hfound, happroved, hqueryFound, hselects,
      hdatasetFound, Option.isSome_iff_ne_none.mp hshape]

theorem execute_passes
    (hresources : verifyNodeResources (executeNode capability catalog budgets inputs) catalog =
      .ok ()) (hscope : scopeInput ∈ inputs)
    (hcontract : workflow.outputContract.maxSensitivity = .pii) :
    Passes workflow topo principal catalog (executeNode capability catalog budgets inputs) ↔
      capability.id ∈ principal.capabilityIds ∧
      (∀ parameter ∈ queryParameters capability catalog, parameter.required = true →
        ∃ input ∈ inputs, input.parameter = parameter.name) ∧
      ∀ input ∈ inputs, verifyInput input (executeNode capability catalog budgets inputs)
        workflow topo catalog = .ok () := by
  have hquery : verifyExecuteQuery (executeNode capability catalog budgets inputs) principal
      catalog = .ok () ↔ capability.id ∈ principal.capabilityIds ∧
        ∀ parameter ∈ queryParameters capability catalog, parameter.required = true →
          ∃ input ∈ inputs, input.parameter = parameter.name := by
    unfold queryParameters
    cases hfound : catalogQuery? catalog capability.queryId <;>
      simp [verifyExecuteQuery, executeNode, hfound, ensureCapabilityAllowed_eq_ok]
  constructor
  · intro h
    obtain ⟨hheld, hsupplied⟩ := hquery.mp h.query
    exact ⟨hheld, hsupplied, h.inputs⟩
  · rintro ⟨hheld, hsupplied, hinputs⟩
    refine ⟨hresources, by simp [executeNode, referencedNodes], rfl, fun _ => ?_, ?_,
      by simp [executeNode], by simp [executeNode, nodePolicy], ?_, hquery.mpr ⟨hheld, hsupplied⟩,
      hinputs, rfl⟩
    · exact List.any_eq_true.mpr ⟨scopeInput, hscope, rfl⟩
    · rw [hcontract]
      rfl
    · intro held hsome
      obtain rfl := Option.some.inj hsome
      exact hheld

end Query

end Nodes

end FineractReports.Workflow
