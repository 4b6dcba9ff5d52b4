import FineractReports.Workflow.CompiledNodes

/-!
# The compiler and the verifier

A workflow compiled for one capability passes the verifier for everybody who holds what
its nodes ask for, unless two parameters are put in front of the query or the verifier
reads the catalog more strictly than the compiler and the validator do.
-/

namespace FineractReports.Workflow

open Dataset (ShapeOption ProducedSlot)

/-- A workflow compiled for an approved capability of a validated catalog, when nothing is
known from earlier steps and the budgets cover it. -/
structure CompiledCapability where
  catalog : KnowledgeCatalog
  files : List String × String → Option String
  toLowercase : String → String
  valid : KnowledgeValidator.validate catalog files toLowercase = .ok ()
  capability : CapabilityKnowledge
  listed : capability ∈ catalog.capabilities
  approved : capability.status = "approved_mvp"
  facts : AcquisitionFacts
  safePrior_eq : facts.safePrior = []
  priorSteps_eq : facts.priorSteps = []
  workflowId : Uuid
  catalogVersion : Uuid
  budgets : WorkflowBudgets
  workflow : ExecutionWorkflow
  compiled : compileWithFacts (capabilityProposal capability.id) catalog workflowId catalogVersion
    budgets facts = .ok workflow
  covered : workflow.declaredTotal ≤ budgets.limit
  wide : (WorkflowGraph.new workflow).maxReadyWidth ≤ budgets.maxParallelQueries.toNat

/-- The parameter of that name is of the type, when there is one. -/
def TypedAs (parameters : List QueryParameter) (name : String) (kind : ParameterType) : Prop :=
  ∀ parameter, (parameters.find? fun parameter => parameter.name = name) = some parameter →
    parameterType parameter.kind = some kind

/-- The shape of the probe is a resolver whose slot is read at the type and may be used. -/
def probeFits (policy : ParameterPolicy) (catalog : KnowledgeCatalog) : Bool :=
  policy.probe.all fun probe => (catalogDataset? catalog probe.datasetId).all fun dataset =>
    (dataset.shape probe.shapeId).all fun shape => decide (shape.role = .resolver) &&
      (shape.produces.find? fun slot => slot.slot = probe.outputSlot).all fun output =>
        decide (parseKind output.kind = policy.kind ∧ output.sensitivity ≠ .neverUse)

namespace CompiledCapability

variable (run : CompiledCapability)

/-- The policies whose parameters the query node reads. -/
def policies : List ParameterPolicy := acquiredPolicies run.capability run.catalog

def isExact (policy : ParameterPolicy) : Bool :=
  isExactIdentifierParam run.capability policy.name run.catalog

/-- Is the parameter acquired by nodes in front of the query? -/
def isFronted (policy : ParameterPolicy) (strategy : ResolutionStrategy) : Bool :=
  !run.isExact policy && decide (chosenStrategy policy run.facts run.catalog = some strategy)

def isProbed (policy : ParameterPolicy) : Bool := run.isFronted policy .authorizedDataProbe

def isClarified (policy : ParameterPolicy) : Bool := run.isFronted policy .clarify

/-- A required parameter read from the sensitive input is of a text. -/
def ReadsText (policy : ParameterPolicy) : Prop :=
  run.isExact policy = true → ∀ parameter, ((queryParameters run.capability run.catalog).find?
    fun parameter => parameter.name = policy.name) = some parameter →
      parameter.required = true → policy.kind = .string

/-- Where compiler and verifier agree. -/
structure Agrees : Prop where
  oneFront :
    (run.policies.filter fun policy => run.isProbed policy || run.isClarified policy).length ≤ 1
  probesFit : ∀ policy ∈ run.policies, run.isProbed policy = true →
    probeFits policy run.catalog = true
  named : ∀ policy ∈ run.policies, looksLikeSqlIdentifier policy.name = false
  scopeTyped : TypedAs (queryParameters run.capability run.catalog) "office_ids" .integerArray
  typed : ∀ policy ∈ run.policies,
    TypedAs (queryParameters run.capability run.catalog) policy.name policy.kind
  exactText : ∀ policy ∈ run.policies, run.ReadsText policy
  supplied : ∀ parameter ∈ queryParameters run.capability run.catalog, parameter.required = true →
    parameter.name = "office_ids" ∨
      ∃ policy ∈ run.capability.parameterPolicies, policy.name = parameter.name

/-- The verifier accepts the workflow for everybody who holds what it asks for. -/
def Verifies (sort : DirectedGraph.TopologicalSort NodeId) : Prop :=
  ∀ principal : PrincipalContext, run.capability.id ∈ principal.capabilityIds →
    (∀ node ∈ run.workflow.nodes, ∀ capability, node.policy.requiredCapability = some capability →
      capability ∈ principal.capabilityIds) →
    verify sort run.workflow principal run.catalog = .ok ⟨run.workflow⟩

section Parts

/-- What is acquired for one policy. -/
inductive PartOf (policy : ParameterPolicy) : Acquired → Prop
  | exact (hexact : run.isExact policy = true) : PartOf policy (bound .exactSensitiveInput)
  | direct {source : BindingSource} (hexact : run.isExact policy = false)
      (hprobed : run.isProbed policy = false) (hclarified : run.isClarified policy = false)
      (hsource : source = .catalogDefault ∨ (∃ field, source = .deterministicExtraction field) ∨
        ∃ field, source = .verifiedUserText field) : PartOf policy (bound source)
  | probe {probe : ProbeRef} {dataset : DatasetKnowledge} {shape : ShapeOption}
      {output : ProducedSlot} {backing : CapabilityKnowledge}
      {resolve branch notFound select : NodeId} (hprobed : run.isProbed policy = true)
      (hprobe : policy.probe = some probe)
      (hdataset : catalogDataset? run.catalog probe.datasetId = some dataset)
      (hshape : dataset.shape probe.shapeId = some shape)
      (houtput : (shape.produces.find? fun slot => slot.slot = probe.outputSlot) = some output)
      (hresolve : NodeId.new ("resolve_" ++ policy.name) = some resolve)
      (hbranch : NodeId.new ("branch_" ++ policy.name) = some branch)
      (hnotFound : NodeId.new ("not_found_" ++ policy.name) = some notFound)
      (hselect : NodeId.new ("select_" ++ policy.name) = some select) :
      PartOf policy (probeGraph resolve branch notFound select executeId
        (resolverNode resolve dataset shape output backing) probe.outputSlot)
  | clarify {clarify : NodeId} (hclarified : run.isClarified policy = true)
      (hclarify : NodeId.new ("clarify_" ++ policy.name) = some clarify) :
      PartOf policy (clarifyGraph clarify executeId)

variable {run} {policy : ParameterPolicy} {acquired : Acquired}

theorem partOf_acquired (hpolicy : policy ∈ run.policies)
    (h : acquisitionSource run.capability policy run.facts executeId run.catalog = .ok acquired) :
    run.PartOf policy acquired := by
  obtain ⟨hexact, rfl⟩ | ⟨hexact, strategy, hchosen, hacquired⟩ := acquisitionSource_spec h
  · exact .exact hexact
  · have hfronted : ∀ other, run.isFronted policy other = decide (strategy = other) := by
      intro other
      simp [isFronted, isExact, hexact, hchosen]
    cases hacquired with
    | scope hname =>
      have hacquire := (List.mem_filter.mp hpolicy).2
      simp [hname] at hacquire
    | default => exact .direct hexact (hfronted _) (hfronted _) (Or.inl rfl)
    | extracted => exact .direct hexact (hfronted _) (hfronted _) (Or.inr (Or.inl ⟨_, rfl⟩))
    | userText => exact .direct hexact (hfronted _) (hfronted _) (Or.inr (Or.inr ⟨_, rfl⟩))
    | prior hprior => simp [run.safePrior_eq, Assoc.get?] at hprior
    | step hstep => simp [run.priorSteps_eq, Assoc.get?] at hstep
    | probe hprobe hsource =>
      obtain ⟨dataset, shape, output, backing, resolve, branch, notFound, select, hdataset, hshape,
        -, houtput, -, hresolve, hbranch, hnotFound, hselect, rfl⟩ := probeSource_graph hsource
      exact .probe (hfronted _) hprobe hdataset hshape houtput hresolve hbranch hnotFound hselect
    | clarify hsource =>
      obtain ⟨clarify, hclarify, rfl⟩ := clarifySource_graph hsource
      exact .clarify (hfronted _) hclarify

theorem PartOf.isFront (h : run.PartOf policy acquired) : IsFront policy.name acquired := by
  cases h with
  | exact _ => exact .direct
  | direct _ _ _ _ => exact .direct
  | probe _ _ _ _ _ hresolve hbranch hnotFound hselect =>
    exact .probe hresolve hbranch hnotFound hselect rfl
  | clarify _ hclarify => exact .clarify hclarify

theorem PartOf.exact_of_source (h : run.PartOf policy acquired)
    (hsource : acquired.source = .exactSensitiveInput) : run.isExact policy = true := by
  cases h with
  | exact hexact => exact hexact
  | direct _ _ _ hdirect =>
    obtain rfl | ⟨field, rfl⟩ | ⟨field, rfl⟩ := hdirect <;> cases hsource
  | probe => cases hsource
  | clarify => cases hsource

theorem PartOf.source_of_exact (h : run.PartOf policy acquired)
    (hexact : run.isExact policy = true) : acquired.source = .exactSensitiveInput := by
  cases h with
  | exact _ => rfl
  | direct hnot => simp [hexact] at hnot
  | probe hprobed => simp [isProbed, isFronted, hexact] at hprobed
  | clarify hclarified => simp [isClarified, isFronted, hexact] at hclarified

theorem PartOf.source_ne_scope (h : run.PartOf policy acquired) :
    acquired.source ≠ .authorizedScope := by
  cases h with
  | direct _ _ _ hdirect => obtain rfl | ⟨field, rfl⟩ | ⟨field, rfl⟩ := hdirect <;> simp [bound]
  | _ => simp [bound, probeGraph, clarifyGraph]

theorem not_fronted_of_exact {strategy : ResolutionStrategy} (hexact : run.isExact policy = true) :
    run.isFronted policy strategy = false := by
  simp [isFronted, hexact]

/-- A part that is not fronted brings no nodes and no edges. -/
theorem PartOf.bare (h : run.PartOf policy acquired)
    (hbare : (run.isProbed policy || run.isClarified policy) = false) :
    acquired.nodes = [] ∧ acquired.edges = [] := by
  cases h with
  | exact _ => exact ⟨rfl, rfl⟩
  | direct _ _ _ _ => exact ⟨rfl, rfl⟩
  | probe hprobed => simp [hprobed] at hbare
  | clarify hclarified => simp [hclarified] at hbare

/-- A fronted part brings the node it starts with. -/
theorem PartOf.root (h : run.PartOf policy acquired)
    (hfronted : (run.isProbed policy || run.isClarified policy) = true) :
    ∃ node ∈ acquired.nodes, node.id.stage = 0 ∨ node.id.stage = 4 := by
  cases h with
  | exact hexact =>
    simp [isProbed, isClarified, not_fronted_of_exact hexact] at hfronted
  | direct _ hprobed hclarified _ => simp [hprobed, hclarified] at hfronted
  | probe _ _ _ _ _ hresolve _ _ _ =>
    exact ⟨_, List.mem_cons_self, Or.inl (stage_of_stem hresolve (by decide))⟩
  | clarify _ hclarify =>
    exact ⟨_, List.mem_cons_self, Or.inr (stage_of_stem hclarify (by decide))⟩

variable (run) in
/-- The workflow is the query behind the parts, one for each policy. -/
structure IsSplit (parts : List (ParameterPolicy × Acquired)) : Prop where
  policies_eq : parts.map Prod.fst = run.policies
  part : ∀ part ∈ parts, run.PartOf part.1 part.2
  workflow_eq : run.workflow = capabilityWorkflow run.capability run.catalog run.workflowId
    run.catalogVersion run.budgets
      ⟨scopeInput :: parts.map fun part => ⟨part.1.name, part.1.kind, part.2.source⟩,
        parts.flatMap fun part => part.2.nodes, parts.flatMap fun part => part.2.edges⟩

theorem approvedCapability_eq (run : CompiledCapability) :
    approvedCapability? run.catalog run.capability.id = some run.capability := by
  apply find?_eq_some_of_unique run.listed (by simp [run.approved])
  intro other hother hmatches
  have hids := KnowledgeValidator.validate_capability_ids run.valid
  exact List.inj_on_of_nodup_map hids hother run.listed (of_decide_eq_true hmatches).1

theorem exists_split (run : CompiledCapability) : ∃ parts, run.IsSplit parts := by
  obtain ⟨capability, acquisition, hcapability, hacquired, hworkflow⟩ :=
    compileWithFacts_capability run.compiled
  obtain rfl := Option.some.inj (run.approvedCapability_eq.symm.trans hcapability)
  obtain ⟨parts, hpolicies, hparts, rfl⟩ := acquireAll_parts hacquired
  refine ⟨parts, hpolicies, fun part hpart => ?_, hworkflow⟩
  have hpolicy : part.1 ∈ run.policies := by
    rw [policies, ← hpolicies]
    exact List.mem_map_of_mem hpart
  exact partOf_acquired hpolicy (hparts part hpart)

end Parts

section Split

variable {run} {parts : List (ParameterPolicy × Acquired)}

/-- The query node behind the parts. -/
def queryNode (run : CompiledCapability) (parts : List (ParameterPolicy × Acquired)) :
    WorkflowNode :=
  executeNode run.capability run.catalog run.budgets
    (scopeInput :: parts.map fun part => ⟨part.1.name, part.1.kind, part.2.source⟩)

theorem IsSplit.nodes_eq (h : run.IsSplit parts) : run.workflow.nodes =
    (parts.flatMap fun part => part.2.nodes) ++ [run.queryNode parts, successNode] := by
  rw [h.workflow_eq]
  rfl

theorem IsSplit.edges_eq (h : run.IsSplit parts) : run.workflow.edges =
    (parts.flatMap fun part => part.2.edges) ++ [⟨executeId, completeId, .always⟩] := by
  rw [h.workflow_eq]
  rfl

theorem IsSplit.contract_eq (h : run.IsSplit parts) :
    run.workflow.outputContract.maxSensitivity = .pii := by
  rw [h.workflow_eq]
  rfl

theorem IsSplit.mem_policies (h : run.IsSplit parts) {part : ParameterPolicy × Acquired}
    (hpart : part ∈ parts) : part.1 ∈ run.policies :=
  h.policies_eq ▸ List.mem_map_of_mem hpart

theorem IsSplit.exists_part (h : run.IsSplit parts) {policy : ParameterPolicy}
    (hpolicy : policy ∈ run.policies) : ∃ acquired, (policy, acquired) ∈ parts := by
  rw [← h.policies_eq] at hpolicy
  obtain ⟨part, hpart, rfl⟩ := List.mem_map.mp hpolicy
  exact ⟨part.2, hpart⟩

/-- The parts with nodes of their own. -/
def fronts (run : CompiledCapability) (parts : List (ParameterPolicy × Acquired)) :
    List (ParameterPolicy × Acquired) :=
  parts.filter fun part => run.isProbed part.1 || run.isClarified part.1

theorem IsSplit.fronts_length (h : run.IsSplit parts) : (run.fronts parts).length =
    (run.policies.filter fun policy => run.isProbed policy || run.isClarified policy).length := by
  rw [← h.policies_eq, List.filter_map, List.length_map]
  rfl

theorem flatMap_filter_of_nil {α β : Type*} {p : α → Bool} {f : α → List β} {l : List α}
    (h : ∀ a ∈ l, p a = false → f a = []) : (l.filter p).flatMap f = l.flatMap f := by
  induction l with
  | nil => rfl
  | cons a rest ih =>
    obtain ⟨ha, hrest⟩ := List.forall_mem_cons.mp h
    by_cases hp : p a = true
    · simp [hp, ih hrest]
    · have hp : p a = false := eq_false_of_ne_true hp
      simp [hp, ih hrest, ha hp]

theorem IsSplit.fronts_nodes (h : run.IsSplit parts) :
    ((run.fronts parts).flatMap fun part => part.2.nodes) =
      parts.flatMap fun part => part.2.nodes :=
  flatMap_filter_of_nil fun part hpart hbare => ((h.part part hpart).bare hbare).1

theorem IsSplit.fronts_edges (h : run.IsSplit parts) :
    ((run.fronts parts).flatMap fun part => part.2.edges) =
      parts.flatMap fun part => part.2.edges :=
  flatMap_filter_of_nil fun part hpart hbare => ((h.part part hpart).bare hbare).2

/-- With one front at most, the graph is the rooted one of that front. -/
theorem IsSplit.rooted (h : run.IsSplit parts) (hone : (run.fronts parts).length ≤ 1) :
    (run.workflow.nodes.map (·.id)).Nodup ∧ run.workflow.EdgesKnown ∧
      ∃ root, (WorkflowGraph.new run.workflow).IsRooted root NodeId.stage := by
  have hnodes := h.nodes_eq
  have hedges := h.edges_eq
  rw [← h.fronts_nodes] at hnodes
  rw [← h.fronts_edges] at hedges
  match hfronts : run.fronts parts with
  | [] =>
    rw [hfronts] at hnodes hedges
    have hdirect : IsFront "" (bound .exactSensitiveInput) := .direct
    exact hdirect.rooted rfl hnodes hedges
  | [part] =>
    rw [hfronts, List.flatMap_singleton] at hnodes hedges
    have hpart : part ∈ run.fronts parts := hfronts ▸ List.mem_singleton_self part
    have hfront := (h.part part (List.mem_filter.mp hpart).1).isFront
    exact hfront.rooted rfl hnodes hedges
  | _ :: _ :: _ => simp [hfronts] at hone

/-- No edge leads to the node a part starts with. -/
theorem IsSplit.root_isEntry (h : run.IsSplit parts) {node : WorkflowNode}
    (hnode : node ∈ run.workflow.nodes) (hstage : node.id.stage = 0 ∨ node.id.stage = 4) :
    node.id ∈ (WorkflowGraph.new run.workflow).entryNodes := by
  refine DirectedGraph.mem_entryNodes.mpr ⟨List.mem_map_of_mem hnode, fun id hadj => ?_⟩
  obtain ⟨⟨edge, hedge, -, htarget⟩, -⟩ := WorkflowGraph.adj_new.mp hadj
  rw [h.edges_eq, List.mem_append, List.mem_flatMap, List.mem_singleton] at hedge
  obtain ⟨part, hpart, hin⟩ | rfl := hedge
  · have hlater := (h.part part hpart).isFront.target_stage edge hin
    rw [htarget] at hlater
    omega
  · rw [← htarget, stage_completeId] at hstage
    omega

/-- Two fronts give two entry nodes. -/
theorem IsSplit.fronts_le_one (h : run.IsSplit parts) (hshape : run.workflow.WellShaped) :
    (run.fronts parts).length ≤ 1 := by
  match hfronts : run.fronts parts with
  | [] => simp
  | [_] => simp
  | first :: second :: rest =>
    exfalso
    have hfront : ∀ part ∈ first :: second :: rest, ∃ node ∈ part.2.nodes,
        node.id.stage = 0 ∨ node.id.stage = 4 := by
      intro part hpart
      obtain ⟨hin, hfronted⟩ := List.mem_filter.mp (hfronts ▸ hpart)
      exact (h.part part hin).root hfronted
    obtain ⟨a, ha, hastage⟩ := hfront first (by simp)
    obtain ⟨b, hb, hbstage⟩ := hfront second (by simp)
    have hnodes := h.nodes_eq
    rw [← h.fronts_nodes, hfronts, List.flatMap_cons, List.flatMap_cons] at hnodes
    have haIn : a ∈ run.workflow.nodes := by simp [hnodes, ha]
    have hbIn : b ∈ run.workflow.nodes := by simp [hnodes, hb]
    obtain ⟨entry, hentry, -⟩ := hshape.single_entry
    have haEntry := h.root_isEntry haIn hastage
    have hbEntry := h.root_isEntry hbIn hbstage
    rw [hentry, List.mem_singleton] at haEntry hbEntry
    have hids := hshape.ids_nodup
    rw [hnodes, List.append_assoc, List.map_append, List.append_assoc] at hids
    have hapart := (List.nodup_append.mp hids).2.2
    apply hapart a.id (List.mem_map_of_mem ha) b.id
    · simp only [List.map_append, List.mem_append]
      exact Or.inl (List.mem_map_of_mem hb)
    · rw [haEntry, hbEntry]

end Split

section Checks

open DirectedGraph

variable {run} {parts : List (ParameterPolicy × Acquired)} {topo : List NodeId}
  {principal : PrincipalContext} {policy : ParameterPolicy} {acquired : Acquired}

/-- What is reached later stands later. -/
theorem notBefore_of_transGen {workflow : ExecutionWorkflow}
    (htopo : (WorkflowGraph.new workflow).IsTopological topo) {a b : NodeId}
    (hab : Relation.TransGen (WorkflowGraph.new workflow).Adj a b) :
    notBefore (topo.idxOf? a) (topo.idxOf? b) = false := by
  have hlt := htopo.lt_of_transGen hab
  have hb : b ∈ topo := by
    obtain ⟨c, -, hcb⟩ := Relation.TransGen.tail'_iff.mp hab
    exact htopo.mem_iff.mpr hcb.right_mem
  have ha : a ∈ topo := by
    obtain ⟨c, hac, -⟩ := Relation.TransGen.head'_iff.mp hab
    exact htopo.mem_iff.mpr hac.left_mem
  obtain ⟨i, hi⟩ := Option.isSome_iff_exists.mp (List.isSome_idxOf?.mpr ha)
  obtain ⟨j, hj⟩ := Option.isSome_iff_exists.mp (List.isSome_idxOf?.mpr hb)
  rw [List.idxOf_eq_getD_idxOf?, List.idxOf_eq_getD_idxOf?, hi, hj] at hlt
  rw [hi, hj, notBefore, decide_eq_false_iff_not]
  exact Nat.not_le.mpr hlt

theorem IsSplit.part_nodes (h : run.IsSplit parts) (hpart : (policy, acquired) ∈ parts)
    {node : WorkflowNode} (hnode : node ∈ acquired.nodes) : node ∈ run.workflow.nodes := by
  rw [h.nodes_eq]
  exact List.mem_append_left _ (List.mem_flatMap.mpr ⟨_, hpart, hnode⟩)

theorem IsSplit.query_mem (h : run.IsSplit parts) : run.queryNode parts ∈ run.workflow.nodes := by
  simp [h.nodes_eq]

theorem IsSplit.part_adj (h : run.IsSplit parts) (hknown : run.workflow.EdgesKnown)
    (hpart : (policy, acquired) ∈ parts) {edge : WorkflowEdge} (hedge : edge ∈ acquired.edges) :
    (WorkflowGraph.new run.workflow).Adj edge.source edge.target := by
  refine (WorkflowGraph.adj_iff hknown).mpr ⟨edge, ?_, rfl, rfl⟩
  rw [h.edges_eq]
  exact List.mem_append_left _ (List.mem_flatMap.mpr ⟨_, hpart, hedge⟩)

theorem node?_isSome {workflow : ExecutionWorkflow} {node : WorkflowNode}
    (hnode : node ∈ workflow.nodes) : (workflow.node? node.id).isSome = true :=
  List.find?_isSome.mpr ⟨node, hnode, by simp⟩

theorem verifyResume_of_adj {workflow : ExecutionWorkflow} {node : WorkflowNode} {reason : String}
    {waits resume : NodeId} (hkind : node.kind = .clarificationInterrupt ⟨reason, waits, resume⟩)
    (hadj : (WorkflowGraph.new workflow).Adj node.id resume) :
    verifyResume node (WorkflowGraph.new workflow) = .ok () := by
  have hreached := (mem_reachableFrom hadj.left_mem).mpr (Relation.ReflTransGen.single hadj)
  rw [verifyResume, hkind, failIf_eq_ok, not_or, not_not, not_not]
  exact ⟨hadj.right_mem, hreached⟩

theorem probeFits_iff {catalog : KnowledgeCatalog} {probe : ProbeRef} {dataset : DatasetKnowledge}
    {shape : ShapeOption} {output : ProducedSlot} (hprobe : policy.probe = some probe)
    (hdataset : catalogDataset? catalog probe.datasetId = some dataset)
    (hshape : dataset.shape probe.shapeId = some shape)
    (houtput : (shape.produces.find? fun slot => slot.slot = probe.outputSlot) = some output) :
    probeFits policy catalog = true ↔ shape.role = .resolver ∧
      parseKind output.kind = policy.kind ∧ output.sensitivity ≠ .neverUse := by
  simp [probeFits, hprobe, hdataset, hshape, houtput]

/-- Every node a part brings passes, the resolver of a probe when the probe fits. -/
theorem IsSplit.part_passes (h : run.IsSplit parts) (hpart : (policy, acquired) ∈ parts)
    (hknown : run.workflow.EdgesKnown)
    (hfits : run.isProbed policy = true → probeFits policy run.catalog = true)
    (hheld : ∀ node ∈ run.workflow.nodes, ∀ capability,
      node.policy.requiredCapability = some capability → capability ∈ principal.capabilityIds) :
    ∀ node ∈ acquired.nodes, Passes run.workflow topo principal run.catalog node := by
  have hcontract := h.contract_eq
  have hquery := node?_isSome h.query_mem
  have hsplit := h.part _ hpart
  have hin : ∀ node ∈ acquired.nodes, node ∈ run.workflow.nodes := fun node => h.part_nodes hpart
  have hadj : ∀ edge ∈ acquired.edges, (WorkflowGraph.new run.workflow).Adj edge.source
    edge.target := fun edge => h.part_adj hknown hpart
  cases hsplit with
  | exact _ => simp
  | direct _ _ _ _ => simp
  | @probe probe dataset shape output backing resolve branch notFound select hprobed hprobe
      hdataset hshape houtput hresolve hbranch hnotFound hselect =>
    simp only [List.forall_mem_cons, List.not_mem_nil, false_implies, implies_true,
      and_true] at hin hadj ⊢
    obtain ⟨hresolver, -, hnotFoundIn, hselectIn⟩ := hin
    have hfit := (probeFits_iff hprobe hdataset hshape houtput).mp (hfits hprobed)
    refine ⟨?_, ?_, ?_, ?_⟩
    · apply (resolver_passes hdataset hshape hcontract).mpr
      exact ⟨hfit.1, hfit.2.2, hheld _ hresolver backing.id rfl⟩
    · apply (control_passes (by trivial) (by simp) hcontract).mpr
      refine ⟨?_, rfl⟩
      have hnamed : ∀ reference ∈ [resolve, notFound, executeId, select],
          (run.workflow.node? reference).isSome = true := by
        simp only [List.forall_mem_cons]
        exact ⟨node?_isSome hresolver, node?_isSome hnotFoundIn, hquery, node?_isSome hselectIn,
          by simp⟩
      exact hnamed
    · apply (control_passes (by trivial) (by simp) hcontract).mpr
      exact ⟨by simp [referencedNodes, controlNode], rfl⟩
    · apply (control_passes (by trivial) (by simp) hcontract).mpr
      exact ⟨by simp [referencedNodes, controlNode], verifyResume_of_adj rfl hadj.2.2.2.2⟩
  | @clarify clarify hclarified hclarify =>
    simp only [List.forall_mem_cons, List.not_mem_nil, false_implies, implies_true,
      and_true] at hin hadj ⊢
    apply (control_passes (by trivial) (by simp) hcontract).mpr
    exact ⟨by simp [referencedNodes, controlNode], verifyResume_of_adj rfl hadj⟩

/-- What the query node reads from a part is there, and a probe fits its type. -/
theorem IsSplit.producer_iff (h : run.IsSplit parts) (hpart : (policy, acquired) ∈ parts)
    (hids : (run.workflow.nodes.map (·.id)).Nodup) (hknown : run.workflow.EdgesKnown)
    (htopo : (WorkflowGraph.new run.workflow).IsTopological topo) :
    verifyProducer ⟨policy.name, policy.kind, acquired.source⟩ (run.queryNode parts) run.workflow
        topo = .ok () ↔
      ∀ resolver ∈ acquired.nodes, ∀ output ∈ resolver.outputs,
        output.kind = policy.kind ∧ output.sensitivity ≠ .neverUse := by
  have hsplit := h.part _ hpart
  have hin : ∀ node ∈ acquired.nodes, node ∈ run.workflow.nodes := fun node => h.part_nodes hpart
  have hadj : ∀ edge ∈ acquired.edges, (WorkflowGraph.new run.workflow).Adj edge.source
    edge.target := fun edge => h.part_adj hknown hpart
  cases hsplit with
  | exact _ => simp [verifyProducer]
  | direct _ _ _ hsource =>
    obtain rfl | ⟨field, rfl⟩ | ⟨field, rfl⟩ := hsource <;> simp [verifyProducer]
  | @probe probe dataset shape output backing resolve branch notFound select hprobed hprobe
      hdataset hshape houtput hresolve hbranch hnotFound hselect =>
    have hslot : output.slot = probe.outputSlot := by simpa using List.find?_some houtput
    simp only [List.forall_mem_cons, List.not_mem_nil, false_implies, implies_true,
      and_true] at hin hadj ⊢
    have hfound : run.workflow.node? resolve =
        some (resolverNode resolve dataset shape output backing) :=
      ExecutionWorkflow.node?_of_mem hids hin.1
    have horder : notBefore (topo.idxOf? resolve) (topo.idxOf? executeId) = false :=
      notBefore_of_transGen htopo (.tail (.single hadj.1) hadj.2.2.1)
    have hoff : sensitivityRank output.sensitivity ≤ sensitivityRank .pii ↔
        output.sensitivity ≠ .neverUse := sensitivityRank_le_pii
    simp [verifyProducer, hfound, queryNode, executeNode, horder, resolverNode, nodePolicy, hslot,
      controlNode, hoff]
  | @clarify clarify hclarified hclarify =>
    simp only [List.forall_mem_cons, List.not_mem_nil, false_implies, implies_true,
      and_true] at hin hadj ⊢
    have hfound := ExecutionWorkflow.node?_of_mem hids hin
    have horder : notBefore (topo.idxOf? clarify) (topo.idxOf? executeId) = false :=
      notBefore_of_transGen htopo (.single hadj)
    simp only [controlNode] at hfound
    simp [verifyProducer, hfound, queryNode, executeNode, horder, controlNode,
      WorkflowNode.isClarificationInterrupt]

theorem IsSplit.probeFits_of_passes (h : run.IsSplit parts) (hpart : (policy, acquired) ∈ parts)
    (hids : (run.workflow.nodes.map (·.id)).Nodup) (hknown : run.workflow.EdgesKnown)
    (htopo : (WorkflowGraph.new run.workflow).IsTopological topo)
    (hpasses : ∀ node ∈ acquired.nodes, Passes run.workflow topo principal run.catalog node)
    (hproducer : verifyProducer ⟨policy.name, policy.kind, acquired.source⟩ (run.queryNode parts)
      run.workflow topo = .ok ()) (hprobed : run.isProbed policy = true) :
    probeFits policy run.catalog = true := by
  have hproduced := (h.producer_iff hpart hids hknown htopo).mp hproducer
  cases h.part _ hpart with
  | exact hexact => simp [isProbed, not_fronted_of_exact hexact] at hprobed
  | direct _ hnot => simp [hnot] at hprobed
  | probe _ hprobe hdataset hshape houtput =>
    have hresolver := (resolver_passes hdataset hshape h.contract_eq).mp
      (hpasses _ List.mem_cons_self)
    have hkind := (hproduced _ List.mem_cons_self _ List.mem_cons_self).1
    exact (probeFits_iff hprobe hdataset hshape houtput).mpr
      ⟨hresolver.1, hkind, hresolver.2.1⟩
  | clarify hclarified =>
    simp only [isProbed, isClarified, isFronted, Bool.and_eq_true, decide_eq_true_eq] at *
    simp [hclarified.2] at hprobed

theorem IsSplit.producer_ok (h : run.IsSplit parts) (hpart : (policy, acquired) ∈ parts)
    (hids : (run.workflow.nodes.map (·.id)).Nodup) (hknown : run.workflow.EdgesKnown)
    (htopo : (WorkflowGraph.new run.workflow).IsTopological topo)
    (hfits : run.isProbed policy = true → probeFits policy run.catalog = true) :
    verifyProducer ⟨policy.name, policy.kind, acquired.source⟩ (run.queryNode parts) run.workflow
      topo = .ok () := by
  apply (h.producer_iff hpart hids hknown htopo).mpr
  cases h.part _ hpart with
  | exact => simp
  | direct => simp
  | probe hprobed hprobe hdataset hshape houtput =>
    have hfit := (probeFits_iff hprobe hdataset hshape houtput).mp (hfits hprobed)
    simpa [resolverNode, controlNode] using hfit.2
  | clarify => simp [controlNode]

theorem IsSplit.input_iff (h : run.IsSplit parts) (hpart : (policy, acquired) ∈ parts) :
    verifyInput ⟨policy.name, policy.kind, acquired.source⟩ (run.queryNode parts) run.workflow topo
        run.catalog = .ok () ↔
      looksLikeSqlIdentifier policy.name = false ∧
      verifyProducer ⟨policy.name, policy.kind, acquired.source⟩ (run.queryNode parts)
        run.workflow topo = .ok () ∧
      TypedAs (queryParameters run.capability run.catalog) policy.name policy.kind ∧
      run.ReadsText policy := by
  have hsplit := h.part _ hpart
  rw [verifyInput_eq_ok, queryNode, queryParameter?_execute]
  constructor
  · rintro ⟨hnamed, -, hproducer, htyped⟩
    refine ⟨hnamed, hproducer, fun parameter hfound => (htyped parameter hfound).1, ?_⟩
    intro hexact parameter hfound hrequired
    exact (htyped parameter hfound).2 hrequired (hsplit.source_of_exact hexact)
  · rintro ⟨hnamed, hproducer, htyped, htext⟩
    refine ⟨hnamed, fun hscope => absurd hscope hsplit.source_ne_scope, hproducer, ?_⟩
    intro parameter hfound
    exact ⟨htyped parameter hfound, fun hrequired hsource =>
      htext (hsplit.exact_of_source hsource) parameter hfound hrequired⟩

theorem scopeInput_iff : verifyInput scopeInput (run.queryNode parts) run.workflow topo
    run.catalog = .ok () ↔
      TypedAs (queryParameters run.capability run.catalog) "office_ids" .integerArray := by
  rw [verifyInput_eq_ok, queryNode, queryParameter?_execute]
  constructor
  · rintro ⟨-, -, -, htyped⟩ parameter hfound
    exact (htyped parameter hfound).1
  · intro htyped
    refine ⟨by decide, fun _ => ⟨rfl, rfl⟩, rfl, fun parameter hfound => ?_⟩
    exact ⟨htyped parameter hfound, fun _ hsource => nomatch hsource⟩

/-- The query node passes when its parameters fit and what it reads is there. -/
theorem IsSplit.query_passes (h : run.IsSplit parts) :
    Passes run.workflow topo principal run.catalog (run.queryNode parts) ↔
      run.capability.id ∈ principal.capabilityIds ∧
      (∀ parameter ∈ queryParameters run.capability run.catalog, parameter.required = true →
        parameter.name = "office_ids" ∨ ∃ policy ∈ run.policies, policy.name = parameter.name) ∧
      TypedAs (queryParameters run.capability run.catalog) "office_ids" .integerArray ∧
      ∀ part ∈ parts, looksLikeSqlIdentifier part.1.name = false ∧
        verifyProducer ⟨part.1.name, part.1.kind, part.2.source⟩ (run.queryNode parts)
          run.workflow topo = .ok () ∧
        TypedAs (queryParameters run.capability run.catalog) part.1.name part.1.kind ∧
        run.ReadsText part.1 := by
  have hresources : verifyNodeResources (run.queryNode parts) run.catalog = .ok () :=
    execute_resources (KnowledgeValidator.validate_capability_ids run.valid) run.listed
      (KnowledgeValidator.validate_capability run.valid run.listed) run.approved
  have hinputs : (∀ input ∈ scopeInput ::
        parts.map fun part => (⟨part.1.name, part.1.kind, part.2.source⟩ : NodeInput),
      verifyInput input (run.queryNode parts) run.workflow topo run.catalog = .ok ()) ↔
        TypedAs (queryParameters run.capability run.catalog) "office_ids" .integerArray ∧
        ∀ part ∈ parts, looksLikeSqlIdentifier part.1.name = false ∧
          verifyProducer ⟨part.1.name, part.1.kind, part.2.source⟩ (run.queryNode parts)
            run.workflow topo = .ok () ∧
          TypedAs (queryParameters run.capability run.catalog) part.1.name part.1.kind ∧
          run.ReadsText part.1 := by
    rw [List.forall_mem_cons, scopeInput_iff, List.forall_mem_map]
    exact and_congr_right fun _ => forall₂_congr fun part hpart => h.input_iff hpart
  have hsupplied : ∀ name : String, (∃ input ∈ scopeInput ::
        parts.map fun part => (⟨part.1.name, part.1.kind, part.2.source⟩ : NodeInput),
      input.parameter = name) ↔
        name = "office_ids" ∨ ∃ policy ∈ run.policies, policy.name = name := by
    intro name
    rw [← h.policies_eq]
    simp [scopeInput, eq_comm]
  unfold queryNode at hinputs hresources ⊢
  rw [execute_passes hresources List.mem_cons_self h.contract_eq, hinputs]
  simp only [hsupplied]

end Checks

theorem withinBudgets (run : CompiledCapability)
    (hacyclic : (WorkflowGraph.new run.workflow).Acyclic) : run.workflow.WithinBudgets := by
  obtain ⟨parts, h⟩ := run.exists_split
  have hbudgets : run.workflow.budgets = run.budgets := by
    rw [h.workflow_eq]
    rfl
  have hwide := run.wide
  have hcovered := run.covered
  rw [← hbudgets] at hwide hcovered
  refine withinBudgets_of_declaredTotal_le hcovered (fun hzero => ?_) hwide
  have hnodes : (WorkflowGraph.new run.workflow).nodes ≠ [] := by simp [h.nodes_eq]
  have hpos := hacyclic.maxReadyWidth_pos hnodes
  rw [hzero] at hwide
  exact absurd hwide (Nat.not_le.mpr hpos)

/-- What the query requires has an input exactly when a policy is named so. -/
theorem supplied_iff {run : CompiledCapability} :
    (∀ parameter ∈ queryParameters run.capability run.catalog, parameter.required = true →
      parameter.name = "office_ids" ∨ ∃ policy ∈ run.policies, policy.name = parameter.name) ↔
    ∀ parameter ∈ queryParameters run.capability run.catalog, parameter.required = true →
      parameter.name = "office_ids" ∨
        ∃ policy ∈ run.capability.parameterPolicies, policy.name = parameter.name := by
  refine forall₂_congr fun parameter hparameter => imp_congr_right fun hrequired => ?_
  by_cases hoffice : parameter.name = "office_ids"
  · simp [hoffice]
  · simp only [hoffice, false_or]
    constructor
    · rintro ⟨policy, hpolicy, hname⟩
      exact ⟨policy, List.mem_of_mem_filter hpolicy, hname⟩
    · rintro ⟨policy, hpolicy, hname⟩
      refine ⟨policy, List.mem_filter.mpr ⟨hpolicy, ?_⟩, hname⟩
      have hneeded : policy.name ∈ queryRequired run.capability run.catalog :=
        mem_queryRequired.mpr ⟨parameter, hparameter, hrequired, hname.symm⟩
      simp [hname, hoffice, hname ▸ hneeded]

/-- The workflow the compiler makes verifies exactly when compiler and verifier agree on the
catalog and at most one parameter is acquired in front of the query. -/
theorem compiled_verifies_iff (run : CompiledCapability)
    (sort : DirectedGraph.TopologicalSort NodeId) : run.Verifies sort ↔ run.Agrees := by
  obtain ⟨parts, h⟩ := run.exists_split
  constructor
  · intro hverifies
    have hverified := hverifies
      ⟨0, "", run.capability.id :: run.workflow.nodes.filterMap (·.policy.requiredCapability), [],
        true⟩ List.mem_cons_self fun node hnode capability hrequired =>
          List.mem_cons_of_mem _ (List.mem_filterMap.mpr ⟨node, hnode, hrequired⟩)
    obtain ⟨-, hshape, -, -, ⟨topo, hsort, hnodes⟩, -⟩ := verify_eq_ok.mp hverified
    have hids := hshape.ids_nodup
    have htopo := sort.topological _ topo hids hsort
    have hpasses : ∀ node ∈ run.workflow.nodes, Passes run.workflow topo _ run.catalog node :=
      fun node hnode => verifyNode_eq_ok.mp (hnodes node hnode)
    obtain ⟨-, hsupplied, hscope, hparts⟩ := h.query_passes.mp (hpasses _ h.query_mem)
    have hpolicies : ∀ {P : ParameterPolicy → Prop}, (∀ part ∈ parts, P part.1) →
        ∀ policy ∈ run.policies, P policy := by
      intro P hall policy hpolicy
      obtain ⟨acquired, hpart⟩ := h.exists_part hpolicy
      exact hall _ hpart
    refine ⟨?_, ?_, ?_, hscope, ?_, ?_, supplied_iff.mp hsupplied⟩
    · rw [← h.fronts_length]
      exact h.fronts_le_one hshape
    · apply hpolicies
      rintro ⟨policy, acquired⟩ hpart hprobed
      exact h.probeFits_of_passes hpart hids hshape.edges_known htopo
        (fun node hnode => hpasses node (h.part_nodes hpart hnode)) (hparts _ hpart).2.1 hprobed
    · exact hpolicies fun part hpart => (hparts part hpart).1
    · exact hpolicies fun part hpart => (hparts part hpart).2.2.1
    · exact hpolicies fun part hpart => (hparts part hpart).2.2.2
  · intro hagrees principal hheld hrequired
    obtain ⟨hids, hknown, root, hrooted⟩ := h.rooted (h.fronts_length ▸ hagrees.oneFront)
    obtain ⟨topo, hsort⟩ := Option.isSome_iff_exists.mp (sort.total _ hids hrooted.acyclic)
    have htopo := sort.topological _ topo hids hsort
    have hpartsPass : ∀ part ∈ parts, ∀ node ∈ part.2.nodes,
        Passes run.workflow topo principal run.catalog node := fun part hpart =>
      h.part_passes hpart hknown (hagrees.probesFit part.1 (h.mem_policies hpart)) hrequired
    have hquery : Passes run.workflow topo principal run.catalog (run.queryNode parts) := by
      apply h.query_passes.mpr
      refine ⟨hheld, supplied_iff.mpr hagrees.supplied, hagrees.scopeTyped, fun part hpart => ?_⟩
      have hpolicy := h.mem_policies hpart
      exact ⟨hagrees.named _ hpolicy, h.producer_ok hpart hids hknown htopo
        (hagrees.probesFit _ hpolicy), hagrees.typed _ hpolicy, hagrees.exactText _ hpolicy⟩
    have hsuccess : Passes run.workflow topo principal run.catalog successNode := by
      apply (control_passes (by trivial) (by simp) h.contract_eq).mpr
      exact ⟨by simp [referencedNodes, controlNode], rfl⟩
    apply verify_eq_ok.mpr
    refine ⟨hrooted.acyclic, ⟨hids, hknown, ⟨root, hrooted.entryNodes hids, fun id => hrooted.path⟩,
      ?_⟩, ?_, ?_, ⟨topo, hsort, fun node hnode => verifyNode_eq_ok.mpr ?_⟩, rfl⟩
    · exact ⟨successNode, by simp [h.nodes_eq], rfl⟩
    · rw [h.workflow_eq]
      intro hcontinues
      cases hcontinues
    · exact run.withinBudgets hrooted.acyclic
    · rw [h.nodes_eq, List.mem_append, List.mem_flatMap] at hnode
      obtain ⟨part, hpart, hin⟩ | hin := hnode
      · exact hpartsPass part hpart node hin
      · obtain rfl | rfl := List.mem_pair.mp hin
        · exact hquery
        · exact hsuccess

end CompiledCapability

/-! One text to be asked for, the name of a client. -/

namespace OneText

def clarifySearch : NodeId := ⟨"clarify_search", by decide⟩

def budgets : WorkflowBudgets := ⟨10000, 1000, 4, 2, 1, 0⟩

def run : CompiledCapability where
  catalog := NameLookup.catalog
  files := NameLookup.files
  toLowercase := Text.asciiLower
  valid := NameLookup.catalog_valid
  capability := NameLookup.capability
  listed := List.mem_cons_self
  approved := rfl
  facts := .empty
  safePrior_eq := rfl
  priorSteps_eq := rfl
  workflowId := 1
  catalogVersion := 2
  budgets := budgets
  workflow := capabilityWorkflow NameLookup.capability NameLookup.catalog 1 2 budgets
    { inputs := [scopeInput, ⟨"search", .string, .safePriorSelection clarifySearch⟩]
      nodes := (clarifyGraph clarifySearch executeId).nodes
      edges := (clarifyGraph clarifySearch executeId).edges }
  compiled := by decide +kernel
  covered := by decide
  wide := by decide +kernel

theorem policies_eq : run.policies = [⟨"search", .string, true, none, false, true, none, false,
    [], none⟩] := by decide

theorem agrees : run.Agrees where
  oneFront := by decide +kernel
  probesFit := by decide +kernel
  named := by decide +kernel
  scopeTyped := by
    rintro parameter ⟨rfl⟩
    rfl
  typed := by
    rw [policies_eq, List.forall_mem_singleton]
    rintro parameter ⟨rfl⟩
    rfl
  exactText := by
    rw [policies_eq, List.forall_mem_singleton]
    intro hexact
    cases hexact
  supplied := by decide

end OneText

theorem compiled_verifies_one_text : OneText.run.Verifies DirectedGraph.sourceRemoval :=
  (OneText.run.compiled_verifies_iff DirectedGraph.sourceRemoval).mpr OneText.agrees

/-! Two texts to be asked for, the name of a client and its account number. -/

namespace TwoTexts

open OneText (clarifySearch budgets)

def capability : CapabilityKnowledge :=
  { NameLookup.capability with
    parameterPolicies := NameLookup.capability.parameterPolicies ++
      [⟨"account_no", .string, true, none, false, true, none, false, [], none⟩] }

def query : QueryKnowledge :=
  { NameLookup.query with
    parameters := NameLookup.query.parameters ++ [⟨"account_no", "string", true, none⟩] }

def accountInput : ParameterInputKnowledge :=
  { NameLookup.searchInput with
    id := "account_no"
    parameters := ["account_no"]
    label := "Account number" }

def catalog : KnowledgeCatalog :=
  { NameLookup.catalog with
    capabilities := [capability]
    queries := [query]
    parameterInputs := [NameLookup.searchInput, accountInput]
    parameterBindings := [("search", [.personName]), ("account_no", [])] }

def files (path : List String × String) : Option String :=
  if path = (["", "repo"], query.sqlFile) then
    some (NameLookup.sql ++ " AND account_no = $3::text")
  else none

def clarifyAccount : NodeId := ⟨"clarify_account_no", by decide⟩

/-- Both questions lead to the query, neither to the other. -/
def workflow : ExecutionWorkflow :=
  capabilityWorkflow capability catalog 1 2 budgets
    { inputs :=
        [scopeInput, ⟨"search", .string, .safePriorSelection clarifySearch⟩,
          ⟨"account_no", .string, .safePriorSelection clarifyAccount⟩]
      nodes := (clarifyGraph clarifySearch executeId).nodes ++
        (clarifyGraph clarifyAccount executeId).nodes
      edges := (clarifyGraph clarifySearch executeId).edges ++
        (clarifyGraph clarifyAccount executeId).edges }

def run : CompiledCapability where
  catalog := catalog
  files := files
  toLowercase := Text.asciiLower
  valid := by decide +kernel
  capability := capability
  listed := List.mem_cons_self
  approved := rfl
  facts := .empty
  safePrior_eq := rfl
  priorSteps_eq := rfl
  workflowId := 1
  catalogVersion := 2
  budgets := budgets
  workflow := workflow
  compiled := by decide +kernel
  covered := by decide
  wide := by decide +kernel

end TwoTexts

/-- The workflow that asks for two texts has two entry nodes, so nobody may run it. -/
theorem two_texts_rejected : ¬ TwoTexts.run.Verifies DirectedGraph.sourceRemoval := by
  intro hverifies
  have hverified := hverifies ⟨0, "", ["client_name_lookup"], [1], true⟩ (by decide) (by decide)
  have hrejected : verify DirectedGraph.sourceRemoval TwoTexts.workflow
      ⟨0, "", ["client_name_lookup"], [1], true⟩ TwoTexts.catalog =
        .error .unreachableOrOrphanNode := by decide +kernel
  exact absurd (hrejected.symm.trans hverified) (by simp)

end FineractReports.Workflow
