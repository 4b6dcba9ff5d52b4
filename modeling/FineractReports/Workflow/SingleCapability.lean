import FineractReports.Workflow.Compile

/-!
# The workflow of one capability

What the compiler makes of a proposal that names a capability and brings no nodes: the
query node and its success node behind whatever the acquired parameters put in front.
-/

namespace FineractReports.Workflow

/-- The proposal of a single capability. -/
def capabilityProposal (capabilityId : String) : WorkflowProposal := ⟨[capabilityId], [], []⟩

/-- Does the strategy provide a source for the parameter? -/
def applies (policy : ParameterPolicy) (facts : AcquisitionFacts) (catalog : KnowledgeCatalog) :
    ResolutionStrategy → Bool
  | .authorizedScope => policy.name = "office_ids"
  | .catalogDefault => policy.default.isSome
  | .deterministicExtraction =>
    (catalog.bindingFields policy.name).any fun field => field ∈ facts.deterministic
  | .verifiedUserText =>
    (catalog.bindingFields policy.name).any fun field => field ∈ facts.verifiedUser
  | .safePriorSelection => (Assoc.get? facts.safePrior policy.name).isSome
  | .priorStep => (Assoc.get? facts.priorSteps policy.name).isSome
  | .authorizedDataProbe => policy.probe.isSome
  | .clarify => policy.userRequired ∨ policy.required

/-- The strategy a parameter is acquired by. -/
def chosenStrategy (policy : ParameterPolicy) (facts : AcquisitionFacts)
    (catalog : KnowledgeCatalog) : Option ResolutionStrategy :=
  (resolutionOrder policy).find? (applies policy facts catalog)

section Acquisition

/-- What a strategy acquires. -/
inductive AcquiredBy (policy : ParameterPolicy) (facts : AcquisitionFacts) (execute : NodeId)
    (catalog : KnowledgeCatalog) : ResolutionStrategy → Acquired → Prop
  | scope (hname : policy.name = "office_ids") :
      AcquiredBy policy facts execute catalog .authorizedScope (bound .authorizedScope)
  | default : AcquiredBy policy facts execute catalog .catalogDefault (bound .catalogDefault)
  | extracted {field : ConstraintField} : AcquiredBy policy facts execute catalog
      .deterministicExtraction (bound (.deterministicExtraction field))
  | userText {field : ConstraintField} : AcquiredBy policy facts execute catalog
      .verifiedUserText (bound (.verifiedUserText field))
  | prior {node : NodeId} (hprior : Assoc.get? facts.safePrior policy.name = some node) :
      AcquiredBy policy facts execute catalog .safePriorSelection
        (bound (.safePriorSelection node))
  | step {node : NodeId} {slot : String}
      (hstep : Assoc.get? facts.priorSteps policy.name = some (node, slot)) :
      AcquiredBy policy facts execute catalog .priorStep (bound (.priorStep node slot))
  | probe {probe : ProbeRef} {acquired : Acquired} (hprobe : policy.probe = some probe)
      (hsource : probeSource policy probe execute catalog = .ok acquired) :
      AcquiredBy policy facts execute catalog .authorizedDataProbe acquired
  | clarify {acquired : Acquired} (hsource : clarifySource policy execute = .ok acquired) :
      AcquiredBy policy facts execute catalog .clarify acquired

variable {capability : CapabilityKnowledge} {facts : AcquisitionFacts} {execute : NodeId}
  {catalog : KnowledgeCatalog} {policy : ParameterPolicy} {strategy : ResolutionStrategy}
  {acquired : Acquired}

theorem strategySource_some
    (h : strategySource policy facts execute catalog strategy = .ok (some acquired)) :
    applies policy facts catalog strategy = true ∧
      AcquiredBy policy facts execute catalog strategy acquired := by
  cases strategy with
  | authorizedScope =>
    obtain ⟨hname, hsome⟩ := Option.ite_none_right_eq_some.mp (Except.ok.inj h)
    cases hsome
    exact ⟨decide_eq_true hname, .scope hname⟩
  | catalogDefault =>
    obtain ⟨hdefault, hsome⟩ := Option.ite_none_right_eq_some.mp (Except.ok.inj h)
    cases hsome
    exact ⟨hdefault, .default⟩
  | deterministicExtraction =>
    obtain ⟨field, hfield, rfl⟩ := Option.map_eq_some_iff.mp (Except.ok.inj h)
    have hknown := List.find?_some hfield
    exact ⟨List.any_eq_true.mpr ⟨field, List.mem_of_find?_eq_some hfield, hknown⟩, .extracted⟩
  | verifiedUserText =>
    obtain ⟨field, hfield, rfl⟩ := Option.map_eq_some_iff.mp (Except.ok.inj h)
    have hknown := List.find?_some hfield
    exact ⟨List.any_eq_true.mpr ⟨field, List.mem_of_find?_eq_some hfield, hknown⟩, .userText⟩
  | safePriorSelection =>
    obtain ⟨node, hnode, rfl⟩ := Option.map_eq_some_iff.mp (Except.ok.inj h)
    exact ⟨Option.isSome_iff_exists.mpr ⟨node, hnode⟩, .prior hnode⟩
  | priorStep =>
    obtain ⟨step, hstep, rfl⟩ := Option.map_eq_some_iff.mp (Except.ok.inj h)
    exact ⟨Option.isSome_iff_exists.mpr ⟨step, hstep⟩, .step hstep⟩
  | authorizedDataProbe =>
    simp only [strategySource] at h
    cases hprobe : policy.probe with
    | none =>
      rw [hprobe] at h
      cases h
    | some probe =>
      rw [hprobe] at h
      obtain ⟨found, hfound, hsome⟩ := map_eq_ok_iff.mp h
      cases hsome
      exact ⟨by simp [applies, hprobe], .probe hprobe hfound⟩
  | clarify =>
    simp only [strategySource] at h
    split_ifs at h with hrequired
    · obtain ⟨found, hfound, hsome⟩ := map_eq_ok_iff.mp h
      cases hsome
      exact ⟨by simp [applies, hrequired], .clarify hfound⟩
    · cases h

theorem strategySource_none
    (h : strategySource policy facts execute catalog strategy = .ok none) :
    applies policy facts catalog strategy = false := by
  cases strategy with
  | authorizedScope =>
    simp only [strategySource] at h
    split_ifs at h with hname
    · cases h
    · exact decide_eq_false hname
  | catalogDefault =>
    simp only [strategySource] at h
    split_ifs at h with hdefault
    · cases h
    · exact eq_false_of_ne_true hdefault
  | deterministicExtraction =>
    have hnone := List.find?_eq_none.mp (Option.map_eq_none_iff.mp (Except.ok.inj h))
    exact List.any_eq_false.mpr hnone
  | verifiedUserText =>
    have hnone := List.find?_eq_none.mp (Option.map_eq_none_iff.mp (Except.ok.inj h))
    exact List.any_eq_false.mpr hnone
  | safePriorSelection =>
    have hnone := Option.map_eq_none_iff.mp (Except.ok.inj h)
    simp [applies, hnone]
  | priorStep =>
    have hnone := Option.map_eq_none_iff.mp (Except.ok.inj h)
    simp [applies, hnone]
  | authorizedDataProbe =>
    simp only [strategySource] at h
    cases hprobe : policy.probe with
    | none => simp [applies, hprobe]
    | some probe =>
      rw [hprobe] at h
      obtain ⟨found, -, hsome⟩ := map_eq_ok_iff.mp h
      cases hsome
  | clarify =>
    simp only [strategySource] at h
    split_ifs at h with hrequired
    · obtain ⟨found, -, hsome⟩ := map_eq_ok_iff.mp h
      cases hsome
    · exact decide_eq_false hrequired

/-- The first strategy that applies is the one that acquires. -/
theorem firstSource_chosen {strategies : List ResolutionStrategy}
    (h : firstSource policy facts execute catalog strategies = .ok acquired) :
    ∃ strategy, strategies.find? (applies policy facts catalog) = some strategy ∧
      AcquiredBy policy facts execute catalog strategy acquired := by
  induction strategies with
  | nil => cases h
  | cons strategy rest ih =>
    unfold firstSource at h
    obtain ⟨found, hfound, h⟩ := bind_eq_ok_iff.mp h
    cases found with
    | some first =>
      obtain ⟨rfl⟩ := h
      obtain ⟨happlies, hacquired⟩ := strategySource_some hfound
      exact ⟨strategy, List.find?_cons_of_pos happlies, hacquired⟩
    | none =>
      have happlies := strategySource_none hfound
      obtain ⟨chosen, hchosen, hacquired⟩ := ih h
      exact ⟨chosen, by rw [List.find?_cons_of_neg (by simp [happlies])]; exact hchosen, hacquired⟩

/-- A parameter is the transient sensitive one, or its chosen strategy acquires it. -/
theorem acquisitionSource_spec
    (h : acquisitionSource capability policy facts execute catalog = .ok acquired) :
    (isExactIdentifierParam capability policy.name catalog = true ∧
        acquired = bound .exactSensitiveInput) ∨
      (isExactIdentifierParam capability policy.name catalog = false ∧
        ∃ strategy, chosenStrategy policy facts catalog = some strategy ∧
          AcquiredBy policy facts execute catalog strategy acquired) := by
  unfold acquisitionSource at h
  split_ifs at h with hexact
  · exact Or.inl ⟨hexact, (Except.ok.inj h).symm⟩
  · exact Or.inr ⟨eq_false_of_ne_true hexact, firstSource_chosen h⟩

/-- The inputs, nodes and edges are those of the policies, one after the other. -/
theorem acquireAll_parts {policies : List ParameterPolicy} {acquisition : Acquisition}
    (h : acquireAll capability facts execute catalog policies = .ok acquisition) :
    ∃ parts : List (ParameterPolicy × Acquired), parts.map Prod.fst = policies ∧
      (∀ part ∈ parts,
        acquisitionSource capability part.1 facts execute catalog = .ok part.2) ∧
      acquisition = ⟨parts.map fun part => ⟨part.1.name, part.1.kind, part.2.source⟩,
        parts.flatMap fun part => part.2.nodes, parts.flatMap fun part => part.2.edges⟩ := by
  induction policies generalizing acquisition with
  | nil =>
    cases h
    exact ⟨[], rfl, by simp, rfl⟩
  | cons policy rest ih =>
    unfold acquireAll at h
    simp only [bind_eq_ok_iff, pure_eq_ok] at h
    obtain ⟨acquired, hacquired, others, hothers, rfl⟩ := h
    obtain ⟨parts, rfl, hparts, rfl⟩ := ih hothers
    refine ⟨(policy, acquired) :: parts, rfl, ?_, rfl⟩
    intro part hpart
    obtain rfl | hin := List.mem_cons.mp hpart
    · exact hacquired
    · exact hparts part hin

end Acquisition

section Nodes

/-- Neither a query node nor a composition. -/
def IsPlain (node : WorkflowNode) : Prop :=
  match node.kind with
  | .executeQuery _ => False
  | .composeResult _ => False
  | _ => True

variable {capability : CapabilityKnowledge} {facts : AcquisitionFacts} {execute : NodeId}
  {catalog : KnowledgeCatalog} {policy : ParameterPolicy} {acquired : Acquired}

theorem probeSource_graph {probe : ProbeRef}
    (h : probeSource policy probe execute catalog = .ok acquired) :
    ∃ dataset shape output backing resolve branch notFound select,
      catalogDataset? catalog probe.datasetId = some dataset ∧
      dataset.shape probe.shapeId = some shape ∧ (shape.role = .resolver ∨ shape.role = .probe) ∧
      (shape.produces.find? fun slot => slot.slot = probe.outputSlot) = some output ∧
      backingCapability? catalog probe = some backing ∧
      NodeId.new ("resolve_" ++ policy.name) = some resolve ∧
      NodeId.new ("branch_" ++ policy.name) = some branch ∧
      NodeId.new ("not_found_" ++ policy.name) = some notFound ∧
      NodeId.new ("select_" ++ policy.name) = some select ∧
      acquired = probeGraph resolve branch notFound select execute
        (resolverNode resolve dataset shape output backing) probe.outputSlot := by
  simp only [probeSource, policyNodeId, bind_eq_ok_iff, okOr_eq_ok, pure_eq_ok,
    Option.filter_eq_some_iff, decide_eq_true_eq] at h
  obtain ⟨dataset, hdataset, shape, ⟨hshape, hrole⟩, resolve, hresolve, output, houtput, backing,
    hbacking, branch, hbranch, notFound, hnotFound, select, hselect, rfl⟩ := h
  exact ⟨dataset, shape, output, backing, resolve, branch, notFound, select, hdataset, hshape,
    hrole, houtput, hbacking, hresolve, hbranch, hnotFound, hselect, rfl⟩

theorem clarifySource_graph (h : clarifySource policy execute = .ok acquired) :
    ∃ clarify, NodeId.new ("clarify_" ++ policy.name) = some clarify ∧
      acquired = clarifyGraph clarify execute := by
  unfold clarifySource policyNodeId at h
  obtain ⟨clarify, hclarify, rfl⟩ := map_eq_ok_iff.mp h
  exact ⟨clarify, okOr_eq_ok.mp hclarify, rfl⟩

theorem acquisitionSource_plain
    (h : acquisitionSource capability policy facts execute catalog = .ok acquired) :
    ∀ node ∈ acquired.nodes, IsPlain node := by
  obtain ⟨-, rfl⟩ | ⟨-, strategy, -, hacquired⟩ := acquisitionSource_spec h
  · simp [bound]
  · cases hacquired with
    | probe hprobe hsource =>
      obtain ⟨_, _, _, _, _, _, _, _, -, -, -, -, -, -, -, -, -, rfl⟩ := probeSource_graph hsource
      simp [probeGraph, resolverNode, controlNode, IsPlain]
    | clarify hsource =>
      obtain ⟨_, -, rfl⟩ := clarifySource_graph hsource
      simp [clarifyGraph, controlNode, IsPlain]
    | _ => simp [bound]

theorem expandNodes_plain {budgets : WorkflowBudgets} {nodes : List WorkflowNode}
    (h : ∀ node ∈ nodes, expandNode node budgets catalog = .ok ([node], none)) :
    expandNodes budgets catalog nodes [] = .ok (nodes, []) := by
  induction nodes with
  | nil => rfl
  | cons node rest ih =>
    obtain ⟨hnode, hrest⟩ := List.forall_mem_cons.mp h
    simp [expandNodes, hnode, ih hrest]

theorem expandNode_of_isPlain {budgets : WorkflowBudgets} {node : WorkflowNode}
    (h : IsPlain node) : expandNode node budgets catalog = .ok ([node], none) := by
  unfold expandNode
  unfold IsPlain at h
  split <;> simp_all

/-- The workflow compiled for a capability is the query behind what was acquired. -/
theorem compileWithFacts_capability {capabilityId : String} {workflowId catalogVersion : Uuid}
    {budgets : WorkflowBudgets} {workflow : ExecutionWorkflow}
    (h : compileWithFacts (capabilityProposal capabilityId) catalog workflowId catalogVersion
      budgets facts = .ok workflow) :
    ∃ capability acquisition, approvedCapability? catalog capabilityId = some capability ∧
      acquireAll capability facts executeId catalog (acquiredPolicies capability catalog) =
        .ok acquisition ∧
      workflow = capabilityWorkflow capability catalog workflowId catalogVersion budgets
        { acquisition with inputs := scopeInput :: acquisition.inputs } := by
  unfold compileWithFacts capabilityProposal at h
  rw [if_neg (by simp)] at h
  simp only [bind_eq_ok_iff, exists_unit_iff, okOr_eq_ok, pure_eq_ok, List.head?_cons,
    Option.some.injEq, exists_eq_left', findApproved, acquisitionInputs, map_eq_ok_iff] at h
  obtain ⟨-, capability, hcapability, _, ⟨acquisition, hacquisition, rfl⟩, expanded, hexpanded,
    -, rfl⟩ := h
  refine ⟨capability, acquisition, hcapability, hacquisition, ?_⟩
  obtain ⟨parts, -, hparts, rfl⟩ := acquireAll_parts hacquisition
  unfold expandIteration at hexpanded
  rw [expandNodes_plain] at hexpanded
  · exact (Except.ok.inj hexpanded).symm
  · intro node hnode
    simp only [capabilityWorkflow, List.mem_append, List.mem_flatMap, List.mem_cons,
      List.not_mem_nil, or_false] at hnode
    obtain ⟨part, hpart, hin⟩ | rfl | rfl := hnode
    · exact expandNode_of_isPlain (acquisitionSource_plain (hparts part hpart) node hin)
    · rfl
    · rfl

end Nodes

end FineractReports.Workflow
