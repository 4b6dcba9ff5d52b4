import FineractReports.Workflow.IterationExpansion
import FineractReports.Workflow.SingleCapability

/-!
# Comparisons over one scope and one period

The compiler compares the facts of the compared nodes as maps from parameters to binding
sources. A map holds one source for a parameter, so a node that binds a parameter twice is
compared by its last binding only.
-/

namespace FineractReports.Workflow

/-! ### The property and the condition -/

/-- Two nodes bind the same scope and temporal parameters, and from equal sources. -/
structure SharesFacts (left right : WorkflowNode) : Prop where
  parameters : ∀ parameter, isScopeOrTemporal parameter = true →
    (parameter ∈ left.inputs.map (·.parameter) ↔ parameter ∈ right.inputs.map (·.parameter))
  sources : ∀ a ∈ left.inputs, ∀ b ∈ right.inputs, isScopeOrTemporal a.parameter = true →
    a.parameter = b.parameter → a.source = b.source

/-- The node composes a comparison of the sources. -/
def IsComparison (node : WorkflowNode) (sources : List NodeId) : Prop :=
  node.kind = .composeResult ⟨sources, .comparison⟩

/-- Every two nodes a comparison names are there and share their facts. -/
def ComparesAlike (workflow : ExecutionWorkflow) : Prop :=
  ∀ node ∈ workflow.nodes, ∀ sources, IsComparison node sources →
    ∀ a ∈ sources, ∀ b ∈ sources, ∃ left right, workflow.node? a = some left ∧
      workflow.node? b = some right ∧ SharesFacts left right

/-- The node binds no scope or temporal parameter from two sources. -/
def BindsOnce (node : WorkflowNode) : Prop :=
  ∀ a ∈ node.inputs, ∀ b ∈ node.inputs, isScopeOrTemporal a.parameter = true →
    a.parameter = b.parameter → a.source = b.source

/-- The ids a proposed node runs under. -/
def WorkflowNode.runNames (node : WorkflowNode) : List String :=
  if node.iterateOver?.isSome then node.siblingNames else [node.id.value]

/-- The proposed node that runs under the id. -/
def proposedNode? (nodes : List WorkflowNode) (id : NodeId) : Option WorkflowNode :=
  nodes.find? fun node => id.value ∈ node.runNames

/-- Every node a comparison of the proposal names binds its parameters once. -/
def ComparesBoundOnce (nodes : List WorkflowNode) : Prop :=
  ∀ node ∈ nodes, ∀ sources, IsComparison node sources → ∀ id ∈ sources, ∀ compared,
    proposedNode? nodes id = some compared → BindsOnce compared

/-! ### Facts as a map -/

section Facts

variable {node left right : WorkflowNode} {parameter : String} {source : BindingSource}

/-- The last item of a key is what a map built from items holds. -/
theorem get?_insertAll {α κ β : Type*} [DecidableEq κ] (key : α → κ) (value : α → β)
    (items : List α) (m : List (κ × β)) (k : κ) :
    Assoc.get? (items.foldl (fun m item => Assoc.insert m (key item) (value item)) m) k =
      (((items.filter fun item => key item = k).getLast?).map value).or (Assoc.get? m k) := by
  induction items generalizing m with
  | nil => rfl
  | cons item rest ih =>
    rw [List.foldl_cons, ih, Assoc.get?_insert]
    by_cases hkey : key item = k
    · rw [List.filter_cons_of_pos (by simpa using hkey), List.getLast?_cons, if_pos hkey]
      cases (rest.filter fun item => key item = k).getLast? <;> rfl
    · rw [List.filter_cons_of_neg (by simpa using hkey), if_neg hkey]

theorem comparisonFacts_get? : Assoc.get? (comparisonFacts node) parameter =
    (((node.inputs.filter fun input => isScopeOrTemporal input.parameter).filter
      fun input => input.parameter = parameter).getLast?).map (·.source) := by
  rw [comparisonFacts, get?_insertAll, Assoc.get?_nil, Option.or_none]

/-- A fact is the source of an input. -/
theorem exists_of_comparisonFacts (h : Assoc.get? (comparisonFacts node) parameter = some source) :
    ∃ input ∈ node.inputs, isScopeOrTemporal input.parameter = true ∧
      input.parameter = parameter ∧ input.source = source := by
  rw [comparisonFacts_get?] at h
  obtain ⟨input, hlast, hsource⟩ := Option.map_eq_some_iff.mp h
  obtain ⟨hmem, hparameter⟩ := List.mem_filter.mp (List.mem_of_getLast? hlast)
  obtain ⟨hin, hscope⟩ := List.mem_filter.mp hmem
  exact ⟨input, hin, hscope, of_decide_eq_true hparameter, hsource⟩

theorem comparisonFacts_isSome (hscope : isScopeOrTemporal parameter = true) :
    (Assoc.get? (comparisonFacts node) parameter).isSome = true ↔
      parameter ∈ node.inputs.map (·.parameter) := by
  constructor
  · intro hsome
    obtain ⟨source, hsource⟩ := Option.isSome_iff_exists.mp hsome
    obtain ⟨input, hin, -, rfl, -⟩ := exists_of_comparisonFacts hsource
    exact List.mem_map_of_mem hin
  · intro hmem
    obtain ⟨input, hin, rfl⟩ := List.mem_map.mp hmem
    rw [comparisonFacts_get?, Option.isSome_map, List.getLast?_isSome]
    exact List.ne_nil_of_mem (List.mem_filter.mpr
      ⟨List.mem_filter.mpr ⟨hin, hscope⟩, by simp⟩)

/-- A node that binds once has the source of any of its inputs as the fact. -/
theorem BindsOnce.comparisonFacts (h : BindsOnce node) {input : NodeInput}
    (hin : input ∈ node.inputs) (hscope : isScopeOrTemporal input.parameter = true) :
    Assoc.get? (comparisonFacts node) input.parameter = some input.source := by
  obtain ⟨source, hsource⟩ := Option.isSome_iff_exists.mp
    ((comparisonFacts_isSome hscope).mpr (List.mem_map_of_mem hin))
  obtain ⟨other, hother, hotherScope, hparameter, rfl⟩ := exists_of_comparisonFacts hsource
  rw [hsource, h other hother input hin hotherScope hparameter]

theorem sameFacts_iff {a b : List (String × BindingSource)} :
    sameFacts a b = true ↔ ∀ key, Assoc.get? a key = Assoc.get? b key := by
  unfold sameFacts
  rw [List.all_eq_true]
  constructor
  · intro h key
    by_cases hkey : key ∈ Assoc.keys a ++ Assoc.keys b
    · exact of_decide_eq_true (h key hkey)
    · rw [List.mem_append, not_or] at hkey
      rw [Assoc.get?_eq_none_iff.mpr hkey.1, Assoc.get?_eq_none_iff.mpr hkey.2]
  · intro h key _
    exact decide_eq_true (h key)

/-- Equal facts of nodes that bind once are shared facts. -/
theorem sharesFacts_of_sameFacts (hleft : BindsOnce left) (hright : BindsOnce right)
    (h : sameFacts (comparisonFacts left) (comparisonFacts right) = true) :
    SharesFacts left right := by
  rw [sameFacts_iff] at h
  constructor
  · intro parameter hscope
    rw [← comparisonFacts_isSome hscope, ← comparisonFacts_isSome hscope, h]
  · intro a ha b hb hscope hparameter
    have hfact := h a.parameter
    rw [hleft.comparisonFacts ha hscope, hparameter,
      hright.comparisonFacts hb (hparameter ▸ hscope)] at hfact
    exact Option.some.inj hfact

end Facts

/-! ### The check -/

section Check

variable {workflow : ExecutionWorkflow} {compose : NodeId} {sources : List NodeId}

/-- Against a reference, every source is there and has the facts of the reference. -/
theorem checkSources_some {facts : List (String × BindingSource)} :
    checkSources workflow compose sources (some facts) = .ok () ↔
      ∀ source ∈ sources, ∃ node, workflow.node? source = some node ∧
        sameFacts facts (comparisonFacts node) = true := by
  induction sources with
  | nil => simp [checkSources]
  | cons source rest ih =>
    rw [List.forall_mem_cons, ← ih, checkSources]
    simp only [bind_eq_ok_iff, okOr_eq_ok, exists_unit_iff, failIf_eq_ok, Bool.not_eq_false]
    constructor
    · rintro ⟨node, hnode, hsame, hrest⟩
      exact ⟨⟨node, hnode, hsame⟩, hrest⟩
    · rintro ⟨⟨node, hnode, hsame⟩, hrest⟩
      exact ⟨node, hnode, hsame, hrest⟩

/-- Any two checked sources have the same facts. -/
theorem checkSources_pair (h : checkSources workflow compose sources none = .ok ()) {a b : NodeId}
    (ha : a ∈ sources) (hb : b ∈ sources) : ∃ left right, workflow.node? a = some left ∧
      workflow.node? b = some right ∧
      sameFacts (comparisonFacts left) (comparisonFacts right) = true := by
  cases sources with
  | nil => cases ha
  | cons first rest =>
    unfold checkSources at h
    simp only [bind_eq_ok_iff, okOr_eq_ok] at h
    obtain ⟨reference, hreference, hrest⟩ := h
    rw [checkSources_some] at hrest
    have hall : ∀ source ∈ first :: rest, ∃ node, workflow.node? source = some node ∧
        sameFacts (comparisonFacts reference) (comparisonFacts node) = true := by
      rw [List.forall_mem_cons]
      exact ⟨⟨reference, hreference, sameFacts_iff.mpr fun _ => rfl⟩, hrest⟩
    obtain ⟨left, hleft, hsameLeft⟩ := hall a ha
    obtain ⟨right, hright, hsameRight⟩ := hall b hb
    rw [sameFacts_iff] at hsameLeft hsameRight
    exact ⟨left, right, hleft, hright,
      sameFacts_iff.mpr fun key => (hsameLeft key).symm.trans (hsameRight key)⟩

theorem checkComparisonFacts_pair (h : checkComparisonFacts workflow = .ok ())
    {node : WorkflowNode} (hnode : node ∈ workflow.nodes) (hcompares : IsComparison node sources)
    {a b : NodeId} (ha : a ∈ sources) (hb : b ∈ sources) : ∃ left right,
      workflow.node? a = some left ∧ workflow.node? b = some right ∧
      sameFacts (comparisonFacts left) (comparisonFacts right) = true := by
  have hcheck := forEach_eq_ok.mp h node hnode
  unfold checkComparisonNode at hcheck
  rw [hcompares] at hcheck
  exact checkSources_pair hcheck ha hb

/-- A checked workflow compares alike when the compared nodes bind once. -/
theorem comparesAlike_of_check (h : checkComparisonFacts workflow = .ok ()) :
    ComparesAlike workflow ↔ ∀ node ∈ workflow.nodes, ∀ sources, IsComparison node sources →
      ∀ id ∈ sources, ∀ compared, workflow.node? id = some compared → BindsOnce compared := by
  constructor
  · intro halike node hnode sources hcompares id hid compared hcompared
    obtain ⟨left, right, hleft, hright, hshares⟩ :=
      halike node hnode sources hcompares id hid id hid
    obtain rfl := Option.some.inj (hcompared.symm.trans hleft)
    obtain rfl := Option.some.inj (hcompared.symm.trans hright)
    exact hshares.sources
  · intro honce node hnode sources hcompares a ha b hb
    obtain ⟨left, right, hleft, hright, hsame⟩ :=
      checkComparisonFacts_pair h hnode hcompares ha hb
    exact ⟨left, right, hleft, hright,
      sharesFacts_of_sameFacts (honce node hnode sources hcompares a ha left hleft)
        (honce node hnode sources hcompares b hb right hright) hsame⟩

end Check

/-! ### Through the expansion -/

section Expansion

variable {budgets : WorkflowBudgets} {catalog : KnowledgeCatalog} {node : WorkflowNode}
  {nodes expanded : List WorkflowNode}

/-- What a proposed node becomes. -/
structure BecomesNodes (node : WorkflowNode) (copies : List WorkflowNode) : Prop where
  names : copies.map (·.id.value) = node.runNames
  inputs : ∀ copy ∈ copies, copy.inputs = node.inputs
  comparison : ∀ copy sources, copy ∈ copies → IsComparison copy sources →
    IsComparison node sources
  kept : ∀ sources, IsComparison node sources → node ∈ copies

theorem becomesNodes_of_expandNode {siblings : Option (List NodeId)}
    (h : expandNode node budgets catalog = .ok (nodes, siblings)) : BecomesNodes node nodes := by
  obtain ⟨hkept, -, rfl⟩ | ⟨iterate, ids, hiterated, -, -, hnames, rfl⟩ := expandNode_spec h
  · constructor
    · simp [WorkflowNode.runNames, hkept]
    · intro copy hcopy
      rw [List.mem_singleton.mp hcopy]
    · intro copy sources hcopy hcompares
      rwa [← List.mem_singleton.mp hcopy]
    · exact fun _ _ => List.mem_singleton_self node
  · have hquery : ∃ execute, node.kind = .executeQuery execute := by
      unfold WorkflowNode.iterateOver? at hiterated
      split at hiterated
      · exact ⟨_, ‹_›⟩
      · cases hiterated
    obtain ⟨execute, hkind⟩ := hquery
    have hnot : ∀ sources, ¬ IsComparison node sources := by
      intro sources hcompares
      rw [IsComparison, hkind] at hcompares
      cases hcompares
    constructor
    · rw [WorkflowNode.runNames, hiterated, ← hnames]
      simp [WorkflowNode.sibling]
    · intro copy hcopy
      obtain ⟨id, -, rfl⟩ := List.mem_map.mp hcopy
      rfl
    · intro copy sources hcopy hcompares
      obtain ⟨id, -, rfl⟩ := List.mem_map.mp hcopy
      rw [IsComparison, WorkflowNode.sibling, hkind] at hcompares
      cases hcompares
    · exact fun sources hcompares => absurd hcompares (hnot sources)

theorem becomesNodes_of_expandNodes {replacements all : List (NodeId × List NodeId)}
    (h : expandNodes budgets catalog nodes replacements = .ok (expanded, all)) :
    ∃ copies, List.Forall₂ BecomesNodes nodes copies ∧ expanded = copies.flatten := by
  induction nodes generalizing replacements expanded all with
  | nil =>
    simp only [expandNodes, Except.ok.injEq, Prod.mk.injEq] at h
    exact ⟨[], .nil, h.1.symm⟩
  | cons node rest ih =>
    simp only [expandNodes, bind_eq_ok_iff, pure_eq_ok, Prod.mk.injEq, Prod.exists] at h
    obtain ⟨heads, siblings, hhead, others, final, hrest, hexpanded, -⟩ := h
    obtain ⟨copies, hcopies, rfl⟩ := ih hrest
    exact ⟨heads :: copies, .cons (becomesNodes_of_expandNode hhead) hcopies, hexpanded.symm⟩

theorem expandIteration_nodes {workflow after : ExecutionWorkflow}
    (h : expandIteration workflow catalog = .ok after) :
    ∃ copies, List.Forall₂ BecomesNodes workflow.nodes copies ∧ after.nodes = copies.flatten := by
  simp only [expandIteration, bind_eq_ok_iff, Prod.exists] at h
  obtain ⟨nodes, all, hnodes, h⟩ := h
  have hafter : after.nodes = nodes := by
    split_ifs at h with hall
    · rw [← pure_eq_ok.mp h]
    · simp only [bind_eq_ok_iff, exists_unit_iff, pure_eq_ok] at h
      rw [← h.2]
  rw [hafter]
  exact becomesNodes_of_expandNodes hnodes

variable {copies : List (List WorkflowNode)} {sources : List NodeId} {id : NodeId}

/-- Compositions are neither added nor lost. -/
theorem mem_comparison (h : List.Forall₂ BecomesNodes nodes copies) :
    (∃ node ∈ copies.flatten, IsComparison node sources) ↔
      ∃ node ∈ nodes, IsComparison node sources := by
  induction h with
  | nil => rfl
  | @cons node head nodes copies hhead hrest ih =>
    rw [List.flatten_cons, List.exists_mem_cons_iff, ← ih]
    constructor
    · rintro ⟨copy, hcopy, hcompares⟩
      cases List.mem_append.mp hcopy with
      | inl hin => exact Or.inl (hhead.comparison copy sources hin hcompares)
      | inr hin => exact Or.inr ⟨copy, hin, hcompares⟩
    · rintro (hcompares | ⟨copy, hcopy, hcompares⟩)
      · exact ⟨node, List.mem_append_left _ (hhead.kept sources hcompares), hcompares⟩
      · exact ⟨copy, List.mem_append_right _ hcopy, hcompares⟩

/-- The first copy under an id has the inputs of the first node that runs under it. -/
theorem find?_copies (h : List.Forall₂ BecomesNodes nodes copies) :
    (copies.flatten.find? fun node => node.id = id).map (·.inputs) =
      (proposedNode? nodes id).map (·.inputs) := by
  induction h with
  | nil => rfl
  | @cons node head nodes copies hhead hrest ih =>
    unfold proposedNode? at ih ⊢
    have hnamed : id.value ∈ node.runNames ↔ ∃ copy ∈ head, copy.id = id := by
      rw [← hhead.names, List.mem_map]
      exact exists_congr fun copy => and_congr_right fun _ => ⟨NodeId.ext, fun heq => by rw [heq]⟩
    rw [List.flatten_cons, List.find?_append]
    by_cases hname : id.value ∈ node.runNames
    · rw [List.find?_cons_of_pos (by simpa using hname)]
      obtain ⟨copy, hfound⟩ : ∃ copy, (head.find? fun copy => copy.id = id) = some copy := by
        apply Option.isSome_iff_exists.mp
        rw [List.find?_isSome]
        simpa using hnamed.mp hname
      rw [hfound, Option.some_or, Option.map_some, Option.map_some,
        hhead.inputs copy (List.mem_of_find?_eq_some hfound)]
    · rw [List.find?_cons_of_neg (by simpa using hname), ← ih]
      have hnone : (head.find? fun copy => copy.id = id) = none := by
        rw [List.find?_eq_none]
        intro copy hcopy hid
        exact hname (hnamed.mpr ⟨copy, hcopy, of_decide_eq_true hid⟩)
      rw [hnone, Option.none_or]

/-- A copy binds its parameters once when the node it was made from does. -/
theorem bindsOnce_of_copies (h : List.Forall₂ BecomesNodes nodes copies) :
    (∀ compared, (copies.flatten.find? fun node => node.id = id) = some compared →
      BindsOnce compared) ↔
        ∀ compared, proposedNode? nodes id = some compared → BindsOnce compared := by
  have hinputs := @find?_copies nodes copies id h
  cases hfound : copies.flatten.find? fun node => node.id = id with
  | none =>
    rw [hfound, Option.map_none, eq_comm, Option.map_eq_none_iff] at hinputs
    simp [hinputs]
  | some copy =>
    rw [hfound, Option.map_some, eq_comm, Option.map_eq_some_iff] at hinputs
    obtain ⟨proposed, hproposed, hsame⟩ := hinputs
    simp only [hproposed, Option.some.injEq, forall_eq']
    unfold BindsOnce
    rw [hsame]

end Expansion

/-! ### The compiled workflow -/

section Compile

variable {proposal : WorkflowProposal} {catalog : KnowledgeCatalog}
  {workflowId catalogVersion : Uuid} {budgets : WorkflowBudgets} {facts : AcquisitionFacts}
  {workflow : ExecutionWorkflow}

/-- Without nodes the first capability is compiled. -/
theorem compileWithFacts_head (hnodes : proposal.nodes = [])
    (h : compileWithFacts proposal catalog workflowId catalogVersion budgets facts =
      .ok workflow) :
    ∃ capabilityId, compileWithFacts (capabilityProposal capabilityId) catalog workflowId
      catalogVersion budgets facts = .ok workflow := by
  unfold compileWithFacts at h
  rw [if_neg (by simpa using hnodes)] at h
  simp only [bind_eq_ok_iff, exists_unit_iff, forEach_eq_ok, okOr_eq_ok] at h
  obtain ⟨hall, capabilityId, hhead, h⟩ := h
  refine ⟨capabilityId, ?_⟩
  unfold compileWithFacts capabilityProposal
  rw [if_neg (by simp)]
  simp only [bind_eq_ok_iff, exists_unit_iff, forEach_eq_ok, okOr_eq_ok]
  exact ⟨fun id hid => by
    rw [List.mem_singleton.mp hid]
    exact hall capabilityId (List.mem_of_head? hhead), capabilityId, rfl, h⟩

/-- The workflow of a capability compares nothing. -/
theorem not_isComparison_capability {capabilityId : String}
    (h : compileWithFacts (capabilityProposal capabilityId) catalog workflowId catalogVersion
      budgets facts = .ok workflow) {node : WorkflowNode} (hnode : node ∈ workflow.nodes)
    (sources : List NodeId) : ¬ IsComparison node sources := by
  obtain ⟨capability, acquisition, -, hacquisition, rfl⟩ := compileWithFacts_capability h
  obtain ⟨parts, -, hparts, rfl⟩ := acquireAll_parts hacquisition
  simp only [capabilityWorkflow, List.mem_append, List.mem_flatMap, List.mem_cons,
    List.not_mem_nil, or_false] at hnode
  intro hcompares
  unfold IsComparison at hcompares
  obtain ⟨part, hpart, hin⟩ | rfl | rfl := hnode
  · have hplain := acquisitionSource_plain (hparts part hpart) node hin
    rw [IsPlain, hcompares] at hplain
    exact hplain
  · cases hcompares
  · cases hcompares

/-- Exactly the proposals whose compared nodes bind their parameters once compare alike. -/
theorem comparesAlike_iff (proposal : WorkflowProposal) (catalog : KnowledgeCatalog)
    (workflowId catalogVersion : Uuid) (budgets : WorkflowBudgets) (facts : AcquisitionFacts)
    (workflow : ExecutionWorkflow)
    (h : compileWithFacts proposal catalog workflowId catalogVersion budgets facts =
      .ok workflow) :
    ComparesAlike workflow ↔ ComparesBoundOnce proposal.nodes := by
  by_cases hnodes : proposal.nodes = []
  · obtain ⟨capabilityId, hcapability⟩ := compileWithFacts_head hnodes h
    constructor
    · intro _ node hnode
      rw [hnodes] at hnode
      cases hnode
    · intro _ node hnode sources hcompares
      exact absurd hcompares (not_isComparison_capability hcapability hnode sources)
  · unfold compileWithFacts at h
    rw [if_pos hnodes] at h
    simp only [bind_eq_ok_iff, exists_unit_iff, pure_eq_ok] at h
    obtain ⟨-, after, hafter, hcheck, rfl⟩ := h
    obtain ⟨copies, hcopies, hflat⟩ := expandIteration_nodes hafter
    have hcompose : ∀ sources, (∃ node ∈ after.nodes, IsComparison node sources) ↔
        ∃ node ∈ proposal.nodes, IsComparison node sources := by
      intro sources
      rw [hflat]
      exact mem_comparison hcopies
    have hbinds : ∀ id, (∀ compared, after.node? id = some compared → BindsOnce compared) ↔
        ∀ compared, proposedNode? proposal.nodes id = some compared → BindsOnce compared := by
      intro id
      rw [ExecutionWorkflow.node?, hflat]
      exact bindsOnce_of_copies hcopies
    rw [comparesAlike_of_check hcheck]
    constructor
    · intro honce node hnode sources hcompares id hid
      obtain ⟨other, hother, hotherCompares⟩ := (hcompose sources).mpr ⟨node, hnode, hcompares⟩
      exact (hbinds id).mp (honce other hother sources hotherCompares id hid)
    · intro honce node hnode sources hcompares id hid
      obtain ⟨other, hother, hotherCompares⟩ := (hcompose sources).mp ⟨node, hnode, hcompares⟩
      exact (hbinds id).mpr (honce other hother sources hotherCompares id hid)

end Compile

namespace Turnover

/-! Deposits and withdrawals since a day that the user named and that was extracted. -/

def depositsId : NodeId := ⟨"deposits", by decide⟩
def withdrawalsId : NodeId := ⟨"withdrawals", by decide⟩
def composeId : NodeId := ⟨"compose", NodeId.isValid_compose⟩

def extractedDay : BindingSource := .deterministicExtraction .fromDate
def namedDay : BindingSource := .verifiedUserText .fromDate

def since (id : NodeId) (days : List BindingSource) : WorkflowNode :=
  { controlNode id (.executeQuery ⟨none, none, none, none, none⟩) .executeOnce with
    inputs := days.map fun day => ⟨"from_date", .date, day⟩ }

def comparisonNode : WorkflowNode :=
  controlNode composeId (.composeResult ⟨[depositsId, withdrawalsId], .comparison⟩) .pure

def proposal (days : List BindingSource) : WorkflowProposal where
  capabilityIds := []
  nodes := [since depositsId days, since withdrawalsId [namedDay], comparisonNode]
  edges := []

def budgets : WorkflowBudgets := ⟨30000, 1000, 10, 2, 2, 0⟩

def workflow (days : List BindingSource) : ExecutionWorkflow :=
  proposedWorkflow (proposal days) 1 2 budgets

end Turnover

open Turnover in
theorem comparesAlike_turnover :
    ComparesAlike (workflow [namedDay]) ↔ ComparesBoundOnce (proposal [namedDay]).nodes :=
  comparesAlike_iff (proposal [namedDay]) PerClient.catalog 1 2 budgets .empty
    (workflow [namedDay]) (by decide +kernel)

open Turnover in
/-- The deposits are compared by the second of their days. -/
theorem repeated_day_compiles :
    compileWithFacts (proposal [extractedDay, namedDay]) PerClient.catalog 1 2 budgets .empty =
        .ok (workflow [extractedDay, namedDay]) ∧
      ¬ ComparesAlike (workflow [extractedDay, namedDay]) := by
  refine ⟨by decide +kernel, fun halike => ?_⟩
  obtain ⟨left, right, hleft, hright, hshares⟩ := halike comparisonNode (by decide)
    [depositsId, withdrawalsId] rfl depositsId (by decide) withdrawalsId (by decide)
  obtain rfl : since depositsId [extractedDay, namedDay] = left := Option.some.inj hleft
  obtain rfl : since withdrawalsId [namedDay] = right := Option.some.inj hright
  have hsource := hshares.sources ⟨"from_date", .date, extractedDay⟩ (by decide)
    ⟨"from_date", .date, namedDay⟩ (by decide) (by decide) rfl
  cases hsource

end FineractReports.Workflow
