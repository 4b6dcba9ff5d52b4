import Mathlib.Data.String.Basic
import FineractReports.Library.DistinctKeys
import FineractReports.Workflow.Compile

/-!
# The clarification gate

What follows from the candidates of a retrieval: one of them is selected, a resolver probe of
the catalog decides, the user is asked, or nothing fits. The candidates are sorted by their
ids and each is looked at once.
-/

namespace FineractReports.Workflow

inductive AmbiguityOutcome where
  | select (capabilityId : String) (confidenceOverridden : Bool)
  | probe (datasetId shapeId : String)
  | clarify (options : List (String × String))
  | unsupported
deriving DecidableEq, Repr

/-- The approved capabilities of the ids, each once and in the order of their ids. -/
def ambiguityCandidates (candidateIds : List String) (catalog : KnowledgeCatalog) :
    List CapabilityKnowledge :=
  sortDistinct (·.id) (candidateIds.filterMap (approvedCapability? catalog))

/-- Every required parameter that stands for a constraint has a fact. -/
def hasRequiredFacts (facts : AcquisitionFacts) (capability : CapabilityKnowledge) : Bool :=
  capability.parameterPolicies.all fun policy =>
    !policy.required || (constraintFor policy.name).all fun field =>
      field ∈ facts.deterministic ∨ field ∈ facts.verifiedUser

/-- The first resolver or probe shape of the catalog, with its dataset. -/
def firstProbe (catalog : KnowledgeCatalog) : Option (String × String) :=
  catalog.datasets.findSome? fun dataset => dataset.shapes.findSome? fun shape =>
    if shape.role = .resolver ∨ shape.role = .probe then some (dataset.id, shape.id) else none

def ambiguityOption (capability : CapabilityKnowledge) : String × String :=
  (capability.id, capability.displayName.getD capability.id)

/-- No candidate, or several of which the facts leave more than one or none. -/
def resolveOpen (candidates : List CapabilityKnowledge) (catalog : KnowledgeCatalog) :
    AmbiguityOutcome :=
  match if 1 < candidates.length then firstProbe catalog else none with
  | some (datasetId, shapeId) => .probe datasetId shapeId
  | none => if candidates = [] then .unsupported else .clarify (candidates.map ambiguityOption)

def resolveCandidates (candidates : List CapabilityKnowledge) (facts : AcquisitionFacts)
    (catalog : KnowledgeCatalog) : AmbiguityOutcome :=
  match candidates with
  | [single] => .select single.id true
  | _ =>
    match candidates.filter (hasRequiredFacts facts) with
    | [single] => .select single.id true
    | _ => resolveOpen candidates catalog

def resolveAmbiguity (candidateIds : List String) (facts : AcquisitionFacts)
    (catalog : KnowledgeCatalog) : AmbiguityOutcome :=
  resolveCandidates (ambiguityCandidates candidateIds catalog) facts catalog

section Candidates

variable {catalog : KnowledgeCatalog} {candidateIds others : List String}
  {candidates : List CapabilityKnowledge} {facts : AcquisitionFacts}

theorem approvedCapability?_spec {id : String} {capability : CapabilityKnowledge}
    (h : approvedCapability? catalog id = some capability) :
    capability ∈ catalog.capabilities ∧ capability.id = id ∧
      capability.status = "approved_mvp" := by
  have hfound := List.find?_some h
  exact ⟨List.mem_of_find?_eq_some h, of_decide_eq_true hfound⟩

/-- Listed capabilities of one id are one capability. -/
theorem listed_unique {a b : CapabilityKnowledge}
    (ha : a ∈ candidateIds.filterMap (approvedCapability? catalog))
    (hb : b ∈ candidateIds.filterMap (approvedCapability? catalog)) (h : a.id = b.id) : a = b := by
  obtain ⟨first, -, hfirst⟩ := List.mem_filterMap.mp ha
  obtain ⟨second, -, hsecond⟩ := List.mem_filterMap.mp hb
  have hids : first = second := by
    rw [← (approvedCapability?_spec hfirst).2.1, h, (approvedCapability?_spec hsecond).2.1]
  rw [hids, hsecond] at hfirst
  exact (Option.some.inj hfirst).symm

theorem mem_ambiguityCandidates {capability : CapabilityKnowledge} :
    capability ∈ ambiguityCandidates candidateIds catalog ↔
      capability.id ∈ candidateIds ∧
        approvedCapability? catalog capability.id = some capability := by
  unfold ambiguityCandidates
  rw [mem_sortDistinct fun a ha b hb => listed_unique ha hb, List.mem_filterMap]
  constructor
  · rintro ⟨id, hid, hcapability⟩
    obtain rfl := (approvedCapability?_spec hcapability).2.1
    exact ⟨hid, hcapability⟩
  · rintro ⟨hid, hcapability⟩
    exact ⟨capability.id, hid, hcapability⟩

/-- The candidates depend on which ids are listed only. -/
theorem ambiguityCandidates_congr (h : ∀ id, id ∈ candidateIds ↔ id ∈ others) :
    ambiguityCandidates candidateIds catalog = ambiguityCandidates others catalog := by
  unfold ambiguityCandidates
  apply sortDistinct_congr fun a ha b hb => listed_unique ha hb
  intro capability
  simp only [List.mem_filterMap, h]

theorem resolveOpen_clarify {options : List (String × String)}
    (h : resolveOpen candidates catalog = .clarify options) :
    options = candidates.map ambiguityOption := by
  unfold resolveOpen at h
  split at h
  · cases h
  · split_ifs at h
    exact (AmbiguityOutcome.clarify.inj h).symm

theorem resolveOpen_unsupported (h : resolveOpen candidates catalog = .unsupported) :
    candidates = [] := by
  unfold resolveOpen at h
  split at h
  · cases h
  · split_ifs at h with hnone
    exact hnone

theorem resolveOpen_not_select {id : String} {overridden : Bool} :
    resolveOpen candidates catalog ≠ .select id overridden := by
  unfold resolveOpen
  split
  · simp
  · split_ifs <;> simp

/-- What decides: one candidate, one candidate with its facts, or the open question. -/
theorem resolveCandidates_cases (candidates : List CapabilityKnowledge)
    (facts : AcquisitionFacts) (catalog : KnowledgeCatalog) :
    (∃ single ∈ candidates, resolveCandidates candidates facts catalog = .select single.id true) ∨
      resolveCandidates candidates facts catalog = resolveOpen candidates catalog := by
  unfold resolveCandidates
  split
  · rename_i single
    exact Or.inl ⟨single, List.mem_singleton_self single, rfl⟩
  · split
    · rename_i single hfiltered
      have hmem : single ∈ candidates.filter (hasRequiredFacts facts) := by
        rw [hfiltered]
        exact List.mem_singleton_self single
      exact Or.inl ⟨single, (List.mem_filter.mp hmem).1, rfl⟩
    · exact Or.inr rfl

theorem resolveCandidates_select {id : String} {overridden : Bool}
    (h : resolveCandidates candidates facts catalog = .select id overridden) :
    ∃ single ∈ candidates, single.id = id := by
  rcases resolveCandidates_cases candidates facts catalog with ⟨single, hmem, hselect⟩ | hopen
  · rw [hselect] at h
    exact ⟨single, hmem, (AmbiguityOutcome.select.inj h).1⟩
  · exact absurd (hopen.symm.trans h) resolveOpen_not_select

theorem resolveCandidates_unsupported
    (h : resolveCandidates candidates facts catalog = .unsupported) : candidates = [] := by
  rcases resolveCandidates_cases candidates facts catalog with ⟨single, -, hselect⟩ | hopen
  · cases hselect.symm.trans h
  · exact resolveOpen_unsupported (hopen.symm.trans h)

theorem resolveCandidates_clarify {options : List (String × String)}
    (h : resolveCandidates candidates facts catalog = .clarify options) :
    options = candidates.map ambiguityOption := by
  rcases resolveCandidates_cases candidates facts catalog with ⟨single, -, hselect⟩ | hopen
  · cases hselect.symm.trans h
  · exact resolveOpen_clarify (hopen.symm.trans h)

/-- An option names a listed id with an approved capability, by the name of the capability. -/
theorem mem_ambiguityOptions {id label : String} :
    (id, label) ∈ (ambiguityCandidates candidateIds catalog).map ambiguityOption ↔
      id ∈ candidateIds ∧ ∃ capability, approvedCapability? catalog id = some capability ∧
        label = capability.displayName.getD id := by
  rw [List.mem_map]
  constructor
  · rintro ⟨capability, hmem, hoption⟩
    obtain ⟨hid, hcapability⟩ := mem_ambiguityCandidates.mp hmem
    obtain ⟨rfl, rfl⟩ := Prod.mk.inj hoption
    exact ⟨hid, capability, hcapability, rfl⟩
  · rintro ⟨hid, capability, hcapability, rfl⟩
    obtain rfl := (approvedCapability?_spec hcapability).2.1
    exact ⟨capability, mem_ambiguityCandidates.mpr ⟨hid, hcapability⟩, rfl⟩

theorem ambiguityOptions_nodup :
    (((ambiguityCandidates candidateIds catalog).map ambiguityOption).map Prod.fst).Nodup := by
  rw [List.map_map]
  exact sortDistinct_nodup

end Candidates

/-- The gate looks at the set of the ids only; it selects an approved capability of the list,
gives up when the list has none, and otherwise offers each of them once. -/
theorem ambiguity_ignores_order (catalog : KnowledgeCatalog) (facts : AcquisitionFacts)
    (candidateIds : List String) :
    (∀ others : List String, (∀ id, id ∈ candidateIds ↔ id ∈ others) →
      resolveAmbiguity candidateIds facts catalog = resolveAmbiguity others facts catalog) ∧
    (∀ id overridden, resolveAmbiguity candidateIds facts catalog = .select id overridden →
      id ∈ candidateIds ∧ ∃ capability ∈ catalog.capabilities,
        capability.id = id ∧ capability.status = "approved_mvp") ∧
    (resolveAmbiguity candidateIds facts catalog = .unsupported →
      ∀ id ∈ candidateIds, ∀ capability ∈ catalog.capabilities,
        capability.id = id → capability.status ≠ "approved_mvp") ∧
    ∀ options, resolveAmbiguity candidateIds facts catalog = .clarify options →
      (options.map Prod.fst).Nodup ∧ ∀ id label, (id, label) ∈ options ↔
        id ∈ candidateIds ∧ ∃ capability, approvedCapability? catalog id = some capability ∧
          label = capability.displayName.getD id := by
  refine ⟨?_, ?_, ?_, ?_⟩
  · intro others hsame
    rw [resolveAmbiguity, resolveAmbiguity, ambiguityCandidates_congr hsame]
  · intro id overridden hselect
    obtain ⟨single, hmem, rfl⟩ := resolveCandidates_select hselect
    obtain ⟨hid, hcapability⟩ := mem_ambiguityCandidates.mp hmem
    obtain ⟨hin, -, hstatus⟩ := approvedCapability?_spec hcapability
    exact ⟨hid, single, hin, rfl, hstatus⟩
  · intro hunsupported id hid capability hin hcapability hstatus
    have hnone := resolveCandidates_unsupported hunsupported
    cases happroved : approvedCapability? catalog id with
    | some found =>
      have hmem : found ∈ ambiguityCandidates candidateIds catalog := by
        obtain ⟨-, hfound, -⟩ := approvedCapability?_spec happroved
        exact mem_ambiguityCandidates.mpr (by rw [hfound]; exact ⟨hid, happroved⟩)
      rw [hnone] at hmem
      cases hmem
    | none =>
      have hrefused := List.find?_eq_none.mp happroved capability hin
      simp [hcapability, hstatus] at hrefused
  · intro options hclarify
    obtain rfl := resolveCandidates_clarify hclarify
    exact ⟨ambiguityOptions_nodup, fun id label => mem_ambiguityOptions⟩

end FineractReports.Workflow
