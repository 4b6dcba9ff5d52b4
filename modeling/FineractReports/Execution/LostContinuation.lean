import FineractReports.Assistant.ClarificationPlanner
import FineractReports.Execution.PendingClarification
import FineractReports.Knowledge.Validator

/-!
# Continuing a question about one capability

The planner asks for the missing inputs of a single capability without an option, and the
decoder recovers the capability from the options alone. So the answer to such a question
never continues the capability: it is routed like a new request.
-/

namespace FineractReports

namespace ClarificationPlanner

/-- The planned candidates are one capability, named once or more often. -/
def ConcernsOnly (catalog : KnowledgeCatalog) (candidateIds : List String)
    (facts : ClarificationFacts) (capabilityId : String) : Prop :=
  candidateIds.filterMap (candidate catalog facts) ≠ [] ∧
    ∀ found ∈ candidateIds.filterMap (candidate catalog facts),
      found.capability.id = capabilityId

end ClarificationPlanner

namespace Execution

open ClarificationPlanner

variable {toUppercase : Char → String} {catalog : KnowledgeCatalog} {candidateIds : List String}
  {facts : ClarificationFacts} {payloadId : Uuid} {planned : ClarificationPayload}
  {defaults : ConstraintPatch} {capabilityId : String}

theorem continuationCapability_eq_none
    (h : (planned.options.filter fun option => option.id ≠ OTHER_CLARIFICATION_OPTION_ID).length ≠
      1) : continuationCapability planned = none := by
  unfold continuationCapability
  split_ifs
  · split
    · rename_i option hone
      rw [hone] at h
      exact absurd rfl h
    · rfl
  · rfl

/-- The options besides the free-text one are those of the candidates. -/
theorem selectPayload_options {candidates : List Candidate}
    (h : ∀ found ∈ candidates, found.capability.id = capabilityId) :
    ((selectPayload toUppercase payloadId candidates).options.filter fun option =>
        option.id ≠ OTHER_CLARIFICATION_OPTION_ID).length =
      if capabilityId = OTHER_CLARIFICATION_OPTION_ID then 0 else candidates.length := by
  have hids : ∀ option ∈ candidates.map (candidateOption toUppercase (commonFields candidates)),
      option.id = capabilityId := by
    intro option hoption
    obtain ⟨found, hfound, rfl⟩ := List.mem_map.mp hoption
    exact h found hfound
  have hlast : [otherOption].filter (fun option => option.id ≠ OTHER_CLARIFICATION_OPTION_ID) =
      [] := by decide
  simp only [selectPayload, payload, List.filter_append, hlast, List.append_nil]
  split_ifs with hother
  · rw [List.length_eq_zero_iff, List.filter_eq_nil_iff]
    intro option hoption
    simp [hids option hoption, hother]
  · rw [List.filter_eq_self.mpr, List.length_map]
    intro option hoption
    simp [hids option hoption, hother]

/-- A question about one capability has no option for it, or several. -/
theorem plan_options (h : plan toUppercase catalog candidateIds facts payloadId =
    .clarify planned defaults) (honly : ConcernsOnly catalog candidateIds facts capabilityId) :
    (planned.options.filter fun option => option.id ≠ OTHER_CLARIFICATION_OPTION_ID).length ≠
      1 := by
  obtain ⟨hne, hall⟩ := honly
  unfold plan at h
  dsimp only at h
  split at h
  · split_ifs at h
    obtain ⟨rfl, -⟩ := ClarificationPlanResult.clarify.inj h
    simp [payload]
  · rename_i hnotOne
    obtain ⟨rfl, -⟩ := ClarificationPlanResult.clarify.inj h
    rw [selectPayload_options hall]
    have hmany : 2 ≤ (candidateIds.filterMap (candidate catalog facts)).length := by
      match hfound : candidateIds.filterMap (candidate catalog facts) with
      | [] => exact absurd hfound hne
      | [single] => exact absurd hfound (hnotOne single)
      | _ :: _ :: _ => simp
    split_ifs
    · decide
    · omega

/-- No question about a single capability is continued: the decoder finds no capability, and a
reply without an option is not taken as an answer for one. -/
theorem continuation_lost (toUppercase : Char → String) (catalog : KnowledgeCatalog)
    (candidateIds : List String) (facts : ClarificationFacts) (payloadId : Uuid)
    (planned : ClarificationPayload) (defaults : ConstraintPatch) (capabilityId : String)
    (h : plan toUppercase catalog candidateIds facts payloadId = .clarify planned defaults)
    (honly : ConcernsOnly catalog candidateIds facts capabilityId) :
    continuationCapability planned ≠ some capabilityId ∧
      ∀ (input : RuntimeUserInput) (context : ContextWindow),
        context.pendingClarification = some planned → continuedCapability input context = none := by
  have hnone := continuationCapability_eq_none (plan_options h honly)
  constructor
  · rw [hnone]
    exact nofun
  · intro input context hpending
    simp [continuedCapability, hpending, hnone]

/-! ### A client lookup that asks for the name -/

namespace AskedName

open FineractReports.NameLookup (searchInput capability)

def asked : ClarificationPayload :=
  payload 1 .collectFields "What details should I use for this report?" []
    [fieldFor searchInput [] capability]

theorem plan_asked : plan (fun c => String.singleton c) FineractReports.NameLookup.catalog
    [capability.id] [] 1 = .clarify asked [] := by
  decide +kernel

theorem concerns_lookup :
    ConcernsOnly FineractReports.NameLookup.catalog [capability.id] [] capability.id := by
  refine ⟨by decide +kernel, ?_⟩
  intro found hfound
  obtain ⟨id, hid, hcandidate⟩ := List.mem_filterMap.mp hfound
  rw [(candidate_capability hcandidate).1]
  exact List.mem_singleton.mp hid

/-- The planner asks for the client's name, the decoder finds no capability to continue. -/
theorem lookup_not_continued :
    plan (fun c => String.singleton c) FineractReports.NameLookup.catalog [capability.id] [] 1 =
        .clarify asked [] ∧
      ConcernsOnly FineractReports.NameLookup.catalog [capability.id] [] capability.id ∧
      continuationCapability asked ≠ some capability.id :=
  ⟨plan_asked, concerns_lookup, by decide⟩

theorem continuation_lost_lookup :
    continuationCapability asked ≠ some capability.id ∧
      ∀ (input : RuntimeUserInput) (context : ContextWindow),
        context.pendingClarification = some asked → continuedCapability input context = none :=
  continuation_lost (fun c => String.singleton c) FineractReports.NameLookup.catalog
    [capability.id] [] 1 asked [] capability.id plan_asked concerns_lookup

end AskedName

end Execution

end FineractReports
