import FineractReports.Assistant.ClarificationPlanner
import FineractReports.Knowledge.Validator
import FineractReports.Library.DistinctKeys

/-!
# Stability of the planned clarification

The fields of a question over several candidates split into those every candidate misses and
those of one candidate's option; none is asked twice and none is dropped. The plan counts the
candidates as they are listed, so a candidate listed twice is two candidates.
-/

namespace FineractReports.ClarificationPlanner

/-- The listed candidates that have an approved capability with a query. -/
def foundCandidates (catalog : KnowledgeCatalog) (facts : ClarificationFacts)
    (candidateIds : List String) : List Candidate :=
  candidateIds.filterMap (candidate catalog facts)

/-- One field of the two lists has the key, and it asks for the same input. -/
def AskedOnce (common own : List ClarificationField) (field : ClarificationField) : Prop :=
  ∃ asked, (common ++ own).filter (fun other => other.key = field.key) = [asked] ∧
    sameInput asked field = true

/-- The common fields are missing for a candidate, and its option asks for the rest of its
missing fields. -/
structure AsksMissing (common : List ClarificationField) (found : Candidate)
    (option : ClarificationOption) : Prop where
  candidate : option.id = found.capability.id
  once : ∀ field ∈ found.missing, AskedOnce common option.fields field
  own : ∀ field ∈ option.fields, field ∈ found.missing
  common : ∀ field ∈ common, ∃ missing ∈ found.missing, sameInput field missing = true

/-- The number of candidates a plan was made over. -/
def candidateCount : ClarificationPlanResult → ℕ
  | .complete _ _ => 1
  | .clarify payload _ => if payload.kind = .selectOption then payload.options.length - 1 else 1

section Fields

variable {catalog : KnowledgeCatalog} {facts : ClarificationFacts} {candidateIds : List String}
  {found : Candidate} {candidates : List Candidate} {field : ClarificationField}

theorem addInput_nodup {result : List ParameterInputKnowledge}
    (h : (result.map (·.id)).Nodup) (input : ParameterInputKnowledge) :
    ((addInput result input).map (·.id)).Nodup := by
  unfold addInput
  split_ifs with hmem
  · exact h
  · rw [List.map_append, List.nodup_append]
    refine ⟨h, List.nodup_singleton _, ?_⟩
    rintro a ha b hb rfl
    obtain rfl := List.mem_singleton.mp hb
    exact hmem ha

theorem requiredInputs_nodup (query : QueryKnowledge) (inputs : List ParameterInputKnowledge) :
    ((requiredInputs query inputs).map (·.id)).Nodup := by
  have hfold : ∀ (added result : List ParameterInputKnowledge), (result.map (·.id)).Nodup →
      ((added.foldl addInput result).map (·.id)).Nodup := by
    intro added
    induction added with
    | nil => exact fun result h => h
    | cons input rest ih => exact fun result h => ih _ (addInput_nodup h input)
  exact hfold _ [] List.nodup_nil

/-- A candidate misses a field of each key at most once. -/
theorem missing_nodup {id : String} (h : candidate catalog facts id = some found) :
    (found.missing.map (·.key)).Nodup := by
  unfold candidate at h
  obtain ⟨capability, -, h⟩ := Option.bind_eq_some_iff.mp h
  obtain ⟨query, -, h⟩ := Option.bind_eq_some_iff.mp h
  obtain rfl := Option.some.inj h
  rw [List.map_map]
  exact (requiredInputs_nodup query catalog.parameterInputs).sublist
    (List.filter_sublist.map _)

theorem found_missing_nodup (h : found ∈ foundCandidates catalog facts candidateIds) :
    (found.missing.map (·.key)).Nodup := by
  obtain ⟨id, -, hid⟩ := List.mem_filterMap.mp h
  exact missing_nodup hid

theorem sameInput_key {left right : ClarificationField} (h : sameInput left right = true) :
    left.key = right.key := (of_decide_eq_true h).1

theorem sameInput_self (field : ClarificationField) : sameInput field field = true := by
  simp [sameInput]

theorem mem_commonFields (h : field ∈ commonFields candidates) :
    ∀ found ∈ candidates, ∃ missing ∈ found.missing, sameInput field missing = true := by
  cases candidates with
  | nil => cases h
  | cons first rest =>
    intro found hfound
    have hall := List.all_eq_true.mp (List.mem_filter.mp h).2 found hfound
    exact List.any_eq_true.mp hall

theorem commonFields_nodup (h : ∀ found ∈ candidates, (found.missing.map (·.key)).Nodup) :
    ((commonFields candidates).map (·.key)).Nodup := by
  cases candidates with
  | nil => exact List.nodup_nil
  | cons first rest =>
    exact (h first List.mem_cons_self).sublist (List.filter_sublist.map _)

/-- A missing field with the key of another is that field. -/
theorem eq_of_key_eq {missing : List ClarificationField} (hkeys : (missing.map (·.key)).Nodup)
    (hfield : field ∈ missing) {other : ClarificationField} (hother : other ∈ missing)
    (hkey : other.key = field.key) : other = field := by
  have hmem : other ∈ missing.filter fun other => other.key = field.key :=
    List.mem_filter.mpr ⟨hother, by simpa using hkey⟩
  rw [filter_key_eq hkeys hfield] at hmem
  exact List.mem_singleton.mp hmem

/-- A missing field is common, or it stays with the option. -/
theorem askedOnce_of_missing (hkeys : ∀ found ∈ candidates, (found.missing.map (·.key)).Nodup)
    (hfound : found ∈ candidates) (hfield : field ∈ found.missing) :
    AskedOnce (commonFields candidates)
      (found.missing.filter fun field =>
        !(commonFields candidates).any fun shared => sameInput shared field) field := by
  have hmissing := filter_key_eq (hkeys found hfound) hfield
  have hthis : ∀ other ∈ found.missing, other.key = field.key → other = field :=
    fun other hother hkey => eq_of_key_eq (hkeys found hfound) hfield hother hkey
  unfold AskedOnce
  rw [List.filter_append, List.filter_filter]
  by_cases hshared : ∃ shared ∈ commonFields candidates, sameInput shared field = true
  · obtain ⟨shared, hmem, hsame⟩ := hshared
    refine ⟨shared, ?_, hsame⟩
    have hcommon : ((commonFields candidates).filter fun other => other.key = field.key) =
        [shared] := by
      rw [← sameInput_key hsame]
      exact filter_key_eq (commonFields_nodup hkeys) hmem
    rw [hcommon, List.append_right_eq_self, List.filter_eq_nil_iff]
    intro other hother hkept
    obtain ⟨hkey, hnot⟩ := Bool.and_eq_true_iff.mp hkept
    obtain rfl := hthis other hother (of_decide_eq_true hkey)
    rw [Bool.not_eq_true', List.any_eq_false] at hnot
    exact hnot shared hmem hsame
  · refine ⟨field, ?_, sameInput_self field⟩
    have hcommon : ((commonFields candidates).filter fun other => other.key = field.key) = [] := by
      apply List.filter_eq_nil_iff.mpr
      intro shared hmem hkey
      obtain ⟨missing, hin, hsame⟩ := mem_commonFields hmem found hfound
      have hother := hthis missing hin ((sameInput_key hsame).symm.trans (of_decide_eq_true hkey))
      exact hshared ⟨shared, hmem, hother ▸ hsame⟩
    rw [hcommon, List.nil_append, ← hmissing]
    apply List.filter_congr
    intro other hother
    by_cases hkey : other.key = field.key
    · obtain rfl := hthis other hother hkey
      simpa using fun shared hmem =>
        Bool.eq_false_iff.mpr fun hsame => hshared ⟨shared, hmem, hsame⟩
    · simp [hkey]

end Fields

section Plan

variable {toUppercase : Char → String} {catalog : KnowledgeCatalog} {facts : ClarificationFacts}
  {candidateIds : List String} {payloadId : Uuid}

/-- A plan shows how many candidates it was made over. -/
theorem candidateCount_plan :
    candidateCount (plan toUppercase catalog candidateIds facts payloadId) =
      (foundCandidates catalog facts candidateIds).length := by
  unfold plan foundCandidates
  dsimp only
  split
  · rename_i single hsingle
    rw [hsingle]
    split_ifs <;> rfl
  · simp [candidateCount, selectPayload, payload]

/-- Over several candidates every option asks for what its candidate misses beyond the common
fields. -/
theorem plan_asksMissing (hmany : 2 ≤ (foundCandidates catalog facts candidateIds).length)
    {planned : ClarificationPayload} {defaults : ConstraintPatch}
    (h : plan toUppercase catalog candidateIds facts payloadId = .clarify planned defaults) :
    ∃ options, planned.options = options ++ [otherOption] ∧
      List.Forall₂ (AsksMissing planned.fields) (foundCandidates catalog facts candidateIds)
        options := by
  have hkeys : ∀ found ∈ foundCandidates catalog facts candidateIds,
      (found.missing.map (·.key)).Nodup := fun found hfound => found_missing_nodup hfound
  unfold plan at h
  dsimp only at h
  rw [← foundCandidates] at h
  split at h
  · rename_i single hsingle
    rw [hsingle] at hmany
    simp at hmany
  · obtain ⟨rfl, -⟩ := ClarificationPlanResult.clarify.inj h
    refine ⟨_, rfl, ?_⟩
    rw [List.forall₂_map_right_iff, List.forall₂_same]
    intro found hfound
    exact ⟨rfl, fun field hfield => askedOnce_of_missing hkeys hfound hfield,
      fun field hfield => (List.mem_filter.mp hfield).1,
      fun field hfield => mem_commonFields hfield found hfound⟩

/-- Ids without a candidate do not matter. -/
theorem foundCandidates_filter (ids : List String) : foundCandidates catalog facts ids =
    foundCandidates catalog facts (ids.filter fun id => (candidate catalog facts id).isSome) := by
  rw [foundCandidates, foundCandidates, List.filterMap_filter]
  apply List.filterMap_congr
  intro id _
  cases candidate catalog facts id <;> rfl

theorem length_foundCandidates {ids : List String}
    (h : ∀ id ∈ ids, (candidate catalog facts id).isSome = true) :
    (foundCandidates catalog facts ids).length = ids.length :=
  List.filterMap_length_eq_length.mpr h

/-- Removing duplicates keeps the number of candidates when no candidate is listed twice. -/
theorem length_foundCandidates_firstsBy :
    (foundCandidates catalog facts (firstsBy id candidateIds)).length =
        (foundCandidates catalog facts candidateIds).length ↔
      (candidateIds.filter fun id => (candidate catalog facts id).isSome).Nodup := by
  have hfilter : (firstsBy id candidateIds).filter (fun id => (candidate catalog facts id).isSome) =
      firstsBy id (candidateIds.filter fun id => (candidate catalog facts id).isSome) :=
    (firstsFrom_filter fun a b hab => by rw [id_eq, id_eq] at hab; rw [hab]).symm
  have hsome : ∀ id ∈ candidateIds.filter fun id => (candidate catalog facts id).isSome,
      (candidate catalog facts id).isSome = true := fun id hid => (List.mem_filter.mp hid).2
  have hfirst : ∀ id' ∈ firstsBy id
      (candidateIds.filter fun id => (candidate catalog facts id).isSome),
      (candidate catalog facts id').isSome = true :=
    fun id' hid => hsome id' (mem_of_mem_firstsFrom hid)
  rw [foundCandidates_filter (firstsBy id candidateIds), foundCandidates_filter candidateIds,
    hfilter, length_foundCandidates hsome, length_foundCandidates hfirst, length_firstsBy_eq_iff,
    List.map_id]

end Plan

/-- The plan for a list is that for the list without its duplicates, and a question over several
candidates asks for each missing field of each of them once. -/
structure PlansStably (toUppercase : Char → String) (catalog : KnowledgeCatalog)
    (facts : ClarificationFacts) (candidateIds : List String) : Prop where
  same (payloadId : Uuid) : plan toUppercase catalog candidateIds facts payloadId =
    plan toUppercase catalog (firstsBy id candidateIds) facts payloadId
  complete (payloadId : Uuid) (planned : ClarificationPayload) (defaults : ConstraintPatch) :
    2 ≤ (foundCandidates catalog facts candidateIds).length →
      plan toUppercase catalog candidateIds facts payloadId = .clarify planned defaults →
        ∃ options, planned.options = options ++ [otherOption] ∧
          List.Forall₂ (AsksMissing planned.fields) (foundCandidates catalog facts candidateIds)
            options

/-- Exactly the lists that name no candidate twice are planned stably. -/
theorem plansStably_iff (toUppercase : Char → String) (catalog : KnowledgeCatalog)
    (facts : ClarificationFacts) (candidateIds : List String) :
    PlansStably toUppercase catalog facts candidateIds ↔
      (candidateIds.filter fun id => (candidate catalog facts id).isSome).Nodup := by
  rw [← length_foundCandidates_firstsBy]
  constructor
  · intro h
    have hcount := congrArg candidateCount (h.same 0)
    rw [candidateCount_plan, candidateCount_plan] at hcount
    exact hcount.symm
  · intro hlength
    refine ⟨fun payloadId => ?_, fun payloadId planned defaults hmany hplan =>
      plan_asksMissing hmany hplan⟩
    have hsublist : (foundCandidates catalog facts (firstsBy id candidateIds)).Sublist
        (foundCandidates catalog facts candidateIds) := firstsFrom_sublist.filterMap _
    have hsame := hsublist.eq_of_length hlength
    unfold plan
    rw [← foundCandidates, ← foundCandidates, hsame]

open FineractReports.NameLookup (capability) in
/-- The lookup with all its facts is complete, and listed twice it is a question. -/
theorem lookup_listed_twice_asks :
    plan (fun c => String.singleton c) NameLookup.catalog [capability.id]
        [(.personName, .personName "Tony")] 1 = .complete capability.id [] ∧
      ¬ PlansStably (fun c => String.singleton c) NameLookup.catalog
        [(.personName, .personName "Tony")] [capability.id, capability.id] := by
  refine ⟨by decide +kernel, fun h => ?_⟩
  have hcount := congrArg candidateCount (h.same 1)
  rw [candidateCount_plan, candidateCount_plan] at hcount
  exact absurd hcount (by decide +kernel)

end FineractReports.ClarificationPlanner
