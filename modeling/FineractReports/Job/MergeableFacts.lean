import FineractReports.Assistant.MergeFold
import FineractReports.Assistant.RequestFacts
import FineractReports.Job.AnsweredTurn

/-!
# Which requests merge

The producers of facts and the validator of the merge list the pairs of a field and a value
kind independently. An observation list merges when every fact is of a kind the validator
takes and no source speaks twice about a field.
-/

namespace FineractReports.CanonicalState

section Merges

variable {isDecimal : String → Bool} {uuidV3 : Uuid → String → Uuid} {jobId : Uuid}
  {revision firstSequence observedAt : ℤ} {sourceId : String} {sourceKind : FactSourceKind}
  {intent : AssistantIntent} {extraction : RequestExtraction} {patch : ConstraintPatch}
  {observations : List FactObservation} {entries : List (ConstraintField × TypedFactValue)}

/-- The merge accepts the list and the unique key of the observations holds. -/
def Merges (jobId : Uuid) (revision : ℤ) (observations : List FactObservation) : Prop :=
  (∃ merged, mergeObservations jobId revision observations executableConstraintContracts =
      .ok merged) ∧
    (observations.map FactObservation.key).Nodup

theorem merges_iff : Merges jobId revision observations ↔
    (∀ o ∈ observations, Admissible jobId executableConstraintContracts o) ∧
      (observations.map FactObservation.key).Nodup := by
  unfold Merges
  rw [exists_mergeObservations]
  constructor
  · rintro ⟨⟨hadmissible, -⟩, hkeys⟩
    exact ⟨hadmissible, hkeys⟩
  · rintro ⟨hadmissible, hkeys⟩
    -- Observations with distinct keys cannot contradict each other.
    have hconsistent : Consistent observations := by
      intro a ha b hb hkey
      rw [List.inj_on_of_nodup_map hkeys ha hb hkey]
    exact ⟨⟨hadmissible, hconsistent⟩, hkeys⟩

/-- Facts of one source have distinct keys when they have distinct fields. -/
theorem nodup_keys : (entries.map fun entry => (sourceKind, sourceId, entry.1)).Nodup ↔
    (entries.map Prod.fst).Nodup := by
  have hmap : (entries.map fun entry => (sourceKind, sourceId, entry.1)) =
      (entries.map Prod.fst).map fun field => (sourceKind, sourceId, field) := by
    rw [List.map_map]
    rfl
  rw [hmap]
  apply List.nodup_map_iff
  intro a b hab
  simpa using hab

/-! ### Patches -/

theorem admissible_patchObservation {sequence : ℤ} {entry : ConstraintField × TypedFactValue} :
    Admissible jobId executableConstraintContracts
      (patchObservation uuidV3 jobId sourceId sequence sourceKind observedAt entry) ↔
        Mergeable entry := by
  constructor
  · intro h
    exact h.value
  · intro h
    exact ⟨rfl, rfl, h⟩

theorem observeEntries_spec (h : observeEntries uuidV3 jobId sourceId sourceKind observedAt
    executableConstraintContracts firstSequence entries = .ok observations) :
    (∀ entry ∈ entries, Mergeable entry) ∧
      (∀ o ∈ observations, Admissible jobId executableConstraintContracts o) ∧
      observations.map FactObservation.key =
        entries.map fun entry => (sourceKind, sourceId, entry.1) := by
  induction entries generalizing firstSequence observations with
  | nil =>
    rw [observeEntries, Except.ok.injEq] at h
    subst h
    simp
  | cons entry rest ih =>
    simp only [observeEntries, bind_eq_ok_iff, okOr_eq_ok, exists_unit_iff, pure_eq_ok] at h
    obtain ⟨contract, hcontract, hvalid, later, hlater, rfl⟩ := h
    have hentry : Mergeable entry := ⟨contract, hcontract, hvalid⟩
    obtain ⟨hrest, hadmissible, hkeys⟩ := ih hlater
    refine ⟨?_, ?_, ?_⟩
    · exact List.forall_mem_cons.mpr ⟨hentry, hrest⟩
    · exact List.forall_mem_cons.mpr ⟨admissible_patchObservation.mpr hentry, hadmissible⟩
    · rw [List.map_cons, List.map_cons, hkeys]
      rfl

theorem observeEntries_accepts (h : ∀ entry ∈ entries, Mergeable entry) :
    ∃ observations, observeEntries uuidV3 jobId sourceId sourceKind observedAt
      executableConstraintContracts firstSequence entries = .ok observations := by
  induction entries generalizing firstSequence with
  | nil => exact ⟨[], rfl⟩
  | cons entry rest ih =>
    obtain ⟨contract, hcontract, hvalid⟩ := h entry List.mem_cons_self
    obtain ⟨later, hlater⟩ := ih fun other hother => h other (List.mem_cons_of_mem _ hother)
    simp only [observeEntries, bind_eq_ok_iff, okOr_eq_ok, exists_unit_iff, pure_eq_ok]
    exact ⟨_, contract, hcontract, hvalid, later, hlater, rfl⟩

theorem ConstraintPatch.entries_nodup (patch : ConstraintPatch) :
    (patch.entries.map Prod.fst).Nodup := by
  have hsublist : (patch.entries.map Prod.fst).Sublist ConstraintField.ordered := by
    unfold ConstraintPatch.entries
    rw [List.map_filterMap]
    have hkey : ∀ field ∈ ConstraintField.ordered,
        ((Assoc.get? patch field).map fun value => (field, value)).map Prod.fst =
          if (Assoc.get? patch field).isSome then some field else none := by
      intro field _
      cases Assoc.get? patch field <;> rfl
    rw [List.filterMap_congr hkey]
    apply List.Sublist.trans _ List.filter_sublist
    · exact fun field => (Assoc.get? patch field).isSome
    · rw [← List.filterMap_eq_filter]
      exact List.Sublist.refl _
  exact hsublist.nodup (by decide)

theorem ConstraintPatch.mem_entries {patch : ConstraintPatch}
    {entry : ConstraintField × TypedFactValue} :
    entry ∈ patch.entries ↔ Assoc.get? patch entry.1 = some entry.2 := by
  obtain ⟨field, value⟩ := entry
  simp [ConstraintPatch.entries, ConstraintField.mem_ordered]

/-- The patch is observed and its observations merge. -/
def PatchMerges (uuidV3 : Uuid → String → Uuid) (jobId : Uuid) (revision : ℤ)
    (sourceId : String) (firstSequence : ℤ) (patch : ConstraintPatch) (observedAt : ℤ) : Prop :=
  ∃ observations, observationsFromPatch uuidV3 jobId sourceId firstSequence patch observedAt
    executableConstraintContracts = .ok observations ∧ Merges jobId revision observations

theorem patchMerges_iff :
    PatchMerges uuidV3 jobId revision sourceId firstSequence patch observedAt ↔
      ∀ field value, Assoc.get? patch field = some value → Mergeable (field, value) := by
  have hentries : (∀ field value, Assoc.get? patch field = some value → Mergeable (field, value)) ↔
      ∀ entry ∈ patch.entries, Mergeable entry := by
    simp only [ConstraintPatch.mem_entries, Prod.forall]
  rw [hentries]
  constructor
  · rintro ⟨observations, hobservations, -⟩
    exact (observeEntries_spec hobservations).1
  · intro h
    have haccepted : ∃ observations, observationsFromPatch uuidV3 jobId sourceId firstSequence
        patch observedAt executableConstraintContracts = .ok observations :=
      observeEntries_accepts h
    obtain ⟨observations, hobservations⟩ := haccepted
    obtain ⟨-, hadmissible, hkeys⟩ := observeEntries_spec hobservations
    have hnodup : (observations.map FactObservation.key).Nodup := by
      rw [hkeys, nodup_keys]
      exact ConstraintPatch.entries_nodup patch
    exact ⟨observations, hobservations, merges_iff.mpr ⟨hadmissible, hnodup⟩⟩

/-! ### The original request -/

/-- The fields the entities stand for. -/
def entityFields (entities : List AssistantEntity) : List ConstraintField :=
  (entities.filterMap entityFact).map Prod.fst

/-- The entities name no client id, charge type or account number, and neither the router nor
the extractor names a field twice. -/
structure NamedOnce (intent : AssistantIntent) (extraction : RequestExtraction) : Prop where
  understood : ∀ field ∈ entityFields intent.entities, field ∉ refusedFields
  read : ∀ field ∈ entityFields extraction.entities, field ∉ refusedFields
  entities : (entityFields intent.entities).Nodup
  metric : intent.constraints.metric.isSome = true → .metric ∉ entityFields intent.entities
  currency : intent.constraints.currencyCode.isSome = true →
    .currencyCode ∉ entityFields intent.entities
  extracted : ((extraction.candidates.filterMap candidateFact).map Prod.fst ++
    entityFields extraction.entities).Nodup

theorem admissible_requestObservation {originalLen index : ℕ}
    {fact : ConstraintField × TypedFactValue} :
    Admissible jobId executableConstraintContracts
      (requestObservation jobId sourceId originalLen observedAt index fact) ↔ Mergeable fact := by
  constructor
  · intro h
    exact h.value
  · intro h
    exact ⟨rfl, rfl, h⟩

theorem admissible_originalRequest :
    (∀ o ∈ originalRequestObservations isDecimal jobId sourceId intent extraction observedAt,
      Admissible jobId executableConstraintContracts o) ↔
        ∀ fact ∈ intentFacts isDecimal intent ++ extractionFacts extraction, Mergeable fact := by
  unfold originalRequestObservations
  constructor
  · intro h fact hfact
    obtain ⟨index, hindex, rfl⟩ := List.mem_iff_getElem.mp hfact
    apply admissible_requestObservation.mp (h _ (List.mem_mapIdx.mpr ⟨index, hindex, rfl⟩))
  · intro h o ho
    obtain ⟨index, hindex, rfl⟩ := List.mem_mapIdx.mp ho
    exact admissible_requestObservation.mpr (h _ (List.getElem_mem hindex))

theorem originalRequest_keys :
    (originalRequestObservations isDecimal jobId sourceId intent extraction observedAt).map
        FactObservation.key =
      ((intentFacts isDecimal intent).map fun fact =>
        (FactSourceKind.originalRequest, sourceId, fact.1)) ++
      (extractionFacts extraction).map fun fact =>
        (FactSourceKind.deterministicResolver, sourceId, fact.1) := by
  apply List.ext_getElem
  · simp [originalRequestObservations]
  · intro index hleft hright
    simp only [originalRequestObservations, List.getElem_map, List.getElem_mapIdx,
      List.getElem_append, List.length_map, FactObservation.key, requestObservation]
    split_ifs <;> rfl

theorem originalRequest_nodup :
    ((originalRequestObservations isDecimal jobId sourceId intent extraction observedAt).map
        FactObservation.key).Nodup ↔
      ((intentFacts isDecimal intent).map Prod.fst).Nodup ∧
        ((extractionFacts extraction).map Prod.fst).Nodup := by
  rw [originalRequest_keys, List.nodup_append', nodup_keys, nodup_keys]
  have hdisjoint : List.Disjoint
      ((intentFacts isDecimal intent).map fun fact =>
        (FactSourceKind.originalRequest, sourceId, fact.1))
      ((extractionFacts extraction).map fun fact =>
        (FactSourceKind.deterministicResolver, sourceId, fact.1)) := by
    intro key hleft hright
    obtain ⟨fact, -, rfl⟩ := List.mem_map.mp hleft
    obtain ⟨other, -, hkey⟩ := List.mem_map.mp hright
    cases hkey
  simp [hdisjoint]

theorem optionalFact_sublist {α : Type} (o : Option α) (field : ConstraintField)
    (value : α → TypedFactValue) :
    ((optionalFact o field value).map Prod.fst).Sublist [field] := by
  cases o with
  | none => exact List.nil_sublist _
  | some a => exact List.Sublist.refl _

/-- The router fills a field from the constraints and the domain at most once. -/
theorem constraintFacts_sublist (isDecimal : String → Bool) (intent : AssistantIntent) :
    ((constraintFacts isDecimal intent.constraints ++ domainFacts intent.domain).map
      Prod.fst).Sublist [.limitMode, .limitValue, .fromDate, .toDate, .currencyCode, .metric,
        .transactionAmount, .domain] := by
  have hquantity : (((intent.constraints.quantity.map quantityFacts).getD []).map
      Prod.fst).Sublist [ConstraintField.limitMode, .limitValue] := by
    cases intent.constraints.quantity with
    | none => exact List.nil_sublist _
    | some quantity => cases quantity <;> simp [quantityFacts]
  have hdomain : ((domainFacts intent.domain).map Prod.fst).Sublist [ConstraintField.domain] := by
    unfold domainFacts
    split_ifs
    · exact List.nil_sublist _
    · exact List.Sublist.refl _
  unfold constraintFacts
  simp only [List.map_append]
  have hdates := (hquantity.append (optionalFact_sublist intent.constraints.fromDate .fromDate
    .date)).append (optionalFact_sublist intent.constraints.toDate .toDate .date)
  have htexts := (hdates.append (optionalFact_sublist intent.constraints.currencyCode
    .currencyCode .currencyCode)).append (optionalFact_sublist intent.constraints.metric .metric
    .metric)
  exact (htexts.append (optionalFact_sublist _ .transactionAmount .decimal)).append hdomain

theorem entityFields_subset {entities : List AssistantEntity} {field : ConstraintField}
    (h : field ∈ entityFields entities) :
    field ∈ [.personName, .office, .product, .metric, .currencyCode] ++ refusedFields := by
  obtain ⟨fact, hfact, rfl⟩ := List.mem_map.mp h
  obtain ⟨entity, -, hentity⟩ := List.mem_filterMap.mp hfact
  exact (entityFact_spec hentity).2.2

theorem constraintFact_spec {fact : ConstraintField × TypedFactValue}
    (h : fact ∈ constraintFacts isDecimal intent.constraints ++ domainFacts intent.domain) :
    kindMatches fact.1 fact.2 = true ∧
      (fact.1 = .metric → intent.constraints.metric.isSome = true) ∧
      (fact.1 = .currencyCode → intent.constraints.currencyCode.isSome = true) := by
  simp only [constraintFacts, optionalFact, List.mem_append, Option.mem_toList,
    Option.map_eq_some_iff] at h
  rcases h with (((((hquantity | hfrom) | hto) | hcurrency) | hmetric) | hamount) | hdomain
  · cases hq : intent.constraints.quantity with
    | none => simp [hq] at hquantity
    | some quantity =>
      rw [hq, Option.map_some, Option.getD_some] at hquantity
      cases quantity <;> simp [quantityFacts] at hquantity
      · simp [hquantity, kindMatches]
      · simp [hquantity, kindMatches]
      · rcases hquantity with rfl | rfl <;> simp [kindMatches]
      · rcases hquantity with rfl | rfl <;> simp [kindMatches]
  · obtain ⟨text, -, rfl⟩ := hfrom
    simp [kindMatches]
  · obtain ⟨text, -, rfl⟩ := hto
    simp [kindMatches]
  · obtain ⟨text, htext, rfl⟩ := hcurrency
    simp [kindMatches, htext]
  · obtain ⟨text, htext, rfl⟩ := hmetric
    simp [kindMatches, htext]
  · obtain ⟨text, -, rfl⟩ := hamount
    simp [kindMatches]
  · unfold domainFacts at hdomain
    split_ifs at hdomain
    · cases hdomain
    · rw [List.mem_singleton.mp hdomain]
      simp [kindMatches]

/-- An entity meets a constraint of the router only in the metric and the currency. -/
theorem intentFacts_nodup : ((intentFacts isDecimal intent).map Prod.fst).Nodup ↔
    (entityFields intent.entities).Nodup ∧
      (intent.constraints.metric.isSome = true → .metric ∉ entityFields intent.entities) ∧
      (intent.constraints.currencyCode.isSome = true →
        .currencyCode ∉ entityFields intent.entities) := by
  have hfilled := constraintFacts_sublist isDecimal intent
  have hmetric : intent.constraints.metric.isSome = true → ConstraintField.metric ∈
      (constraintFacts isDecimal intent.constraints ++ domainFacts intent.domain).map
        Prod.fst := by
    intro h
    obtain ⟨text, htext⟩ := Option.isSome_iff_exists.mp h
    simp [constraintFacts, optionalFact, htext]
  have hcurrency : intent.constraints.currencyCode.isSome = true →
      ConstraintField.currencyCode ∈
        (constraintFacts isDecimal intent.constraints ++ domainFacts intent.domain).map
          Prod.fst := by
    intro h
    obtain ⟨text, htext⟩ := Option.isSome_iff_exists.mp h
    simp [constraintFacts, optionalFact, htext]
  have hcommon : ∀ field ∈ (constraintFacts isDecimal intent.constraints ++
      domainFacts intent.domain).map Prod.fst, field ∈ entityFields intent.entities →
        field = .metric ∨ field = .currencyCode := by
    intro field hfield hentity
    have hnamed := entityFields_subset hentity
    have hset := hfilled.subset hfield
    cases field <;> simp [refusedFields] at hnamed hset ⊢
  unfold intentFacts
  rw [List.map_append, List.nodup_append']
  constructor
  · rintro ⟨-, hentities, hdisjoint⟩
    exact ⟨hentities, fun h => hdisjoint (hmetric h), fun h => hdisjoint (hcurrency h)⟩
  · rintro ⟨hentities, hnometric, hnocurrency⟩
    refine ⟨hfilled.nodup (by decide), hentities, ?_⟩
    intro field hfield hentity
    obtain ⟨fact, hfact, hsame⟩ := List.mem_map.mp hfield
    obtain ⟨-, hmetric', hcurrency'⟩ := constraintFact_spec hfact
    rw [hsame] at hmetric' hcurrency'
    rcases hcommon field hfield hentity with rfl | rfl
    · exact hnometric (hmetric' rfl) hentity
    · exact hnocurrency (hcurrency' rfl) hentity

/-- The observations of a request merge exactly when the entities name nothing the merge
refuses and every field is named once. -/
theorem originalRequest_merges_iff :
    Merges jobId revision
        (originalRequestObservations isDecimal jobId sourceId intent extraction observedAt) ↔
      NamedOnce intent extraction := by
  have hentities : ∀ entities : List AssistantEntity,
      (∀ fact ∈ entities.filterMap entityFact, Mergeable fact) ↔
        ∀ field ∈ entityFields entities, field ∉ refusedFields := by
    intro entities
    unfold entityFields
    rw [List.forall_mem_map]
    apply forall₂_congr
    intro fact hfact
    obtain ⟨entity, -, hentity⟩ := List.mem_filterMap.mp hfact
    exact entityFact_mergeable_iff hentity
  have htaken : (∀ fact ∈ intentFacts isDecimal intent ++ extractionFacts extraction,
      Mergeable fact) ↔ (∀ field ∈ entityFields intent.entities, field ∉ refusedFields) ∧
        ∀ field ∈ entityFields extraction.entities, field ∉ refusedFields := by
    have hconstraints : ∀ fact ∈ constraintFacts isDecimal intent.constraints ++
        domainFacts intent.domain, Mergeable fact :=
      fun fact hfact => mergeable_of_kindMatches (constraintFact_spec hfact).1
    have hcandidates : ∀ fact ∈ extraction.candidates.filterMap candidateFact,
        Mergeable fact := by
      intro fact hfact
      obtain ⟨candidate, -, hcandidate⟩ := List.mem_filterMap.mp hfact
      exact candidateFact_mergeable hcandidate
    rw [← hentities, ← hentities, intentFacts, extractionFacts]
    constructor
    · intro h
      obtain ⟨hintent, hextraction⟩ := List.forall_mem_append.mp h
      exact ⟨(List.forall_mem_append.mp hintent).2, (List.forall_mem_append.mp hextraction).2⟩
    · rintro ⟨hintent, hextraction⟩
      refine List.forall_mem_append.mpr ⟨?_, ?_⟩
      · exact List.forall_mem_append.mpr ⟨hconstraints, hintent⟩
      · exact List.forall_mem_append.mpr ⟨hcandidates, hextraction⟩
  rw [merges_iff, admissible_originalRequest, htaken, originalRequest_nodup, intentFacts_nodup,
    extractionFacts, List.map_append]
  constructor
  · rintro ⟨⟨hunderstood, hread⟩, ⟨hentities, hmetric, hcurrency⟩, hextracted⟩
    exact ⟨hunderstood, hread, hentities, hmetric, hcurrency, hextracted⟩
  · intro h
    exact ⟨⟨h.understood, h.read⟩, ⟨h.entities, h.metric, h.currency⟩, h.extracted⟩

end Merges

end FineractReports.CanonicalState

namespace FineractReports.Job

open CanonicalState

section Answers

variable {parseDate : String → Option NaiveDate} {catalog : KnowledgeCatalog}
  {field : ClarificationField} {target : Option ConstraintField} {value : Json}
  {patch patched final : ConstraintPatch} {answers : List (String × Json)}
  {fields : List ClarificationField} {payload : ClarificationPayload}
  {principal : PrincipalContext} {request : ResponseRequest}
  {submission : ValidatedClarificationSubmission}

/-- The facts whose free text the merge takes. -/
def textFields : List ConstraintField :=
  [.personName, .office, .product, .currencyCode, .transactionAmount]

/-- The facts a date range and the limit become. -/
def typedTargets (field : ClarificationField) : List ConstraintField :=
  match field.fieldType with
  | .dateRange => [.fromDate, .toDate]
  | .integer => if field.key = "limit" then [.limitMode, .limitValue] else []
  | .text => []

/-- A later answer of a type of its own takes the place of the fact. -/
def Replaced (answers : List (String × Json)) (fact : ConstraintField)
    (later : List ClarificationField) : Prop :=
  ∃ field ∈ later, (Assoc.get? answers field.key).isSome = true ∧ fact ∈ typedTargets field

/-- Every free text becomes a fact whose text the merge takes, or one that is replaced. -/
def TextsMerge (catalog : KnowledgeCatalog) (answers : List (String × Json)) :
    List ClarificationField → Prop
  | [] => True
  | field :: later =>
    ((Assoc.get? answers field.key).isSome = true → field.fieldType = .text →
      ∀ fact ∈ textTarget catalog field.key, fact ∈ textFields ∨ Replaced answers fact later) ∧
    TextsMerge catalog answers later

/-- The option a response names. -/
def chosenOption (payload : ClarificationPayload) (request : ResponseRequest) :
    Option ClarificationOption :=
  request.selectedOptionId.bind fun optionId =>
    payload.options.find? fun option => option.id = optionId

/-- What the answer to a field does to the patch. -/
inductive FieldEffect (field : ClarificationField) (target : Option ConstraintField)
    (patch : ConstraintPatch) : ConstraintPatch → Prop
  | range (hkind : field.fieldType = .dateRange) (start stop : String) :
      FieldEffect field target patch
        (Assoc.insert (Assoc.insert patch .fromDate (.date start)) .toDate (.date stop))
  | limit (hkind : field.fieldType = .integer) (hkey : field.key = "limit") (integer : ℤ) :
      FieldEffect field target patch
        (Assoc.insert (Assoc.insert patch .limitMode (.limitMode .topN)) .limitValue
          (.integer integer))
  | number (hkind : field.fieldType = .integer) (hkey : field.key ≠ "limit") :
      FieldEffect field target patch patch
  | text (hkind : field.fieldType = .text) {fact : ConstraintField}
      (htarget : target = some fact) (text : String) :
      FieldEffect field target patch (Assoc.insert patch fact (textFact fact text))
  | remark (hkind : field.fieldType = .text) (htarget : target = none) :
      FieldEffect field target patch patch

theorem fieldEffect_of_validateField
    (h : validateField parseDate field target value patch = .ok patched) :
    FieldEffect field target patch patched := by
  unfold validateField at h
  cases hkind : field.fieldType with
  | dateRange =>
    simp only [hkind, validateDateRange] at h
    repeat' split at h
    all_goals first | contradiction | skip
    cases h
    exact .range hkind _ _
  | integer =>
    simp only [hkind, validateInteger] at h
    repeat' split at h
    all_goals first | contradiction | skip
    · cases h
      exact .limit hkind ‹_› _
    · cases h
      exact .number hkind ‹_›
  | text =>
    simp only [hkind, validateText] at h
    repeat' split at h
    all_goals first | contradiction | skip
    · cases h
      exact .text hkind rfl _
    · cases h
      exact .remark hkind rfl

/-- What the patch holds of the fact can be merged. -/
def Sound (patch : ConstraintPatch) (fact : ConstraintField) : Prop :=
  ∀ value, Assoc.get? patch fact = some value → Mergeable (fact, value)

theorem textFact_mergeable_iff {fact : ConstraintField} {text : String} :
    Mergeable (fact, textFact fact text) ↔ fact ∈ textFields := by
  rw [mergeable_iff (by cases fact <;> simp [textFact])]
  cases fact <;> simp [textFact, kindMatches, textFields]

theorem sound_insert {key fact : ConstraintField} {held : TypedFactValue} :
    Sound (Assoc.insert patch key held) fact ↔
      if key = fact then Mergeable (fact, held) else Sound patch fact := by
  unfold Sound
  rw [Assoc.get?_insert]
  split_ifs
  · simp
  · rfl

theorem FieldEffect.sound_iff (h : FieldEffect field target patch patched)
    (fact : ConstraintField) : Sound patched fact ↔
      fact ∈ typedTargets field ∨
        if field.fieldType = .text ∧ target = some fact then fact ∈ textFields
        else Sound patch fact := by
  cases h with
  | range hkind start stop =>
    have hfrom : Mergeable (.fromDate, .date start) := mergeable_of_kindMatches rfl
    have hto : Mergeable (.toDate, .date stop) := mergeable_of_kindMatches rfl
    rw [sound_insert, sound_insert]
    by_cases hlast : ConstraintField.toDate = fact
    · subst hlast
      simp [typedTargets, hkind, hto]
    by_cases hfirst : ConstraintField.fromDate = fact
    · subst hfirst
      simp [typedTargets, hkind, hfrom]
    · simp [typedTargets, hkind, hlast, hfirst, Ne.symm hlast, Ne.symm hfirst]
  | limit hkind hkey integer =>
    have hmode : Mergeable (.limitMode, .limitMode .topN) := mergeable_of_kindMatches rfl
    have hvalue : Mergeable (.limitValue, .integer integer) := mergeable_of_kindMatches rfl
    rw [sound_insert, sound_insert]
    by_cases hlast : ConstraintField.limitValue = fact
    · subst hlast
      simp [typedTargets, hkind, hkey, hvalue]
    by_cases hfirst : ConstraintField.limitMode = fact
    · subst hfirst
      simp [typedTargets, hkind, hkey, hmode]
    · simp [typedTargets, hkind, hkey, hlast, hfirst, Ne.symm hlast, Ne.symm hfirst]
  | number hkind hkey => simp [typedTargets, hkind, hkey]
  | @text hkind key htarget text =>
    rw [sound_insert, htarget]
    by_cases hsame : key = fact
    · subst hsame
      simp [typedTargets, hkind, textFact_mergeable_iff]
    · simp [typedTargets, hkind, hsame]
  | remark hkind htarget => simp [typedTargets, hkind, htarget]

/-- The patch of the answers merges when the texts do, whatever it held before. -/
theorem validateFields_sound_iff (hstart : ∀ fact ∈ textFields, Sound patch fact)
    (h : validateFields parseDate catalog answers patch fields = .ok final) :
    (∀ fact, Sound final fact) ↔
      (∀ fact, Sound patch fact ∨ Replaced answers fact fields) ∧
        TextsMerge catalog answers fields := by
  induction fields generalizing patch with
  | nil =>
    rw [validateFields, Except.ok.injEq] at h
    subst h
    simp [Replaced, TextsMerge]
  | cons field later ih =>
    have hreplaced : ∀ fact, Replaced answers fact (field :: later) ↔
        ((Assoc.get? answers field.key).isSome = true ∧ fact ∈ typedTargets field) ∨
          Replaced answers fact later := by
      simp [Replaced]
    unfold validateFields at h
    cases hanswer : Assoc.get? answers field.key with
    | none =>
      simp only [hanswer] at h
      split_ifs at h
      rw [ih hstart h]
      simp [hreplaced, TextsMerge, hanswer]
    | some value =>
      simp only [hanswer, bind_eq_ok_iff] at h
      obtain ⟨patched, hpatched, h⟩ := h
      have heffect := fieldEffect_of_validateField hpatched
      have hnext : ∀ fact ∈ textFields, Sound patched fact := by
        intro fact hfact
        rw [heffect.sound_iff]
        split_ifs
        · exact Or.inr hfact
        · exact Or.inr (hstart fact hfact)
      rw [ih hnext h]
      simp only [hreplaced, TextsMerge, hanswer, Option.isSome_some, true_and, forall_const]
      constructor
      · rintro ⟨hheld, hlater⟩
        refine ⟨?_, ?_, hlater⟩
        · intro fact
          rcases hheld fact with hsound | hafter
          · rcases (heffect.sound_iff fact).mp hsound with htyped | hother
            · exact Or.inr (Or.inl htyped)
            · split_ifs at hother with htext
              · exact Or.inl (hstart fact hother)
              · exact Or.inl hother
          · exact Or.inr (Or.inr hafter)
        · intro htext fact hfact
          rcases hheld fact with hsound | hafter
          · have hsound := (heffect.sound_iff fact).mp hsound
            rw [if_pos ⟨htext, hfact⟩] at hsound
            left
            simpa [typedTargets, htext] using hsound
          · exact Or.inr hafter
      · rintro ⟨hheld, htexts, hlater⟩
        refine ⟨?_, hlater⟩
        intro fact
        rw [heffect.sound_iff]
        split_ifs with htext
        · rcases htexts htext.1 fact htext.2 with hfact | hafter
          · exact Or.inl (Or.inr hfact)
          · exact Or.inr hafter
        · rcases hheld fact with hsound | htyped | hafter
          · exact Or.inl (Or.inr hsound)
          · exact Or.inl (Or.inl htyped)
          · exact Or.inr hafter

theorem selectedOption_eq {selected : Option ClarificationOption}
    (h : selectedOption payload principal request.selectedOptionId = .ok selected) :
    selected = chosenOption payload request := by
  unfold chosenOption
  unfold selectedOption at h
  split at h
  · cases h
  · rename_i optionId hkind hoption
    rw [hoption, Option.bind_some]
    split at h
    · cases h
    · rename_i option hfound
      split_ifs at h
      rw [hfound]
      exact (Except.ok.inj h).symm
  · cases h
  · rename_i hoption _
    rw [hoption, Option.bind_none]
    exact (Except.ok.inj h).symm

/-- The patch of an accepted response is the one its fields make. -/
theorem validateSubmission_patch
    (h : validateSubmission parseDate catalog payload principal request = .ok submission) :
    (request.structured = false ∧ submission.constraintPatch = []) ∨
      (request.structured = true ∧ validateFields parseDate catalog request.answers []
        (offeredFields payload (chosenOption payload request)) =
          .ok submission.constraintPatch) := by
  unfold validateSubmission at h
  split_ifs at h with hplain hempty
  · cases h
    exact Or.inl ⟨hplain, rfl⟩
  · right
    simp only [bind_eq_ok_iff, exists_unit_iff, failIf_eq_ok, okOr_eq_ok, pure_eq_ok] at h
    obtain ⟨_, -, _, -, selected, hselected, -, -, patch, hpatch, rfl⟩ := h
    rw [selectedOption_eq hselected] at hpatch
    exact ⟨by simpa using hplain, hpatch⟩

theorem submission_merges_iff {uuidV3 : Uuid → String → Uuid} {jobId : Uuid}
    {revision firstSequence observedAt : ℤ} {sourceId : String}
    (h : validateSubmission parseDate catalog payload principal request = .ok submission) :
    PatchMerges uuidV3 jobId revision sourceId firstSequence submission.constraintPatch
        observedAt ↔
      (request.structured = true → TextsMerge catalog request.answers
        (offeredFields payload (chosenOption payload request))) := by
  rw [patchMerges_iff]
  change (∀ fact, Sound submission.constraintPatch fact) ↔ _
  have hempty : ∀ fact, Sound [] fact := fun fact value hvalue => by simp at hvalue
  rcases validateSubmission_patch h with ⟨hplain, hpatch⟩ | ⟨hstructured, hfields⟩
  · simp [hplain, hpatch, hempty]
  · rw [validateFields_sound_iff (fun fact _ => hempty fact) hfields]
    simp [hempty, hstructured]

end Answers

/-- What the service makes of a response or of a request merges, and no source speaks twice
about a field, exactly when the free texts become facts whose text the merge takes and the
entities name nothing it refuses and nothing twice. -/
theorem produced_facts_merge_iff (isDecimal : String → Bool) (uuidV3 : Uuid → String → Uuid)
    (parseDate : String → Option NaiveDate) (jobId : Uuid) (revision observedAt : ℤ)
    (sourceId : String) :
    (∀ catalog payload principal request submission firstSequence,
      validateSubmission parseDate catalog payload principal request = .ok submission →
        (PatchMerges uuidV3 jobId revision sourceId firstSequence submission.constraintPatch
            observedAt ↔
          (request.structured = true → TextsMerge catalog request.answers
            (offeredFields payload (chosenOption payload request))))) ∧
      ∀ intent extraction,
        (Merges jobId revision
            (originalRequestObservations isDecimal jobId sourceId intent extraction observedAt) ↔
          NamedOnce intent extraction) :=
  ⟨fun _ _ _ _ _ _ h => submission_merges_iff h, fun _ _ => originalRequest_merges_iff⟩

namespace NameLookup

/-- The name typed into the form becomes a fact that merges. -/
theorem produced_facts_merge_name :
    PatchMerges (fun _ _ => 9) 5 1 "5" 1 submission.constraintPatch 0 := by
  refine ((produced_facts_merge_iff (fun _ => true) (fun _ _ => 9) (fun _ => none) 5 1 0 "5").1
    FineractReports.NameLookup.catalog question principal request submission 1
    submission_accepted).mpr ?_
  intro _
  change TextsMerge FineractReports.NameLookup.catalog [("search", .str "Tony")] [searchField]
  refine ⟨?_, trivial⟩
  intro _ _ fact hfact
  have hname : textTarget FineractReports.NameLookup.catalog "search" = some .personName := by
    decide
  obtain rfl : .personName = fact := Option.some.inj (hname.symm.trans hfact)
  exact Or.inl (by decide)

/-- A request that names a charge type is not merged. -/
theorem charge_type_refused :
    mergeObservations 5 1
      (originalRequestObservations (fun _ => true) 5 "5"
        { intent with entities := [⟨.chargeType, "Monthly fee", none⟩] }
        ⟨DeterministicExtraction.empty, []⟩ 0)
      executableConstraintContracts = .error (.invalidValue .chargeType) := by
  decide

end NameLookup

end FineractReports.Job
