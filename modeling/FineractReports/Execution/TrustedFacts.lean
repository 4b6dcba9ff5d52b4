import FineractReports.Execution.Parameters

/-!
# What the model's intent can contribute

The planner reads the entities and the product ids of an intent. They only fill the
gaps the extraction left, and a person name only in the user's own words.
-/

namespace FineractReports.Execution

section Gaps

variable {facts : Facts} {field : ConstraintField} {value : TypedFactValue}

/-- Filling a gap keeps what a field held before. -/
theorem fillGap_keeps (h : Assoc.get? facts field = some value) (gap : ConstraintField)
    (filling : TypedFactValue) : Assoc.get? (fillGap facts gap filling) field = some value := by
  rw [fillGap_get?, h]
  rfl

variable {toLowercase : String → String} {message : Option String}

theorem intentProducts_keeps (intent : AssistantIntent)
    (h : Assoc.get? facts field = some value) :
    Assoc.get? (intentProducts intent facts) field = some value := by
  unfold intentProducts
  split
  · exact fillGap_keeps h _ _
  · exact h

theorem intentEntity_keeps (entity : AssistantEntity)
    (h : Assoc.get? facts field = some value) :
    Assoc.get? (intentEntity toLowercase message facts entity) field = some value := by
  unfold intentEntity
  split_ifs
  · split
    · exact fillGap_keeps h _ _
    · exact h
  · exact h

theorem intentEntities_keep (entities : List AssistantEntity)
    (h : Assoc.get? facts field = some value) :
    Assoc.get? (entities.foldl (intentEntity toLowercase message) facts) field = some value := by
  induction entities generalizing facts with
  | nil => exact h
  | cons entity rest ih => exact ih (intentEntity_keeps entity h)

theorem intentFacts_keeps (message : Option String) (intent : AssistantIntent)
    (h : Assoc.get? facts field = some value) :
    Assoc.get? (intentFacts toLowercase message intent facts) field = some value := by
  unfold intentFacts
  exact intentEntities_keep intent.entities (intentProducts_keeps intent h)

end Gaps

/-- A person name in the words of the message, up to case. -/
def InMessage (toLowercase : String → String) (message : Option String) (value : TypedFactValue) :
    Prop :=
  ∃ text words, value = .personName text ∧ message = some words ∧
    Text.contains (toLowercase words) (toLowercase text) = true

/-- The person name of the facts is verbatim. -/
def VerbatimName (toLowercase : String → String) (message : Option String) (facts : Facts) :
    Prop :=
  ∀ value, Assoc.get? facts .personName = some value → InMessage toLowercase message value

section Names

variable {facts : Facts} {toLowercase : String → String} {message : Option String}

theorem entityFact_personName {entity : AssistantEntity} {value : TypedFactValue}
    (h : entityFact entity = some (.personName, value)) :
    entity.entityType = .personName ∧ value = .personName (Text.trim entity.value) := by
  unfold entityFact at h
  by_cases hblank : Text.trim entity.value = ""
  · simp [hblank] at h
  · simp only [if_neg hblank] at h
    cases htype : entity.entityType with
    | personName =>
      rw [htype] at h
      exact ⟨rfl, ((Prod.mk.inj (Option.some.inj h)).2).symm⟩
    | clientId =>
      rw [htype] at h
      obtain ⟨id, -, hpair⟩ := Option.map_eq_some_iff.mp h
      cases (Prod.mk.inj hpair).1
    | office | product | chargeType | accountNumber | metric | currency =>
      rw [htype] at h
      cases (Prod.mk.inj (Option.some.inj h)).1
    | datePeriod | capabilityHint | unknown =>
      rw [htype] at h
      cases h

theorem admissible_personName {entity : AssistantEntity}
    (h : admissible toLowercase message entity = true) (htype : entity.entityType = .personName) :
    InMessage toLowercase message (.personName (Text.trim entity.value)) := by
  unfold admissible at h
  simp only [htype, MODEL_TRUSTED_ENTITIES, MODEL_VERBATIM_ENTITIES, decide_eq_true_eq] at h
  obtain htrusted | ⟨-, hverbatim⟩ := h
  · simp at htrusted
  · cases message with
    | none => simp at hverbatim
    | some words =>
      have hoccurs : occursVerbatim toLowercase words entity.value = true := by
        simpa using hverbatim
      unfold occursVerbatim at hoccurs
      exact ⟨_, words, rfl, rfl, (of_decide_eq_true hoccurs).2⟩

theorem intentEntity_verbatim (entity : AssistantEntity)
    (h : VerbatimName toLowercase message facts) :
    VerbatimName toLowercase message (intentEntity toLowercase message facts entity) := by
  unfold intentEntity
  split_ifs with hadmissible
  · cases hfact : entityFact entity with
    | none => exact h
    | some fact =>
      obtain ⟨field, filling⟩ := fact
      intro value hvalue
      simp only [fillGap_get?] at hvalue
      cases hold : Assoc.get? facts .personName with
      | some old =>
        rw [hold] at hvalue
        exact h value (hold.trans hvalue)
      | none =>
        rw [hold] at hvalue
        by_cases hfield : field = .personName
        · subst hfield
          obtain ⟨htype, rfl⟩ := entityFact_personName hfact
          obtain rfl : TypedFactValue.personName (Text.trim entity.value) = value := by
            simpa using hvalue
          exact admissible_personName hadmissible htype
        · simp [hfield] at hvalue
  · exact h

theorem intentEntities_verbatim (entities : List AssistantEntity)
    (h : VerbatimName toLowercase message facts) :
    VerbatimName toLowercase message
      (entities.foldl (intentEntity toLowercase message) facts) := by
  induction entities generalizing facts with
  | nil => exact h
  | cons entity rest ih => exact ih (intentEntity_verbatim entity h)

theorem intentProducts_personName (intent : AssistantIntent) (facts : Facts) :
    Assoc.get? (intentProducts intent facts) .personName = Assoc.get? facts .personName := by
  unfold intentProducts
  split
  · rw [fillGap_get?]
    simp
  · rfl

/-- Without a person name from the extraction, the one of the intent is verbatim. -/
theorem intentFacts_verbatim (intent : AssistantIntent)
    (h : Assoc.get? facts .personName = none) :
    VerbatimName toLowercase message (intentFacts toLowercase message intent facts) := by
  unfold intentFacts
  apply intentEntities_verbatim
  intro value hvalue
  rw [intentProducts_personName, h] at hvalue
  cases hvalue

end Names

/-- The model cannot steer what it is not trusted with: parameters depend on the
entities and the product ids of its intent only, facts of the extraction stay, and a
person name it alone supplied was typed by the user. -/
theorem model_cannot_steer (toLowercase : String → String) (message : Option String)
    (extraction : Option DeterministicExtraction) :
    (∀ catalog query policies ctx (a b : AssistantIntent), a.entities = b.entities →
      a.constraints.productIds = b.constraints.productIds →
      paramsFromVerified toLowercase catalog query a extraction policies ctx message =
        paramsFromVerified toLowercase catalog query b extraction policies ctx message) ∧
    (∀ intent field value,
      Assoc.get? (requestFacts toLowercase message none extraction) field = some value →
      Assoc.get? (requestFacts toLowercase message (some intent) extraction) field = some value) ∧
    (∀ intent value,
      Assoc.get? (requestFacts toLowercase message none extraction) .personName = none →
      Assoc.get? (requestFacts toLowercase message (some intent) extraction) .personName =
        some value →
      InMessage toLowercase message value) := by
  refine ⟨?_, ?_, ?_⟩
  · intro catalog query policies ctx a b hentities hids
    unfold paramsFromVerified
    rw [requestFacts_congr hids hentities]
  · intro intent field value hvalue
    exact intentFacts_keeps message intent hvalue
  · intro intent value hnone hvalue
    exact intentFacts_verbatim intent hnone value hvalue

/-- An intent in which the model names a person and claims a date. -/
def namingIntent (name : String) : AssistantIntent where
  intent := .dataLookup
  domain := .client
  requestShape := ⟨.lookup, .client, .none, .lookup, .clientIdentity⟩
  canonicalQueryEn := ""
  entities := [⟨.personName, name, none⟩]
  constraints := { AssistantConstraints.empty with fromDate := some "2026-01-01" }
  source := none

theorem model_cannot_steer_named :
    InMessage Text.asciiLower (some "find client tony") (.personName "Tony") :=
  (model_cannot_steer Text.asciiLower (some "find client tony") none).2.2 (namingIntent " Tony")
    (.personName "Tony") (by decide) (by decide)

end FineractReports.Execution
