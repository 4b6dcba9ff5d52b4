import FineractReports.Assistant.MessageFacts

/-!
# The facts of an answering turn

A turn that answers a clarification is planned with the facts of two messages: its own, and for
what it leaves out those of the request it answers. The constraints are chosen field by field,
the candidates all at once, and an error of the request's period outlives a period that the
answer states.
-/

namespace FineractReports.Extraction

section Prefer

variable (source current : MessageFacts)

def preferConstraints (source current : AssistantConstraints) : AssistantConstraints where
  fromDate := current.fromDate.or source.fromDate
  toDate := current.toDate.or source.toDate
  quantity := current.quantity.or source.quantity
  currencyCode := current.currencyCode.or source.currencyCode
  productIds := current.productIds.or source.productIds
  officeIds := current.officeIds.or source.officeIds
  metric := current.metric.or source.metric
  transactionAmount := current.transactionAmount.or source.transactionAmount

def preferCurrentTurnExtraction : MessageFacts where
  constraints := preferConstraints source.constraints current.constraints
  entities := if current.entities = [] then source.entities else current.entities
  temporalError := current.temporalError.or source.temporalError
  domain := current.domain.or source.domain
  candidates := if current.candidates = [] then source.candidates else current.candidates
  temporalProvenance := current.temporalProvenance.or source.temporalProvenance

end Prefer

/-! ### Recorded facts -/

/-- Facts with the candidates recorded for them, and no quantity without a number. -/
structure RecordedFacts extends MessageFacts where
  recorded : candidates = recordedCandidates toMessageFacts
  counted : constraints.quantity ≠ some .all ∧ constraints.quantity ≠ some .default

theorem quantityAt_counted {message : String} {words : List String} {index : ℕ}
    {quantity : Quantity} (h : quantityAt message words index = some quantity) :
    ∃ value, 1 ≤ value ∧ value ≤ 100 ∧ (quantity = .topN value ∨ quantity = .limit value) := by
  simp only [quantityAt, Option.bind_eq_bind, Option.bind_eq_some_iff] at h
  obtain ⟨word, -, value, -, h⟩ := h
  split_ifs at h with hrefused hranking
  · rw [not_or, not_not] at hrefused
    exact ⟨value, hrefused.1.1, hrefused.1.2, Or.inl (Option.some.inj h).symm⟩
  · rw [not_or, not_not] at hrefused
    exact ⟨value, hrefused.1.1, hrefused.1.2, Or.inr (Option.some.inj h).symm⟩

/-- A quantity that is read has a number between 1 and 100. -/
theorem extractQuantity_counted {message : String} {words : List String} {quantity : Quantity}
    (h : extractQuantity message words = some quantity) :
    ∃ value, 1 ≤ value ∧ value ≤ 100 ∧ (quantity = .topN value ∨ quantity = .limit value) := by
  obtain ⟨index, -, hindex⟩ := List.exists_of_findSome?_eq_some h
  exact quantityAt_counted hindex

section Extracted

variable {toLowercase : String → String} {parseDate : String → Option NaiveDate}
  {formatDate : NaiveDate → String} {now : CanonicalRuntimeContext} {message : String}
  {canonical : Option CanonicalRuntimeContext} {facts : MessageFacts}

theorem extractForContext_eq_some
    (h : extractForContext toLowercase parseDate formatDate now message canonical = some facts) :
    ∃ resolved, facts =
      recordCandidates (factsBeforeCandidates toLowercase formatDate message resolved) := by
  simp only [extractForContext, extractMessageFactsAt, Option.map_eq_some_iff] at h
  obtain ⟨resolved, -, rfl⟩ := h
  exact ⟨resolved, rfl⟩

/-- The extractor returns recorded facts. -/
theorem extractForContext_recorded
    (h : extractForContext toLowercase parseDate formatDate now message canonical = some facts) :
    ∃ extracted : RecordedFacts, extracted.toMessageFacts = facts := by
  obtain ⟨resolved, rfl⟩ := extractForContext_eq_some h
  have hrecorded : (recordCandidates
      (factsBeforeCandidates toLowercase formatDate message resolved)).candidates =
      recordedCandidates (recordCandidates
        (factsBeforeCandidates toLowercase formatDate message resolved)) := rfl
  refine ⟨⟨_, hrecorded, ?_, ?_⟩, rfl⟩
  · intro hall
    obtain ⟨value, -, -, hquantity⟩ := extractQuantity_counted hall
    rcases hquantity with hquantity | hquantity <;> cases hquantity
  · intro hdefault
    obtain ⟨value, -, -, hquantity⟩ := extractQuantity_counted hdefault
    rcases hquantity with hquantity | hquantity <;> cases hquantity

end Extracted

/-- The default of an answered request without a source. -/
def RecordedFacts.empty : RecordedFacts := ⟨MessageFacts.empty, rfl, by decide, by decide⟩

/-! ### Candidates that describe the constraints -/

/-- The values recorded for a field. -/
def valuesOf (facts : MessageFacts) (field : CanonicalState.PayloadField) : List Json :=
  (facts.candidates.filter fun candidate => candidate.field = field).map (·.value)

def limitValue (constraints : AssistantConstraints) : Option Json :=
  (constraints.quantity.bind quantityParts).map fun parts => .int parts.2

/-- The candidates are those of the dates, the limit and the currency of the constraints. -/
structure Describes (facts : MessageFacts) : Prop where
  limit : valuesOf facts .limit = (limitValue facts.constraints).toList
  fromDate : valuesOf facts .fromDate = (facts.constraints.fromDate.map Json.str).toList
  toDate : valuesOf facts .toDate = (facts.constraints.toDate.map Json.str).toList
  currencyCode : valuesOf facts .currencyCode = (facts.constraints.currencyCode.map Json.str).toList

@[simp] theorem filter_textCandidate (own field : CanonicalState.PayloadField)
    (text : Option String) :
    (textCandidate own text).filter (fun candidate => candidate.field = field) =
      if own = field then textCandidate own text else [] := by
  cases text <;> by_cases h : own = field <;> simp [textCandidate, candidate, h]

@[simp] theorem filter_personCandidates {field : CanonicalState.PayloadField}
    (h : field ≠ .personName) (entities : List AssistantEntity) :
    (personCandidates entities).filter (fun candidate => candidate.field = field) = [] := by
  rw [List.filter_eq_nil_iff]
  intro other hother
  obtain ⟨entity, -, rfl⟩ := List.mem_map.mp hother
  have hne : ¬ CanonicalState.PayloadField.personName = field := h.symm
  simp [candidate, hne]

@[simp] theorem map_value_textCandidate (field : CanonicalState.PayloadField)
    (text : Option String) :
    (textCandidate field text).map (·.value) = (text.map Json.str).toList := by
  cases text <;> rfl

theorem RecordedFacts.quantity_cases (facts : RecordedFacts) :
    facts.constraints.quantity = none ∨ ∃ value, facts.constraints.quantity = some (.limit value) ∨
      facts.constraints.quantity = some (.topN value) := by
  cases h : facts.constraints.quantity with
  | none => exact Or.inl rfl
  | some quantity =>
    cases quantity with
    | all => exact absurd h facts.counted.1
    | default => exact absurd h facts.counted.2
    | limit value => exact Or.inr ⟨value, Or.inl rfl⟩
    | topN value => exact Or.inr ⟨value, Or.inr rfl⟩

/-- The candidates of recorded facts: that of the limit before those of the other fields. -/
theorem RecordedFacts.candidates_eq (facts : RecordedFacts) :
    facts.candidates = (limitValue facts.constraints).toList.map (candidate .limit) ++
      fieldCandidates facts.toMessageFacts := by
  rw [facts.recorded, recordedCandidates, limitValue]
  rcases facts.quantity_cases with h | ⟨value, h | h⟩ <;> rw [h] <;> rfl

theorem RecordedFacts.describes (facts : RecordedFacts) : Describes facts.toMessageFacts := by
  have hlimits : ∀ field, ((limitValue facts.constraints).toList.map (candidate .limit)).filter
      (fun candidate => candidate.field = field) =
        if field = .limit then (limitValue facts.constraints).toList.map (candidate .limit)
        else [] := by
    intro field
    cases limitValue facts.constraints <;> cases field <;> simp [candidate]
  have hvalues : ((limitValue facts.constraints).toList.map (candidate .limit)).map (·.value) =
      (limitValue facts.constraints).toList := by
    cases limitValue facts.constraints <;> rfl
  constructor
  · simp [valuesOf, facts.candidates_eq, hlimits, hvalues, fieldCandidates]
  · simp [valuesOf, facts.candidates_eq, hlimits, fieldCandidates]
  · simp [valuesOf, facts.candidates_eq, hlimits, fieldCandidates]
  · simp [valuesOf, facts.candidates_eq, hlimits, fieldCandidates]

/-! ### The merged facts -/

/-- Both dates are there and no error. -/
def Resolves (facts : MessageFacts) : Prop :=
  facts.constraints.fromDate.isSome = true ∧ facts.constraints.toDate.isSome = true ∧
    facts.temporalError = none

/-- A period that the current turn resolves is the merged one, without an error. -/
def ClearsError (current merged : MessageFacts) : Prop :=
  Resolves current → merged.temporalError = none ∧
    merged.constraints.fromDate = current.constraints.fromDate ∧
    merged.constraints.toDate = current.constraints.toDate

/-- The current turn states every limit, date and currency that the source states. -/
structure Restates (source current : AssistantConstraints) : Prop where
  limit : current.quantity = none → source.quantity = none
  fromDate : current.fromDate = none → source.fromDate = none
  toDate : current.toDate = none → source.toDate = none
  currencyCode : current.currencyCode = none → source.currencyCode = none

theorem clearsError_iff (source current : MessageFacts) :
    ClearsError current (preferCurrentTurnExtraction source current) ↔
      (Resolves current → source.temporalError = none) := by
  constructor
  · intro hclears hresolves
    have herror := (hclears hresolves).1
    simpa [preferCurrentTurnExtraction, hresolves.2.2] using herror
  · intro hnone hresolves
    obtain ⟨hfrom, hto, herror⟩ := hresolves
    obtain ⟨fromDate, hfrom⟩ := Option.isSome_iff_exists.mp hfrom
    obtain ⟨toDate, hto⟩ := Option.isSome_iff_exists.mp hto
    have hsource := hnone ⟨by simp [hfrom], by simp [hto], herror⟩
    simp [preferCurrentTurnExtraction, preferConstraints, hfrom, hto, herror, hsource]

/-- Without candidates of its own the current turn states none of the described fields. -/
theorem RecordedFacts.silent (facts : RecordedFacts) (h : facts.candidates = []) :
    facts.constraints.quantity = none ∧ facts.constraints.fromDate = none ∧
      facts.constraints.toDate = none ∧ facts.constraints.currencyCode = none := by
  rw [facts.candidates_eq] at h
  have hquantity : facts.constraints.quantity = none := by
    rcases facts.quantity_cases with hcase | ⟨value, hcase | hcase⟩
    · exact hcase
    · simp [limitValue, hcase, quantityParts] at h
    · simp [limitValue, hcase, quantityParts] at h
  simp [fieldCandidates, textCandidate] at h
  exact ⟨hquantity, h.2.1, h.2.2.1, h.2.2.2.1⟩

theorem limitValue_eq_iff (source current : RecordedFacts) :
    (limitValue current.constraints).toList =
        (limitValue (preferConstraints source.constraints current.constraints)).toList ↔
      (current.constraints.quantity = none → source.constraints.quantity = none) := by
  cases hcurrent : current.constraints.quantity with
  | some quantity => simp [limitValue, preferConstraints, hcurrent]
  | none =>
    rcases source.quantity_cases with hsource | ⟨value, hsource | hsource⟩ <;>
      simp [limitValue, preferConstraints, hcurrent, hsource, quantityParts]

theorem textValue_eq_iff (source current : Option String) :
    (current.map Json.str).toList = ((current.or source).map Json.str).toList ↔
      (current = none → source = none) := by
  cases current with
  | some text => simp
  | none => cases source <;> simp

/-- The candidates taken from one turn describe the constraints chosen field by field exactly
when that turn leaves nothing of theirs to the other. -/
theorem describes_iff (source current : RecordedFacts) :
    Describes (preferCurrentTurnExtraction source.toMessageFacts current.toMessageFacts) ↔
      current.candidates = [] ∨ Restates source.constraints current.constraints := by
  by_cases hsilent : current.candidates = []
  · refine iff_of_true ?_ (Or.inl hsilent)
    obtain ⟨hquantity, hfrom, hto, hcurrency⟩ := current.silent hsilent
    have hsource := source.describes
    constructor
    · simpa [valuesOf, preferCurrentTurnExtraction, preferConstraints, limitValue, hsilent,
        hquantity] using hsource.limit
    · simpa [valuesOf, preferCurrentTurnExtraction, preferConstraints, hsilent, hfrom]
        using hsource.fromDate
    · simpa [valuesOf, preferCurrentTurnExtraction, preferConstraints, hsilent, hto]
        using hsource.toDate
    · simpa [valuesOf, preferCurrentTurnExtraction, preferConstraints, hsilent, hcurrency]
        using hsource.currencyCode
  · have hown := current.describes
    have hvalues : ∀ field, valuesOf
        (preferCurrentTurnExtraction source.toMessageFacts current.toMessageFacts) field =
          valuesOf current.toMessageFacts field := by
      intro field
      simp [valuesOf, preferCurrentTurnExtraction, hsilent]
    rw [or_iff_right hsilent]
    constructor
    · intro hdescribes
      constructor
      · apply (limitValue_eq_iff source current).mp
        rw [← hown.limit, ← hvalues]
        exact hdescribes.limit
      · apply (textValue_eq_iff _ _).mp
        rw [← hown.fromDate, ← hvalues]
        exact hdescribes.fromDate
      · apply (textValue_eq_iff _ _).mp
        rw [← hown.toDate, ← hvalues]
        exact hdescribes.toDate
      · apply (textValue_eq_iff _ _).mp
        rw [← hown.currencyCode, ← hvalues]
        exact hdescribes.currencyCode
    · intro hrestates
      constructor
      · rw [hvalues, hown.limit]
        exact (limitValue_eq_iff source current).mpr hrestates.limit
      · rw [hvalues, hown.fromDate]
        exact (textValue_eq_iff _ _).mpr hrestates.fromDate
      · rw [hvalues, hown.toDate]
        exact (textValue_eq_iff _ _).mpr hrestates.toDate
      · rw [hvalues, hown.currencyCode]
        exact (textValue_eq_iff _ _).mpr hrestates.currencyCode

/-- When the merged facts of two turns are free of an outlived error and described by their
candidates. -/
theorem preferCurrentTurn_consistent_iff (source current : RecordedFacts) :
    (ClearsError current.toMessageFacts
        (preferCurrentTurnExtraction source.toMessageFacts current.toMessageFacts) ∧
      Describes (preferCurrentTurnExtraction source.toMessageFacts current.toMessageFacts)) ↔
    (Resolves current.toMessageFacts → source.temporalError = none) ∧
      (current.candidates = [] ∨ Restates source.constraints current.constraints) := by
  rw [clearsError_iff, describes_iff]

/-! A request with a limit and an open period, and an answer that states the period. -/

namespace OpenPeriod

/-- The dates of the year 2026, as the calendar library writes them. -/
def formatDate (date : NaiveDate) : String :=
  let number (n : ℕ) : String := if n < 10 then "0" ++ toString n else toString n
  "2026-" ++ number date.month ++ "-" ++ number date.day

def now : CanonicalRuntimeContext := ⟨0, ⟨2026, 7, 24, by decide⟩⟩

def extract (message : String) : Option MessageFacts :=
  extractForContext Text.asciiLower (fun _ => none) formatDate now message none

def request : RecordedFacts where
  constraints := { AssistantConstraints.empty with quantity := some (.topN 5) }
  entities := []
  temporalError := some ⟨"temporal_missing_to_date",
    "missing parameter to_date: provide an inclusive from..to range."⟩
  domain := some .client
  candidates := [candidate .limit (.int 5), candidate .domain (.str "client")]
  temporalProvenance := none
  recorded := by decide
  counted := by decide

def answer : RecordedFacts where
  constraints := { AssistantConstraints.empty with
    fromDate := some "2026-06-25", toDate := some "2026-07-24" }
  entities := []
  temporalError := none
  domain := none
  candidates := [candidate .fromDate (.str "2026-06-25"), candidate .toDate (.str "2026-07-24")]
  temporalProvenance := some ⟨"last_n_days_inclusive", (0, 12), 0, "Asia/Jakarta"⟩
  recorded := by decide
  counted := by decide

theorem extract_request :
    extract "top 5 clients from 2026-02-01" = some request.toMessageFacts := by
  decide +kernel

theorem extract_answer : extract "last 30 days" = some answer.toMessageFacts := by
  decide +kernel

/-- The error outlives the period of the answer, and the limit is stated by no candidate. -/
theorem answered_period_blocked :
    extract "top 5 clients from 2026-02-01" = some request.toMessageFacts ∧
      extract "last 30 days" = some answer.toMessageFacts ∧
      ¬ ClearsError answer.toMessageFacts
        (preferCurrentTurnExtraction request.toMessageFacts answer.toMessageFacts) ∧
      ¬ Describes (preferCurrentTurnExtraction request.toMessageFacts answer.toMessageFacts) := by
  refine ⟨extract_request, extract_answer, fun hclears => ?_, fun hdescribes => ?_⟩
  · have herror := (hclears ⟨rfl, rfl, rfl⟩).1
    cases herror
  · have hlimit := hdescribes.limit
    exact absurd hlimit (by decide)

end OpenPeriod

end FineractReports.Extraction
