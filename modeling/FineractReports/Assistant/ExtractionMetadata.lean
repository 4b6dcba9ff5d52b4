import FineractReports.Assistant.CurrentTurn
import FineractReports.Library.Tokens
import FineractReports.Management.AuditEvent

/-!
# Extraction metadata

The facts of a message are kept as JSON in the metadata of the turn, where the planner reads
them again. A message without facts writes nothing, so what an earlier turn wrote is read in
its place; conflicts with the intent are written beside the facts. `time` stands for the text
of an instant; the sequences a struct can also be read from are left out.
-/

namespace FineractReports.Extraction

open CanonicalState (PayloadField domainFromValue)
open Management (textValue readText readVariant optionValue readOption readOption_optionValue
  readText_textValue readVariant_textValue)

/-! ### The JSON form of the facts -/

section Lists

variable {α : Type}

def listValue (write : α → Json) (items : List α) : Json := .arr (items.map write)

def readList (read : Json → Option α) (value : Json) : Option (List α) :=
  value.asArray?.bind fun items => items.mapM read

/-- The members of `#[serde(default)]` lists may be missing. -/
def readDefaultList (read : Json → Option α) : Option Json → Option (List α)
  | none => some []
  | some value => readList read value

theorem readList_listValue {write : α → Json} {read : Json → Option α} {items : List α}
    (h : ∀ item ∈ items, read (write item) = some item) :
    readList read (listValue write items) = some items := by
  simp only [readList, listValue, Json.asArray?, Option.bind_some]
  induction items with
  | nil => rfl
  | cons item rest ih =>
    obtain ⟨hitem, hrest⟩ := List.forall_mem_cons.mp h
    simp [List.mapM_cons, hitem, ih hrest]

end Lists

def readString (value : Json) : Option String := value.asStr?

def quantityToValue : Quantity → Json
  | .all => .obj [("mode", .str "all")]
  | .default => .obj [("mode", .str "default")]
  | .limit value => .obj [("mode", .str "limit"), ("value", .int value)]
  | .topN value => .obj [("mode", .str "top_n"), ("value", .int value)]

def quantityFromValue (value : Json) : Option Quantity := do
  let mode ← (value.get? "mode").bind Json.asStr?
  match mode with
  | "all" => pure .all
  | "default" => pure .default
  | "limit" => do
    let limit ← (value.get? "value").bind Json.asI64?
    pure (.limit limit)
  | "top_n" => do
    let limit ← (value.get? "value").bind Json.asI64?
    pure (.topN limit)
  | _ => none

def constraintsToValue (constraints : AssistantConstraints) : Json :=
  .obj [("from_date", optionValue .str constraints.fromDate),
    ("to_date", optionValue .str constraints.toDate),
    ("quantity", optionValue quantityToValue constraints.quantity),
    ("currency_code", optionValue .str constraints.currencyCode),
    ("product_ids", optionValue (listValue .int) constraints.productIds),
    ("office_ids", optionValue (listValue .int) constraints.officeIds),
    ("metric", optionValue .str constraints.metric),
    ("transaction_amount", optionValue .str constraints.transactionAmount)]

def constraintsFromValue (value : Json) : Option AssistantConstraints := do
  let fromDate ← readOption readString (value.get? "from_date")
  let toDate ← readOption readString (value.get? "to_date")
  let quantity ← readOption quantityFromValue (value.get? "quantity")
  let currencyCode ← readOption readString (value.get? "currency_code")
  let productIds ← readOption (readList Json.asI64?) (value.get? "product_ids")
  let officeIds ← readOption (readList Json.asI64?) (value.get? "office_ids")
  let metric ← readOption readString (value.get? "metric")
  let transactionAmount ← readOption readString (value.get? "transaction_amount")
  pure ⟨fromDate, toDate, quantity, currencyCode, productIds, officeIds, metric, transactionAmount⟩

def entityTypeName : AssistantEntityType → String
  | .personName => "person_name"
  | .clientId => "client_id"
  | .office => "office"
  | .datePeriod => "date_period"
  | .currency => "currency"
  | .product => "product"
  | .metric => "metric"
  | .capabilityHint => "capability_hint"
  | .accountNumber => "account_number"
  | .chargeType => "charge_type"
  | .unknown => "unknown"

def entityTypeFormat : TextFormat AssistantEntityType :=
  .named [.personName, .clientId, .office, .datePeriod, .currency, .product, .metric,
    .capabilityHint, .accountNumber, .chargeType, .unknown] entityTypeName
    (by intro kind; cases kind <;> decide) (by decide)

/-- Every other name is the unknown type. -/
def entityTypeFromValue (value : Json) : Option AssistantEntityType :=
  value.variantName?.map fun name => (entityTypeFormat.read name).getD .unknown

/-- Extracted entities are of confidence one. -/
def entityToValue (entity : AssistantEntity) : Json :=
  .obj [("entity_type", textValue entityTypeFormat entity.entityType),
    ("value", .str entity.value), ("canonical", optionValue .str entity.canonical),
    ("confidence", .float "1.0")]

/-- A number, which nothing reads. -/
def readNumber : Json → Option Unit
  | .int _ | .float _ => some ()
  | _ => none

def entityFromValue (value : Json) : Option AssistantEntity := do
  let entityType ← (value.get? "entity_type").bind entityTypeFromValue
  let text ← (value.get? "value").bind readString
  let canonical ← readOption readString (value.get? "canonical")
  let _ ← readOption readNumber (value.get? "confidence")
  pure ⟨entityType, text, canonical⟩

def fieldFormat : TextFormat PayloadField :=
  .named [.limit, .fromDate, .toDate, .currencyCode, .metric, .domain, .personName]
    (fun
      | .limit => "limit"
      | .fromDate => "from_date"
      | .toDate => "to_date"
      | .currencyCode => "currency_code"
      | .metric => "metric"
      | .domain => "domain"
      | .personName => "person_name")
    (by intro field; cases field <;> decide) (by decide)

def sourceFormat : TextFormat PayloadSource :=
  .named [.userText, .llmClaim, .catalogDefault, .unknown]
    (fun
      | .userText => "user_text"
      | .llmClaim => "llm_claim"
      | .catalogDefault => "catalog_default"
      | .unknown => "unknown")
    (by intro source; cases source <;> decide) (by decide)

/-- A source of a newer producer is read as the unknown one. -/
def sourceFromValue (value : Json) : Option PayloadSource :=
  value.variantName?.map fun name => (sourceFormat.read name).getD .unknown

def trustFormat : TextFormat PayloadTrust :=
  .named [.trusted, .untrusted, .rejected]
    (fun
      | .trusted => "trusted"
      | .untrusted => "untrusted"
      | .rejected => "rejected")
    (by intro trust; cases trust <;> decide) (by decide)

def candidateToValue (candidate : SourcedCandidate) : Json :=
  .obj [("field", textValue fieldFormat candidate.field), ("value", candidate.value),
    ("source", textValue sourceFormat candidate.source),
    ("trust", textValue trustFormat candidate.trust)]

def candidateFromValue (value : Json) : Option SourcedCandidate := do
  let field ← (value.get? "field").bind (readVariant fieldFormat)
  let own ← value.get? "value"
  let source ← (value.get? "source").bind sourceFromValue
  let trust ← (value.get? "trust").bind (readVariant trustFormat)
  pure ⟨⟨field, own⟩, source, trust⟩

/-- An offset of a text. -/
def readOffset : Json → Option ℕ
  | .int value => if 0 ≤ value then some value.toNat else none
  | _ => none

def readSpan (value : Json) : Option (ℕ × ℕ) := do
  let offsets ← readList readOffset value
  match offsets with
  | [start, stop] => pure (start, stop)
  | _ => none

section Instants

variable (time : TextFormat ℤ)

def provenanceToValue (provenance : TemporalProvenance) : Json :=
  .obj [("rule", .str provenance.rule),
    ("phrase_span", .arr [.int provenance.phraseSpan.1, .int provenance.phraseSpan.2]),
    ("reference_instant", textValue time provenance.referenceInstant),
    ("timezone", .str provenance.timezone)]

def provenanceFromValue (value : Json) : Option TemporalProvenance := do
  let rule ← (value.get? "rule").bind readString
  let phraseSpan ← (value.get? "phrase_span").bind readSpan
  let referenceInstant ← (value.get? "reference_instant").bind (readText time)
  let timezone ← (value.get? "timezone").bind readString
  pure ⟨rule, phraseSpan, referenceInstant, timezone⟩

def temporalErrorToValue (error : TemporalError) : Json :=
  .obj [("code", .str error.code), ("message", .str error.message)]

def temporalErrorFromValue (value : Json) : Option TemporalError := do
  let code ← (value.get? "code").bind readString
  let message ← (value.get? "message").bind readString
  pure ⟨code, message⟩

def factsToValue (facts : MessageFacts) : Json :=
  .obj [("constraints", constraintsToValue facts.constraints),
    ("domain", optionValue (fun domain => .str (domainName domain)) facts.domain),
    ("entities", listValue entityToValue facts.entities),
    ("candidates", listValue candidateToValue facts.candidates),
    ("temporal_provenance", optionValue (provenanceToValue time) facts.temporalProvenance),
    ("temporal_error", optionValue temporalErrorToValue facts.temporalError)]

def factsFromValue (value : Json) : Option MessageFacts := do
  let constraints ← (value.get? "constraints").bind constraintsFromValue
  let domain ← readOption domainFromValue (value.get? "domain")
  let entities ← (value.get? "entities").bind (readList entityFromValue)
  let candidates ← readDefaultList candidateFromValue (value.get? "candidates")
  let temporalProvenance ←
    readOption (provenanceFromValue time) (value.get? "temporal_provenance")
  let temporalError ← readOption temporalErrorFromValue (value.get? "temporal_error")
  pure ⟨⟨constraints, entities, temporalError⟩, domain, candidates, temporalProvenance⟩

/-! ### The metadata of a turn -/

def conflictToValue (conflict : DeterministicExtractionConflict) : Json :=
  .obj [("field", textValue fieldFormat conflict.field), ("llm_value", conflict.llmValue),
    ("trusted_value", conflict.trustedValue), ("reason", .str conflict.reason)]

def EXTRACTION_KEY : String := "deterministic_extraction"

def CONFLICTS_KEY : String := "deterministic_extraction_conflicts"

/-- `metadata[key] = value`: null becomes an object, any other value panics. -/
def setMember (metadata : Json) (key : String) (value : Json) : Option Json :=
  match metadata with
  | .obj members => some (.obj (Assoc.insert members key value))
  | .null => some (.obj [(key, value)])
  | _ => none

def recordExtractionMetadata (metadata : Json) (facts : MessageFacts) : Option Json :=
  if facts.isEmpty = true then some metadata
  else setMember metadata EXTRACTION_KEY (factsToValue time facts)

def recordConflicts (metadata : Json) (conflicts : List DeterministicExtractionConflict) :
    Option Json :=
  if conflicts = [] then some metadata
  else setMember metadata CONFLICTS_KEY (listValue conflictToValue conflicts)

/-- The extraction as the planner reads it. -/
def storedExtraction (metadata : Json) : Option MessageFacts :=
  (metadata.get? EXTRACTION_KEY).bind (factsFromValue time)

variable (toLowercase : String → String) (parseDate : String → Option NaiveDate)
  (formatDate : NaiveDate → String) (now : CanonicalRuntimeContext)

def mergeDeterministicExtractionAt (metadata : Json) (intent : AssistantIntent) (message : String)
    (canonical : Option CanonicalRuntimeContext) : Option (Json × AssistantIntent) := do
  let facts ← extractForContext toLowercase parseDate formatDate now message canonical
  let marked ← recordConflicts metadata (conflictsWith facts intent)
  let recorded ← recordExtractionMetadata time marked facts
  pure (recorded, mergeInto facts intent)

end Instants

/-! ### What is written is read back -/

section RoundTrip

variable {time : TextFormat ℤ}

/-- The numbers of the constraints are `i64` values. -/
structure Representable (constraints : AssistantConstraints) : Prop where
  quantity : ∀ parts, constraints.quantity.bind quantityParts = some parts →
    (Json.int parts.2).asI64? = some parts.2
  productIds : ∀ ids, constraints.productIds = some ids → ∀ id ∈ ids, (Json.int id).asI64? = some id
  officeIds : ∀ ids, constraints.officeIds = some ids → ∀ id ∈ ids, (Json.int id).asI64? = some id

@[simp] theorem readOption_str (text : Option String) :
    readOption readString (some (optionValue .str text)) = some text := by
  cases text <;> rfl

theorem quantityFromValue_toValue {quantity : Quantity}
    (h : ∀ parts, quantityParts quantity = some parts →
      (Json.int parts.2).asI64? = some parts.2) :
    quantityFromValue (quantityToValue quantity) = some quantity := by
  cases quantity with
  | all => rfl
  | default => rfl
  | limit value =>
    have hvalue := h _ rfl
    simp only at hvalue
    simp [quantityToValue, quantityFromValue, Assoc.get?_cons, Json.asStr?, hvalue]
  | topN value =>
    have hvalue := h _ rfl
    simp only at hvalue
    simp [quantityToValue, quantityFromValue, Assoc.get?_cons, Json.asStr?, hvalue]

/-- A member that is written for one value only when there is one. -/
theorem readOption_some {α : Type} {write : α → Json} {read : Json → Option α} {o : Option α}
    (hnull : ∀ a, write a ≠ .null) (hread : ∀ a ∈ o, read (write a) = some a) :
    readOption read (some (optionValue write o)) = some o := by
  cases o with
  | none => rfl
  | some a =>
    have hback := hread a rfl
    simp only [optionValue]
    cases hvalue : write a with
    | null => exact absurd hvalue (hnull a)
    | _ =>
      rw [hvalue] at hback
      simp [readOption, hback]

theorem constraintsFromValue_toValue {constraints : AssistantConstraints}
    (h : Representable constraints) :
    constraintsFromValue (constraintsToValue constraints) = some constraints := by
  have hquantity : readOption quantityFromValue
      (some (optionValue quantityToValue constraints.quantity)) = some constraints.quantity := by
    apply readOption_some
    · intro quantity
      cases quantity <;> exact Json.noConfusion
    · intro quantity hmem
      apply quantityFromValue_toValue
      intro parts hparts
      exact h.quantity parts (by rw [Option.mem_def.mp hmem]; exact hparts)
  have hids : ∀ ids : Option (List ℤ), (∀ items, ids = some items →
      ∀ id ∈ items, (Json.int id).asI64? = some id) →
      readOption (readList Json.asI64?) (some (optionValue (listValue .int) ids)) = some ids := by
    intro ids hrange
    apply readOption_some
    · exact fun _ => Json.noConfusion
    · exact fun items hmem => readList_listValue (hrange items hmem)
  simp [constraintsToValue, constraintsFromValue, Assoc.get?_cons, hquantity,
    hids _ h.productIds, hids _ h.officeIds]

theorem entityFromValue_toValue (entity : AssistantEntity) :
    entityFromValue (entityToValue entity) = some entity := by
  have hconfidence : readOption readNumber (some (.float "1.0")) = some (some ()) := rfl
  have hvalue : readString (.str entity.value) = some entity.value := rfl
  simp [entityFromValue, entityToValue, Assoc.get?_cons, entityTypeFromValue, textValue,
    Json.variantName?, hvalue, hconfidence]

theorem candidateFromValue_toValue (candidate : SourcedCandidate) :
    candidateFromValue (candidateToValue candidate) = some candidate := by
  simp [candidateFromValue, candidateToValue, Assoc.get?_cons, sourceFromValue, textValue,
    Json.variantName?, readVariant]

theorem provenanceFromValue_toValue (provenance : TemporalProvenance) :
    provenanceFromValue time (provenanceToValue time provenance) = some provenance := by
  simp [provenanceFromValue, provenanceToValue, Assoc.get?_cons, readString, Json.asStr?,
    readSpan, readList, Json.asArray?, readOffset, readText_textValue]

theorem domainFromValue_name (domain : AssistantDomain) :
    domainFromValue (.str (domainName domain)) = some domain := by
  cases domain <;> rfl

/-- Facts with numbers of the source's range are read back as they were written. -/
theorem factsFromValue_toValue {facts : MessageFacts} (h : Representable facts.constraints) :
    factsFromValue time (factsToValue time facts) = some facts := by
  have hdomain : readOption domainFromValue
      (some (optionValue (fun domain => .str (domainName domain)) facts.domain)) =
        some facts.domain :=
    readOption_optionValue (fun _ => Json.noConfusion) domainFromValue_name _
  have hprovenance : readOption (provenanceFromValue time)
      (some (optionValue (provenanceToValue time) facts.temporalProvenance)) =
        some facts.temporalProvenance :=
    readOption_optionValue (fun _ => Json.noConfusion) provenanceFromValue_toValue _
  have herror : readOption temporalErrorFromValue
      (some (optionValue temporalErrorToValue facts.temporalError)) = some facts.temporalError := by
    cases facts.temporalError <;> rfl
  have hentities : readList entityFromValue (listValue entityToValue facts.entities) =
      some facts.entities :=
    readList_listValue fun entity _ => entityFromValue_toValue entity
  have hcandidates : readList candidateFromValue (listValue candidateToValue facts.candidates) =
      some facts.candidates :=
    readList_listValue fun candidate _ => candidateFromValue_toValue candidate
  simp [factsFromValue, factsToValue, Assoc.get?_cons, constraintsFromValue_toValue h, hdomain,
    hprovenance, herror, hentities, readDefaultList, hcandidates]

end RoundTrip

/-! ### The facts of a message in the metadata -/

section Merge

variable {time : TextFormat ℤ} {toLowercase : String → String}
  {parseDate : String → Option NaiveDate} {formatDate : NaiveDate → String}
  {now : CanonicalRuntimeContext} {message : String} {canonical : Option CanonicalRuntimeContext}
  {facts : MessageFacts}

theorem extractForContext_representable
    (h : extractForContext toLowercase parseDate formatDate now message canonical = some facts) :
    Representable facts.constraints := by
  obtain ⟨resolved, rfl⟩ := extractForContext_eq_some h
  constructor
  · intro parts hparts
    obtain ⟨quantity, hquantity, hparts⟩ := Option.bind_eq_some_iff.mp hparts
    obtain ⟨value, hlow, hhigh, hcases⟩ := extractQuantity_counted hquantity
    have hvalue : parts.2 = value := by
      rcases hcases with rfl | rfl <;> simp [quantityParts] at hparts <;> rw [← hparts]
    rw [hvalue, Json.asI64?, if_pos ⟨by omega, by omega⟩]
  · intro ids hids
    cases hids
  · intro ids hids
    cases hids

/-- An extraction without facts has no provenance either. -/
theorem extractForContext_empty
    (h : extractForContext toLowercase parseDate formatDate now message canonical = some facts)
    (hempty : facts.isEmpty = true) : facts = MessageFacts.empty := by
  obtain ⟨resolved, rfl⟩ := extractForContext_eq_some h
  simp only [MessageFacts.isEmpty, decide_eq_true_eq] at hempty
  obtain ⟨hconstraints, hdomain, hentities, hcandidates, herror⟩ := hempty
  have hperiod : resolved.toOption.bind id = none := by
    have hfrom := congrArg AssistantConstraints.fromDate hconstraints
    simpa [recordCandidates, factsBeforeCandidates, AssistantConstraints.empty] using hfrom
  have hprovenance : (recordCandidates
      (factsBeforeCandidates toLowercase formatDate message resolved)).temporalProvenance =
        none := by
    change (resolved.toOption.bind id).map (·.provenance) = none
    rw [hperiod]
    rfl
  generalize recordCandidates (factsBeforeCandidates toLowercase formatDate message resolved) =
    extracted at *
  obtain ⟨⟨constraints, entities, temporalError⟩, domain, candidates, provenance⟩ := extracted
  simp only at hconstraints hdomain hentities hcandidates herror hprovenance
  subst hconstraints hdomain hentities hcandidates herror hprovenance
  rfl

theorem keys_ne : EXTRACTION_KEY ≠ CONFLICTS_KEY := by decide

/-- What recording leaves in the members of an object. -/
theorem recordConflicts_obj (members : List (String × Json))
    (conflicts : List DeterministicExtractionConflict) :
    ∃ marked, recordConflicts (.obj members) conflicts = some (.obj marked) ∧
      (∀ key, key ≠ CONFLICTS_KEY → Assoc.get? marked key = Assoc.get? members key) ∧
      Assoc.get? marked CONFLICTS_KEY =
        if conflicts = [] then Assoc.get? members CONFLICTS_KEY
        else some (listValue conflictToValue conflicts) := by
  unfold recordConflicts
  split_ifs with hnone
  · exact ⟨members, rfl, fun _ _ => rfl, rfl⟩
  · refine ⟨_, rfl, fun key hkey => ?_, ?_⟩
    · exact Assoc.get?_insert_of_ne members _ hkey.symm
    · exact Assoc.get?_insert_self members _ _

theorem recordExtractionMetadata_obj (members : List (String × Json)) (facts : MessageFacts) :
    ∃ recorded, recordExtractionMetadata time (.obj members) facts = some (.obj recorded) ∧
      (∀ key, key ≠ EXTRACTION_KEY → Assoc.get? recorded key = Assoc.get? members key) ∧
      Assoc.get? recorded EXTRACTION_KEY =
        if facts.isEmpty = true then Assoc.get? members EXTRACTION_KEY
        else some (factsToValue time facts) := by
  unfold recordExtractionMetadata
  split_ifs with hempty
  · exact ⟨members, rfl, fun _ _ => rfl, rfl⟩
  · refine ⟨_, rfl, fun key hkey => ?_, ?_⟩
    · exact Assoc.get?_insert_of_ne members _ hkey.symm
    · exact Assoc.get?_insert_self members _ _

/-- The merge is defined where the extraction is; it writes the facts of the message unless it
has none, and beside them the conflicts with the intent if there are any. -/
theorem mergeDeterministicExtractionAt_obj {members : List (String × Json)}
    (intent : AssistantIntent)
    (h : extractForContext toLowercase parseDate formatDate now message canonical = some facts) :
    ∃ recorded, mergeDeterministicExtractionAt time toLowercase parseDate formatDate now
        (.obj members) intent message canonical = some (.obj recorded, mergeInto facts intent) ∧
      (∀ key, key ≠ EXTRACTION_KEY → key ≠ CONFLICTS_KEY →
        Assoc.get? recorded key = Assoc.get? members key) ∧
      (Assoc.get? recorded CONFLICTS_KEY =
        if conflictsWith facts intent = [] then Assoc.get? members CONFLICTS_KEY
        else some (listValue conflictToValue (conflictsWith facts intent))) ∧
      Assoc.get? recorded EXTRACTION_KEY =
        if facts.isEmpty = true then Assoc.get? members EXTRACTION_KEY
        else some (factsToValue time facts) := by
  obtain ⟨marked, hmarked, hkept, hconflicts⟩ :=
    recordConflicts_obj members (conflictsWith facts intent)
  have hrecording := @recordExtractionMetadata_obj time marked facts
  obtain ⟨recorded, hrecorded, hkept', hextraction⟩ := hrecording
  refine ⟨recorded, ?_, fun key hkey hkey' => ?_, ?_, ?_⟩
  · simp [mergeDeterministicExtractionAt, h, hmarked, hrecorded]
  · rw [hkept' key hkey, hkept key hkey']
  · rw [hkept' _ keys_ne.symm, hconflicts]
  · rw [hextraction, hkept _ keys_ne]

/-- After the merge the planner reads the facts of the new message, or of no message where it
has none and no earlier turn left any; but for the conflicts every other member is kept. -/
theorem merge_stores_extraction (time : TextFormat ℤ) (toLowercase : String → String)
    (parseDate : String → Option NaiveDate) (formatDate : NaiveDate → String)
    (now : CanonicalRuntimeContext) (members : List (String × Json)) (intent : AssistantIntent)
    (message : String) (canonical : Option CanonicalRuntimeContext) (facts : MessageFacts)
    (h : extractForContext toLowercase parseDate formatDate now message canonical = some facts) :
    ∃ recorded, mergeDeterministicExtractionAt time toLowercase parseDate formatDate now
        (.obj members) intent message canonical = some (.obj recorded, mergeInto facts intent) ∧
      (facts.isEmpty = false ∨ storedExtraction time (.obj members) = none →
        (storedExtraction time (.obj recorded)).getD MessageFacts.empty = facts) ∧
      (∀ key, key ≠ EXTRACTION_KEY → key ≠ CONFLICTS_KEY →
        (Json.obj recorded).get? key = (Json.obj members).get? key) ∧
      (Json.obj recorded).get? CONFLICTS_KEY =
        if conflictsWith facts intent = [] then (Json.obj members).get? CONFLICTS_KEY
        else some (listValue conflictToValue (conflictsWith facts intent)) := by
  obtain ⟨recorded, hmerged, hkept, hconflicts, hextraction⟩ :=
    @mergeDeterministicExtractionAt_obj time toLowercase parseDate formatDate now message canonical
      facts members intent h
  refine ⟨recorded, hmerged, fun hfresh => ?_, hkept, hconflicts⟩
  cases hempty : facts.isEmpty with
  | false =>
    rw [hempty] at hextraction
    simp only [storedExtraction, Json.get?_obj, hextraction, Bool.false_eq_true, if_false,
      Option.bind_some, factsFromValue_toValue (extractForContext_representable h),
      Option.getD_some]
  | true =>
    rw [hempty] at hextraction hfresh
    have hnone : storedExtraction time (.obj recorded) = none := by
      rcases hfresh with hfalse | hnone
      · cases hfalse
      · simpa [storedExtraction, hextraction] using hnone
    rw [hnone, extractForContext_empty h hempty]
    rfl

end Merge

/-! An answer without facts after a turn that stated a period, and a period that the router
read otherwise. -/

namespace LaterTurn

/-- The decimal texts of instants, but for the epoch. -/
def decimals : TextFormat ℤ where
  write
    | .ofNat n => toString n
    | .negSucc n => "-" ++ toString n
  read text :=
    if text.toList.head? = some '-' then (Text.parseDigits text.toList.tail).map Int.negSucc
    else (Text.parseDigits text.toList).map Int.ofNat
  read_write instant := by
    cases instant with
    | negSucc n =>
      have htext : ("-" ++ toString n).toList = '-' :: (toString n).toList :=
        String.toList_append
      rw [htext, List.head?_cons, if_pos rfl, List.tail_cons, Text.parseDigits_repr]
      rfl
    | ofNat n =>
      have hhead : (toString n).toList.head? ≠ some '-' := by
        intro hhead
        have hdigit := Text.repr_isDigit (List.mem_of_mem_head? (Option.mem_def.mpr hhead))
        cases hdigit
      rw [if_neg hhead, Text.parseDigits_repr]
      rfl

def time : TextFormat ℤ := decimals.withText 0 "1970-01-01T00:00:00Z" (by decide)

def merge (metadata : Json) (intent : AssistantIntent) (message : String) :
    Option (Json × AssistantIntent) :=
  mergeDeterministicExtractionAt time Text.asciiLower (fun _ => none) OpenPeriod.formatDate
    OpenPeriod.now metadata intent message none

def stored : Json := .obj [(EXTRACTION_KEY, factsToValue time OpenPeriod.answer.toMessageFacts)]

/-- What the router read: the dates of a period, if any. -/
def routed (fromDate toDate : Option String) : AssistantIntent where
  intent := .reportRequest
  domain := .unknown
  requestShape := ⟨.unknown, .unknown, .unknown, .unknown, .unknown⟩
  canonicalQueryEn := ""
  entities := []
  constraints := { AssistantConstraints.empty with fromDate := fromDate, toDate := toDate }
  source := none

theorem extract_thanks : extractForContext Text.asciiLower (fun _ => none) OpenPeriod.formatDate
    OpenPeriod.now "thank you" none = some MessageFacts.empty := by
  decide +kernel

theorem storedExtraction_stored :
    storedExtraction time stored = some OpenPeriod.answer.toMessageFacts := by
  have hread : factsFromValue time (factsToValue time OpenPeriod.answer.toMessageFacts) =
      some OpenPeriod.answer.toMessageFacts :=
    factsFromValue_toValue (extractForContext_representable OpenPeriod.extract_answer)
  exact hread

/-- The period of an earlier turn is read for a message without facts, and the conflicts with
the router are a member of their own. -/
theorem earlier_extraction_stays :
    extractForContext Text.asciiLower (fun _ => none) OpenPeriod.formatDate OpenPeriod.now
        "thank you" none = some MessageFacts.empty ∧
      (∀ out, merge stored (routed none none) "thank you" = some out →
        (storedExtraction time out.1).getD MessageFacts.empty ≠ MessageFacts.empty) ∧
      ∀ out, merge (.obj []) (routed (some "2026-07-01") none) "last 30 days" = some out →
        out.1.get? CONFLICTS_KEY ≠ (Json.obj []).get? CONFLICTS_KEY := by
  refine ⟨extract_thanks, fun out hout => ?_, fun out hout => ?_⟩
  · have hmerged : merge stored (routed none none) "thank you" =
        some (stored, mergeInto MessageFacts.empty (routed none none)) := by
      simp only [merge, mergeDeterministicExtractionAt, extract_thanks]
      rfl
    obtain rfl := Option.some.inj (hmerged.symm.trans hout)
    rw [storedExtraction_stored]
    decide
  · obtain ⟨recorded, hmerged, -, hconflicts, -⟩ := mergeDeterministicExtractionAt_obj
      (routed (some "2026-07-01") none) OpenPeriod.extract_answer
    obtain rfl := Option.some.inj (hmerged.symm.trans hout)
    rw [Json.get?_obj, hconflicts]
    decide

theorem merge_stores_extraction_answer :
    ∃ recorded, merge (.obj []) (routed none none) "last 30 days" =
        some (.obj recorded, mergeInto OpenPeriod.answer.toMessageFacts (routed none none)) ∧
      (OpenPeriod.answer.isEmpty = false ∨ storedExtraction time (.obj []) = none →
        (storedExtraction time (.obj recorded)).getD MessageFacts.empty =
          OpenPeriod.answer.toMessageFacts) ∧
      (∀ key, key ≠ EXTRACTION_KEY → key ≠ CONFLICTS_KEY →
        (Json.obj recorded).get? key = (Json.obj []).get? key) ∧
      (Json.obj recorded).get? CONFLICTS_KEY =
        if conflictsWith OpenPeriod.answer.toMessageFacts (routed none none) = [] then
          (Json.obj []).get? CONFLICTS_KEY
        else some (listValue conflictToValue
          (conflictsWith OpenPeriod.answer.toMessageFacts (routed none none))) :=
  merge_stores_extraction time Text.asciiLower (fun _ => none) OpenPeriod.formatDate
    OpenPeriod.now [] (routed none none) "last 30 days" none OpenPeriod.answer.toMessageFacts
    OpenPeriod.extract_answer

end LaterTurn

end FineractReports.Extraction
