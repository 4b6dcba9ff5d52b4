import FineractReports.Assistant.FactMerge
import FineractReports.Json

/-!
# The observations of a request

What a request says becomes observations: first what the router understood, then what the
deterministic extractor read. An answered clarification becomes observations through its
patch. `isDecimal` stands for the parser of the decimal library, `uuidV3` for the ids made
of a name.
-/

namespace FineractReports.CanonicalState

inductive PayloadField where
  | limit | fromDate | toDate | currencyCode | metric | domain | personName
deriving DecidableEq, Repr

/-- A field the extractor filled; where it read it and how far it is trusted are left out. -/
structure PayloadCandidate where
  field : PayloadField
  value : Json
deriving DecidableEq

/-- What the extractor read, with the raw candidates. -/
structure RequestExtraction extends DeterministicExtraction where
  candidates : List PayloadCandidate
deriving DecidableEq

/-- The name of a field in its debug form. -/
def fieldName : ConstraintField → String
  | .limitMode => "LimitMode"
  | .limitValue => "LimitValue"
  | .fromDate => "FromDate"
  | .toDate => "ToDate"
  | .currencyCode => "CurrencyCode"
  | .metric => "Metric"
  | .transactionAmount => "TransactionAmount"
  | .domain => "Domain"
  | .personName => "PersonName"
  | .clientId => "ClientId"
  | .office => "Office"
  | .product => "Product"
  | .productIds => "ProductIds"
  | .officeIds => "OfficeIds"
  | .chargeType => "ChargeType"
  | .accountNumber => "AccountNumber"

def stableUuid (jobId : Uuid) (discriminator : ℕ) : Uuid :=
  (BitVec.ofNat 128 jobId ^^^ (BitVec.ofNat 128 discriminator).rotateLeft 61).toNat

/-! ### Patches -/

def patchExtractorVersion : FactSourceKind → String
  | .clarification => "clarification_patch_v1"
  | .approvedDefault => "approved_default_v1"
  | _ => "constraint_patch_v1"

def patchObservation (uuidV3 : Uuid → String → Uuid) (jobId : Uuid) (sourceId : String)
    (sequence : ℤ) (sourceKind : FactSourceKind) (observedAt : ℤ)
    (entry : ConstraintField × TypedFactValue) : FactObservation where
  id := uuidV3 jobId (sourceId ++ ":" ++ fieldName entry.1)
  jobId := jobId
  sequence := sequence
  sourceKind := sourceKind
  sourceId := sourceId
  fieldPath := entry.1
  typedValue := entry.2
  confidence := none
  extractorVersion := patchExtractorVersion sourceKind
  observedAt := observedAt

/-- The entries in key order, each checked before it is observed; the first failure ends it. -/
def observeEntries (uuidV3 : Uuid → String → Uuid) (jobId : Uuid) (sourceId : String)
    (sourceKind : FactSourceKind) (observedAt : ℤ) (contracts : ConstraintContracts) :
    ℤ → List (ConstraintField × TypedFactValue) → Except MergeError (List FactObservation)
  | _, [] => .ok []
  | sequence, entry :: rest => do
    let contract ← okOr (Assoc.get? contracts entry.1) (.missingContract entry.1)
    validate entry.1 entry.2 contract
    let observations ←
      observeEntries uuidV3 jobId sourceId sourceKind observedAt contracts (sequence + 1) rest
    return patchObservation uuidV3 jobId sourceId sequence sourceKind observedAt entry ::
      observations

def observationsFromPatchWithSourceKind (uuidV3 : Uuid → String → Uuid) (jobId : Uuid)
    (sourceId : String) (firstSequence : ℤ) (sourceKind : FactSourceKind)
    (patch : ConstraintPatch) (observedAt : ℤ) (contracts : ConstraintContracts) :
    Except MergeError (List FactObservation) :=
  observeEntries uuidV3 jobId sourceId sourceKind observedAt contracts firstSequence patch.entries

def observationsFromPatch (uuidV3 : Uuid → String → Uuid) (jobId : Uuid) (sourceId : String)
    (firstSequence : ℤ) (patch : ConstraintPatch) (observedAt : ℤ)
    (contracts : ConstraintContracts) : Except MergeError (List FactObservation) :=
  observationsFromPatchWithSourceKind uuidV3 jobId sourceId firstSequence .clarification patch
    observedAt contracts

/-! ### The original request -/

def quantityFacts : Quantity → List (ConstraintField × TypedFactValue)
  | .all => [(.limitMode, .limitMode .all)]
  | .default => [(.limitMode, .limitMode .default)]
  | .limit value => [(.limitMode, .limitMode .limit), (.limitValue, .integer value)]
  | .topN value => [(.limitMode, .limitMode .topN), (.limitValue, .integer value)]

def optionalFact {α : Type} (o : Option α) (field : ConstraintField) (value : α → TypedFactValue) :
    List (ConstraintField × TypedFactValue) :=
  (o.map fun a => (field, value a)).toList

/-- The constraints the router read. -/
def constraintFacts (isDecimal : String → Bool) (constraints : AssistantConstraints) :
    List (ConstraintField × TypedFactValue) :=
  (constraints.quantity.map quantityFacts).getD [] ++
    optionalFact constraints.fromDate .fromDate .date ++
    optionalFact constraints.toDate .toDate .date ++
    optionalFact constraints.currencyCode .currencyCode .currencyCode ++
    optionalFact constraints.metric .metric .metric ++
    optionalFact (constraints.transactionAmount.filter fun text => isDecimal text)
      .transactionAmount .decimal

def domainFacts (domain : AssistantDomain) : List (ConstraintField × TypedFactValue) :=
  if domain = .unknown then [] else [(.domain, .domain domain)]

/-- A domain by its name; every other name is the unknown one. -/
def domainNamed : String → AssistantDomain
  | "savings" => .savings
  | "client" => .client
  | "organization" => .organization
  | "group_center" => .groupCenter
  | "loan" => .loan
  | "accounting" => .accounting
  | "tax" => .tax
  | "audit" => .audit
  | _ => .unknown

def domainFromValue (value : Json) : Option AssistantDomain :=
  value.variantName?.map domainNamed

def candidateFact (candidate : PayloadCandidate) : Option (ConstraintField × TypedFactValue) :=
  match candidate.field with
  | .limit => candidate.value.asI64?.map fun value => (.limitValue, .integer value)
  | .fromDate => candidate.value.asStr?.map fun text => (.fromDate, .date text)
  | .toDate => candidate.value.asStr?.map fun text => (.toDate, .date text)
  | .currencyCode => candidate.value.asStr?.map fun text => (.currencyCode, .currencyCode text)
  | .metric => candidate.value.asStr?.map fun text => (.metric, .metric text)
  | .domain => (domainFromValue candidate.value).map fun domain => (.domain, .domain domain)
  | .personName => candidate.value.asStr?.map fun text => (.personName, .personName text)

/-- What the router understood. -/
def intentFacts (isDecimal : String → Bool) (intent : AssistantIntent) :
    List (ConstraintField × TypedFactValue) :=
  constraintFacts isDecimal intent.constraints ++ domainFacts intent.domain ++
    intent.entities.filterMap entityFact

/-- What the extractor read. -/
def extractionFacts (extraction : RequestExtraction) : List (ConstraintField × TypedFactValue) :=
  extraction.candidates.filterMap candidateFact ++ extraction.entities.filterMap entityFact

def requestObservation (jobId : Uuid) (sourceId : String) (originalLen : ℕ) (observedAt : ℤ)
    (index : ℕ) (fact : ConstraintField × TypedFactValue) : FactObservation where
  id := stableUuid jobId (index + 10)
  jobId := jobId
  sequence := index + 1
  sourceKind := if index < originalLen then .originalRequest else .deterministicResolver
  sourceId := sourceId
  fieldPath := fact.1
  typedValue := fact.2
  confidence := none
  extractorVersion :=
    if index < originalLen then "initial_request_v1" else "deterministic_extraction_v1"
  observedAt := observedAt

def originalRequestObservations (isDecimal : String → Bool) (jobId : Uuid) (sourceId : String)
    (intent : AssistantIntent) (extraction : RequestExtraction) (observedAt : ℤ) :
    List FactObservation :=
  let original := intentFacts isDecimal intent
  (original ++ extractionFacts extraction).mapIdx
    (requestObservation jobId sourceId original.length observedAt)

/-! ### Facts the merge takes -/

/-- The field without a contract, and those whose facts the merge takes of no kind. -/
def refusedFields : List ConstraintField := [.clientId, .chargeType, .accountNumber]

/-- The merge takes the fact under the standard contracts. -/
def Mergeable (fact : ConstraintField × TypedFactValue) : Prop :=
  ∃ contract, Assoc.get? executableConstraintContracts fact.1 = some contract ∧
    validate fact.1 fact.2 contract = .ok ()

theorem mergeable_of_kindMatches {fact : ConstraintField × TypedFactValue}
    (h : kindMatches fact.1 fact.2 = true) : Mergeable fact := by
  obtain ⟨field, value⟩ := fact
  simp only [kindMatches] at h
  split at h <;>
    first
    | contradiction
    | exact ⟨_, rfl, by simp [validate, kindMatches, TypedFactValue.isIdList]⟩

/-- A fact that is not a clearing one is mergeable exactly when it is of the field's kind. -/
theorem mergeable_iff {fact : ConstraintField × TypedFactValue} (hset : fact.2 ≠ .clear) :
    Mergeable fact ↔ kindMatches fact.1 fact.2 = true := by
  constructor
  · rintro ⟨contract, -, hvalid⟩
    simp only [validate, if_neg hset, failIf_eq_ok, not_not] at hvalid
    exact hvalid.1
  · exact mergeable_of_kindMatches

/-- What an entity can stand for. -/
theorem entityFact_spec {entity : AssistantEntity} {fact : ConstraintField × TypedFactValue}
    (h : entityFact entity = some fact) :
    fact.2 ≠ .clear ∧ (kindMatches fact.1 fact.2 = true ↔ fact.1 ∉ refusedFields) ∧
      fact.1 ∈ [.personName, .office, .product, .metric, .currencyCode] ++ refusedFields := by
  unfold entityFact at h
  simp only at h
  split_ifs at h
  cases hkind : entity.entityType <;>
    simp only [hkind, Option.some.injEq, Option.map_eq_some_iff, reduceCtorEq] at h <;>
    first
    | (subst h; simp [kindMatches, refusedFields])
    | (obtain ⟨id, -, rfl⟩ := h; simp [kindMatches, refusedFields])

theorem entityFact_mergeable_iff {entity : AssistantEntity}
    {fact : ConstraintField × TypedFactValue} (h : entityFact entity = some fact) :
    Mergeable fact ↔ fact.1 ∉ refusedFields := by
  obtain ⟨hset, hkind, -⟩ := entityFact_spec h
  rw [mergeable_iff hset, hkind]

theorem candidateFact_mergeable {candidate : PayloadCandidate}
    {fact : ConstraintField × TypedFactValue} (h : candidateFact candidate = some fact) :
    Mergeable fact := by
  apply mergeable_of_kindMatches
  unfold candidateFact at h
  cases hfield : candidate.field <;> simp only [hfield, Option.map_eq_some_iff] at h <;>
    obtain ⟨value, -, rfl⟩ := h <;> rfl

end FineractReports.CanonicalState
