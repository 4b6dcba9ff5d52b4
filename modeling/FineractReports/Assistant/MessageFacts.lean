import FineractReports.Assistant.NamedEntities
import FineractReports.Assistant.RequestFacts

/-!
# The facts of a message

What the deterministic extractor reads from a message as a whole, the candidates it records
for the fields it filled, and how the facts are merged into the intent the router read.
`toLowercase` stands for the lowercase mapping of the standard library, `parseDate` for the
date parser of the calendar library; `none` is a panic.
-/

namespace FineractReports.Extraction

open CanonicalState (PayloadField)

inductive PayloadSource where
  | userText | llmClaim | catalogDefault | unknown
deriving DecidableEq, Repr

inductive PayloadTrust where
  | trusted | untrusted | rejected
deriving DecidableEq, Repr

/-- A candidate with its provenance. -/
structure SourcedCandidate extends CanonicalState.PayloadCandidate where
  source : PayloadSource
  trust : PayloadTrust
deriving DecidableEq

/-- All the fields of a deterministic extraction. -/
structure MessageFacts extends DeterministicExtraction where
  domain : Option AssistantDomain
  candidates : List SourcedCandidate
  temporalProvenance : Option TemporalProvenance
deriving DecidableEq

namespace MessageFacts

def empty : MessageFacts := ⟨DeterministicExtraction.empty, none, [], none⟩

def isEmpty (facts : MessageFacts) : Bool :=
  facts.constraints = AssistantConstraints.empty ∧ facts.domain = none ∧ facts.entities = [] ∧
    facts.candidates = [] ∧ facts.temporalError = none

end MessageFacts

/-! ### Quantities, domains and metrics -/

def quantityParts : Quantity → Option (String × ℤ)
  | .limit value => some ("limit", value)
  | .topN value => some ("top_n", value)
  | .all | .default => none

/-- The two words around a word on either side, with the word itself. -/
def nearby (words : List String) (index : ℕ) : String :=
  " ".intercalate ((words.take (index + 3)).drop (index - 2))

def isRanking (message near : String) : Bool :=
  Text.contains near "top" = true ∨ Text.contains message " most " = true ∨
    Text.contains message "highest" = true ∨ Text.contains message "rank" = true

def quantityAt (message : String) (words : List String) (index : ℕ) : Option Quantity := do
  let word ← words[index]?
  let value ← Text.parseI64 word
  let near := nearby words index
  if ¬ (1 ≤ value ∧ value ≤ 100) ∨ Text.contains near "days" = true ∨
      Text.contains near "hari" = true then none
  else some (if isRanking message near = true then .topN value else .limit value)

def extractQuantity (message : String) (words : List String) : Option Quantity :=
  (List.range words.length).findSome? (quantityAt message words)

def extractDomain (message : String) : Option AssistantDomain :=
  if Text.contains message "client" = true then some .client
  else if Text.contains message "office" = true ∨ Text.contains message "organization" = true then
    some .organization
  else if Text.contains message "saving" = true then some .savings
  else none

def extractMetric (message : String) : Option String :=
  if (Text.contains message "most savings account" = true ∨
      Text.contains message "number of savings account" = true) ∧
      Text.contains message "transaction" = false then some "savings_account_count"
  else if Text.contains message "highest balance" = true ∨
      Text.contains message "savings balance" = true then some "savings_balance"
  else if Text.contains message "deposit volume" = true ∨
      Text.contains message "deposited the most" = true then some "deposit_volume"
  else none

/-! ### Entities and candidates -/

def entityTypeOf : NamedEntityKind → AssistantEntityType
  | .person => .personName
  | .office => .office
  | .chargeType => .chargeType
  | .product => .product

def extractedEntity (entityType : AssistantEntityType) (value : String) : AssistantEntity :=
  ⟨entityType, value, some value⟩

/-- The first name of each kind joins the entities. -/
def addNamed (entities : List AssistantEntity) (named : NamedEntityKind × String) :
    List AssistantEntity :=
  if entities.any (fun existing => existing.entityType = entityTypeOf named.1) = true then entities
  else entities ++ [extractedEntity (entityTypeOf named.1) named.2]

def metricEntities (metric : Option String) : List AssistantEntity :=
  (metric.map (extractedEntity .metric)).toList

def domainName : AssistantDomain → String
  | .savings => "savings"
  | .client => "client"
  | .organization => "organization"
  | .groupCenter => "group_center"
  | .loan => "loan"
  | .accounting => "accounting"
  | .tax => "tax"
  | .audit => "audit"
  | .unknown => "unknown"

def candidate (field : PayloadField) (value : Json) : SourcedCandidate :=
  ⟨⟨field, value⟩, .userText, .trusted⟩

def textCandidate (field : PayloadField) (text : Option String) : List SourcedCandidate :=
  (text.map fun text => candidate field (.str text)).toList

def personCandidates (entities : List AssistantEntity) : List SourcedCandidate :=
  (entities.filter fun entity => entity.entityType = .personName).map fun entity =>
    candidate .personName (.str (entity.canonical.getD entity.value))

/-- The candidates of the fields after the quantity. -/
def fieldCandidates (facts : MessageFacts) : List SourcedCandidate :=
  textCandidate .fromDate facts.constraints.fromDate ++
    textCandidate .toDate facts.constraints.toDate ++
    textCandidate .currencyCode facts.constraints.currencyCode ++
    textCandidate .metric facts.constraints.metric ++
    textCandidate .domain (facts.domain.map domainName) ++ personCandidates facts.entities

/-- A quantity without a number ends the recording before any field is recorded. -/
def recordedCandidates (facts : MessageFacts) : List SourcedCandidate :=
  match facts.constraints.quantity with
  | some .default | some .all => []
  | some (.limit value) | some (.topN value) =>
    candidate .limit (.int value) :: fieldCandidates facts
  | none => fieldCandidates facts

def recordCandidates (facts : MessageFacts) : MessageFacts :=
  { facts with candidates := facts.candidates ++ recordedCandidates facts }

/-! ### The extraction -/

section Message

variable (toLowercase : String → String) (parseDate : String → Option NaiveDate)
  (formatDate : NaiveDate → String)

/-- The facts of a message but for the candidates, `resolved` being its period. -/
def factsBeforeCandidates (message : String)
    (resolved : Except TemporalError (Option ResolvedTemporal)) : MessageFacts :=
  let lower := toLowercase message
  let period := resolved.toOption.bind id
  let metric := extractMetric lower
  { constraints :=
      { fromDate := period.map fun resolved => formatDate resolved.fromDate
        toDate := period.map fun resolved => formatDate resolved.toDate
        quantity := extractQuantity lower (words lower)
        currencyCode := extractCurrency message
        productIds := none
        officeIds := none
        metric := metric
        transactionAmount := extractTransactionAmount message }
    entities := (extractNamedEntities message).foldl addNamed (metricEntities metric)
    temporalError := match resolved with
      | .error error => some error
      | .ok _ => none
    domain := extractDomain lower
    candidates := []
    temporalProvenance := period.map (·.provenance) }

def extractMessageFactsAt (message : String) (referenceInstant : ℤ) (businessToday : NaiveDate)
    (maxRangeDays : ℤ) : Option MessageFacts :=
  (resolveTemporal parseDate referenceInstant businessToday maxRangeDays message).map
    fun resolved => recordCandidates (factsBeforeCandidates toLowercase formatDate message resolved)

/-- The clock of the canonical context of a turn. -/
structure CanonicalRuntimeContext where
  referenceInstant : ℤ
  businessToday : NaiveDate
deriving DecidableEq

/-- `now` is the clock read when the turn has no canonical context. -/
def extractForContext (now : CanonicalRuntimeContext) (message : String)
    (canonical : Option CanonicalRuntimeContext) : Option MessageFacts :=
  let context := canonical.getD now
  extractMessageFactsAt toLowercase parseDate formatDate message context.referenceInstant
    context.businessToday 366

end Message

/-! ### Conflicts with the intent and the merge into it -/

structure DeterministicExtractionConflict where
  field : PayloadField
  llmValue : Json
  trustedValue : Json
  reason : String
deriving DecidableEq

def conflict (field : PayloadField) (llmValue trustedValue : Json) :
    DeterministicExtractionConflict :=
  ⟨field, llmValue, trustedValue, "deterministic_extraction_preferred"⟩

def quantityJson (parts : String × ℤ) : Json :=
  .obj [("mode", .str parts.1), ("value", .int parts.2)]

def quantityConflict (llm trusted : Option Quantity) : List DeterministicExtractionConflict :=
  match llm.bind quantityParts, trusted.bind quantityParts with
  | some llm, some trusted =>
    if llm ≠ trusted then [conflict .limit (quantityJson llm) (quantityJson trusted)] else []
  | _, _ => []

def stringConflict (field : PayloadField) (llm trusted : Option String) :
    List DeterministicExtractionConflict :=
  match llm, trusted with
  | some llm, some trusted =>
    if llm ≠ trusted then [conflict field (.str llm) (.str trusted)] else []
  | _, _ => []

def domainConflict (llm : AssistantDomain) (trusted : Option AssistantDomain) :
    List DeterministicExtractionConflict :=
  match trusted with
  | some trusted =>
    if llm ≠ .unknown ∧ llm ≠ trusted then
      [conflict .domain (.str (domainName llm)) (.str (domainName trusted))]
    else []
  | none => []

def conflictsWith (facts : MessageFacts) (intent : AssistantIntent) :
    List DeterministicExtractionConflict :=
  quantityConflict intent.constraints.quantity facts.constraints.quantity ++
    stringConflict .fromDate intent.constraints.fromDate facts.constraints.fromDate ++
    stringConflict .toDate intent.constraints.toDate facts.constraints.toDate ++
    stringConflict .currencyCode intent.constraints.currencyCode facts.constraints.currencyCode ++
    stringConflict .metric intent.constraints.metric facts.constraints.metric ++
    domainConflict intent.domain facts.domain

/-- A quantity with a number replaces another such number only. -/
def mergeQuantity (existing trusted : Option Quantity) : Option Quantity :=
  match existing, trusted with
  | existing, none => existing
  | none, some trusted | some .default, some trusted => some trusted
  | some existing, some trusted =>
    match quantityParts existing, quantityParts trusted with
    | some (_, old), some (_, new) => if old ≠ new then some trusted else some existing
    | _, _ => some existing

def canonicalText (entity : AssistantEntity) : String := entity.canonical.getD entity.value

def mergeEntity (entities : List AssistantEntity) (entity : AssistantEntity) :
    List AssistantEntity :=
  if entities.any (fun existing => existing.entityType = entity.entityType ∧
      canonicalText existing = canonicalText entity) = true then entities
  else entities ++ [entity]

def mergeInto (facts : MessageFacts) (intent : AssistantIntent) : AssistantIntent :=
  { intent with
    constraints :=
      { intent.constraints with
        quantity := mergeQuantity intent.constraints.quantity facts.constraints.quantity
        fromDate := facts.constraints.fromDate.or intent.constraints.fromDate
        toDate := facts.constraints.toDate.or intent.constraints.toDate
        currencyCode := facts.constraints.currencyCode.or intent.constraints.currencyCode
        metric := intent.constraints.metric.or facts.constraints.metric }
    domain := if intent.domain = .unknown then facts.domain.getD intent.domain else intent.domain
    entities := facts.entities.foldl mergeEntity intent.entities }

end FineractReports.Extraction
