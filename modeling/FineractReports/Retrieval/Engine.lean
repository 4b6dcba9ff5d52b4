import FineractReports.Assistant.ClarificationPlanner
import FineractReports.Library.BinaryRounding
import FineractReports.Library.DistinctKeys
import FineractReports.Retrieval.CatalogIndex
import FineractReports.Retrieval.EvidenceMerge
import Mathlib.Data.String.Basic

/-!
# The retrieval engine

The candidates for a request: the nearest rows of the index and the capabilities of the catalog
that share a word with it, scored by the same rules, merged and cut off at a floor. The scores are
the `f32` of the source. `distance` is the hybrid distance as the database computes it; a distance
that is not a number is not modelled.
-/

namespace FineractReports.Retrieval

abbrev Score := BinaryNumber binary32

structure RetrievalPlan where
  queryText : String
  domain : AssistantDomain
  intent : AssistantIntentKind
  requestShape : RequestShape
  entities : List AssistantEntity
  constraints : AssistantConstraints
  allowAllCapabilities : Bool
  allowedCapabilities : List String
deriving DecidableEq, Repr

def RetrievalPlan.new (queryText : String) (intent : AssistantIntent) (allowAllCapabilities : Bool)
    (allowedCapabilities : List String) : RetrievalPlan where
  queryText := queryText
  domain := intent.domain
  intent := intent.intent
  requestShape := intent.requestShape
  entities := intent.entities
  constraints := intent.constraints
  allowAllCapabilities := allowAllCapabilities
  allowedCapabilities := allowedCapabilities

def RetrievalPlan.allows (plan : RetrievalPlan) (id : String) : Bool :=
  plan.allowAllCapabilities || decide (id ∈ plan.allowedCapabilities)

/-- `None` lets every id pass. -/
def allowedIds (plan : RetrievalPlan) : Option (List String) :=
  if plan.allowAllCapabilities then none else some plan.allowedCapabilities

/-! ### Scores -/

def SHAPE_BOOST : Score := .nearest (30 / 100)

def DOMAIN_BOOST : Score := .nearest (5 / 100)

def METRIC_BOOST : Score := .nearest (25 / 100)

def OUT_OF_DOMAIN_PENALTY : Score := .nearest (15 / 100)

/-- The greatest score of a candidate. -/
def SCORE_CAP : Score := .nearest (99 / 100)

def piiMatches (request capability : RequestPii) : Bool :=
  request = capability ∨
    request = .clientIdentity ∧ capability = .conditionalClientIdentity

def shapeHits (request capability : RequestShape) : ℕ :=
  (request.operation ≠ .unknown ∧ request.operation = capability.operation : Bool).toNat +
    (request.subject ≠ .unknown ∧ request.subject = capability.subject : Bool).toNat +
    (request.grouping ≠ .unknown ∧ request.grouping = capability.grouping : Bool).toNat +
    (request.output ≠ .unknown ∧ request.output = capability.output : Bool).toNat +
    (request.pii ≠ .unknown ∧ piiMatches request.pii capability.pii : Bool).toNat

def shapeScore (plan : RetrievalPlan) (capability : CapabilityKnowledge) : Score :=
  .nearest (shapeHits plan.requestShape capability.requestShape) / .nearest 5

/-- The name of the variant, as `{:?}` prints it. -/
def domainName : AssistantDomain → String
  | .savings => "Savings"
  | .client => "Client"
  | .organization => "Organization"
  | .groupCenter => "GroupCenter"
  | .loan => "Loan"
  | .accounting => "Accounting"
  | .tax => "Tax"
  | .audit => "Audit"
  | .unknown => "Unknown"

def ofBool (b : Bool) : Score := .nearest b.toNat

def domainScore (plan : RetrievalPlan) (capabilityDomain : String) : Score :=
  ofBool (Text.eqIgnoreAsciiCase capabilityDomain (domainName plan.domain))

/-- The metrics the request named, by the ids the catalog declares. -/
def requestedMetricIds (plan : RetrievalPlan) (catalog : KnowledgeCatalog) : List String :=
  let named := (plan.entities.filter fun entity => entity.entityType = .metric).map
    fun entity => entity.canonical.getD entity.value
  sortDistinct id ((plan.constraints.metric.toList ++ named).filterMap catalog.resolveMetricId)

def metricDeclared (requested : List String) (catalog : KnowledgeCatalog) (metrics : List String) :
    Bool :=
  let declared := metrics.filterMap catalog.resolveMetricId
  requested.all fun id => id ∈ declared

def metricScore (plan : RetrievalPlan) (catalog : KnowledgeCatalog) (metrics : List String) :
    Score :=
  let requested := requestedMetricIds plan catalog
  if requested = [] then 0 else ofBool (metricDeclared requested catalog metrics)

/-- A search by name needs a name. -/
def parametersFeasible (plan : RetrievalPlan) (required : List String) : Bool :=
  "search" ∉ required ∨ plan.entities.any fun entity => entity.entityType = .personName

/-! ### The catalog -/

section Words

variable (toLowercase : String → String) (toUppercase : Char → String)
  (isAlphanumeric : Char → Bool)

def keywordTerms (text : String) : List String :=
  ((Text.split (fun c => !isAlphanumeric c) text).filter fun part => 2 < part.utf8ByteSize).map
    toLowercase

def planTerms (plan : RetrievalPlan) : List String :=
  sortDistinct id (keywordTerms toLowercase isAlphanumeric plan.queryText ++
    plan.entities.flatMap fun entity =>
      keywordTerms toLowercase isAlphanumeric entity.value ++
        entity.canonical.toList.flatMap (keywordTerms toLowercase isAlphanumeric))

def STOPWORDS : List String :=
  ["the", "and", "for", "with", "this", "that", "show", "give", "want", "please", "most", "have",
    "where", "report", "see", "need", "berikan", "pada", "saya", "coba", "tahun", "ini"]

def requestTerms (plan : RetrievalPlan) : List String :=
  (planTerms toLowercase isAlphanumeric plan).filter fun term => term ∉ STOPWORDS

def haystack (capability : CapabilityKnowledge) : String :=
  toLowercase (capability.id ++ " " ++ capability.displayName.getD "" ++ " " ++
    capability.description.getD "" ++ " " ++ String.intercalate " " capability.examples)

def keywordHits (terms : List String) (capability : CapabilityKnowledge) : ℕ :=
  terms.countP fun term => Text.contains (haystack toLowercase capability) term

def keywordScore (terms : List String) (capability : CapabilityKnowledge) : Score :=
  if terms = [] then 0
  else .nearest (keywordHits toLowercase terms capability) / .nearest terms.length *
    .nearest (34 / 100)

/-- The score of every capability without a hit. -/
def BASE_SCORE : Score := .nearest (25 / 100)

def candidateScore (terms : List String) (capability : CapabilityKnowledge) : Score :=
  min (BASE_SCORE + keywordScore toLowercase terms capability) SCORE_CAP

def optionalText : Option String → Json
  | some text => .str text
  | none => .null

def catalogEvidence (terms : List String) (capability : CapabilityKnowledge) :
    ScoredEvidence Score where
  capabilityId := capability.id
  title := capability.displayName.getD
    (ClarificationPlanner.humanizeId toUppercase capability.id)
  metadata := .obj
    [("description", optionalText capability.description), ("domain", .str capability.domain),
      ("examples", .arr (capability.examples.map .str)),
      ("output_mode", .str capability.outputMode), ("query_id", .str capability.queryId)]
  score := candidateScore toLowercase terms capability
  sourceType := "capability"
  conflicting := false

/-- Only its status, the permissions and a missing name rule a capability out. -/
def isCandidate (plan : RetrievalPlan) (capability : CapabilityKnowledge) : Bool :=
  (capability.status = "approved_mvp" ∨ capability.status = "active") ∧
    plan.allows capability.id = true ∧
    parametersFeasible plan capability.requiredParameters = true

def catalogFallback (plan : RetrievalPlan) (catalog : KnowledgeCatalog) :
    List (ScoredEvidence Score) :=
  ((catalog.capabilities.filter (isCandidate plan)).map
    (catalogEvidence toLowercase toUppercase (requestTerms toLowercase isAlphanumeric plan))).filter
    fun item => BASE_SCORE < item.score

end Words

/-! ### The index -/

structure RetrievedKnowledgeCandidate where
  sourceType : String
  sourceId : String
  title : String
  metadataJson : Json
  distance : BinaryNumber binary64

def RetrievedKnowledgeCandidate.toEvidence (candidate : RetrievedKnowledgeCandidate) :
    ScoredEvidence Score where
  capabilityId := candidate.sourceId
  title := candidate.title
  metadata := candidate.metadataJson
  score := max 0 (min (.nearest 1 - .nearest candidate.distance.value) (.nearest 1))
  sourceType := candidate.sourceType
  conflicting := false

section Search

open Index

variable {F : Type}

def selectedRows (sourceType : String) (allowed : Option (List String)) (tables : Tables F)
    (version : CatalogVersion) : List (IndexRow F) :=
  (tables.rowsOf version.id).filter fun row => row.embedding.isSome = true ∧
    retrievalSourceTypeName row.document.sourceType = sourceType ∧
    allowed.all (fun ids => decide (row.document.sourceId ∈ ids)) = true

/-- The rows in the order of their distance, one of each source; which of equals comes first is a
choice of the database. -/
structure NearestFirst (distance : IndexRow F → BinaryNumber binary64)
    (selected ranked : List (IndexRow F)) : Prop where
  mem : ∀ row ∈ ranked, row ∈ selected
  sources : (ranked.map fun row => row.document.sourceId).Nodup
  nearest : ∀ row ∈ ranked, ∀ other ∈ selected,
    other.document.sourceId = row.document.sourceId → distance row ≤ distance other
  complete : ∀ other ∈ selected, ∃ row ∈ ranked,
    row.document.sourceId = other.document.sourceId
  sorted : ranked.Pairwise fun row later => distance row ≤ distance later

/-- A list that `search_hybrid_by_source_type` may return. -/
def HybridAnswer (distance : IndexRow F → BinaryNumber binary64) (tables : Tables F)
    (sourceType : String) (allowed : Option (List String)) (limit : ℕ)
    (answer : List (IndexRow F)) : Prop :=
  ∃ selected ranked, NearestFirst distance selected ranked ∧ answer = ranked.take limit ∧
    ((∃ version, ReadBySearch tables version ∧
        selected = selectedRows sourceType allowed tables version) ∨
      (¬ ∃ version, ReadBySearch tables version) ∧ selected = [])

def candidateOf (distance : IndexRow F → BinaryNumber binary64) (row : IndexRow F) :
    RetrievedKnowledgeCandidate where
  sourceType := retrievalSourceTypeName row.document.sourceType
  sourceId := row.document.sourceId
  title := row.document.title
  metadataJson := row.document.metadataJson
  distance := distance row

end Search

/-- The services behind the engine, each of which a deployment may lack. The distance of a row is
taken to the vector of the request and to its words. -/
structure RetrievalServices where
  Number : Type
  isAlphanumeric : Char → Bool
  toLowercase : String → String
  toUppercase : Char → String
  embed : Option (String → Except String (List Number))
  index : Option (Index.Tables Number)
  distance : List Number → List String → Index.IndexRow Number → BinaryNumber binary64

namespace RetrievalServices

variable (services : RetrievalServices)

/-- The words that are bound to the statement. -/
def searchTerms (plan : RetrievalPlan) : List String :=
  ((keywordTerms services.toLowercase services.isAlphanumeric plan.queryText).map
    fun term => services.toLowercase (Text.trim term)).filter fun term => 2 ≤ term.utf8ByteSize

/-- How many rows of the index a search returns. -/
def SEARCH_LIMIT : ℕ := 16

/-- What the search of the index may come to; nothing is searched without a model or an index. -/
inductive Finds (plan : RetrievalPlan) :
    Except String (List RetrievedKnowledgeCandidate) → Prop where
  | unavailable (h : services.embed = none ∨ services.index = none) : Finds plan (.ok [])
  | embedFailed {embed : String → Except String (List services.Number)}
      {tables : Index.Tables services.Number} {message : String}
      (hembed : services.embed = some embed) (hindex : services.index = some tables)
      (h : embed plan.queryText = .error message) :
      Finds plan (.error message)
  | searchFailed {embed : String → Except String (List services.Number)}
      {tables : Index.Tables services.Number} {vector : List services.Number}
      (hembed : services.embed = some embed) (hindex : services.index = some tables)
      (h : embed plan.queryText = .ok vector) (message : String) : Finds plan (.error message)
  | answered {embed : String → Except String (List services.Number)}
      {tables : Index.Tables services.Number} {vector : List services.Number}
      {answer : List (Index.IndexRow services.Number)}
      (hembed : services.embed = some embed) (hindex : services.index = some tables)
      (h : embed plan.queryText = .ok vector)
      (hanswer : HybridAnswer (services.distance vector (services.searchTerms plan)) tables
        "capability" (allowedIds plan) SEARCH_LIMIT answer) :
      Finds plan
        (.ok (answer.map (candidateOf (services.distance vector (services.searchTerms plan)))))

/-! ### The engine -/

/-- What the catalog says about a candidate of this id, added to its score. -/
def boost (plan : RetrievalPlan) (catalog : KnowledgeCatalog) (id : String) : Option Score :=
  (catalog.capabilities.find? fun capability => capability.id = id).map fun capability =>
    shapeScore plan capability * SHAPE_BOOST + domainScore plan capability.domain * DOMAIN_BOOST +
      metricScore plan catalog capability.metrics * METRIC_BOOST

def priorScore (plan : RetrievalPlan) (catalog : KnowledgeCatalog) (id : String) (score : Score) :
    Score :=
  let boosted :=
    match boost plan catalog id with
    | some boost => score + boost
    | none => score
  let judged := if plan.intent = .outOfDomain then boosted - OUT_OF_DOMAIN_PENALTY else boosted
  max 0 (min judged SCORE_CAP)

def applyPriors (plan : RetrievalPlan) (catalog : KnowledgeCatalog) (item : ScoredEvidence Score) :
    ScoredEvidence Score :=
  { item with score := priorScore plan catalog item.capabilityId item.score }

/-- The candidates of both searches, the index first. -/
def candidates (plan : RetrievalPlan) (found : List RetrievedKnowledgeCandidate)
    (catalog : KnowledgeCatalog) : List (ScoredEvidence Score) :=
  found.map (·.toEvidence) ++
    catalogFallback services.toLowercase services.toUppercase services.isAlphanumeric plan catalog

/-- `found` is what the search of the index came to. -/
def retrieve (plan : RetrievalPlan) (found : Except String (List RetrievedKnowledgeCandidate))
    (catalog : Option KnowledgeCatalog) : Except String (List (ScoredEvidence Score)) := do
  let found ← found
  match catalog with
  | some catalog =>
    let ranked := merge ((services.candidates plan found catalog).map (applyPriors plan catalog))
    pure (ranked.filter fun item => catalog.classification.minFloor.value ≤ item.score.value)
  | none => pure (merge (found.map (·.toEvidence)))

end RetrievalServices

end FineractReports.Retrieval
