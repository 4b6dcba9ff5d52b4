import FineractReports.Execution.ParameterSource
import FineractReports.Knowledge.Validator

/-!
# The sufficiency gate

Candidates that cannot bind a filter the user named are dropped before reranking.
The gate looks at which fields the parameters of a query may bind; which one a
parameter does bind is decided later, by the binder.
-/

namespace FineractReports

/-- A retrieved capability. -/
structure Evidence where
  capabilityId : String
  title : String
  metadata : Json
deriving DecidableEq

namespace Retrieval

open Execution

def GATED_FILTERS : List ConstraintField :=
  [.office, .personName, .clientId, .product, .chargeType, .accountNumber, .transactionAmount]

/-- What the user would have typed for the fact. -/
def surfaceText (value : TypedFactValue) : Option String :=
  match value with
  | .office text | .personName text | .product text | .chargeType text | .accountNumber text
  | .decimal text => some text
  | .clientId id => some (toString id)
  | .clear | .limitMode _ | .integer _ | .date _ | .currencyCode _ | .metric _ | .domain _
  | .idList _ => none

def isExpressed (toLowercase : String → String) (message : String) (facts : Facts)
    (field : ConstraintField) : Bool :=
  ((Assoc.get? facts field).bind surfaceText).any fun text =>
    occursVerbatim toLowercase message text

/-- The gated fields whose value occurs in the user's own message. -/
def expressedFilters (toLowercase : String → String) (message : String)
    (intent : Option AssistantIntent) (extraction : Option DeterministicExtraction) :
    List ConstraintField :=
  GATED_FILTERS.filter
    (isExpressed toLowercase message (requestFacts toLowercase (some message) intent extraction))

/-- The query of a capability, found by the id alone. -/
def queryOf (catalog : KnowledgeCatalog) (capabilityId : String) : Option QueryKnowledge := do
  let capability ← catalog.capabilities.find? fun capability => capability.id = capabilityId
  catalog.queries.find? fun query => query.id = capability.queryId

def mayBind (catalog : KnowledgeCatalog) (field : ConstraintField) (parameter : QueryParameter) :
    Bool :=
  parameter.source ≠ some "authorized_scope" ∧ field ∈ catalog.bindingFields parameter.name

/-- The query has a parameter that may bind the field; without a query nothing is judged. -/
def capabilityHonours (catalog : KnowledgeCatalog) (capabilityId : String)
    (field : ConstraintField) : Bool :=
  match queryOf catalog capabilityId with
  | none => true
  | some query => query.parameters.any (mayBind catalog field)

def dropInsufficient (catalog : KnowledgeCatalog) (expressed : List ConstraintField)
    (evidence : List Evidence) : List Evidence :=
  if expressed = [] then evidence
  else evidence.filter fun item => expressed.all (capabilityHonours catalog item.capabilityId)

/-- A survivor of the gate in the turn that binds it. -/
structure SurvivingTurn where
  toLowercase : String → String
  catalog : KnowledgeCatalog
  message : String
  intent : AssistantIntent
  extraction : Option DeterministicExtraction
  sensitiveIdentifier : Option String
  ctx : Option EvaluationContext
  evidence : List Evidence
  item : Evidence
  survives : item ∈ dropInsufficient catalog
    (expressedFilters toLowercase message (some intent) extraction) evidence
  capability : CapabilityKnowledge
  query : QueryKnowledge
  approved : executableCapability catalog item.capabilityId = .ok capability
  approvedQuery : catalog.queries.find? (fun item => item.id = capability.queryId) = some query

namespace SurvivingTurn

variable (turn : SurvivingTurn)

def facts : Facts :=
  requestFacts turn.toLowercase (some turn.message) (some turn.intent) turn.extraction

def expressed : List ConstraintField :=
  expressedFilters turn.toLowercase turn.message (some turn.intent) turn.extraction

def boundParams : Except String Params :=
  paramsFromVerified turn.toLowercase turn.catalog turn.query turn.intent turn.extraction
    turn.capability.parameterPolicies turn.ctx (some turn.message)

/-- The user's value for a field, in the type of a planned parameter that may bind it. -/
def UserValue (field : ConstraintField) (parameter : QueryParameter) (value : Json) : Prop :=
  parameter ∈ turn.query.parameters ∧ filledAtExecution parameter = false ∧
    field ∈ turn.catalog.bindingFields parameter.name ∧
    ∃ fact, Assoc.get? turn.facts field = some fact ∧
      bindValue parameter.kind fact = some value

/-- The parameters that may bind the field are all sensitive inputs, and the sensitive
identifier of the turn is the user's value. -/
def CarriedBySensitivePath (field : ConstraintField) : Prop :=
  (∀ parameter ∈ turn.query.parameters, mayBind turn.catalog field parameter = true →
    parameter.source = some "transient_sensitive_input") ∧
  ∃ text, (Assoc.get? turn.facts field).bind surfaceText = some text ∧
    turn.sensitiveIdentifier = some text

/-- Every filter the user named reaches the query with the user's value. -/
def HonoursRequest : Prop :=
  ∀ field ∈ turn.expressed,
    (∃ params, turn.boundParams = .ok params ∧ ∃ parameter value,
      turn.UserValue field parameter value ∧
        Assoc.get? params parameter.name = some value) ∨
    turn.CarriedBySensitivePath field

/-- Every required parameter has a source, and the user's value of every expressed field
is the one its parameter is supplied with; or the field is carried by the sensitive path. -/
def FieldsKeepTheirParameters : Prop :=
  ∀ field ∈ turn.expressed,
    ((∀ parameter ∈ turn.query.parameters, filledAtExecution parameter = false →
        parameter.required = true → HasSource turn.catalog turn.facts
          turn.capability.parameterPolicies turn.ctx parameter) ∧
      ∃ parameter value, turn.UserValue field parameter value ∧
        Supplies turn.catalog turn.facts turn.capability.parameterPolicies turn.ctx
          turn.query.parameters parameter.name value) ∨
    turn.CarriedBySensitivePath field

end SurvivingTurn

namespace NameLookup

open FineractReports.NameLookup (capability query files)

/-- A binding list with an office after the person name. -/
def sharedCatalog : KnowledgeCatalog :=
  { FineractReports.NameLookup.catalog with
    parameterBindings := [("search", [.personName, .office])] }

def intent : AssistantIntent where
  intent := .dataLookup
  domain := .client
  requestShape := capability.requestShape
  canonicalQueryEn := ""
  entities := []
  constraints := AssistantConstraints.empty
  source := none

/-- The user names a client and an office. -/
def twoFilterTurn : SurvivingTurn where
  toLowercase := Text.asciiLower
  catalog := sharedCatalog
  message := "Find client Tony in Bandung."
  intent := intent
  extraction := some { DeterministicExtraction.empty with
    entities := [⟨.personName, "Tony", none⟩, ⟨.office, "Bandung", none⟩] }
  sensitiveIdentifier := none
  ctx := none
  evidence := [⟨"client_name_lookup", "Client Name Lookup", .obj []⟩]
  item := ⟨"client_name_lookup", "Client Name Lookup", .obj []⟩
  survives := by decide
  capability := capability
  query := query
  approved := by decide
  approvedQuery := by decide

end NameLookup

end Retrieval

end FineractReports
