import FineractReports.Knowledge.DatasetRules
import FineractReports.Knowledge.ProseClaims
import FineractReports.Knowledge.SqlSafety

/-!
# The catalog validator

What a catalog has to meet before it is served. `files` reads a SQL file by its
directory and its path below it; `toLowercase` is the lower case of the prose checks.
-/

namespace FineractReports.KnowledgeValidator

open Dataset

def DATA_AREA_STATUSES : List String :=
  ["included_mvp_foundation", "included_mvp_domain", "conditional", "secondary", "deferred",
    "deferred_group", "rejected", "rejected_group", "out_of_scope"]

def DOMAIN_STATUSES : List String := ["approved_mvp", "candidate", "deferred", "rejected"]

def CAPABILITY_STATUSES : List String := ["approved_mvp", "candidate", "deferred", "rejected"]

def OUTPUT_MODES : List String :=
  ["total", "top_n", "monthly_breakdown", "monthly_top_n", "list", "summary"]

def QUERY_DATABASES : List String := ["fineract", "app"]

def PARAMETER_TYPES : List String := ["date", "integer", "string", "decimal", "array_bigint"]

/-- A fraction strictly between 0 and 1. -/
def validateFraction (name : String) (number : F32) : Except String Unit :=
  failIf (¬ (0 < number.value ∧ number.value < 1))
    ("classification_policy." ++ name ++ " must be in (0, 1); got " ++ number.display)

def validateClassificationPolicy (policy : ClassificationPolicy) : Except String Unit := do
  validateFraction "min_gap" policy.minGap
  validateFraction "min_floor" policy.minFloor
  failIf (Text.isBlank policy.othersKey = true)
    "classification_policy.others_key must be non-empty"
  failIf (Text.isBlank policy.othersLabel = true)
    "classification_policy.others_label must be non-empty"

def validateClassificationPolicyAgainstCatalog (policy : ClassificationPolicy)
    (capabilityIds : List String) : Except String Unit := do
  validateClassificationPolicy policy
  failIf (policy.othersKey ∈ capabilityIds)
    ("classification_policy.others_key '" ++ policy.othersKey ++
      "' must not collide with any capability id")

def validateUniqueIds (label : String) (ids : List String) : Except String Unit :=
  forEachAfter [] ids fun seen id => do
    failIf (Text.isBlank id = true) (label ++ " id must not be empty")
    failIf (id ∈ seen) ("duplicate " ++ label ++ " id " ++ id)

def validateStatus (label id status : String) (allowed : List String) : Except String Unit :=
  failIf (status ∉ allowed) (label ++ " " ++ id ++ " has invalid status " ++ status)

def validateRefs (ownerLabel ownerId targetLabel : String) (refs validIds : List String) :
    Except String Unit :=
  forEach refs fun reference =>
    failIf (reference ∉ validIds)
      (ownerLabel ++ " " ++ ownerId ++ " references unknown " ++ targetLabel ++ " " ++ reference)

def validateNoDeferredOrRejectedDataAreas (ownerLabel ownerId : String)
    (dataAreas blockedIds : List String) : Except String Unit :=
  forEach dataAreas fun dataArea =>
    failIf (dataArea ∈ blockedIds)
      (ownerLabel ++ " " ++ ownerId ++ " references deferred or rejected data area " ++ dataArea)

def isDeferredOrRejectedStatus (status : String) : Bool :=
  status ∈ ["deferred", "deferred_group", "rejected", "rejected_group", "out_of_scope"]

def validateGenericLayer (label : String) (items : List GenericKnowledge)
    (dataAreaIds domainIds : List String) : Except String Unit :=
  forEach items fun item => do
    failIf (item.checks = []) (label ++ " " ++ item.id ++ " must declare checks")
    validateRefs label item.id "data area" item.dataAreas dataAreaIds
    forSome item.domain fun domain =>
      failIf (domain ∉ domainIds)
        (label ++ " " ++ item.id ++ " references unknown domain " ++ domain)

/-- Filled from the principal or the sensitive input, so no binding is declared. -/
def needsNoBinding (parameter : QueryParameter) : Bool :=
  parameter.source = some "authorized_scope" ∨
    parameter.source = some "transient_sensitive_input"

def validateParameterBindings (catalog : KnowledgeCatalog) : Except String Unit := do
  forEach catalog.queries fun query =>
    forEach query.parameters fun parameter =>
      failIf (needsNoBinding parameter = false ∧
          parameter.name ∉ Assoc.keys catalog.parameterBindings)
        ("query " ++ query.id ++ " parameter " ++ parameter.name ++
          " has no entry in knowledge/parameter-bindings (declare which constraint fields fill " ++
          "it, or an empty list if only a policy default does)")
  forEach (Assoc.keys catalog.parameterBindings) fun name =>
    failIf (∀ query ∈ catalog.queries, name ∉ query.parameters.map (·.name))
      ("parameter binding " ++ name ++ " names a parameter no approved query declares")

/-- The query parameter type an input of a form can fill. -/
def expectedKind : ClarificationFieldType → String
  | .dateRange => "date"
  | .integer => "integer"
  | .text => "string"

def isValidMapping (input : ParameterInputKnowledge) : Bool :=
  match input.fieldType with
  | .dateRange => "from_date" ∈ input.parameters ∧ "to_date" ∈ input.parameters ∧
      ∀ name ∈ input.parameters, name = "from_date" ∨ name = "to_date"
  | .integer | .text => input.parameters.length = 1

def validateInputParameter (queries : List QueryKnowledge) (input : ParameterInputKnowledge)
    (parameter : String) : Except String Unit := do
  let named := (queries.flatMap (·.parameters)).filter fun candidate => candidate.name = parameter
  failIf (named = [])
    ("parameter input " ++ input.id ++ " covers unknown parameter " ++ parameter)
  failIf (∃ candidate ∈ named, candidate.source = some "authorized_scope")
    ("parameter input " ++ input.id ++ " must not cover authorized-scope parameter " ++ parameter)
  failIf (∃ candidate ∈ named, candidate.kind ≠ expectedKind input.fieldType)
    ("parameter input " ++ input.id ++ " has an invalid type mapping")

def validateParameterInputRegistry (inputs : List ParameterInputKnowledge)
    (queries : List QueryKnowledge) : Except String Unit := do
  forEachAfter [] (inputs.flatMap (·.parameters)) fun covered parameter =>
    failIf (parameter ∈ covered) ("parameter " ++ parameter ++ " is covered more than once")
  forEach inputs fun input => do
    failIf (input.parameters = [])
      ("parameter input " ++ input.id ++ " must cover at least one parameter")
    forEach input.parameters (validateInputParameter queries input)
    failIf (isValidMapping input = false)
      ("parameter input " ++ input.id ++ " has an invalid type mapping")

def parameterTypeName : ParameterType → String
  | .date => "date"
  | .integer => "integer"
  | .integerArray => "integer_array"
  | .string => "string"
  | .currency => "currency"

def validateProbe (policy : ParameterPolicy) (datasets : List DatasetKnowledge) :
    Except String Unit := do
  let probe ← okOr policy.probe
    ("parameter " ++ policy.name ++ " uses authorized_data_probe without a probe reference")
  let dataset ← okOr (datasets.find? fun dataset => dataset.id = probe.datasetId)
    ("probe references unknown dataset " ++ probe.datasetId)
  let shape ← okOr (dataset.shape probe.shapeId)
    ("probe references unknown shape " ++ probe.shapeId ++ " on dataset " ++ probe.datasetId)
  failIf (shape.role ≠ .resolver)
    ("probe " ++ policy.name ++ " must reference a resolver shape")
  let output ← okOr (shape.produces.find? fun slot => slot.slot = probe.outputSlot)
    ("probe output slot " ++ probe.outputSlot ++ " does not exist")
  failIf (output.kind ≠ parameterTypeName policy.kind)
    ("probe output slot " ++ probe.outputSlot ++ " does not match parameter " ++ policy.name ++
      " type")

def validateParameterAcquisition (policy : ParameterPolicy)
    (inputs : List ParameterInputKnowledge) (datasets : List DatasetKnowledge) :
    Except String Unit := do
  failIf (policy.userRequired = true ∧ ∀ input ∈ inputs, policy.name ∉ input.parameters)
    ("parameter " ++ policy.name ++ " is user_required but has no parameter input")
  failIf (policy.name = "office_ids" ∧
      (.verifiedUserText ∈ policy.resolution ∨ .clarify ∈ policy.resolution))
    "parameter office_ids may not use verified_user_text or clarify resolution"
  if .authorizedDataProbe ∈ policy.resolution then validateProbe policy datasets
  failIf (policy.resolution = [] ∧ policy.default = none ∧ policy.userRequired = false)
    ("parameter " ++ policy.name ++ " has no resolution strategy, default, or user requirement")

def validateCapabilityKind (capability : CapabilityKnowledge) (datasets : List DatasetKnowledge)
    (capabilities : List CapabilityKnowledge) : Except String Unit :=
  match capability.kind with
  | .terminal | .probe => .ok ()
  | .resolver => do
    let owner := "resolver capability " ++ capability.id
    let recipe ← okOr capability.datasetRecipe (owner ++ " must reference a dataset shape")
    let dataset ← okOr (datasets.find? fun dataset => dataset.id = recipe.datasetId)
      (owner ++ " references unknown dataset")
    let shape ← okOr (dataset.shape recipe.shapeId) (owner ++ " references unknown dataset shape")
    failIf (shape.role ≠ .resolver) (owner ++ " must reference a resolver shape")
  | .composite => do
    let owner := "composite capability " ++ capability.id
    failIf (capability.memberCapabilityIds.length < 2)
      (owner ++ " must declare at least two member capability ids")
    forEach capability.memberCapabilityIds fun memberId =>
      failIf (¬ ∃ member ∈ capabilities, member.id = memberId ∧ member.status = "approved_mvp")
        (owner ++ " references non-approved member " ++ memberId)

def validateRecipeFilter (capability : CapabilityKnowledge) (query : QueryKnowledge)
    (dataset : DatasetKnowledge) (mapping : DatasetRecipeFilter) : Except String Unit := do
  let owner := "capability " ++ capability.id
  let slot ← okOr (dataset.filters.find? fun slot => slot.id = mapping.filterId)
    (owner ++ " references unknown dataset filter " ++ mapping.filterId)
  failIf (mapping.operator ∉ slot.operators)
    (owner ++ " uses unsupported operator for dataset filter " ++ slot.id)
  failIf (mapping.parameter.isSome = mapping.value.isSome)
    (owner ++ " dataset filter " ++ slot.id ++ " must declare exactly one of parameter or value")
  if slot.inputPolicy = .exactIdentifier then do
    let parameterName ← okOr mapping.parameter
      (owner ++ " exact identifier filter " ++ slot.id ++ " cannot use a literal value")
    failIf (¬ ∃ parameter ∈ query.parameters, parameter.name = parameterName ∧
        parameter.source = some "transient_sensitive_input")
      (owner ++ " exact identifier filter " ++ slot.id ++ " requires transient sensitive input")
  forSome mapping.parameter fun parameterName =>
    failIf (parameterName ∉ query.parameters.map (·.name))
      (owner ++ " maps dataset filter " ++ slot.id ++ " from unknown query parameter " ++
        parameterName)

def validateRecipeProjection (capability : CapabilityKnowledge) (dataset : DatasetKnowledge)
    (shape : ShapeOption) (field : String) : Except String Unit := do
  let owner := "capability " ++ capability.id
  let output ← okOr ((shape.outputFieldsOf dataset).find? fun output => output.name = field)
    (owner ++ " references unknown dataset output field " ++ field)
  failIf (output.sensitivity = .filterOnly ∨ output.sensitivity = .neverUse)
    (owner ++ " cannot project " ++ output.sensitivity.asStr ++ " dataset output field " ++ field)

def validateDatasetRecipe (catalog : KnowledgeCatalog) (capability : CapabilityKnowledge)
    (query : QueryKnowledge) : Except String Unit :=
  forSome capability.datasetRecipe fun recipe => do
    let owner := "capability " ++ capability.id
    let dataset ← okOr (catalog.datasets.find? fun dataset => dataset.id = recipe.datasetId)
      (owner ++ " references unknown dataset " ++ recipe.datasetId)
    let shape ← okOr (dataset.shape recipe.shapeId)
      (owner ++ " references unknown dataset shape " ++ recipe.shapeId)
    forSome recipe.orderById fun orderById =>
      failIf (orderById ∉ shape.orderBy)
        (owner ++ " dataset shape " ++ shape.id ++ " does not allow order_by " ++ orderById)
    forEach recipe.filters (validateRecipeFilter capability query dataset)
    forEach recipe.projection (validateRecipeProjection capability dataset shape)

/-- A required date of the query has a policy default. -/
def validateClarificationContract (capability : CapabilityKnowledge) (query : QueryKnowledge) :
    Except String Unit :=
  forEach (query.parameters.filter fun parameter => parameter.required = true ∧
      parameter.source ≠ some "authorized_scope" ∧
      (parameter.name = "from_date" ∨ parameter.name = "to_date")) fun parameter =>
    failIf (¬ ∃ policy ∈ capability.parameterPolicies, policy.name = parameter.name ∧
        policy.required = false ∧ policy.default.isSome = true)
      ("capability " ++ capability.id ++ " requires " ++ parameter.name ++
        " with no policy default; this reintroduces the date clarification W-E removed — add " ++
        "`required: false` with a `default` expression")

def requiredUserParameters (query : QueryKnowledge) : List String :=
  (query.parameters.filter fun parameter =>
    parameter.required = true ∧ parameter.source ≠ some "authorized_scope").map (·.name)

/-- Parameters the capability requires or can default. -/
def declaredRequiredParameters (capability : CapabilityKnowledge) : List String :=
  if capability.parameterPolicies = [] then capability.requiredParameters
  else (capability.parameterPolicies.filter fun policy =>
    policy.required = true ∨ policy.default.isSome = true).map (·.name)

def validateDefaultLimit (capability : CapabilityKnowledge) (query : QueryKnowledge)
    (defaultLimit : ℤ) : Except String Unit := do
  let owner := "capability " ++ capability.id ++ " default_limit"
  failIf (defaultLimit ≤ 0) (owner ++ " must be positive")
  failIf ("limit" ∉ capability.parameterPolicies.map (·.name) ∧
      "limit" ∉ capability.requiredParameters ∧ "limit" ∉ capability.optionalParameters)
    (owner ++ " requires limit to be accepted")
  failIf ("limit" ∉ query.parameters.map (·.name)) (owner ++ " requires query parameter limit")
  forSome capability.guards.maxLimit fun maxLimit =>
    failIf (defaultLimit > maxLimit) (owner ++ " exceeds max_limit")

def validateCapabilityParameterContract (capability : CapabilityKnowledge)
    (query : QueryKnowledge) (inputs : List ParameterInputKnowledge) : Except String Unit := do
  let owner := "capability " ++ capability.id
  failIf (∃ name ∈ requiredUserParameters query, name ∉ declaredRequiredParameters capability)
    ("approved " ++ owner ++ " does not cover required user query parameters")
  forEach (requiredUserParameters query) fun parameter =>
    failIf ((inputs.filter fun input => parameter ∈ input.parameters).length ≠ 1)
      ("approved " ++ owner ++ " required user parameter " ++ parameter ++
        " must be covered exactly once")
  forSome capability.guards.maxLimit fun maxLimit =>
    failIf (maxLimit ≤ 0) (owner ++ " max_limit must be positive")
  forSome capability.guards.maxDateRangeDays fun days =>
    failIf (days = 0) (owner ++ " max_date_range_days must be positive")
  forSome capability.defaultLimit (validateDefaultLimit capability query)

def isCompleteShape (shape : RequestShape) : Bool :=
  shape.operation ≠ .unknown ∧ shape.subject ≠ .unknown ∧ shape.grouping ≠ .unknown ∧
    shape.output ≠ .unknown ∧ shape.pii ≠ .unknown

/-- What an approved capability and its query promise each other. -/
def validateContracts (catalog : KnowledgeCatalog) (capability : CapabilityKnowledge) :
    Except String Unit := do
  let query ← okOr (catalog.queries.find? fun query => query.id = capability.queryId)
    "validated query reference"
  validateCapabilityParameterContract capability query catalog.parameterInputs
  validateClarificationContract capability query
  validateDatasetRecipe catalog capability query

/-- Policies that predate acquisition metadata are left alone. -/
def declaresAcquisition (policy : ParameterPolicy) : Bool :=
  policy.userRequired = true ∨ policy.resolution ≠ [] ∨ policy.probe.isSome = true

section Catalog

variable (catalog : KnowledgeCatalog)

def dataAreaIds : List String := catalog.dataAreas.map (·.id)

def domainIds : List String := catalog.domains.map (·.id)

def queryIds : List String := catalog.queries.map (·.id)

def deferredOrRejectedDataAreaIds : List String :=
  (catalog.dataAreas.filter fun area => isDeferredOrRejectedStatus area.status).map (·.id)

def validateCapability (capability : CapabilityKnowledge) : Except String Unit := do
  let owner := "capability " ++ capability.id
  failIf (capability.status = "approved_mvp" ∧ capability.outputMode ≠ "summary" ∧
      capability.requiredParameters = [] ∧ capability.parameterPolicies = [])
    ("approved " ++ owner ++ " must declare parameters (legacy or new policy block)")
  failIf (capability.status = "approved_mvp" ∧ capability.metrics = [])
    ("approved " ++ owner ++ " must declare metrics")
  failIf (capability.status = "approved_mvp" ∧ isCompleteShape capability.requestShape = false)
    ("approved " ++ owner ++ " must declare a complete request_shape")
  validateStatus "capability output mode" capability.id capability.outputMode OUTPUT_MODES
  failIf (capability.domain ∉ domainIds catalog)
    (owner ++ " references unknown domain " ++ capability.domain)
  failIf (capability.queryId ∉ queryIds catalog)
    (owner ++ " references unknown query " ++ capability.queryId)
  forEach capability.metrics fun metric =>
    failIf (catalog.resolveMetricId metric = none)
      (owner ++ " references metric " ++ metric ++ " with no definition in knowledge/metrics " ++
        "(declare it, or add it to an existing metric's aliases)")
  if capability.status = "approved_mvp" then validateContracts catalog capability
  validateCapabilityKind capability catalog.datasets catalog.capabilities
  forEach (capability.parameterPolicies.filter declaresAcquisition) fun policy =>
    validateParameterAcquisition policy catalog.parameterInputs catalog.datasets
  validateRefs "capability" capability.id "data area" capability.dataAreas (dataAreaIds catalog)
  validateNoDeferredOrRejectedDataAreas "capability" capability.id capability.dataAreas
    (deferredOrRejectedDataAreaIds catalog)

/-- The directory above a path, or the path when there is none. -/
def parentOrSelf (path : List String) : List String :=
  if path = [""] then path else path.dropLast

/-- The directory and the file of a query's SQL. -/
def resolveSqlPath (query : QueryKnowledge) : List String × String :=
  if Text.startsWith query.sqlFile "queries/" then
    (parentOrSelf catalog.queryPath, query.sqlFile)
  else (catalog.queryPath, query.sqlFile)

def displayPath (path : List String × String) : String :=
  String.intercalate "/" (path.1 ++ [path.2])

section Files

variable (files : List String × String → Option String) (toLowercase : String → String)

def validateQuery (query : QueryKnowledge) : Except String Unit := do
  let owner := "query " ++ query.id
  failIf (query.parameters = []) (owner ++ " must declare parameters")
  forEach query.parameters fun parameter => do
    failIf (Text.isBlank parameter.name = true) (owner ++ " has parameter with empty name")
    validateStatus "query parameter type" (query.id ++ "." ++ parameter.name) parameter.kind
      PARAMETER_TYPES
  validateRefs "query" query.id "data area" query.dataAreas (dataAreaIds catalog)
  validateNoDeferredOrRejectedDataAreas "query" query.id query.dataAreas
    (deferredOrRejectedDataAreaIds catalog)
  failIf (query.outputFields = []) (owner ++ " must have at least one output field")
  forEach query.outputFields fun field =>
    failIf (Text.isBlank field.name = true) (owner ++ " has output field with empty name")
  let sqlPath := resolveSqlPath catalog query
  let sql ← okOr (files sqlPath)
    (owner ++ " references non-existing sql file " ++ displayPath sqlPath)
  SqlSafety.validateSqlSafety query sql

/-- The prose of a capability against the statement of its query. -/
def validateProse (capability : CapabilityKnowledge) : Except String Unit :=
  forSome (catalog.queries.find? fun query => query.id = capability.queryId) fun query =>
    ProseClaims.validateProseClaims toLowercase capability query
      ((files (resolveSqlPath catalog query)).getD "")

def validateDatasetEntry (before : List DatasetKnowledge) (dataset : DatasetKnowledge) :
    Except String Unit := do
  failIf (dataset.id ∈ before.map (·.id))
    ("dataset " ++ dataset.id ++ " is declared more than once")
  validateDataset dataset
  failIf (∃ table ∈ dataset.tables, Text.startsWith table "m_loan" = true)
    ("dataset " ++ dataset.id ++ " references deferred loan tables")

end Files

inductive LintSeverity where
  | fatal | warning
deriving DecidableEq, Repr

structure LintFinding where
  id : String
  severity : LintSeverity
  message : String
deriving DecidableEq, Repr

def isConsumed (dataset : DatasetKnowledge) (shape : ShapeOption) : Bool :=
  catalog.capabilities.any fun capability => capability.datasetRecipe.any fun recipe =>
    recipe.datasetId = dataset.id ∧ recipe.shapeId = shape.id

def isWired (dataset : DatasetKnowledge) (shape : ShapeOption) : Bool :=
  catalog.capabilities.any fun capability => capability.parameterPolicies.any fun policy =>
    policy.probe.any fun probe => probe.datasetId = dataset.id ∧ probe.shapeId = shape.id

/-- A shape nothing consumes is fatal; an unwired resolver only worth a warning. -/
def lintShape (dataset : DatasetKnowledge) (shape : ShapeOption) : Option LintFinding :=
  if isConsumed catalog dataset shape = false then
    some ⟨"unconsumed_shape", .fatal, "dataset " ++ dataset.id ++ " shape " ++ shape.id ++
      " has zero consuming capabilities (wire it via a capability's dataset_recipe, or retire it)"⟩
  else if (shape.role = .resolver ∨ shape.role = .probe) ∧
      isWired catalog dataset shape = false then
    some ⟨"unwired_resolver", .warning, "dataset " ++ dataset.id ++ " resolver/probe shape " ++
      shape.id ++ " is not attached to any capability's parameter probe: (it may legitimately " ++
      "land a step ahead of its consumer)"⟩
  else none

def findCompletenessLints : List LintFinding :=
  catalog.datasets.flatMap fun dataset => dataset.shapes.filterMap (lintShape catalog dataset)

def validateIds : Except String Unit := do
  validateUniqueIds "data areas" (dataAreaIds catalog)
  validateUniqueIds "domain" (domainIds catalog)
  validateUniqueIds "schema" (catalog.schemas.map (·.id))
  validateUniqueIds "metric" (catalog.metrics.map (·.id))
  validateUniqueIds "capability" (catalog.capabilities.map (·.id))
  validateUniqueIds "query" (queryIds catalog)
  validateUniqueIds "policy" (catalog.policies.map (·.id))
  validateUniqueIds "response" (catalog.responses.map (·.id))
  validateUniqueIds "parameter input" (catalog.parameterInputs.map (·.id))

def validateStatuses : Except String Unit := do
  forEach catalog.dataAreas fun area =>
    validateStatus "data area" area.id area.status DATA_AREA_STATUSES
  forEach catalog.domains fun domain =>
    validateStatus "domain" domain.id domain.status DOMAIN_STATUSES
  forEach catalog.capabilities fun capability =>
    validateStatus "capability" capability.id capability.status CAPABILITY_STATUSES
  forEach catalog.queries fun query =>
    validateStatus "query database" query.id query.database QUERY_DATABASES

def validateLayers : Except String Unit := do
  forEach catalog.domains fun domain =>
    validateRefs "domain" domain.id "data area" domain.dataAreas (dataAreaIds catalog)
  validateGenericLayer "schema" catalog.schemas (dataAreaIds catalog) (domainIds catalog)
  validateGenericLayer "metric" catalog.metrics (dataAreaIds catalog) (domainIds catalog)
  validateGenericLayer "policy" catalog.policies (dataAreaIds catalog) (domainIds catalog)
  validateGenericLayer "response" catalog.responses (dataAreaIds catalog) (domainIds catalog)

def validate (files : List String × String → Option String) (toLowercase : String → String) :
    Except String Unit := do
  validateClassificationPolicyAgainstCatalog catalog.classification
    (catalog.capabilities.map (·.id))
  validateIds catalog
  validateParameterInputRegistry catalog.parameterInputs catalog.queries
  validateParameterBindings catalog
  validateStatuses catalog
  validateLayers catalog
  forEach catalog.capabilities (validateCapability catalog)
  forEach catalog.queries (validateQuery catalog files)
  forEach catalog.capabilities (validateProse catalog files toLowercase)
  forEachAfter [] catalog.datasets validateDatasetEntry
  forEach ((findCompletenessLints catalog).filter fun finding => finding.severity = .fatal)
    fun finding => .error finding.message

end Catalog

end FineractReports.KnowledgeValidator

namespace FineractReports

/-! A catalog with one capability, the client name lookup. -/

namespace NameLookup

def capability : CapabilityKnowledge where
  id := "client_name_lookup"
  status := "approved_mvp"
  domain := "client"
  queryId := "client.name_lookup"
  outputMode := "list"
  requestShape := ⟨.lookup, .client, .none, .lookup, .clientIdentity⟩
  kind := .terminal
  memberCapabilityIds := []
  displayName := some "Client Name Lookup"
  description := some "Find clients by their name."
  dataAreas := ["client_foundation"]
  metrics := ["client.name_lookup"]
  examples := ["Find client named Tony."]
  requiredParameters := []
  optionalParameters := []
  defaultLimit := none
  guards := ⟨none, none⟩
  datasetRecipe := none
  parameterPolicies :=
    [⟨"office_ids", .integerArray, false, some .authorizedScope, false, false, none,
      false, [], none⟩,
     ⟨"search", .string, true, none, false, true, none, false, [], none⟩]

def query : QueryKnowledge where
  id := "client.name_lookup"
  database := "fineract"
  sqlFile := "queries/client/name_lookup.sql"
  dataAreas := ["client_foundation"]
  parameters :=
    [⟨"office_ids", "array_bigint", true, some "authorized_scope"⟩,
      ⟨"search", "string", true, none⟩]
  outputFields := [⟨"client_id", "bigint", .publicBusiness⟩, ⟨"display_name", "string", .pii⟩]
  timeoutMs := some 3000

def searchInput : ParameterInputKnowledge where
  id := "search"
  parameters := ["search"]
  fieldType := .text
  label := "Client name"
  helpText := none
  required := true
  validation := ⟨none, none, some 200, none⟩

def catalog : KnowledgeCatalog where
  queryPath := ["", "repo", "queries"]
  dataAreas := [⟨"client_foundation", "included_mvp_foundation"⟩]
  domains := [⟨"client", "approved_mvp", ["client_foundation"]⟩]
  schemas := []
  metrics := [⟨"client.name_lookup", none, some "client", ["client_foundation"],
    [.str "query"], []⟩]
  capabilities := [capability]
  queries := [query]
  policies := []
  responses := []
  parameterInputs := [searchInput]
  parameterBindings := [("search", [.personName])]
  classification := ⟨⟨1 / 20, "0.05"⟩, ⟨2 / 5, "0.4"⟩, "other_activity", "Others"⟩
  datasets := []

def sql : String :=
  "SELECT id FROM m_client WHERE office_id = ANY($1::bigint[]) AND display_name = $2::text"

def files (path : List String × String) : Option String :=
  if path = (["", "repo"], query.sqlFile) then some sql else none

theorem catalog_valid :
    KnowledgeValidator.validate catalog files Text.asciiLower = .ok () := by
  decide +kernel

end NameLookup

end FineractReports
