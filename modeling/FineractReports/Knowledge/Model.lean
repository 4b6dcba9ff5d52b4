import FineractReports.Assistant.CanonicalFacts
import FineractReports.Assistant.Clarification
import FineractReports.Knowledge.ParameterPolicy
import FineractReports.Library.Assoc

/-!
# The knowledge catalog

Capabilities, queries and datasets as the loader hands them over. Records keep
the fields the validator, the planner, the compiler and the verifier read.
-/

namespace FineractReports

inductive Sensitivity where
  | publicBusiness | pii | filterOnly | maskedOutput | neverUse
deriving DecidableEq, Repr

structure QueryParameter where
  name : String
  kind : String
  required : Bool
  source : Option String
deriving DecidableEq, Repr

namespace Dataset

inductive FilterInputPolicy where
  | ordinary | exactIdentifier
deriving DecidableEq, Repr

inductive FilterOperator where
  | eq | in | lt | lte | gt | gte | between
deriving DecidableEq, Repr

inductive ShapeRole where
  | terminal | resolver | probe
deriving DecidableEq, Repr

inductive Cardinality where
  | zero | one | many
deriving DecidableEq, Repr

structure FilterSlot where
  id : String
  expr : String
  kind : String
  caseInsensitive : Bool
  inputPolicy : FilterInputPolicy
  operators : List FilterOperator
deriving DecidableEq, Repr

structure EntityMetadata where
  kind : String
  idField : String
  labelFields : List String
  labelFallback : String
deriving DecidableEq, Repr

structure ProducedSlot where
  slot : String
  kind : String
  sensitivity : Sensitivity
  cardinality : Cardinality
deriving DecidableEq, Repr

structure DatasetOutputField where
  name : String
  kind : String
  sensitivity : Sensitivity
  core : Bool
deriving DecidableEq, Repr

structure ShapeOption where
  id : String
  requestShape : RequestShape
  role : ShapeRole
  expectedCardinality : Option Cardinality
  rowCap : Option UInt32
  groupedBy : Option String
  produces : List ProducedSlot
  fragment : Option String
  orderBy : List String
  outputFields : List DatasetOutputField
  parameters : List QueryParameter
deriving DecidableEq, Repr

structure OrderByOption where
  id : String
  expr : String
deriving DecidableEq, Repr

structure DatasetRecipeFilter where
  filterId : String
  operator : FilterOperator
  parameter : Option String
  value : Option Json
deriving DecidableEq

/-- Catalog-owned selection attached to a capability. -/
structure DatasetRecipe where
  datasetId : String
  shapeId : String
  orderById : Option String
  filters : List DatasetRecipeFilter
  projection : List String
deriving DecidableEq

structure DatasetFilterSelection where
  filterId : String
  operator : FilterOperator
  value : Json
deriving DecidableEq

structure DatasetSelection where
  datasetId : String
  shapeId : String
  orderById : Option String
  filters : List DatasetFilterSelection
  projection : List String
deriving DecidableEq

end Dataset

open Dataset

/-- One source with its whitelists of filters, shapes and orderings. -/
structure DatasetKnowledge where
  id : String
  database : String
  sourceSql : String
  tables : List String
  filters : List FilterSlot
  entity : Option EntityMetadata
  filtersExempt : List String
  shapes : List ShapeOption
  orderBy : List OrderByOption
  outputFields : List DatasetOutputField
  parameters : List QueryParameter
  timeoutMs : Option UInt64
deriving DecidableEq, Repr

namespace DatasetKnowledge

def shape (dataset : DatasetKnowledge) (shapeId : String) : Option ShapeOption :=
  dataset.shapes.find? fun shape => shape.id = shapeId

def orderByExpr (dataset : DatasetKnowledge) (orderById : String) : Option String :=
  (dataset.orderBy.find? fun option => option.id = orderById).map (·.expr)

/-- Fields rendered for every request, regardless of projection hints. -/
def coreFieldNames (dataset : DatasetKnowledge) : List String :=
  (dataset.outputFields.filter (·.core)).map (·.name)

end DatasetKnowledge

namespace Dataset.ShapeOption

/-- A shape's own output fields, or the dataset's when it declares none. -/
def outputFieldsOf (shape : ShapeOption) (dataset : DatasetKnowledge) :
    List DatasetOutputField :=
  if shape.outputFields.isEmpty then dataset.outputFields else shape.outputFields

def parametersOf (shape : ShapeOption) (dataset : DatasetKnowledge) : List QueryParameter :=
  if shape.parameters.isEmpty then dataset.parameters else shape.parameters

end Dataset.ShapeOption

structure QueryOutputField where
  name : String
  kind : String
  sensitivity : Sensitivity
deriving DecidableEq, Repr

structure QueryKnowledge where
  id : String
  database : String
  sqlFile : String
  dataAreas : List String
  parameters : List QueryParameter
  outputFields : List QueryOutputField
  timeoutMs : Option UInt64
deriving DecidableEq, Repr

inductive CapabilityKind where
  | terminal | resolver | probe | composite
deriving DecidableEq, Repr

structure CapabilityGuards where
  maxLimit : Option ℤ
  maxDateRangeDays : Option ℕ
deriving DecidableEq, Repr

structure CapabilityKnowledge where
  id : String
  status : String
  domain : String
  queryId : String
  outputMode : String
  requestShape : RequestShape
  kind : CapabilityKind
  memberCapabilityIds : List String
  displayName : Option String
  description : Option String
  dataAreas : List String
  metrics : List String
  examples : List String
  requiredParameters : List String
  optionalParameters : List String
  defaultLimit : Option ℤ
  guards : CapabilityGuards
  datasetRecipe : Option DatasetRecipe
  parameterPolicies : List ParameterPolicy
deriving DecidableEq

structure GenericKnowledge where
  id : String
  status : Option String
  domain : Option String
  dataAreas : List String
  checks : List Json
  content : List (String × Json)
deriving DecidableEq

structure DataAreasKnowledge where
  id : String
  status : String
deriving DecidableEq, Repr

structure DomainKnowledge where
  id : String
  status : String
  dataAreas : List String
deriving DecidableEq, Repr

structure ParameterInputKnowledge where
  id : String
  parameters : List String
  fieldType : ClarificationFieldType
  label : String
  helpText : Option String
  required : Bool
  validation : ClarificationValidation
deriving DecidableEq, Repr

/-- An `f32` with the text it prints as. -/
structure F32 where
  value : ℚ
  display : String
deriving DecidableEq, Repr

structure ClassificationPolicy where
  minGap : F32
  minFloor : F32
  othersKey : String
  othersLabel : String
deriving DecidableEq

/-- The catalog; paths are lists of components. -/
structure KnowledgeCatalog where
  queryPath : List String
  dataAreas : List DataAreasKnowledge
  domains : List DomainKnowledge
  schemas : List GenericKnowledge
  metrics : List GenericKnowledge
  capabilities : List CapabilityKnowledge
  queries : List QueryKnowledge
  policies : List GenericKnowledge
  responses : List GenericKnowledge
  parameterInputs : List ParameterInputKnowledge
  parameterBindings : List (String × List ConstraintField)
  classification : ClassificationPolicy
  datasets : List DatasetKnowledge
deriving DecidableEq

namespace KnowledgeCatalog

/-- Canonical facts that may fill a parameter, in declared precedence order. -/
def bindingFields (catalog : KnowledgeCatalog) (parameter : String) : List ConstraintField :=
  (Assoc.get? catalog.parameterBindings parameter).getD []

end KnowledgeCatalog

def Sensitivity.asStr : Sensitivity → String
  | publicBusiness => "public_business"
  | pii => "pii"
  | filterOnly => "filter_only"
  | maskedOutput => "masked_output"
  | neverUse => "never_use"

def metricAliases (metric : GenericKnowledge) : List String :=
  (((Assoc.get? metric.content "aliases").bind Json.asArray?).getD []).filterMap Json.asStr?

/-- Spellings of a metric up to separators and ASCII case. -/
def normalizeMetricKey (value : String) : String :=
  String.ofList ((value.toList.filter fun c => c ∉ ['.', '_', '-', ' ']).map Char.toLower)

/-- The metric that declares a spelling, by its canonical id. -/
def KnowledgeCatalog.resolveMetricId (catalog : KnowledgeCatalog) (raw : String) : Option String :=
  let needle := normalizeMetricKey raw
  (catalog.metrics.find? fun metric =>
    normalizeMetricKey metric.id = needle ∨
      (metricAliases metric).any
        (fun spelling => normalizeMetricKey spelling = needle) = true).map (·.id)

end FineractReports
