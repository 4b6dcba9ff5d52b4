import FineractReports.Knowledge.Model
import FineractReports.Library.Checks

/-!
# Static rules for datasets

The grammar of declared SQL expressions and the rules a dataset has to meet when
the catalog is loaded, before any SQL is prepared.
-/

namespace FineractReports.Dataset

def FORBIDDEN_TOKENS : List String := [";", "--", "/*", "*/", "'", "\"", "(", ")"]

def identifierStart (c : Char) : Bool := c.isAlpha || c = '_'

def identifierChar (c : Char) : Bool := c.isAlphanum || c = '_'

/-- A nonempty word of letters, digits and underscores that starts with no digit. -/
def isIdentifierPart (part : String) : Bool :=
  match part.toList with
  | [] => false
  | first :: rest => identifierStart first && rest.all identifierChar

/-- A name, or a name qualified by one table. -/
def validateIdentifier (identifier : String) : Except String Unit := do
  let parts := Text.split (fun c => c = '.') identifier
  failIf (parts.length > 2) ("identifier `" ++ identifier ++ "` has too many qualifiers")
  forEach parts fun part =>
    failIf (isIdentifierPart part = false) ("invalid identifier `" ++ identifier ++ "`")

def isDirection (word : String) : Bool :=
  Text.asciiUpper word = "ASC" ∨ Text.asciiUpper word = "DESC"

/-- The words after the identifier of a term, without its direction. -/
def afterDirection : List String → List String
  | [] => []
  | word :: rest => if isDirection word then rest else word :: rest

def validateTerm (term : String) : Except String Unit :=
  match Text.tokens Text.isWhitespace term with
  | [] => .error "expression has an empty term"
  | identifier :: words => do
    validateIdentifier identifier
    match afterDirection words with
    | [] => .ok ()
    | [nulls, place] =>
      failIf (¬ (Text.asciiUpper nulls = "NULLS" ∧
          (Text.asciiUpper place = "FIRST" ∨ Text.asciiUpper place = "LAST")))
        ("unexpected tokens in term `" ++ Text.trim term ++ "`")
    | _ => .error ("unexpected tokens in term `" ++ Text.trim term ++ "`")

/-- A comma-separated list of ordering terms. -/
def validateSqlExpr (expr : String) : Except String Unit := do
  failIf (Text.isBlank expr = true) "expression is empty"
  forEach FORBIDDEN_TOKENS fun token =>
    failIf (Text.contains expr token = true)
      ("expression contains forbidden token `" ++ token ++ "`")
  forEach (Text.split (fun c => c = ',') expr) validateTerm

def FILTER_TYPES : List String := ["date", "integer", "boolean", "string", "decimal"]

def OUTPUT_TYPES : List String := ["bigint", "integer", "string", "date", "decimal", "boolean"]

section Rules

variable (dataset : DatasetKnowledge)

def hasExactIdentifier : Bool :=
  dataset.filters.any fun filter => filter.inputPolicy = .exactIdentifier

def validateFilter (before : List FilterSlot) (filter : FilterSlot) : Except String Unit := do
  let owner := "dataset " ++ dataset.id
  failIf (filter.id ∈ before.map (·.id)) (owner ++ " declares filter " ++ filter.id ++ " twice")
  failIf (filter.kind ∉ FILTER_TYPES)
    (owner ++ " filter " ++ filter.id ++ " has unsupported type " ++ filter.kind)
  failIf (filter.operators = []) (owner ++ " filter " ++ filter.id ++ " declares no operators")
  if filter.inputPolicy = .exactIdentifier then do
    let exact := owner ++ " exact identifier filter " ++ filter.id
    failIf (filter.kind ≠ "string") (exact ++ " must be a string")
    failIf (filter.operators ≠ [.eq]) (exact ++ " may use only eq")
    failIf (filter.caseInsensitive = true) (exact ++ " must be case-sensitive")
  mapError (fun reason => owner ++ " filter " ++ filter.id ++ ": " ++ reason)
    (validateSqlExpr filter.expr)

def validateOrderBy (before : List OrderByOption) (option : OrderByOption) :
    Except String Unit := do
  let owner := "dataset " ++ dataset.id
  failIf (option.id ∈ before.map (·.id)) (owner ++ " declares order_by " ++ option.id ++ " twice")
  mapError (fun reason => owner ++ " order_by " ++ option.id ++ ": " ++ reason)
    (validateSqlExpr option.expr)

def validateOutputField (shape : ShapeOption) (before : List DatasetOutputField)
    (field : DatasetOutputField) : Except String Unit := do
  let owner := "dataset " ++ dataset.id ++ " shape " ++ shape.id
  failIf (Text.isBlank field.name = true) (owner ++ " has output field with empty name")
  failIf (field.name ∈ before.map (·.name))
    (owner ++ " declares output field " ++ field.name ++ " twice")
  failIf (field.kind ∉ OUTPUT_TYPES)
    (owner ++ " output field " ++ field.name ++ " has unsupported type " ++ field.kind)
  failIf (field.sensitivity = .filterOnly ∨ field.sensitivity = .neverUse)
    (owner ++ " cannot project " ++ field.sensitivity.asStr ++ " output field " ++ field.name)

/-- A string column outside the identity policy, which the caller may narrow by. -/
def isNarrowableText (field : DatasetOutputField) : Bool :=
  field.kind = "string" ∧ field.sensitivity ≠ .pii ∧ field.sensitivity ≠ .maskedOutput

/-- A stable identifier, which the caller may narrow by. -/
def isNarrowableId (field : DatasetOutputField) : Bool :=
  field.kind = "bigint" ∧ (Text.endsWith field.name "_id" = true ∨
    dataset.entity.any (fun entity => entity.idField = field.name) = true)

def validateNarrowable (shape : ShapeOption) (field : DatasetOutputField) : Except String Unit :=
  failIf ((dataset.filters.any fun filter => filter.id = field.name ∨ filter.expr = field.name)
      = false ∧ field.name ∉ dataset.filtersExempt)
    ("dataset " ++ dataset.id ++ " shape " ++ shape.id ++ " returns narrowable column " ++
      field.name ++ " with no filter slot; declare a filter or list it under filters_exempt")

def isAuthorizedOffices (parameter : QueryParameter) : Bool :=
  parameter.name = "office_ids" ∧ parameter.kind = "array_bigint" ∧ parameter.required = true ∧
    parameter.source = some "authorized_scope"

def validateShape (before : List ShapeOption) (shape : ShapeOption) : Except String Unit := do
  let owner := "dataset " ++ dataset.id ++ " shape " ++ shape.id
  failIf (shape.id ∈ before.map (·.id))
    ("dataset " ++ dataset.id ++ " declares shape " ++ shape.id ++ " twice")
  forEach shape.orderBy fun reference =>
    failIf (reference ∉ dataset.orderBy.map (·.id))
      (owner ++ " references undeclared order_by " ++ reference)
  failIf (shape.fragment = none ∧ dataset.filters ≠ [])
    (owner ++ " must declare a fragment because the dataset declares filters")
  let fields := shape.outputFieldsOf dataset
  failIf (fields = []) (owner ++ " declares no output fields")
  forEachAfter [] fields (validateOutputField dataset shape)
  failIf (hasExactIdentifier dataset = true ∧
      (fields.any fun field => field.sensitivity = .maskedOutput) = false)
    (owner ++ " exact identifier requires masked_output")
  failIf (fields.any (·.core) = false) (owner ++ " declares no core output field")
  forEach (fields.filter isNarrowableText) (validateNarrowable dataset shape)
  forEach (fields.filter (isNarrowableId dataset)) (validateNarrowable dataset shape)
  forEachAfter [] (shape.parametersOf dataset) fun seen parameter =>
    failIf (parameter.name ∈ seen.map (·.name))
      (owner ++ " declares parameter " ++ parameter.name ++ " twice")
  failIf (hasExactIdentifier dataset = true ∧
      (shape.parametersOf dataset).any isAuthorizedOffices = false)
    (owner ++ " exact identifier requires authorized office_ids")

/-- The output fields of all shapes. -/
def allOutputFields : List DatasetOutputField :=
  dataset.shapes.flatMap fun shape => shape.outputFieldsOf dataset

def validateEntity (entity : EntityMetadata) : Except String Unit := do
  let owner := "dataset " ++ dataset.id ++ " entity "
  let fields := allOutputFields dataset
  let idField ← okOr (fields.find? fun field => field.name = entity.idField)
    (owner ++ "id_field " ++ entity.idField ++ " is not an output field")
  failIf (idField.kind ≠ "bigint" ∨ idField.sensitivity ≠ .publicBusiness)
    (owner ++ "id_field " ++ entity.idField ++ " must be bigint public_business")
  forEach entity.labelFields fun label =>
    failIf (label ∉ fields.map (·.name))
      (owner ++ "label field " ++ label ++ " is not an output field")

def validateDataset : Except String Unit := do
  let owner := "dataset " ++ dataset.id
  failIf ((dataset.filters.any fun filter => FilterOperator.in ∈ filter.operators) = true ∧
      (dataset.shapes.any fun shape => shape.rowCap.all (· = 0)) = true)
    (owner ++ " in filters require a non-zero row_cap on every shape")
  forEachAfter [] dataset.filters (validateFilter dataset)
  forEachAfter [] dataset.orderBy (validateOrderBy dataset)
  failIf (dataset.shapes = []) (owner ++ " declares no shapes")
  forEachAfter [] dataset.shapes (validateShape dataset)
  forSome dataset.entity (validateEntity dataset)
  forEach dataset.shapes fun shape =>
    failIf (shape.role = .resolver ∧ shape.produces = [])
      (owner ++ " resolver shape " ++ shape.id ++ " must declare produces")
  forEach dataset.filtersExempt fun name =>
    failIf (name ∉ (allOutputFields dataset).map (·.name))
      (owner ++ " exempts unknown output field " ++ name ++ " from filtering")

end Rules

end FineractReports.Dataset
