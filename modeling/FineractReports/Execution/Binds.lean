import FineractReports.Execution.Statement

/-!
# Bound values

The values an approved statement is issued with, in the order they are bound: those of the
declared parameters, then those of the dataset's filters. `parseDate` and `parseDecimal`
stand for the parsers of the date and the decimal library.
-/

namespace FineractReports.Execution

open Dataset

/-- A typed value for the next placeholder; no value binds NULL of its type. -/
inductive BindValue (Number : Type) where
  | date (value : Option NaiveDate)
  | integer (value : Option ℤ)
  | string (value : Option String)
  | decimal (value : Option Number)
  | boolean (value : Option Bool)
  | bigints (values : Option (List ℤ))
  | strings (values : Option (List String))
deriving DecidableEq

structure ExecutionLimits where
  defaultTimeoutMs : UInt64
  globalMaxRows : ℤ
deriving DecidableEq, Repr

section Parameters

def requiredOrNull {α : Type} (parameter : QueryParameter) : Except String (Option α) := do
  failIf (parameter.required = true) ("missing parameter " ++ parameter.name)
  pure none

variable {Number : Type} (parseDate : String → Except String NaiveDate)
  (parseDecimal : String → Except String Number) (plan : ExecutionPlan)

def dateParam (parameter : QueryParameter) : Except String (Option NaiveDate) :=
  match (plan.params.get? parameter.name).bind Json.asStr? with
  | some value => (parseDate value).map some
  | none => requiredOrNull parameter

def integerParam (parameter : QueryParameter) : Except String (Option ℤ) :=
  match (plan.params.get? parameter.name).bind Json.asI64? with
  | some value => .ok (some value)
  | none => requiredOrNull parameter

def decimalParam (parameter : QueryParameter) : Except String (Option Number) :=
  match (plan.params.get? parameter.name).bind Json.asStr? with
  | some value => (parseDecimal value).map some
  | none => requiredOrNull parameter

def stringParam (parameter : QueryParameter) : Except String (Option String) :=
  match (plan.params.get? parameter.name).bind Json.asStr? with
  | some value => .ok (some value)
  | none => requiredOrNull parameter

def arrayBigintParam (policy : PolicyDecision) (parameter : QueryParameter) :
    Except String (Option (List ℤ)) :=
  if parameter.source = some "authorized_scope" then .ok (some policy.officeIds)
  else match plan.params.get? parameter.name with
    | none => requiredOrNull parameter
    | some value => do
      let items ← okOr value.asArray? ("parameter " ++ parameter.name ++ " must be an array")
      let parsed ← collectAll items fun item => do
        let value ← okOr item.asI64?
          ("parameter " ++ parameter.name ++ " must contain only integers")
        pure [value]
      pure (some parsed)

def isLimitName (name : String) : Bool := name = "limit" ∨ name = "top_n"

/-- The hard cap the capability declares for its row limit. -/
def declaredHardCap (catalog : KnowledgeCatalog) : Option ℤ := do
  let capability ← catalog.capabilities.find? fun capability => capability.id = plan.capability
  let policy ← capability.parameterPolicies.find? fun policy => isLimitName policy.name
  policy.hardCap

def effectiveRowCap (declaredHardCap : Option ℤ) (globalMaxRows : ℤ) : ℤ :=
  declaredHardCap.getD globalMaxRows

/-- The bound to probe, when the cap replaces a missing or an over-cap request. -/
def truncationLimit (requested : Option ℤ) (rowCap : ℤ) : Option ℤ :=
  match requested with
  | some requested => if requested ≤ rowCap then none else some rowCap
  | none => some rowCap

def limitParam (parameters : List QueryParameter) : Option String :=
  (parameters.find? fun parameter => isLimitName parameter.name).map (·.name)

def fetchLimit (catalog : KnowledgeCatalog) (limits : ExecutionLimits)
    (parameters : List QueryParameter) : Option ℤ :=
  (limitParam parameters).bind fun name =>
    truncationLimit ((plan.params.get? name).bind Json.asI64?)
      (effectiveRowCap (declaredHardCap plan catalog) limits.globalMaxRows)

/-- `saturating_add(1)` on `i64`. -/
def oneMore (limit : ℤ) : ℤ := min (limit + 1) (2 ^ 63 - 1)

/-- The row limit is one above the cap where the cap replaces it. -/
def limitedIntegerParam (limit : Option String) (fetch : Option ℤ) (parameter : QueryParameter) :
    Except String (Option ℤ) :=
  if limit = some parameter.name then
    match fetch with
    | some fetch => .ok (some (oneMore fetch))
    | none => integerParam plan parameter
  else integerParam plan parameter

/-- The value of a declared parameter, by its type. -/
def parameterBind (policy : PolicyDecision) (limit : Option String) (fetch : Option ℤ)
    (parameter : QueryParameter) : Except String (BindValue Number) :=
  if parameter.kind = "date" then (dateParam parseDate plan parameter).map .date
  else if parameter.kind = "integer" then
    (limitedIntegerParam plan limit fetch parameter).map .integer
  else if parameter.kind = "string" then (stringParam plan parameter).map .string
  else if parameter.kind = "decimal" then (decimalParam parseDecimal plan parameter).map .decimal
  else if parameter.kind = "array_bigint" then
    (arrayBigintParam plan policy parameter).map .bigints
  else .error ("unsupported query parameter " ++ parameter.kind)

def isTransient (parameter : QueryParameter) : Bool :=
  parameter.source = some "transient_sensitive_input"

/-- The bind loop over the declared parameters passes over the sensitive ones. -/
def bindParameters (policy : PolicyDecision) (limit : Option String) (fetch : Option ℤ)
    (parameters : List QueryParameter) : Except String (List (BindValue Number)) :=
  collectAll parameters fun parameter =>
    if isTransient parameter = true then .ok []
    else (parameterBind parseDate parseDecimal plan policy limit fetch parameter).map
      fun value => [value]

end Parameters

/-! ### The filters of a dataset -/

structure DatasetBindValue where
  kind : String
  operator : FilterOperator
  value : Option Json
deriving DecidableEq

/-- The part of a filter's value at one of its placeholders: a bound of a range. -/
def valuePart (operator : FilterOperator) (value : Option Json) (index : ℕ) : Option Json :=
  match operator with
  | .between => (value.bind Json.asArray?).bind fun values => values[index]?
  | _ => value

section Filters

variable (selection : DatasetSelection) (sensitiveIdentifier : Option String)

/-- The selected filter of a slot and one of its operators. -/
def selectedFilter (slot : FilterSlot) (operator : FilterOperator) :
    Option DatasetFilterSelection :=
  selection.filters.find? fun filter => filter.filterId = slot.id ∧ filter.operator = operator

def sensitiveValue (slot : FilterSlot) : Option Json :=
  if slot.inputPolicy = .exactIdentifier then sensitiveIdentifier.map .str else none

def operatorBinds (slot : FilterSlot) (operator : FilterOperator) :
    Except String (List DatasetBindValue) := do
  let selected := (selectedFilter selection slot operator).map (·.value)
  failIf (slot.inputPolicy = .exactIdentifier ∧ sensitiveValue sensitiveIdentifier slot = none)
    "missing transient sensitive identifier"
  match operator with
  | .between => pure ((List.range 2).map fun index =>
      ⟨slot.kind, operator, valuePart operator selected index⟩)
  | _ => pure [⟨slot.kind, operator, (sensitiveValue sensitiveIdentifier slot).or selected⟩]

def composeDatasetBinds (dataset : DatasetKnowledge) : Except String (List DatasetBindValue) :=
  collectAll dataset.filters fun slot =>
    collectAll slot.operators (operatorBinds selection sensitiveIdentifier slot)

end Filters

section Values

variable {Number : Type} (parseDate : String → Except String NaiveDate)
  (parseDecimal : String → Except String Number)

def isBool? : Json → Option Bool
  | .bool value => some value
  | _ => none

def arrayBind (bind : DatasetBindValue) : Except String (BindValue Number) :=
  let items := bind.value.bind Json.asArray?
  if bind.kind = "integer" then .ok (.bigints (items.map fun items => items.filterMap Json.asI64?))
  else if bind.kind = "string" then
    .ok (.strings (items.map fun items => items.filterMap Json.asStr?))
  else .error ("unsupported dataset filter `in` bind type " ++ bind.kind)

/-- Parses an optional text. -/
def parseSome {α : Type} (parse : String → Except String α) (text : Option String) :
    Except String (Option α) :=
  match text with
  | some text => (parse text).map some
  | none => .ok none

def scalarBind (bind : DatasetBindValue) : Except String (BindValue Number) :=
  if bind.kind = "date" then
    (parseSome parseDate (bind.value.bind Json.asStr?)).map .date
  else if bind.kind = "integer" then .ok (.integer (bind.value.bind Json.asI64?))
  else if bind.kind = "boolean" then .ok (.boolean (bind.value.bind isBool?))
  else if bind.kind = "string" then .ok (.string (bind.value.bind Json.asStr?))
  else if bind.kind = "decimal" then
    (parseSome parseDecimal (bind.value.bind Json.asStr?)).map .decimal
  else .error ("unsupported dataset filter bind type " ++ bind.kind)

def bindDatasetValue (bind : DatasetBindValue) : Except String (BindValue Number) :=
  if bind.operator = .in then arrayBind bind else scalarBind parseDate parseDecimal bind

end Values

/-! ### The issued statement -/

section Issue

variable {Number : Type} (parseDate : String → Except String NaiveDate)
  (parseDecimal : String → Except String Number) (disk : Disk) (catalog : KnowledgeCatalog)
  (plan : ExecutionPlan) (policy : PolicyDecision) (limits : ExecutionLimits)
  (sensitiveIdentifier : Option String)

def bindFilters : Except String (List (BindValue Number)) :=
  match plan.datasetSelection with
  | none => .ok []
  | some selection => do
    let dataset ← datasetOf catalog selection
    let binds ← composeDatasetBinds selection sensitiveIdentifier dataset
    collectAll binds fun bind => (bindDatasetValue parseDate parseDecimal bind).map
      fun value => [value]

/-- `execute_plan_with_sensitive` up to the point where the statement is issued. -/
def issueStatement : Except String (Statement × List (BindValue Number)) := do
  failIf (policy.status ≠ .allowed)
    ("policy blocked execution: " ++ policy.reason.getD "unknown policy error")
  let query ← okOr (catalog.queries.find? fun query => query.id = plan.queryId)
    ("query " ++ plan.queryId ++ " not found in catalog")
  let statement ← resolveStatement disk catalog plan query limits.defaultTimeoutMs
  let parameters ← bindParameters parseDate parseDecimal plan policy
    (limitParam statement.parameters) (fetchLimit plan catalog limits statement.parameters)
    statement.parameters
  let filters ← bindFilters parseDate parseDecimal catalog plan sensitiveIdentifier
  pure (statement, parameters ++ filters)

end Issue

end FineractReports.Execution
