import FineractReports.Knowledge.DatasetRules
import FineractReports.Knowledge.SqlSafety

/-!
# Composed statements

One statement from authored SQL and declared expressions. Every filter contributes its
predicates whether it is active or not, and reserves their placeholders.
-/

namespace FineractReports.Dataset

open SqlSafety

def FilterOperator.asSql : FilterOperator → String
  | .eq => "="
  | .in => "= ANY"
  | .lt => "<"
  | .lte => "<="
  | .gt => ">"
  | .gte => ">="
  | .between => "BETWEEN"

/-- The placeholders a predicate takes: a range needs both of its bounds. -/
def FilterOperator.placeholders : FilterOperator → ℕ
  | .between => 2
  | _ => 1

def filterCast (kind : String) : Option String :=
  Assoc.get? [("date", "::date"), ("integer", "::bigint"), ("boolean", "::bool"),
    ("string", "::text"), ("decimal", "::numeric")] kind

/-- Null-passthrough predicate: an inactive filter binds NULL. -/
def predicate (expr : String) (operator : FilterOperator) (kind : String)
    (caseInsensitive : Bool) (index : ℕ) : Except String String := do
  let cast ← okOr (filterCast kind) ("unsupported dataset filter type " ++ kind)
  let value := placeholder index
  if caseInsensitive then
    if kind ≠ "string" ∨ operator ≠ .eq then
      .error "case_insensitive filters require string equality"
    else
      .ok ("\n    AND (" ++ value ++ cast ++ " IS NULL OR lower(" ++ expr ++ ") = lower(" ++
        value ++ cast ++ "))")
  else match operator with
    | .in => .ok ("\n  AND (" ++ value ++ cast ++ "[] IS NULL OR " ++ expr ++ " = ANY(" ++ value ++
        cast ++ "[]))")
    | .between =>
      let next := placeholder (index + 1)
      .ok ("\n  AND (" ++ value ++ cast ++ " IS NULL OR " ++ next ++ cast ++ " IS NULL OR " ++
        expr ++ " BETWEEN " ++ value ++ " AND " ++ next ++ ")")
    | operator => .ok ("\n  AND (" ++ value ++ cast ++ " IS NULL OR " ++ expr ++ " " ++
        operator.asSql ++ " " ++ value ++ ")")

/-- The first placeholder reserved for a filter and one of its operators. -/
structure FilterBind where
  filterId : String
  operator : FilterOperator
  placeholder : ℕ
  maxArrayLen : Option UInt32
deriving DecidableEq, Repr

structure ComposedSql where
  sql : String
  filterBinds : List FilterBind
deriving DecidableEq, Repr

section Filters

variable (dataset : DatasetKnowledge) (shape : ShapeOption)

def filterBind (filter : FilterSlot) (operator : FilterOperator) (index : ℕ) : FilterBind where
  filterId := filter.id
  operator := operator
  placeholder := index
  maxArrayLen := if operator = .in then shape.rowCap else none

/-- The predicates of a filter's operators after the last placeholder taken. -/
def composeOperators (filter : FilterSlot) (taken : ℕ) :
    List FilterOperator → Except String (ℕ × String × List FilterBind)
  | [] => .ok (taken, "", [])
  | operator :: rest => do
    let text ← predicate filter.expr operator filter.kind filter.caseInsensitive (taken + 1)
    let (last, texts, binds) ← composeOperators filter (taken + operator.placeholders) rest
    pure (last, text ++ texts, filterBind shape filter operator (taken + 1) :: binds)

def composeFilters (taken : ℕ) : List FilterSlot → Except String (ℕ × String × List FilterBind)
  | [] => .ok (taken, "", [])
  | filter :: rest => do
    mapError (fun reason => "dataset " ++ dataset.id ++ " filter " ++ filter.id ++ ": " ++ reason)
      (validateSqlExpr filter.expr)
    let (middle, text, binds) ← composeOperators shape filter taken filter.operators
    let (last, texts, others) ← composeFilters middle rest
    pure (last, text ++ texts, binds ++ others)

/-- The ordering clause of a declared ordering. -/
def orderByClause (orderById : Option String) : Except String String :=
  match orderById with
  | none => .ok ""
  | some id => do
    let expr ← okOr (dataset.orderByExpr id) ("dataset " ++ dataset.id ++ " has no order_by " ++ id)
    mapError (fun reason => "dataset " ++ dataset.id ++ " order_by " ++ id ++ ": " ++ reason)
      (validateSqlExpr expr)
    pure ("\nORDER BY " ++ expr)

/-- The source SQL is a complete statement already. -/
def IsDegenerate (orderById : Option String) : Prop :=
  shape.fragment = none ∧ dataset.filters = [] ∧ orderById = none

instance (orderById : Option String) : Decidable (IsDegenerate dataset shape orderById) := by
  unfold IsDegenerate; infer_instance

end Filters

def composedText (sourceSql predicates fragmentSql orderBy : String) : String :=
  "WITH source AS (\n" ++ sourceSql ++ "\n),\nbase AS (\n  SELECT *\n  FROM source\n  WHERE TRUE" ++
    predicates ++ "\n)\n" ++ fragmentSql ++ orderBy

def compose (dataset : DatasetKnowledge) (shapeId : String) (orderById : Option String)
    (sourceSql : String) (fragmentSql : Option String) : Except String ComposedSql := do
  let shape ← okOr (dataset.shape shapeId) ("dataset " ++ dataset.id ++ " has no shape " ++ shapeId)
  if IsDegenerate dataset shape orderById then
    pure ⟨sourceSql, []⟩
  else do
    let fragmentSql ← okOr fragmentSql
      ("shape " ++ shapeId ++ " of dataset " ++ dataset.id ++ " requires a fragment")
    let (_, predicates, binds) ←
      composeFilters dataset shape (shape.parametersOf dataset).length dataset.filters
    let orderBy ← orderByClause dataset orderById
    pure ⟨composedText sourceSql predicates fragmentSql orderBy, binds⟩

end FineractReports.Dataset
