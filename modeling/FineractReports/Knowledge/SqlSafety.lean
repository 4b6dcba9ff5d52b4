import FineractReports.Knowledge.Model
import FineractReports.Library.Checks

/-!
# Static checks of approved SQL

The statement of a query has to be a single read-only one whose placeholders, casts
and authorization constraints match the declared parameters.
-/

namespace FineractReports.SqlSafety

def UNSAFE_SQL_COMMANDS : List String :=
  ["INSERT", "UPDATE", "DELETE", "TRUNCATE", "DROP", "ALTER", "CREATE", "GRANT", "REVOKE", "COPY",
    "VACUUM", "ANALYZE"]

def isTokenChar (c : Char) : Bool := c.isAlphanum || c = '_'

def sqlTokens (upper : List Char) : List (List Char) :=
  Text.tokenChars (fun c => !isTokenChar c) upper

/-- The numbers of the placeholders, as far as they fit a `usize`. -/
def placeholderNumbers : List Char → List ℕ
  | [] => []
  | '$' :: rest =>
    ((Text.parseDigits (rest.takeWhile Char.isDigit)).filter fun n => decide (n < 2 ^ 64)).toList ++
      placeholderNumbers rest
  | _ :: rest => placeholderNumbers rest

def placeholder (index : ℕ) : String := "$" ++ toString index

/-- The cast after the first occurrence of a placeholder that has one. -/
def placeholderCast (sql : List Char) (index : ℕ) : Option String :=
  (Text.afterFirst (placeholder index ++ "::").toList sql).map fun rest =>
    String.ofList ((rest.takeWhile fun c => c.isAlphanum || c ∈ ['_', '[', ']']).map Char.toLower)

def hasParameter (query : QueryKnowledge) (name : String) : Bool :=
  query.parameters.any fun parameter => parameter.name = name

/-- The position of a parameter, from 1; 0 when it is missing. -/
def parameterPosition (query : QueryKnowledge) (name : String) : ℕ :=
  ((query.parameters.findIdx? fun parameter => parameter.name = name).map (· + 1)).getD 0

/-- The cast a placeholder needs, by the type of its parameter. -/
def requiredCast (kind : String) : Option String :=
  Assoc.get? [("date", "date"), ("string", "text"), ("decimal", "numeric"),
    ("array_bigint", "bigint[]")] kind

/-- The text occurs in the SQL. -/
def mentions (sql : List Char) (text : String) : Bool := Text.containsChars text.toList sql

def integerCastAllowed (sql : List Char) (index : ℕ) : Bool :=
  match placeholderCast sql index with
  | none => mentions (sql.map Char.toUpper) ("LIMIT " ++ placeholder index)
  | some cast => cast ∈ ["integer", "int4", "bigint"]

def validatePlaceholder (query : QueryKnowledge) (sql : List Char) (index : ℕ)
    (parameter : QueryParameter) : Except String Unit :=
  let owner := "query " ++ query.id ++ " parameter " ++ parameter.name
  match requiredCast parameter.kind with
  | some cast =>
    failIf (placeholderCast sql index ≠ some cast)
      (owner ++ " must use " ++ placeholder index ++ "::" ++ cast)
  | none =>
    failIf (parameter.kind = "integer" ∧ integerCastAllowed sql index = false)
      (owner ++ " must use integer placeholder " ++ placeholder index)

def validatePlaceholders (query : QueryKnowledge) (sql : List Char) : Except String Unit := do
  let placeholders := placeholderNumbers sql
  let expectedCount := query.parameters.length
  forEach (List.range' 1 expectedCount) fun index =>
    failIf (index ∉ placeholders)
      ("query " ++ query.id ++ " SQL is missing placeholder " ++ placeholder index)
  failIf (∃ index ∈ placeholders, index > expectedCount)
    ("query " ++ query.id ++ " SQL has more placeholders than declared parameters")
  forEach ((List.range' 1 expectedCount).zip query.parameters) fun (index, parameter) =>
    validatePlaceholder query sql index parameter

def currencyJoinIsFanoutSafe (upper : List Char) : Bool :=
  !mentions upper "M_ORGANISATION_CURRENCY" ||
    (mentions upper "LEFT JOIN LATERAL" && mentions upper "LIMIT 1")

def withoutFinalSemicolon (text : List Char) : List Char :=
  match text.getLast? with
  | some ';' => text.dropLast
  | _ => text

/-- Results are bounded by a limit or by a window function. -/
def boundsRows (upper : List Char) : Bool :=
  mentions upper "LIMIT" || mentions upper "ROW_NUMBER(" || mentions upper "RANK("

def validateSqlSafety (query : QueryKnowledge) (sql : String) : Except String Unit := do
  let owner := "query " ++ query.id
  let trimmed := Text.trimChars sql.toList
  let upper := trimmed.map Char.toUpper
  failIf ("SELECT".toList.isPrefixOf upper = false ∧ "WITH".toList.isPrefixOf upper = false)
    (owner ++ " SQL must start with SELECT or WITH (CTE)")
  failIf (';' ∈ withoutFinalSemicolon trimmed) (owner ++ " SQL must be a single statement")
  let tokens := sqlTokens upper
  forEach UNSAFE_SQL_COMMANDS fun command =>
    failIf (command.toList ∈ tokens) (owner ++ " SQL contains unsafe command " ++ command)
  validatePlaceholders query trimmed
  failIf (currencyJoinIsFanoutSafe upper = false)
    (owner ++ " joins m_organisation_currency without LEFT JOIN LATERAL and LIMIT 1")
  let office := placeholder (parameterPosition query "office_ids")
  failIf (hasParameter query "office_ids" = true ∧
      mentions upper ("ANY(" ++ office ++ "::BIGINT[])") = false)
    (owner ++ " SQL must constrain authorized office ids via `ANY(" ++ office ++ "::bigint[])`")
  let start := placeholder (parameterPosition query "from_date")
  let stop := placeholder (parameterPosition query "to_date")
  failIf (hasParameter query "from_date" = true ∧ hasParameter query "to_date" = true ∧
      mentions upper ("BETWEEN " ++ start ++ "::DATE AND " ++ stop ++ "::DATE") = false)
    (owner ++ " SQL must constrain a date column with `BETWEEN " ++ start ++ "::date AND " ++
      stop ++ "::date`")
  failIf (hasParameter query "limit" = true ∧ boundsRows upper = false)
    (owner ++ " SQL must constrain result limit via LIMIT or a window function")

end FineractReports.SqlSafety
