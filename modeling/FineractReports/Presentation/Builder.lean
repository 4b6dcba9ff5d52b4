import FineractReports.Execution.Plan
import FineractReports.Presentation.Renderer

/-!
# The response to a tool result

The rows of an execution as a table: the fields the plan projects, without those the
policy hides, with one card per currency.
-/

namespace FineractReports.Presentation

open Execution

def isHidden (field : QueryOutputField) (canViewPii : Bool) : Bool :=
  match field.sensitivity with
  | .pii => !canViewPii
  | .publicBusiness | .maskedOutput => false
  | .filterOnly | .neverUse => true

def tableColumn (field : QueryOutputField) (canViewPii hasCurrencyMetadata : Bool) :
    TableColumn where
  key := field.name
  label := Text.replace field.name "_" " "
  kind :=
    if field.kind = "integer" ∨ field.kind = "bigint" then .number
    else if field.kind = "decimal" then if hasCurrencyMetadata then .money else .decimal
    else if field.kind = "date" then .date
    else .text
  hidden := isHidden field canViewPii

/-- Moves the value of a visible field from the source to the row that is shown. -/
def takeField (canViewPii : Bool) (state : List (String × Json) × List (String × Json))
    (field : QueryOutputField) : List (String × Json) × List (String × Json) :=
  if isHidden field canViewPii then state
  else match Assoc.get? state.1 field.name with
    | some value => (Assoc.erase state.1 field.name, Assoc.insert state.2 field.name value)
    | none => state

def filteredMembers (source : List (String × Json)) (fields : List QueryOutputField)
    (canViewPii : Bool) : List (String × Json) :=
  (fields.foldl (takeField canViewPii) (source, [])).2

def filteredRow (row : Json) (fields : List QueryOutputField) (canViewPii : Bool) : Json :=
  match row with
  | .obj source => .obj (filteredMembers source fields canViewPii)
  | row => row

def hasCurrencyMetadata (fields : List QueryOutputField) : Bool :=
  ["currency_code", "currency_digits", "currency_display_symbol"].all fun name =>
    fields.any fun field => field.name = name

def currencyCodes (rows : List Json) : List String :=
  ((rows.filterMap fun row => (row.get? "currency_code").bind Json.asStr?).map Text.trim).filter
    fun code => code ≠ ""

/-- The digits, the symbol and the sum of one currency. -/
abbrev Totals (decimals : DecimalNumbers) := List (String × (ℕ × Option String × decimals.Number))

/-- A row counts when its code, digits and amount can be read. -/
def addRow (decimals : DecimalNumbers) (totals : Totals decimals) (row : Json) : Totals decimals :=
  match (row.get? "currency_code").bind Json.asStr?, (row.get? "currency_digits").bind asU64?,
    ((row.get? "amount_outstanding").bind Json.asStr?).bind decimals.parse with
  | some text, some digits, some amount =>
    let code := Text.trim text
    if code = "" then totals
    else
      let symbol := ((row.get? "currency_display_symbol").bind Json.asStr?).filter
        fun symbol => Text.isBlank symbol = false
      let (digits, symbol, total) :=
        (Assoc.get? totals code).getD (digits % 2 ^ 32, symbol, decimals.zero)
      Assoc.insert totals code (digits, symbol, decimals.add total amount)
  | _, _, _ => totals

/-- One card for the row count and one for each currency, in the order of the codes. -/
def responseCards (decimals : DecimalNumbers) (rows : List Json) (hasCurrencyMetadata : Bool) :
    List ResponseCard :=
  let count : ResponseCard := ⟨"Rows", toString rows.length, none⟩
  if hasCurrencyMetadata then
    let totals := (rows.foldl (addRow decimals) []).mergeSort fun a b => a.1 ≤ b.1
    count :: totals.map fun (code, digits, symbol, total) =>
      ⟨"Outstanding (" ++ code ++ ")", formatMoney decimals total digits symbol code, none⟩
  else [count]

section Fields

variable (catalog : KnowledgeCatalog) (plan : ExecutionPlan)

def fieldOf (field : Dataset.DatasetOutputField) : QueryOutputField :=
  ⟨field.name, field.kind, field.sensitivity⟩

/-- The output fields of the selected dataset shape and the selection. -/
def datasetFields : Option (List Dataset.DatasetOutputField × List String) := do
  let selection ← plan.datasetSelection
  let dataset ← catalog.datasets.find? fun dataset => dataset.id = selection.datasetId
  let shape ← dataset.shape selection.shapeId
  pure (shape.outputFieldsOf dataset, selection.projection)

def queryFields : List QueryOutputField :=
  match catalog.queries.find? fun query => query.id = plan.queryId with
  | some query => query.outputFields
  | none => []

/-- The fields of the table: those of the query, or the core and projected ones of the
dataset shape. -/
def responseFields : List QueryOutputField :=
  match datasetFields catalog plan with
  | some (fields, projection) =>
    (fields.filter fun field => field.core ∨ field.name ∈ projection).map fieldOf
  | none => queryFields catalog plan

end Fields

def piiWarning : ResponseWarning :=
  ⟨"pii_hidden", "Some sensitive columns are hidden by policy."⟩

def truncatedWarning (shown : ℕ) : ResponseWarning where
  code := "result_truncated"
  message := "Showing the first " ++ toString shown ++ " rows. More than " ++ toString shown ++
    " rows match; narrow your request (add a date range, office, or lower limit) to see the rest."

def currencyWarning : ResponseWarning where
  code := "multi_currency"
  message := "Amounts are shown separately by currency; no combined total is provided."

def resultMessage (capability : String) (rowCount : ℕ) : String :=
  if capability = "client_name_lookup" then
    match rowCount with
    | 0 => "No matching client was found in your authorized office scope."
    | 1 => "Found one matching client in your authorized office scope."
    | count => "Found " ++ toString count ++
        " matching clients. Please use the table to disambiguate."
  else "Found " ++ toString rowCount ++ " row(s)."

namespace ResponseBuilder

variable (decimals : DecimalNumbers) (showJson : Json → String)

def finish (response : AssistantResponse) : AssistantResponse :=
  { response with renderedMarkdown := some (MarkdownRenderer.render decimals showJson response) }

/-- The response over rows that have been filtered already. -/
def fromFilteredRows (plan : ExecutionPlan) (policy : PolicyDecision) (toolResult : ToolResult)
    (fields : List QueryOutputField) (rows : List Json) : AssistantResponse :=
  finish decimals showJson
    { responseType := .table
      title := some "Lookup results"
      message := resultMessage plan.capability rows.length
      sections := []
      table := some
        { columns := fields.map fun field =>
            tableColumn field policy.canViewPii (hasCurrencyMetadata fields)
          rows := rows }
      cards := responseCards decimals rows (hasCurrencyMetadata fields)
      options := []
      clarification := none
      warnings :=
        (if fields.any fun field => isHidden field policy.canViewPii then [piiWarning] else []) ++
          (toolResult.truncated.map truncatedWarning).toList ++
          if hasCurrencyMetadata fields ∧ 1 < (currencyCodes rows).dedup.length then
            [currencyWarning]
          else []
      actions := []
      evidenceRefs := toolResult.evidenceRefs.map fun id => ⟨id, "retrieval_evidence", none⟩
      renderedMarkdown := none
      workflow := none }

def fromToolResult (plan : ExecutionPlan) (policy : PolicyDecision) (toolResult : ToolResult)
    (catalog : KnowledgeCatalog) : AssistantResponse :=
  let fields := responseFields catalog plan
  fromFilteredRows decimals showJson plan policy toolResult fields
    (toolResult.rows.map fun row => filteredRow row fields policy.canViewPii)

end ResponseBuilder

end FineractReports.Presentation
