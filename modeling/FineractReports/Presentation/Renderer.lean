import FineractReports.Library.Text
import FineractReports.Presentation.Response

/-!
# The markdown renderer

The prose of a response. `DecimalNumbers` stands for the decimal library, `showJson`
for the JSON text of arrays and objects.
-/

namespace FineractReports.Presentation

/-- The operations of the decimal type; `rounded` is the text with that many digits,
midpoints away from zero. -/
structure DecimalNumbers where
  Number : Type
  parse : String → Option Number
  zero : Number
  add : Number → Number → Number
  rounded : Number → ℕ → String

def formatMoney (decimals : DecimalNumbers) (value : decimals.Number) (digits : ℕ)
    (symbol : Option String) (code : String) : String :=
  let shown := (symbol.filter fun symbol => Text.isBlank symbol = false).getD code
  Text.replace (shown ++ " " ++ decimals.rounded value digits) "$ " "$"

/-- Non-negative integers below `2 ^ 64`. -/
def asU64? : Json → Option ℕ
  | .int value => if 0 ≤ value ∧ value < 2 ^ 64 then some value.toNat else none
  | _ => none

section Cells

variable (decimals : DecimalNumbers) (showJson : Json → String)

def moneyCell (row : Json) (key : String) : Option String := do
  let text ← (row.get? key).bind Json.asStr?
  let value ← decimals.parse text
  let digits ← (row.get? "currency_digits").bind asU64?
  let code ← (row.get? "currency_code").bind Json.asStr?
  if Text.isBlank code then none
  else
    let symbol := ((row.get? "currency_display_symbol").bind Json.asStr?).filter
      fun symbol => Text.isBlank symbol = false
    pure (formatMoney decimals value (digits % 2 ^ 32) symbol (Text.trim code))

def rawCell (row : Json) (key : String) : String :=
  match row.get? key with
  | some (.str value) => value
  | some (.int value) => toString value
  | some (.float text) => text
  | some (.bool value) => toString value
  | some .null | none => ""
  | some other => showJson other

def cell (row : Json) (column : TableColumn) : String :=
  let value :=
    if column.kind = .money then
      (moneyCell decimals row column.key).getD (rawCell showJson row column.key)
    else rawCell showJson row column.key
  Text.replace (Text.replace (Text.replace value "\r" "") "\n" "<br>") "|" "\\|"

def MARKDOWN_TABLE_ROW_LIMIT : ℕ := 50

def renderRow (visible : List TableColumn) (row : Json) : String :=
  "\n|" ++ String.join (visible.map fun column => cell decimals showJson row column ++ "|")

def renderTable (table : ResponseTable) : String :=
  let visible := table.columns.filter fun column => column.hidden = false
  if visible = [] then ""
  else
    "\n\n|" ++ String.join (visible.map fun column => column.label ++ "|") ++
      "\n|" ++ String.join (visible.map fun _ => "---|") ++
      String.join ((table.rows.take MARKDOWN_TABLE_ROW_LIMIT).map
        (renderRow decimals showJson visible))

end Cells

def displayLabel (label fallback : String) : String :=
  if Text.isBlank label then fallback else label

/-- Nothing for a missing or empty text. -/
def renderSuffix (text : Option String) : String :=
  match text.filter fun text => text ≠ "" with
  | some text => ": " ++ text
  | none => ""

def renderField (field : ClarificationField) : String :=
  "\n- " ++ displayLabel field.label field.key ++
    (if field.required then " (required)" else "") ++ renderSuffix field.helpText ++
    String.join ((field.errors.filter fun error => error ≠ "").map fun error =>
      "\n  - Error: " ++ error)

def renderFields (fields : List ClarificationField) (heading : String) : String :=
  if fields = [] then ""
  else "\n\n## " ++ heading ++ String.join (fields.map renderField)

def renderCard (card : ResponseCard) : String :=
  "\n- **" ++ card.label ++ "**: " ++ card.value ++
    match card.unit with
    | some unit => " " ++ unit
    | none => ""

def renderCards (cards : List ResponseCard) : String :=
  if cards = [] then "" else "\n\n## Metrics" ++ String.join (cards.map renderCard)

def renderChoice (choice : ClarificationChoice) : String :=
  "\n- " ++ displayLabel choice.label choice.id ++ renderSuffix choice.description ++
    renderFields choice.fields "Details for this option"

def renderClarification (view : ClarificationView) : String :=
  "\n\n## Question\n" ++ view.question ++
    (if view.options = [] then ""
      else "\n\n## Options" ++ String.join (view.options.map renderChoice)) ++
    renderFields view.fields "Required details"

/-- The options of a legacy response, shown without a clarification only. -/
def renderOption (option : ResponseOption) : String :=
  "\n- " ++ option.label ++
    match option.description with
    | some description => ": " ++ description
    | none => ""

def renderChoices (response : AssistantResponse) : String :=
  match response.clarification with
  | some view => renderClarification view
  | none =>
    if response.options = [] then ""
    else "\n\n## Options" ++ String.join (response.options.map renderOption)

def renderSection (part : ResponseSection) : String :=
  "\n\n## " ++ part.title ++ "\n" ++ part.body

namespace MarkdownRenderer

def render (decimals : DecimalNumbers) (showJson : Json → String) (response : AssistantResponse) :
    String :=
  (match response.title with
    | some title => "# " ++ title ++ "\n\n"
    | none => "") ++
    response.message ++ String.join (response.sections.map renderSection) ++
    (match response.table with
    | some table => renderTable decimals showJson table
    | none => "") ++
    renderCards response.cards ++ renderChoices response ++
    (if response.warnings = [] then ""
      else "\n\n## Warnings" ++
        String.join (response.warnings.map fun warning => "\n- " ++ warning.message)) ++
    if response.actions = [] then ""
    else "\n\n## Actions" ++ String.join (response.actions.map fun action => "\n- " ++ action.label)

end MarkdownRenderer

end FineractReports.Presentation
