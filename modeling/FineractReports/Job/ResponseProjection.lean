import FineractReports.Execution.TurnResponse
import FineractReports.Job.Chunk

/-!
# What a job shows of its response

The response of a turn is saved with the memory of its job and read back; the markdown and the
structured response that are persisted and streamed come from what was read. JSON columns keep
objects and arrays but may write a number in another way, so the markdown of a turn was made from
other values than the ones it stands beside, unless these were read from a column before.
-/

namespace FineractReports

/-- What a client or the runtime finds in a JSON column: values inside of arrays and objects are
read one by one, and what was read once is read in the same way again. -/
structure IsJsonb (jsonb : Json → Json) : Prop where
  arr : ∀ items, jsonb (.arr items) = .arr (items.map jsonb)
  obj : ∀ members,
    jsonb (.obj members) = .obj (members.map fun member => (member.1, jsonb member.2))
  again : ∀ value, jsonb (jsonb value) = jsonb value

/-- A value that a column gives back as it is. -/
def KeptBy (jsonb : Json → Json) (value : Json) : Prop := jsonb value = value

section Kept

variable {jsonb : Json → Json} {value member : Json} {members : List (String × Json)}
  {items : List Json}

theorem map_eq_self_iff {α : Type*} {f : α → α} {xs : List α} :
    xs.map f = xs ↔ ∀ x ∈ xs, f x = x := by
  have hinj := @List.map_inj_left _ _ xs f id
  rw [List.map_id] at hinj
  exact hinj

theorem keptBy_arr (hjsonb : IsJsonb jsonb) :
    KeptBy jsonb (.arr items) ↔ ∀ item ∈ items, KeptBy jsonb item := by
  rw [KeptBy, hjsonb.arr, Json.arr.injEq]
  exact map_eq_self_iff

theorem keptBy_obj (hjsonb : IsJsonb jsonb) :
    KeptBy jsonb (.obj members) ↔ ∀ member ∈ members, KeptBy jsonb member.2 := by
  rw [KeptBy, hjsonb.obj, Json.obj.injEq, map_eq_self_iff]
  exact forall₂_congr fun member _ => by rw [Prod.ext_iff]; simp [KeptBy]

theorem KeptBy.get? (hjsonb : IsJsonb jsonb) {key : String} (h : KeptBy jsonb value)
    (hget : value.get? key = some member) : KeptBy jsonb member := by
  cases value with
  | obj members => exact (keptBy_obj hjsonb).mp h _ (Assoc.mem_of_get?_eq_some hget)
  | _ => cases hget

end Kept

def ClarificationField.asRead (jsonb : Json → Json) (field : ClarificationField) :
    ClarificationField :=
  { field with value := field.value.map jsonb, defaultValue := field.defaultValue.map jsonb }

def ClarificationChoice.asRead (jsonb : Json → Json) (choice : ClarificationChoice) :
    ClarificationChoice :=
  { choice with fields := choice.fields.map (·.asRead jsonb) }

def ClarificationView.asRead (jsonb : Json → Json) (view : ClarificationView) :
    ClarificationView :=
  { view with
    options := view.options.map (·.asRead jsonb)
    fields := view.fields.map (·.asRead jsonb) }

namespace Presentation

open Execution Workflow

def ResponseTable.asRead (jsonb : Json → Json) (table : ResponseTable) : ResponseTable :=
  { table with rows := table.rows.map jsonb }

def AssistantResponse.asRead (jsonb : Json → Json) (response : AssistantResponse) :
    AssistantResponse :=
  { response with
    table := response.table.map (·.asRead jsonb)
    clarification := response.clarification.map (·.asRead jsonb) }

section AsRead

variable {jsonb : Json → Json} {response : AssistantResponse}

theorem renderFields_asRead (fields : List ClarificationField) (heading : String) :
    renderFields (fields.map (·.asRead jsonb)) heading = renderFields fields heading := by
  unfold renderFields
  simp only [List.map_eq_nil_iff, List.map_map]
  rfl

theorem renderChoice_asRead (choice : ClarificationChoice) :
    renderChoice (choice.asRead jsonb) = renderChoice choice := by
  unfold renderChoice ClarificationChoice.asRead
  rw [renderFields_asRead]

/-- The values of the fields are not rendered. -/
theorem renderClarification_asRead (view : ClarificationView) :
    renderClarification (view.asRead jsonb) = renderClarification view := by
  have hchoices : (renderChoice ∘ fun choice => choice.asRead jsonb) = renderChoice :=
    funext renderChoice_asRead
  unfold renderClarification ClarificationView.asRead
  simp only [renderFields_asRead, List.map_eq_nil_iff, List.map_map, hchoices]

theorem renderChoices_asRead : renderChoices (response.asRead jsonb) = renderChoices response := by
  unfold renderChoices AssistantResponse.asRead
  cases response.clarification with
  | none => rfl
  | some view => exact renderClarification_asRead view

/-- Every row is one that a column gives back as it is. -/
def RowsKept (jsonb : Json → Json) (response : AssistantResponse) : Prop :=
  ∀ table ∈ response.table, ∀ row ∈ table.rows, KeptBy jsonb row

theorem table_asRead (h : RowsKept jsonb response) :
    (response.asRead jsonb).table = response.table := by
  unfold AssistantResponse.asRead
  cases htable : response.table with
  | none => rfl
  | some table =>
    have hrows : table.rows.map jsonb = table.rows := map_eq_self_iff.mpr (h table htable)
    simp [ResponseTable.asRead, hrows]

/-- A response whose rows are kept is rendered in the same way after it was read back. -/
theorem render_asRead {decimals : DecimalNumbers} {showJson : Json → String}
    (h : RowsKept jsonb response) :
    MarkdownRenderer.render decimals showJson (response.asRead jsonb) =
      MarkdownRenderer.render decimals showJson response := by
  unfold MarkdownRenderer.render
  rw [table_asRead h, renderChoices_asRead]
  rfl

end AsRead

/-! ### Rows from a column -/

section Rows

variable {jsonb : Json → Json} {fields : List QueryOutputField} {canViewPii : Bool}

theorem takeField_forall {p : Json → Prop} {field : QueryOutputField}
    {state : List (String × Json) × List (String × Json)}
    (h : ∀ member ∈ state.1 ++ state.2, p member.2) :
    ∀ member ∈ (takeField canViewPii state field).1 ++ (takeField canViewPii state field).2,
      p member.2 := by
  unfold takeField
  split_ifs
  · exact h
  · split
    · rename_i value hvalue
      have hvalid : p value :=
        h (field.name, value) (List.mem_append_left _ (Assoc.mem_of_get?_eq_some hvalue))
      intro member hmember
      rcases List.mem_append.mp hmember with hleft | hright
      · exact h member (List.mem_append_left _ (List.mem_of_mem_filter hleft))
      · rcases Assoc.mem_insert hright with rfl | hold
        · exact hvalid
        · exact h member (List.mem_append_right _ hold)
    · exact h

/-- A filtered row shows values of its source only. -/
theorem filteredMembers_forall {p : Json → Prop} {source : List (String × Json)}
    (h : ∀ member ∈ source, p member.2) :
    ∀ member ∈ filteredMembers source fields canViewPii, p member.2 := by
  have hfold : ∀ state : List (String × Json) × List (String × Json),
      (∀ member ∈ state.1 ++ state.2, p member.2) →
        ∀ member ∈ (fields.foldl (takeField canViewPii) state).2, p member.2 := by
    induction fields with
    | nil =>
      exact fun state hstate member hmember => hstate member (List.mem_append_right _ hmember)
    | cons field rest ih => exact fun state hstate => ih _ (takeField_forall hstate)
  refine hfold (source, []) ?_
  simpa using h

theorem KeptBy.filteredRow (hjsonb : IsJsonb jsonb) {row : Json} (h : KeptBy jsonb row) :
    KeptBy jsonb (filteredRow row fields canViewPii) := by
  cases row with
  | obj source =>
    exact (keptBy_obj hjsonb).mpr (filteredMembers_forall ((keptBy_obj hjsonb).mp h))
  | _ => exact h

/-- The rows of an execution result that was read from a column. -/
theorem KeptBy.toolRows (hjsonb : IsJsonb jsonb) {executionResult : Json}
    (h : KeptBy jsonb executionResult) (evidenceRefs : List String) :
    ∀ row ∈ (toolResultFromExecution evidenceRefs executionResult).rows, KeptBy jsonb row := by
  intro row hrow
  unfold toolResultFromExecution at hrow
  dsimp only at hrow
  cases hrows : (executionResult.get? "rows").bind Json.asArray? with
  | none =>
    rw [hrows] at hrow
    cases hrow
  | some items =>
    rw [hrows] at hrow
    obtain ⟨value, hvalue, hitems⟩ := Option.bind_eq_some_iff.mp hrows
    have hkept := h.get? hjsonb hvalue
    cases value with
    | arr _ =>
      obtain rfl := Option.some.inj hitems
      exact (keptBy_arr hjsonb).mp hkept row hrow
    | _ => cases hitems

theorem terminalOutput_kept (hjsonb : IsJsonb jsonb) {tables : JobTables} {workflowId : Uuid}
    {output : Json}
    (h : terminalOutput ((nodeRunsAsRead jsonb tables).nodeRunsOf workflowId) = some output) :
    KeptBy jsonb output := by
  obtain ⟨row, hrow, houtput⟩ := List.exists_of_findSome?_eq_some h
  have hmem := List.mem_reverse.mp (List.mem_of_mem_filter hrow)
  obtain ⟨stored, -, rfl⟩ := List.mem_map.mp (JobTables.mem_nodeRunsOf.mp hmem).1
  have hread := (Option.filter_eq_some_iff.mp houtput).1
  obtain ⟨raw, -, rfl⟩ := Option.map_eq_some_iff.mp hread
  exact hjsonb.again raw

end Rows

/-! ### Reading twice -/

section Again

variable {jsonb : Json → Json}

theorem map_jsonb_again (hjsonb : IsJsonb jsonb) (value : Option Json) :
    (value.map jsonb).map jsonb = value.map jsonb := by
  rw [Option.map_map]
  exact congrArg (fun f => value.map f) (funext hjsonb.again)

theorem fields_again (hjsonb : IsJsonb jsonb) (fields : List ClarificationField) :
    (fields.map (·.asRead jsonb)).map (·.asRead jsonb) = fields.map (·.asRead jsonb) := by
  rw [List.map_map]
  apply List.map_congr_left
  intro field _
  simp only [Function.comp_apply, ClarificationField.asRead, map_jsonb_again hjsonb]

theorem view_again (hjsonb : IsJsonb jsonb) (view : ClarificationView) :
    (view.asRead jsonb).asRead jsonb = view.asRead jsonb := by
  have hchoices : (view.options.map (·.asRead jsonb)).map (·.asRead jsonb) =
      view.options.map (·.asRead jsonb) := by
    rw [List.map_map]
    apply List.map_congr_left
    intro choice _
    simp only [Function.comp_apply, ClarificationChoice.asRead, fields_again hjsonb]
  unfold ClarificationView.asRead
  simp only [fields_again hjsonb, hchoices]

/-- A response that was read back once is read back as it is. -/
theorem asRead_again (hjsonb : IsJsonb jsonb) (response : AssistantResponse) :
    (response.asRead jsonb).asRead jsonb = response.asRead jsonb := by
  have htable : (response.table.map (·.asRead jsonb)).map (·.asRead jsonb) =
      response.table.map (·.asRead jsonb) := by
    rw [Option.map_map]
    refine congrArg (fun f => response.table.map f) (funext fun table => ?_)
    have hrows : (jsonb ∘ jsonb) = jsonb := funext hjsonb.again
    simp only [Function.comp_apply, ResponseTable.asRead, List.map_map, hrows]
  have hview : (response.clarification.map (·.asRead jsonb)).map (·.asRead jsonb) =
      response.clarification.map (·.asRead jsonb) := by
    rw [Option.map_map]
    exact congrArg (fun f => response.clarification.map f) (funext (view_again hjsonb))
  unfold AssistantResponse.asRead
  simp only [htable, hview]

end Again

end Presentation

namespace Execution

open Presentation

namespace TurnRun

variable {run : TurnRun}

theorem withReportingDate_table (response : AssistantResponse) :
    (run.withReportingDate response).table = response.table := by
  unfold withReportingDate
  split <;> rfl

/-- The rows a turn shows were read from a column. -/
theorem Leaves.rowsKept (hjsonb : IsJsonb run.jsonb) {response : AssistantResponse}
    (h : Leaves run response) : RowsKept run.jsonb response := by
  have hrowless : ∀ response : AssistantResponse, response.table = none →
      RowsKept run.jsonb response := by
    intro response htable table hmem
    rw [htable] at hmem
    cases hmem
  cases h with
  | @rendered response htable => exact hrowless _ htable
  | unrendered htable hmarkdown => exact hrowless _ htable
  | @rows plan policy catalog tables workflowId output houtput =>
    intro table htable row hrow
    have hshown : (run.rowsResponse plan policy catalog output).table = some table := by
      rw [← withReportingDate_table]
      exact htable
    obtain rfl := Option.some.inj hshown
    obtain ⟨source, hsource, rfl⟩ := List.mem_map.mp hrow
    apply KeptBy.filteredRow hjsonb
    have hkept := terminalOutput_kept hjsonb houtput
    cases htool : output.get? "untrusted_tool_output" with
    | none =>
      rw [htool] at hsource
      cases hsource
    | some executionResult =>
      rw [htool] at hsource
      exact KeptBy.toolRows hjsonb (hkept.get? hjsonb htool) [] source hsource

end TurnRun

end Execution

namespace Job

open Execution Presentation

/-! ### The projections of a response -/

/-- What clients read of `result_json`. -/
structure ResultJson where
  structuredResponse : AssistantResponse
  warnings : List ResponseWarning
  markdown : String
  terminalState : TerminalState

/-- The row in `chat_messages`; the response is in its metadata. -/
structure AssistantMessage where
  content : String
  assistantResponse : AssistantResponse

/-- The payload of the event that ends the stream. -/
structure ResponsePayload where
  responseType : AssistantResponseType
  structuredResponse : AssistantResponse
  markdown : String

structure Projections where
  resultJson : ResultJson
  message : AssistantMessage
  payload : ResponsePayload
  deltas : List String

namespace Projections

/-- The persisted projections as they are read back. -/
def asRead (jsonb : Json → Json) (shown : Projections) : Projections :=
  { shown with
    resultJson := { shown.resultJson with
      structuredResponse := shown.resultJson.structuredResponse.asRead jsonb }
    message := { shown.message with
      assistantResponse := shown.message.assistantResponse.asRead jsonb } }

/-- A markdown and the response it stands beside. -/
structure Agrees (decimals : DecimalNumbers) (showJson : Json → String) (markdown : String)
    (response : AssistantResponse) : Prop where
  rendered : markdown = MarkdownRenderer.render decimals showJson response
  warned : ∀ warning ∈ response.warnings,
    ("\n- " ++ warning.message).toList <:+: markdown.toList

theorem agrees_render {decimals : DecimalNumbers} {showJson : Json → String}
    {response : AssistantResponse} : Agrees decimals showJson
      (MarkdownRenderer.render decimals showJson response) response :=
  ⟨rfl, fun _ hwarning => warning_infix_render hwarning⟩

/-- Every markdown that is persisted or streamed agrees with the response beside it, and one
response is beside all of them. -/
structure Agree (decimals : DecimalNumbers) (showJson : Json → String) (shown : Projections) :
    Prop where
  resultJson : Agrees decimals showJson shown.resultJson.markdown
    shown.resultJson.structuredResponse
  message : Agrees decimals showJson shown.message.content shown.message.assistantResponse
  payload : Agrees decimals showJson shown.payload.markdown shown.payload.structuredResponse
  deltas : Agrees decimals showJson (String.join shown.deltas) shown.payload.structuredResponse
  warnings : shown.resultJson.warnings = shown.resultJson.structuredResponse.warnings
  same : shown.resultJson.structuredResponse = shown.payload.structuredResponse ∧
    shown.message.assistantResponse = shown.payload.structuredResponse

end Projections

theorem join_chunkMarkdown (markdown : String) :
    String.join (chunkMarkdown markdown) = markdown := by
  have hflat := (@chunks_spec markdown.toList).2.2
  rw [← String.toList_inj, String.toList_join, chunkMarkdown, List.flatMap_map]
  simpa [List.flatMap_def] using hflat

/-- The end of `run_graph_skeleton_body` and the stream of its deltas. The memory is saved first
and the response taken from what the database returned. -/
def projections (run : TurnRun) : Projections :=
  let saved := run.result.response.asRead run.jsonb
  let rendered := saved.renderedMarkdown.getD
    (MarkdownRenderer.render run.decimals run.showJson saved)
  { resultJson := ⟨saved, saved.warnings, rendered, run.result.terminal⟩
    message := ⟨rendered, saved⟩
    payload := ⟨saved.responseType, saved, rendered⟩
    deltas := chunkMarkdown rendered }

theorem saved_markdown {run : TurnRun} (hjsonb : IsJsonb run.jsonb) :
    let saved := run.result.response.asRead run.jsonb
    saved.renderedMarkdown.getD (MarkdownRenderer.render run.decimals run.showJson saved) =
      MarkdownRenderer.render run.decimals run.showJson saved := by
  intro saved
  have hleaves := TurnRun.leaves_result run
  have hrender : MarkdownRenderer.render run.decimals run.showJson saved =
      MarkdownRenderer.render run.decimals run.showJson run.result.response :=
    render_asRead (hleaves.rowsKept hjsonb)
  rw [hrender]
  exact hleaves.settled.getD

/-- Whichever way a turn ends, what is persisted and streamed of it agrees, and so does what is
read back of it. -/
theorem projections_agree (run : TurnRun) (hjsonb : IsJsonb run.jsonb) :
    (projections run).Agree run.decimals run.showJson ∧
      (projections run).asRead run.jsonb = projections run := by
  constructor
  · unfold projections
    dsimp only
    rw [saved_markdown hjsonb]
    have hsaved : Projections.Agrees run.decimals run.showJson
        (MarkdownRenderer.render run.decimals run.showJson
          (run.result.response.asRead run.jsonb)) (run.result.response.asRead run.jsonb) :=
      Projections.agrees_render
    refine ⟨hsaved, hsaved, hsaved, ?_, rfl, rfl, rfl⟩
    dsimp only
    rw [join_chunkMarkdown]
    exact hsaved
  · unfold projections Projections.asRead
    simp only [asRead_again hjsonb]

/-! ### A lookup behind the business date -/

namespace LookedUp

open FineractReports.NameLookup (catalog)
open Workflow

def intent : AssistantIntent where
  intent := .dataLookup
  domain := .client
  requestShape := NameLookup.capability.requestShape
  canonicalQueryEn := "Find client named Tony."
  entities := [⟨.personName, "Tony", none⟩]
  constraints := AssistantConstraints.empty
  source := none

def turn : SemanticTurn where
  toLowercase := Text.asciiLower
  toUppercase := fun c => String.singleton c.toUpper
  reader := ⟨fun _ => none, fun _ intent => intent⟩
  context := ⟨none, [], none, .null, []⟩
  input := ⟨"Find client named Tony.", "Find client named Tony.", none, []⟩
  llm := none
  catalog := some catalog
  route := .ok intent
  priorExtraction := none
  retrieved := fun _ => .ok [⟨"client_name_lookup", "Client Name Lookup", .null⟩]
  rerank := fun _ _ => ⟨.select, some "client_name_lookup", []⟩
  payloadId := 5

/-- One client, whose name the principal may not see. -/
def output : Json :=
  .obj [("untrusted_tool_output", .obj [("row_count", .int 1),
    ("rows", .arr [.obj [("client_id", .int 7), ("display_name", .str "Tony")]])])]

def tables (workflowId : Uuid) : JobTables where
  jobId := 3
  userId := 2
  sessionArchived := false
  status := .running
  currentStep := ""
  resumeFromStep := none
  stateJson := .obj []
  resultJson := none
  errorJson := none
  workflowId := some workflowId
  workflowRevision := 0
  currentNodeId := none
  pendingClarification := none
  memoryRevision := 0
  nodeRuns := [⟨11, workflowId, executeId, 1, .completed, some output, 1, some 5, some 1⟩]
  events := []

def lookup : TurnRun where
  decimals := ⟨Unit, fun _ => none, (), fun _ _ => (), fun _ _ => ""⟩
  showJson := fun _ => ""
  jsonb := id
  isDecimal := fun _ => false
  turn := turn
  hasRouter := true
  client := some ⟨2, "analyst", ["client_name_lookup"], [1], false⟩
  hasFineractPool := true
  hasWorkflowState := true
  canonical := some
    { catalogVersion := some 1
      referenceDate := ⟨2024, 2, 1, by decide⟩
      businessToday := ⟨2024, 1, 31, by decide⟩
      businessDateSource := .fineract }
  wallToday := ⟨2024, 2, 1, by decide⟩
  intentReason := "a client is named"
  memoryExtraction :=
    some { DeterministicExtraction.empty with entities := [⟨.personName, "Tony", none⟩] }
  workflowId := 7
  installWorkflow := fun _ => .ok ()
  runWorkflow := fun workflow => (.ok .completed, .ok (tables workflow.id))

theorem isJsonb_id : IsJsonb id where
  arr items := by rw [List.map_id]; rfl
  obj members := by
    rw [show (fun member : String × Json => (member.1, id member.2)) = id from rfl, List.map_id]
    rfl
  again _ := rfl

/-- The hidden name and the business date are told beside the row and in the markdown. -/
theorem lookup_agrees :
    (projections lookup).resultJson.warnings.map (·.code) = ["pii_hidden", "reporting_date"] ∧
      (projections lookup).Agree lookup.decimals lookup.showJson ∧
      (projections lookup).asRead lookup.jsonb = projections lookup := by
  refine ⟨by decide +kernel, projections_agree lookup isJsonb_id⟩

end LookedUp

end Job

end FineractReports
