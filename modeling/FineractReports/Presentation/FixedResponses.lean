import FineractReports.Library.Calendar
import FineractReports.Presentation.Builder

/-!
# Responses without rows

The responses of a turn that shows no rows, and the note on the reporting date that is put on a
response with rows. Some of them are rendered where they are built and some are not; a response
is settled when its markdown, if it has one, is what the renderer makes of it.
-/

namespace FineractReports

/-- The client-safe view of a clarification. -/
def ClarificationPayload.view (payload : ClarificationPayload) : ClarificationView where
  version := payload.version
  id := payload.id
  revision := payload.revision
  kind := payload.kind
  question := payload.question
  options := payload.options.map fun option =>
    ⟨option.id, option.label, option.description, option.fields⟩
  fields := payload.fields
  allowFreeText := payload.allowFreeText
  workflowId := payload.workflowId
  nodeId := payload.nodeId
  resumeNodeId := payload.resumeNodeId
  entityKind := payload.entityKind

inductive BusinessDateSource where
  | fineract
  | wallClockFallback
deriving DecidableEq, Repr

namespace Presentation

/-- A title, a message and actions. -/
def plainResponse (responseType : AssistantResponseType) (title message : String)
    (actions : List ResponseAction) : AssistantResponse where
  responseType := responseType
  title := some title
  message := message
  sections := []
  table := none
  cards := []
  options := []
  clarification := none
  warnings := []
  actions := actions
  evidenceRefs := []
  renderedMarkdown := none
  workflow := none

namespace ResponseBuilder

def reportingDateNote (businessToday : NaiveDate) (source : BusinessDateSource)
    (wallToday : NaiveDate) : Option ResponseWarning :=
  if source = .fineract ∧ businessToday ≠ wallToday then
    some ⟨"reporting_date", "Reporting date is the Fineract business date " ++
      businessToday.display ++ ", which differs from the calendar date " ++
      wallToday.display ++ "."⟩
  else none

def clarification (payload : ClarificationPayload) : AssistantResponse where
  responseType := .clarification
  title := some "Please clarify the report"
  message := payload.question
  sections := []
  table := none
  cards := []
  options := payload.options.map fun option => ⟨option.id, option.label, option.description⟩
  clarification := some payload.view
  warnings := []
  actions := [⟨.askFollowUp, "Clarify request"⟩]
  evidenceRefs := []
  renderedMarkdown := none
  workflow := none

def selected (capability : String) : AssistantResponse :=
  plainResponse .summary "Report capability selected"
    ("I found strong evidence for `" ++ capability ++
      "`, but execution is unavailable in this context.") []

def greeting : AssistantResponse :=
  plainResponse .summary "Hello"
    "Hi — I can help with approved reporting questions for your authorized scope." []

def help : AssistantResponse :=
  plainResponse .help "Reporting assistant help"
    ("I can answer approved reporting requests for savings, clients, and organization data " ++
      "within your API key scope.") []

def contextWindowExceeded : AssistantResponse :=
  plainResponse .error "Context window exceeded"
    "This conversation is too long to route safely. Please start a new session."
    [⟨.startNewSession, "Start a new session"⟩]

/-- A question without options that any text answers. -/
def freeTextPayload (payloadId : Uuid) (revision : ℕ) (question : String)
    (isMissingExecutionParameters : Bool) (sourceIntent : Option SourceIntentSnapshot) :
    ClarificationPayload where
  version := CLARIFICATION_VERSION_1
  id := payloadId
  revision := revision
  kind := .freeText
  question := question
  options := []
  fields := []
  attempt := 1
  sourceIntent := sourceIntent
  allowFreeText := true
  isMissingExecutionParameters := isMissingExecutionParameters
  workflowId := none
  nodeId := none
  resumeNodeId := none
  entityKind := none

def missingParameter (payloadId : Uuid) (message : String) : AssistantResponse :=
  clarification (freeTextPayload payloadId 0 message true none)

def freeFormOtherPrompt (payloadId : Uuid) : AssistantResponse :=
  clarification (freeTextPayload payloadId 0
    ("Please describe what you need in your own words. I will treat your next message as a " ++
      "new request.") false none)

def unsupported : AssistantResponse :=
  plainResponse .unsupported "Unsupported request"
    "This request is in scope, but it is not supported by the approved catalog yet." []

def policyBlocked (reason : String) : AssistantResponse :=
  plainResponse .policyBlocked "Blocked by policy" reason []

def error : AssistantResponse :=
  plainResponse .error "Routing failed"
    "I could not route this request safely. Please try again." [⟨.askFollowUp, "Try again"⟩]

end ResponseBuilder

/-! ### Settled responses -/

section Settled

variable (decimals : DecimalNumbers) (showJson : Json → String)

/-- The markdown of a response is what the renderer makes of the response, or is left to be
rendered. -/
def Settled (response : AssistantResponse) : Prop :=
  ∀ markdown ∈ response.renderedMarkdown,
    markdown = MarkdownRenderer.render decimals showJson response

variable {decimals showJson} {response : AssistantResponse}

/-- The renderer does not look at the markdown a response has already. -/
theorem render_renderedMarkdown (markdown : Option String) :
    MarkdownRenderer.render decimals showJson { response with renderedMarkdown := markdown } =
      MarkdownRenderer.render decimals showJson response := rfl

theorem settled_finish : Settled decimals showJson
    (ResponseBuilder.finish decimals showJson response) := by
  intro markdown hmarkdown
  obtain rfl := Option.some.inj hmarkdown
  exact (render_renderedMarkdown _).symm

theorem settled_of_none (h : response.renderedMarkdown = none) :
    Settled decimals showJson response := by
  intro markdown hmarkdown
  rw [h] at hmarkdown
  exact absurd hmarkdown (Option.not_mem_none _)

/-- The markdown of a settled response, rendered now where it was not before. -/
theorem Settled.getD (h : Settled decimals showJson response) :
    response.renderedMarkdown.getD (MarkdownRenderer.render decimals showJson response) =
      MarkdownRenderer.render decimals showJson response := by
  cases hmarkdown : response.renderedMarkdown with
  | none => rfl
  | some markdown => exact h markdown hmarkdown

theorem infix_join_of_mem {parts : List String} {part : String} (h : part ∈ parts) :
    part.toList <:+: (String.join parts).toList := by
  rw [String.toList_join]
  exact List.infix_of_mem_flatten (List.mem_map_of_mem h)

theorem infix_append_left {part : List Char} {text : String} (before : String)
    (h : part <:+: text.toList) : part <:+: (before ++ text).toList := by
  rw [String.toList_append]
  exact h.trans (List.suffix_append _ _).isInfix

theorem infix_append_right {part : List Char} {text : String} (after : String)
    (h : part <:+: text.toList) : part <:+: (text ++ after).toList := by
  rw [String.toList_append]
  exact h.trans (List.prefix_append _ _).isInfix

/-- Every warning of a response has its line in the markdown. -/
theorem warning_infix_render {warning : ResponseWarning} (h : warning ∈ response.warnings) :
    ("\n- " ++ warning.message).toList <:+:
      (MarkdownRenderer.render decimals showJson response).toList := by
  have hne : response.warnings ≠ [] := List.ne_nil_of_mem h
  have hline : ("\n- " ++ warning.message).toList <:+:
      (String.join (response.warnings.map fun warning => "\n- " ++ warning.message)).toList :=
    infix_join_of_mem (List.mem_map_of_mem h)
  unfold MarkdownRenderer.render
  rw [if_neg hne]
  exact infix_append_right _ (infix_append_left _ (infix_append_left _ hline))

end Settled

end Presentation

end FineractReports
