import FineractReports.Execution.Clarification
import FineractReports.Execution.ParameterSource
import FineractReports.Job.ClarificationResponse
import FineractReports.Knowledge.Validator

/-!
# Answers and query parameters

What becomes of an accepted answer when the selected capability is planned. The
patch reaches the dates and the quantity of the intent, and the planner reads
neither, so a parameter is bound as if the question had not been answered.
-/

namespace FineractReports.Job

open Execution

/-- A turn whose submission was accepted, with the capability selected for it. -/
structure AnsweredTurn where
  toLowercase : String → String
  parseDate : String → Option NaiveDate
  catalog : KnowledgeCatalog
  payload : ClarificationPayload
  principal : PrincipalContext
  request : ResponseRequest
  submission : ValidatedClarificationSubmission
  accepted : validateSubmission parseDate catalog payload principal request = .ok submission
  intent : AssistantIntent
  extraction : Option DeterministicExtraction
  message : Option String
  ctx : Option EvaluationContext
  capability : CapabilityKnowledge
  query : QueryKnowledge
  executable : executableCapability catalog capability.id = .ok capability
  approvedQuery : catalog.queries.find? (fun item => item.id = capability.queryId) = some query

namespace AnsweredTurn

variable (turn : AnsweredTurn)

/-- The intent after the patch of the submission. -/
def answeredIntent : AssistantIntent :=
  applyConstraintPatch turn.intent turn.submission.constraintPatch

/-- The parameters the capability is planned with. -/
def boundParams : Except String Params :=
  paramsFromVerified turn.toLowercase turn.catalog turn.query turn.answeredIntent turn.extraction
    turn.capability.parameterPolicies turn.ctx turn.message

/-- The fields the submission was checked against. -/
def fields : List ClarificationField :=
  match selectedOption turn.payload turn.principal turn.submission.selectedOptionId with
  | .ok selected => offeredFields turn.payload selected
  | .error _ => turn.payload.fields

/-- An answered field, its answer and a parameter of the query its input covers. -/
def Answers (field : ClarificationField) (answer : Json) (parameter : QueryParameter) : Prop :=
  field ∈ turn.fields ∧ Assoc.get? turn.submission.answers field.key = some answer ∧
    parameter ∈ turn.query.parameters ∧
    ∃ input, parameterInput? turn.catalog field.key = some input ∧
      parameter.name ∈ input.parameters

/-- The value the user answered, in the type of the parameter. -/
def answeredValue (field : ClarificationField) (answer : Json) (parameter : QueryParameter) :
    Option Json :=
  match field.fieldType with
  | .dateRange =>
    if parameter.name = "from_date" then answer.get? "from"
    else if parameter.name = "to_date" then answer.get? "to"
    else none
  | .integer => some answer
  | .text => answer.asStr?.bind fun text => bindText parameter.kind (Text.trim text)

/-- The value the extractor read from the user's own message. -/
def deterministicValue (parameter : QueryParameter) : Option Json :=
  bindParameter turn.catalog (requestFacts turn.toLowercase none none turn.extraction) parameter

/-- Planning succeeds and binds every covered parameter to the answer, unless the
message itself gives it a value. -/
def AnswersBound : Prop :=
  ∃ params, turn.boundParams = .ok params ∧
    ∀ field answer parameter, turn.Answers field answer parameter →
      (turn.deterministicValue parameter).isSome = true ∨
        ∃ value, answeredValue field answer parameter = some value ∧
          Assoc.get? params parameter.name = some value

/-- The facts of the turn without the answers. -/
def factsBefore : Facts :=
  requestFacts turn.toLowercase turn.message (some turn.intent) turn.extraction

/-- The turn has a source for every required parameter, and the answered value for every
covered one, without looking at the answers. -/
def SuppliesAnswers : Prop :=
  (∀ parameter ∈ turn.query.parameters, filledAtExecution parameter = false →
      parameter.required = true → HasSource turn.catalog turn.factsBefore
        turn.capability.parameterPolicies turn.ctx parameter) ∧
    ∀ field answer parameter, turn.Answers field answer parameter →
      (turn.deterministicValue parameter).isSome = true ∨
        ∃ value, answeredValue field answer parameter = some value ∧
          Supplies turn.catalog turn.factsBefore turn.capability.parameterPolicies turn.ctx
            turn.query.parameters parameter.name value

/-- The canonical facts of the turn are the same before and after the patch. -/
theorem requestFacts_answeredIntent (message : Option String) :
    requestFacts turn.toLowercase message (some turn.answeredIntent) turn.extraction =
      requestFacts turn.toLowercase message (some turn.intent) turn.extraction :=
  requestFacts_congr (applyConstraintPatch_productIds turn.intent turn.submission.constraintPatch)
    (applyConstraintPatch_entities turn.intent turn.submission.constraintPatch)
    turn.toLowercase message turn.extraction

/-- Planning does not read the answers. -/
theorem boundParams_eq :
    turn.boundParams = paramsFromVerified turn.toLowercase turn.catalog turn.query turn.intent
      turn.extraction turn.capability.parameterPolicies turn.ctx turn.message := by
  unfold boundParams paramsFromVerified
  rw [requestFacts_answeredIntent]

/-- The answers are bound exactly when the turn supplies the same values without them. -/
theorem answersBound_iff : turn.AnswersBound ↔ turn.SuppliesAnswers := by
  unfold AnswersBound SuppliesAnswers
  rw [boundParams_eq]
  constructor
  · rintro ⟨params, hparams, hbound⟩
    refine ⟨paramsFromVerified_isOk.mp ⟨params, hparams⟩, ?_⟩
    intro field answer parameter hanswers
    obtain hdeterministic | ⟨value, hvalue, hget⟩ := hbound field answer parameter hanswers
    · exact Or.inl hdeterministic
    · rw [paramsFromVerified_get? hparams] at hget
      exact Or.inr ⟨value, hvalue, hget⟩
  · rintro ⟨hrequired, hsupplied⟩
    obtain ⟨params, hparams⟩ := paramsFromVerified_isOk.mpr hrequired
    refine ⟨params, hparams, ?_⟩
    intro field answer parameter hanswers
    obtain hdeterministic | ⟨value, hvalue, hget⟩ := hsupplied field answer parameter hanswers
    · exact Or.inl hdeterministic
    · refine Or.inr ⟨value, hvalue, ?_⟩
      rw [paramsFromVerified_get? hparams]
      exact hget

end AnsweredTurn

namespace NameLookup

open FineractReports.NameLookup (capability query searchInput catalog)

def searchField : ClarificationField where
  key := "search"
  label := "Client name"
  fieldType := .text
  required := true
  value := none
  defaultValue := none
  helpText := none
  validation := searchInput.validation
  errors := []

def question : ClarificationPayload where
  version := CLARIFICATION_VERSION_1
  id := 5
  revision := 0
  kind := .selectOption
  question := "Please provide the missing details for this report."
  options := [⟨"client_name_lookup", "Client Name Lookup", none, [searchField]⟩]
  fields := []
  attempt := 1
  sourceIntent := none
  allowFreeText := true
  isMissingExecutionParameters := true
  workflowId := none
  nodeId := none
  resumeNodeId := none
  entityKind := none

def principal : PrincipalContext := ⟨2, "admin", ["client_name_lookup"], [1], true⟩

/-- The form is filled in with a name and sent without a message. -/
def request : ResponseRequest where
  clarificationId := some 5
  clarificationRevision := some 0
  optionId := some "client_name_lookup"
  message := none
  answers := [("search", .str "Tony")]

def intent : AssistantIntent where
  intent := .dataLookup
  domain := .client
  requestShape := capability.requestShape
  canonicalQueryEn := ""
  entities := []
  constraints := AssistantConstraints.empty
  source := none

def submission : ValidatedClarificationSubmission where
  clarificationId := some 5
  clarificationRevision := some 0
  selectedOptionId := some "client_name_lookup"
  sourceMessage := ""
  displayMessage := "Client Name Lookup"
  answers := [("search", .str "Tony")]
  constraintPatch := [(.personName, .personName "Tony")]

/-- The answer becomes a person name in the patch. -/
theorem submission_accepted :
    validateSubmission (fun _ => none) catalog question principal request = .ok submission := by
  decide

theorem capability_executable : executableCapability catalog capability.id = .ok capability := by
  decide

theorem query_approved :
    catalog.queries.find? (fun item => item.id = capability.queryId) = some query := by
  decide

def turn : AnsweredTurn where
  toLowercase := Text.asciiLower
  parseDate := fun _ => none
  catalog := catalog
  payload := question
  principal := principal
  request := request
  submission := submission
  accepted := submission_accepted
  intent := intent
  extraction := some DeterministicExtraction.empty
  message := some ""
  ctx := none
  capability := capability
  query := query
  executable := capability_executable
  approvedQuery := query_approved

/-- The accepted name is dropped and the same question has to be asked again. -/
theorem accepted_answer_lost :
    turn.boundParams = .error "missing parameter search" ∧ ¬ turn.AnswersBound := by
  have hmissing : turn.boundParams = .error "missing parameter search" := by decide
  refine ⟨hmissing, ?_⟩
  rintro ⟨params, hparams, -⟩
  rw [hmissing] at hparams
  cases hparams

end NameLookup

end FineractReports.Job
