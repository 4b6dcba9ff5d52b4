import FineractReports.Execution.SemanticRoute
import FineractReports.Job.ClarificationResponse
import FineractReports.Workflow.Response

/-!
# Options that can be chosen

From the question to the turn that executes the chosen option. The builders of the
options, the validator of the response and the dispatcher of the turn read an option id
each in its own way; they agree on report options only.
-/

namespace FineractReports.Job

open Execution Workflow

/-- The questions with options: which client of a completed lookup is meant, or what a
planned capability lacks. The runtime numbers a planned question and can reword it. -/
inductive Emitted (catalog : KnowledgeCatalog) : ClarificationPayload → Prop
  | workflowResponse {decimals : Presentation.DecimalNumbers} {showJson : Json → String}
      {tables : JobTables} {workflowId : Uuid} {capabilityId : String}
      {sourceIntent : SourceIntentSnapshot} {plan : ExecutionPlan} {policy : PolicyDecision}
      {payloadId : Uuid} {payload : ClarificationPayload}
      (h : workflowResponse decimals showJson catalog .completed tables workflowId capabilityId
        sourceIntent plan policy payloadId = .ok (.clarification payload)) :
      Emitted catalog payload
  | planned {toUppercase : Char → String} {candidateIds : List String} {facts : ClarificationFacts}
      {payloadId : Uuid} {planned : ClarificationPayload} {defaults : ConstraintPatch}
      (h : ClarificationPlanner.plan toUppercase catalog candidateIds facts payloadId =
        .clarify planned defaults)
      (question : String) (revision attempt : ℕ) (sourceIntent : Option SourceIntentSnapshot) :
      Emitted catalog { planned with question := question, revision := revision,
                                     attempt := attempt, sourceIntent := sourceIntent }

/-- An option of an emitted question, a response that names it with valid answers, and
the turn that follows while the question is pending. `semantic` is what the identifier
intake leaves of a text. -/
structure OfferedOption where
  parseDate : String → Option NaiveDate
  semantic : String → String
  reader : MessageReader
  catalog : KnowledgeCatalog
  principal : PrincipalContext
  payload : ClarificationPayload
  emitted : Emitted catalog payload
  option : ClarificationOption
  offered : option ∈ payload.options
  notOther : option.id ≠ OTHER_CLARIFICATION_OPTION_ID
  authorised : payload.kind = .selectOption → option.id ∈ principal.capabilityIds
  request : ResponseRequest
  namesPayload : request.clarificationId = some payload.id ∧
    request.clarificationRevision = some payload.revision
  namesOption : request.optionId = some option.id
  answered : ValidAnswers parseDate request.answers (payload.fields ++ option.fields)
  context : ContextWindow
  pending : context.pendingClarification = some payload
  activeDomain : Option String
  selectedEntities : Json
  scope : context.clientScope = clientScope principal activeDomain selectedEntities

namespace OfferedOption

variable (choice : OfferedOption)

def runtimeInput (submission : ValidatedClarificationSubmission) : RuntimeUserInput where
  message := choice.semantic submission.displayMessage
  sourceMessage := choice.semantic submission.sourceMessage
  selectedOptionId := submission.selectedOptionId
  constraintPatch := submission.constraintPatch

/-- The next turn executes the capability for the intent, wherever routing would go. -/
def Executes (submission : ValidatedClarificationSubmission) (capabilityId : String)
    (called : AssistantIntent) : Prop :=
  ∀ route, runWithRouter choice.reader choice.context (choice.runtimeInput submission) route =
    .execute capabilityId called

def Approved (capabilityId : String) : Prop :=
  ∃ capability ∈ choice.catalog.capabilities,
    capability.id = capabilityId ∧ capability.status = "approved_mvp"

/-- An entity option executes an approved capability for its client, any other option
its own capability. -/
def Continues (submission : ValidatedClarificationSubmission) : Prop :=
  match choice.payload.kind with
  | .selectEntity => ∃ capabilityId called clientId, choice.Approved capabilityId ∧
      clientOfOption choice.option.id = some clientId ∧
      SemanticTurn.clientEntity clientId ∈ called.entities ∧
      choice.Executes submission capabilityId called
  | _ => choice.Approved choice.option.id ∧
      ∃ called, choice.Executes submission choice.option.id called

/-- The response is accepted as the choice of the option, and the turn continues it. -/
def Chosen : Prop :=
  ∃ submission, validateSubmission choice.parseDate choice.catalog choice.payload choice.principal
      choice.request = .ok submission ∧
    submission.selectedOptionId = some choice.option.id ∧ choice.Continues submission

/-- The id is the text a client sends for it. -/
def Trimmed : Prop := Text.trim choice.option.id = choice.option.id ∧ choice.option.id ≠ ""

variable {choice : OfferedOption}

theorem selectedOptionId_eq_some {id : String} :
    choice.request.selectedOptionId = some id ↔ Text.trim choice.option.id = id ∧ id ≠ "" := by
  unfold ResponseRequest.selectedOptionId
  rw [choice.namesOption, Option.map_some, Option.filter_eq_some_iff]
  simp only [Option.some.injEq, decide_eq_true_eq]

/-- An entity option, or a candidate of its own id. -/
theorem option_cases : (choice.payload.kind = .selectEntity ∧
      ∃ clientId : ℤ, choice.option.id = "client:" ++ toString clientId) ∨
    (choice.payload.kind = .selectOption ∧ choice.Approved choice.option.id ∧
      ∀ option ∈ choice.payload.options,
        option.id = choice.option.id → option = choice.option) := by
  have hoffered := choice.offered
  have hemitted := choice.emitted
  generalize choice.payload = payload at hoffered hemitted ⊢
  cases hemitted with
  | workflowResponse h =>
    obtain ⟨hkind, hclients⟩ := workflowResponse_clarification h
    exact Or.inl ⟨hkind, hclients _ hoffered⟩
  | planned h =>
    obtain ⟨hkind, found, hfound, hoption⟩ :=
      ClarificationPlanner.plan_option h hoffered choice.notOther
    obtain ⟨hid, hmem, hstatus⟩ := ClarificationPlanner.candidate_capability hfound
    refine Or.inr ⟨hkind, ⟨found.capability, hmem, hid, hstatus⟩, ?_⟩
    intro other hother hsame
    have hnot : other.id ≠ OTHER_CLARIFICATION_OPTION_ID := by
      rw [hsame]
      exact choice.notOther
    obtain ⟨-, otherFound, hotherFound, hotherOption⟩ :=
      ClarificationPlanner.plan_option h hother hnot
    rw [hsame, hfound] at hotherFound
    obtain rfl := Option.some.inj hotherFound
    rw [hotherOption]
    exact hoption.symm

/-- The only kind of question whose options the validator accepts. -/
theorem kind_of_accepted {submission : ValidatedClarificationSubmission} {id : String}
    (h : validateSubmission choice.parseDate choice.catalog choice.payload choice.principal
      choice.request = .ok submission) (hid : submission.selectedOptionId = some id) :
    choice.payload.kind = .selectOption ∧ choice.request.selectedOptionId = some id := by
  have hstructured : ¬ choice.request.structured = false := by
    simp [ResponseRequest.structured, choice.namesPayload.1]
  unfold validateSubmission at h
  rw [if_neg hstructured] at h
  obtain ⟨payloadId, -, h⟩ := bind_eq_ok_iff.mp h
  obtain ⟨revision, -, h⟩ := bind_eq_ok_iff.mp h
  obtain ⟨selected, hselected, h⟩ := bind_eq_ok_iff.mp h
  obtain ⟨_, -, h⟩ := bind_eq_ok_iff.mp h
  obtain ⟨_, -, h⟩ := bind_eq_ok_iff.mp h
  obtain ⟨patch, -, h⟩ := bind_eq_ok_iff.mp h
  obtain rfl := pure_eq_ok.mp h
  have hrequest : choice.request.selectedOptionId = some id := hid
  refine ⟨?_, hrequest⟩
  rw [hrequest] at hselected
  unfold selectedOption at hselected
  cases hkind : choice.payload.kind with
  | selectOption => rfl
  | selectEntity => simp [hkind] at hselected
  | collectFields => simp [hkind] at hselected
  | freeText => simp [hkind] at hselected

/-- A report option named by its own id is accepted with its fields. -/
theorem accepted (hkind : choice.payload.kind = .selectOption)
    (honly : ∀ option ∈ choice.payload.options, option.id = choice.option.id →
      option = choice.option) (htrimmed : choice.Trimmed) :
    ∃ submission, validateSubmission choice.parseDate choice.catalog choice.payload choice.principal
        choice.request = .ok submission ∧
      submission.selectedOptionId = some choice.option.id := by
  have hid : choice.request.selectedOptionId = some choice.option.id :=
    selectedOptionId_eq_some.mpr htrimmed
  have hfind : choice.payload.options.find? (fun option => option.id = choice.option.id) =
      some choice.option := by
    have hsome : (choice.payload.options.find? fun option =>
        option.id = choice.option.id).isSome = true :=
      List.find?_isSome.mpr ⟨choice.option, choice.offered, by simp⟩
    obtain ⟨found, hfound⟩ := Option.isSome_iff_exists.mp hsome
    have hsame : found.id = choice.option.id := by simpa using List.find?_some hfound
    rw [hfound, honly found (List.mem_of_find?_eq_some hfound) hsame]
  have hselected : selectedOption choice.payload choice.principal (some choice.option.id) =
      .ok (some choice.option) := by
    have hheld := choice.authorised hkind
    simp [selectedOption, hkind, hfind, hheld]
  have hstructured : ¬ choice.request.structured = false := by
    simp [ResponseRequest.structured, choice.namesPayload.1]
  obtain ⟨hkeys, hfields⟩ := choice.answered
  have hoffered : offeredFields choice.payload (some choice.option) =
      choice.payload.fields ++ choice.option.fields := rfl
  have hunknown : ¬ ∃ key ∈ Assoc.keys choice.request.answers,
      key ∉ (choice.payload.fields ++ choice.option.fields).map (·.key) := by
    rintro ⟨key, hkey, hmissing⟩
    exact hmissing (hkeys key hkey)
  have haccepts : ∃ patched,
      validateFields choice.parseDate choice.catalog choice.request.answers []
      (choice.payload.fields ++ choice.option.fields) = .ok patched :=
    validateFields_accepts [] hfields
  obtain ⟨patched, hpatched⟩ := haccepts
  have hother := choice.notOther
  unfold validateSubmission
  rw [if_neg hstructured]
  simp only [choice.namesPayload.1, choice.namesPayload.2, okOr, hid, hselected, hoffered,
    Option.any_some, hother, decide_false, Bool.false_eq_true, false_and, failIf, hunknown,
    if_false, hpatched, bind, Except.bind, pure, Except.pure, Except.ok.injEq, exists_eq_left']

theorem continuedCapability_runtimeInput {submission : ValidatedClarificationSubmission}
    {id : String}
    (hid : submission.selectedOptionId = some id) :
    continuedCapability (choice.runtimeInput submission) choice.context =
      if isOther id = true then
        (continuationCapability choice.payload).map fun capabilityId =>
          (choice.payload, capabilityId)
      else none := by
  unfold continuedCapability
  rw [choice.pending]
  simp only [runtimeInput, hid, Option.all_some, bind, Option.bind_some]
  by_cases hmissing : choice.payload.isMissingExecutionParameters = true
  · simp only [hmissing, true_and]
  · have hnone : continuationCapability choice.payload = none := if_neg hmissing
    simp only [hmissing, false_and, Bool.false_eq_true, hnone, Option.map_none, ite_self]

/-- A turn that chose a listed option runs it or says that it is not available. -/
theorem turn_of_chosen {submission : ValidatedClarificationSubmission} {id : String}
    (hid : submission.selectedOptionId = some id) (hother : ¬ isOther id = true)
    (hcontext : .sessionContextExceeded ∉ choice.context.warnings) (route : TurnOutcome) :
    runWithRouter choice.reader choice.context (choice.runtimeInput submission) route =
      if clarificationCandidateAllowed id choice.payload choice.context = true then
        .execute id (continuedIntent choice.reader (choice.runtimeInput submission)
          choice.context choice.payload)
      else .ended .waitingForUserInput
        (if choice.payload.attempt ≥ MAX_CLARIFICATION_ATTEMPTS then "clarification_recovery"
         else "clarification_unresolved") := by
  have hinput : (choice.runtimeInput submission).selectedOptionId = some id := hid
  rw [runWithRouter, if_neg hcontext, continuedCapability_runtimeInput hid, if_neg hother]
  simp only [choice.pending, resolvePendingClarification, hinput, resolveSelectedOption,
    hother, Bool.false_eq_true, if_false]
  by_cases hallowed : clarificationCandidateAllowed id choice.payload choice.context = true
  · simp only [hallowed, if_true]
  · simp only [hallowed, Bool.false_eq_true, if_false, unavailableOption]

/-- The free-text option continues the only capability there is, whatever the route. -/
theorem turn_of_continued {submission : ValidatedClarificationSubmission} {id only : String}
    (hid : submission.selectedOptionId = some id) (hother : isOther id = true)
    (hcontext : .sessionContextExceeded ∉ choice.context.warnings)
    (hcontinued : continuationCapability choice.payload = some only) (route : TurnOutcome) :
    runWithRouter choice.reader choice.context (choice.runtimeInput submission) route =
      .execute only (continuedIntent choice.reader (choice.runtimeInput submission) choice.context
        choice.payload) := by
  rw [runWithRouter, if_neg hcontext, continuedCapability_runtimeInput hid, if_pos hother,
    hcontinued, Option.map_some]

/-- Without such a capability the free-text option runs nothing. -/
theorem turn_of_other {submission : ValidatedClarificationSubmission} {id capabilityId : String}
    {called : AssistantIntent} (hid : submission.selectedOptionId = some id)
    (hother : isOther id = true) (hcontext : .sessionContextExceeded ∉ choice.context.warnings)
    (hnone : continuationCapability choice.payload = none) :
    runWithRouter choice.reader choice.context (choice.runtimeInput submission)
      (.ended .completed "") ≠ .execute capabilityId called := by
  have hinput : (choice.runtimeInput submission).selectedOptionId = some id := hid
  intro hturn
  rw [runWithRouter, if_neg hcontext, continuedCapability_runtimeInput hid, if_pos hother, hnone,
    Option.map_none] at hturn
  simp only [choice.pending, resolvePendingClarification, hinput, resolveSelectedOption, hother,
    if_true] at hturn
  split_ifs at hturn <;> cases hturn

/-- The pending question is left by the only capability it continues, or by an option
the principal may run. -/
theorem executes_iff {submission : ValidatedClarificationSubmission} {id capabilityId : String}
    (hid : submission.selectedOptionId = some id) :
    (∃ called, choice.Executes submission capabilityId called) ↔
      .sessionContextExceeded ∉ choice.context.warnings ∧
        ((isOther id = true ∧ continuationCapability choice.payload = some capabilityId) ∨
          (isOther id = false ∧ id = capabilityId ∧
            clarificationCandidateAllowed id choice.payload choice.context = true)) := by
  -- A turn that is not executed whatever the route is ended by some route.
  have hended : ∀ {called}, choice.Executes submission capabilityId called →
      runWithRouter choice.reader choice.context (choice.runtimeInput submission)
        (.ended .completed "") = .execute capabilityId called := fun h => h _
  by_cases hexceeded : ContextWarningCode.sessionContextExceeded ∈ choice.context.warnings
  · simp only [hexceeded, not_true_eq_false, false_and, iff_false, not_exists]
    intro called h
    have hturn := hended h
    rw [runWithRouter, if_pos hexceeded] at hturn
    cases hturn
  · simp only [hexceeded, not_false_eq_true, true_and]
    by_cases hother : isOther id = true
    · simp only [hother, true_and, Bool.true_eq_false, false_and, or_false]
      cases hcontinued : continuationCapability choice.payload with
      | none =>
        simp only [reduceCtorEq, iff_false, not_exists]
        exact fun called h => turn_of_other hid hother hexceeded hcontinued (hended h)
      | some only =>
        have hturn := turn_of_continued hid hother hexceeded hcontinued
        constructor
        · rintro ⟨called, h⟩
          have hsame := (hturn _).symm.trans (hended h)
          rw [(TurnOutcome.execute.inj hsame).1]
        · intro h
          obtain rfl := Option.some.inj h
          exact ⟨_, hturn⟩
    · have hresolved := turn_of_chosen hid hother hexceeded
      have hnot : isOther id = false := Bool.eq_false_iff.mpr hother
      simp only [hnot, Bool.false_eq_true, false_and, true_and, false_or]
      constructor
      · rintro ⟨called, h⟩
        have hturn := (hresolved _).symm.trans (hended h)
        split_ifs at hturn with hallowed
        exact ⟨(TurnOutcome.execute.inj hturn).1, hallowed⟩
      · rintro ⟨rfl, hallowed⟩
        exact ⟨_, fun route => (hresolved route).trans (if_pos hallowed)⟩

/-- The scope of the principal lets its own capabilities through. -/
theorem candidate_allowed (hkind : choice.payload.kind = .selectOption) :
    clarificationCandidateAllowed choice.option.id choice.payload choice.context = true := by
  have hany : (choice.payload.options.any fun option => option.id = choice.option.id) = true :=
    List.any_eq_true.mpr ⟨choice.option, choice.offered, by simp⟩
  have hentity : choice.payload.kind ≠ .selectEntity := by simp [hkind]
  have hheld : choice.option.id ∈ allowedCapabilities choice.context := by
    rw [allowedCapabilities_clientScope choice.scope]
    exact choice.authorised hkind
  unfold clarificationCandidateAllowed
  rw [if_pos hany, if_neg hentity]
  split_ifs
  · simp [hheld]
  · rfl

/-- An option can be chosen exactly when it is a report option with a trimmed id that
does not read as the free-text option, or reads as it and is the only one, while the
context of the session is not exhausted. -/
theorem chosen_iff : choice.Chosen ↔
    choice.payload.kind = .selectOption ∧ choice.Trimmed ∧
      (isOther choice.option.id = true →
        continuationCapability choice.payload = some choice.option.id) ∧
      .sessionContextExceeded ∉ choice.context.warnings := by
  constructor
  · rintro ⟨submission, haccepted, hid, hcontinues⟩
    obtain ⟨hkind, hselected⟩ := kind_of_accepted haccepted hid
    unfold Continues at hcontinues
    simp only [hkind] at hcontinues
    obtain ⟨-, hexecutes⟩ := hcontinues
    obtain ⟨hcontext, hway⟩ := (executes_iff hid).mp hexecutes
    refine ⟨hkind, selectedOptionId_eq_some.mp hselected, fun hother => ?_, hcontext⟩
    obtain ⟨-, honly⟩ | ⟨hnot, -⟩ := hway
    · exact honly
    · simp [hother] at hnot
  · rintro ⟨hkind, htrimmed, honly, hcontext⟩
    obtain ⟨hentity, -⟩ | ⟨-, happroved, hunique⟩ := choice.option_cases
    · rw [hkind] at hentity
      cases hentity
    · obtain ⟨submission, haccepted, hid⟩ := accepted hkind hunique htrimmed
      refine ⟨submission, haccepted, hid, ?_⟩
      unfold Continues
      simp only [hkind]
      refine ⟨happroved, (executes_iff hid).mpr ⟨hcontext, ?_⟩⟩
      cases hother : isOther choice.option.id with
      | true => exact Or.inl ⟨rfl, honly hother⟩
      | false => exact Or.inr ⟨rfl, rfl, candidate_allowed hkind⟩

end OfferedOption

/-! ### Two clients of one name -/

namespace Namesakes

open FineractReports.NameLookup (catalog)

def row (clientId : ℤ) (office : String) : Json :=
  .obj [("client_id", .int clientId), ("display_name", .str "Rahma Jaya"),
    ("office_name", .str office), ("status_label", .str "Active")]

/-- The job after its lookup has found both clients. -/
def tables : JobTables where
  jobId := 3
  userId := 1
  sessionArchived := false
  status := .running
  currentStep := "executing_node"
  resumeFromStep := none
  stateJson := .obj []
  resultJson := none
  errorJson := none
  workflowId := some 7
  workflowRevision := 1
  currentNodeId := none
  pendingClarification := none
  memoryRevision := 0
  nodeRuns :=
    [⟨11, 7, ⟨"execute", NodeId.isValid_execute⟩, 1, .completed,
      some (.obj [("untrusted_tool_output",
        .obj [("row_count", .int 2), ("rows", .arr [row 7 "Jakarta", row 12 "Bandung"]),
          ("truncated", .bool false), ("shown", .int 2)])]), 2, some 5, some 1⟩]
  events := []

def principal : PrincipalContext := ⟨1, "analyst", ["client_name_lookup"], [1], true⟩

def sourceIntent : SourceIntentSnapshot :=
  ⟨"find Rahma Jaya", none, .dataLookup, .client, NameLookup.capability.requestShape, [],
    AssistantConstraints.empty⟩

def first : ClarificationOption := ⟨"client:7", "Rahma Jaya", some "Jakarta · Active", []⟩

def second : ClarificationOption := ⟨"client:12", "Rahma Jaya", some "Bandung · Active", []⟩

def payload : ClarificationPayload := entityClarification 5 [first, second] sourceIntent

def plan : ExecutionPlan :=
  ⟨"client", "client_name_lookup", "client.name_lookup", none, "list", .obj []⟩

theorem asked : workflowResponse ⟨Unit, fun _ => none, (), fun _ _ => (), fun _ _ => ""⟩
    (fun _ => "") catalog .completed tables 7 plan.capability sourceIntent plan
    ⟨.allowed, none, [1], true⟩ 5 = .ok (.clarification payload) := rfl

/-- The user picks the first of them. -/
def picked : OfferedOption where
  parseDate _ := none
  semantic text := text
  reader := ⟨fun _ => none, fun _ intent => intent⟩
  catalog := catalog
  principal := principal
  payload := payload
  emitted := .workflowResponse asked
  option := first
  offered := List.mem_cons_self
  notOther := by decide
  authorised h := by cases h
  request := ⟨some 5, some 1, some "client:7", none, []⟩
  namesPayload := ⟨rfl, rfl⟩
  namesOption := rfl
  answered := ⟨fun _ h => absurd h List.not_mem_nil, fun _ h => absurd h List.not_mem_nil⟩
  context := ⟨none, [], some payload, clientScope principal none (.arr []), []⟩
  pending := rfl
  activeDomain := none
  selectedEntities := .arr []
  scope := rfl

/-- The response that names one of the two clients is rejected. -/
theorem entity_option_rejected :
    validateSubmission picked.parseDate picked.catalog picked.payload picked.principal
        picked.request = .error ⟨["option_id"]⟩ ∧
      ¬ picked.Chosen := by
  have hrejected : validateSubmission picked.parseDate picked.catalog picked.payload
      picked.principal picked.request = .error ⟨["option_id"]⟩ := by decide
  refine ⟨hrejected, ?_⟩
  rintro ⟨submission, haccepted, -, -⟩
  rw [hrejected] at haccepted
  cases haccepted

end Namesakes

end FineractReports.Job
