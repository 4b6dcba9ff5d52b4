import FineractReports.Execution.Parameters
import FineractReports.Job.Model
import FineractReports.Policy.Authorization

/-!
# Validation of a clarification response

An answer is checked against the fields that were offered and turned into a patch
of canonical facts. `parseDate` stands for the date parser of the calendar library.
-/

namespace FineractReports.Job

structure ClarificationValidationError where
  fields : List String
deriving DecidableEq, Repr

def ClarificationValidationError.field (name : String) : ClarificationValidationError := ⟨[name]⟩

/-- The input that asks for a parameter, by its id. -/
def parameterInput? (catalog : KnowledgeCatalog) (inputId : String) :
    Option ParameterInputKnowledge :=
  catalog.parameterInputs.find? fun input => input.id = inputId

/-- Which canonical fact a free-text answer becomes. -/
def textTarget (catalog : KnowledgeCatalog) (inputId : String) : Option ConstraintField := do
  let input ← parameterInput? catalog inputId
  let parameter ← input.parameters.head?
  (catalog.bindingFields parameter).head?

def textFact (field : ConstraintField) (text : String) : TypedFactValue :=
  match field with
  | .office => .office text
  | .product => .product text
  | .chargeType => .chargeType text
  | .accountNumber => .accountNumber text
  | .currencyCode => .currencyCode text
  | .transactionAmount => .decimal text
  | _ => .personName text

def answerError (field : ClarificationField) : ClarificationValidationError :=
  .field ("answers." ++ field.key)

def validateDateRange (parseDate : String → Option NaiveDate) (field : ClarificationField)
    (value : Json) (patch : ConstraintPatch) :
    Except ClarificationValidationError ConstraintPatch :=
  match value with
  | .obj members =>
    if members.length ≠ 2 then .error (answerError field)
    else match (value.get? "from").bind Json.asStr?, (value.get? "to").bind Json.asStr? with
      | some start, some stop =>
        match parseDate start, parseDate stop with
        | some startDate, some stopDate =>
          if stopDate.before startDate ∨ field.validation.maxRangeDays.any (fun limit =>
              stopDate.dayNumber - startDate.dayNumber > limit) = true then
            .error (answerError field)
          else
            .ok (Assoc.insert (Assoc.insert patch .fromDate (.date start)) .toDate (.date stop))
        | _, _ => .error (answerError field)
      | _, _ => .error (answerError field)
  | _ => .error (answerError field)

/-- Only the answer to the field `limit` becomes a fact. -/
def validateInteger (field : ClarificationField) (value : Json) (patch : ConstraintPatch) :
    Except ClarificationValidationError ConstraintPatch :=
  match value.asI64? with
  | some integer =>
    if field.validation.minInteger.any (fun low => integer < low) = true ∨
        field.validation.maxInteger.any (fun high => integer > high) = true then
      .error (answerError field)
    else if field.key = "limit" then
      .ok (Assoc.insert (Assoc.insert patch .limitMode (.limitMode .topN)) .limitValue
        (.integer integer))
    else .ok patch
  | none => .error (answerError field)

def validateText (field : ClarificationField) (target : Option ConstraintField) (value : Json)
    (patch : ConstraintPatch) : Except ClarificationValidationError ConstraintPatch :=
  match (value.asStr?.map Text.trim).filter fun text => text ≠ "" with
  | some text =>
    if field.validation.maxLength.any (fun limit => text.length > limit) = true then
      .error (answerError field)
    else match target with
      | some fieldPath => .ok (Assoc.insert patch fieldPath (textFact fieldPath text))
      | none => .ok patch
  | none => .error (answerError field)

def validateField (parseDate : String → Option NaiveDate) (field : ClarificationField)
    (target : Option ConstraintField) (value : Json) (patch : ConstraintPatch) :
    Except ClarificationValidationError ConstraintPatch :=
  match field.fieldType with
  | .dateRange => validateDateRange parseDate field value patch
  | .integer => validateInteger field value patch
  | .text => validateText field target value patch

/-- The option a response selects, held by the principal unless it is the free-text one. -/
def selectedOption (payload : ClarificationPayload) (principal : PrincipalContext)
    (selectedOptionId : Option String) :
    Except ClarificationValidationError (Option ClarificationOption) :=
  match payload.kind, selectedOptionId with
  | .selectOption, none => .error (.field "option_id")
  | .selectOption, some optionId =>
    match payload.options.find? fun option => option.id = optionId with
    | none => .error (.field "option_id")
    | some option =>
      if option.id ≠ OTHER_CLARIFICATION_OPTION_ID ∧ option.id ∉ principal.capabilityIds then
        .error (.field "option_id")
      else .ok (some option)
  | _, some _ => .error (.field "option_id")
  | _, none => .ok none

/-- The fields of the payload and of the selected option. -/
def offeredFields (payload : ClarificationPayload) (selected : Option ClarificationOption) :
    List ClarificationField :=
  payload.fields ++ (selected.map (·.fields)).getD []

def validateFields (parseDate : String → Option NaiveDate) (catalog : KnowledgeCatalog)
    (answers : List (String × Json)) (patch : ConstraintPatch) :
    List ClarificationField → Except ClarificationValidationError ConstraintPatch
  | [] => .ok patch
  | field :: rest =>
    match Assoc.get? answers field.key with
    | some value => do
      let patch ← validateField parseDate field (textTarget catalog field.key) value patch
      validateFields parseDate catalog answers patch rest
    | none =>
      if field.required ∧ field.defaultValue = none then .error (answerError field)
      else validateFields parseDate catalog answers patch rest

/-- The request body of a response. -/
structure ResponseRequest where
  clarificationId : Option Uuid
  clarificationRevision : Option ℕ
  optionId : Option String
  message : Option String
  answers : List (String × Json)
deriving DecidableEq

namespace ResponseRequest

variable (request : ResponseRequest)

def structured : Bool :=
  request.clarificationId.isSome || request.clarificationRevision.isSome ||
    !request.answers.isEmpty

def sourceMessage : String := Text.trim (request.message.getD "")

def selectedOptionId : Option String :=
  (request.optionId.map Text.trim).filter fun optionId => optionId ≠ ""

end ResponseRequest

/-- An answer in plain text: it names no clarification and makes no patch. -/
def plainSubmission (request : ResponseRequest) : ValidatedClarificationSubmission where
  clarificationId := none
  clarificationRevision := none
  selectedOptionId := request.selectedOptionId
  sourceMessage := request.sourceMessage
  displayMessage := request.selectedOptionId.getD request.sourceMessage
  answers := request.answers
  constraintPatch := []

def displayMessage (request : ResponseRequest) (selected : Option ClarificationOption) : String :=
  if request.sourceMessage ≠ "" then request.sourceMessage
  else match selected with
    | some option => option.label
    | none => "Clarification response"

def validateSubmission (parseDate : String → Option NaiveDate) (catalog : KnowledgeCatalog)
    (payload : ClarificationPayload) (principal : PrincipalContext) (request : ResponseRequest) :
    Except ClarificationValidationError ValidatedClarificationSubmission :=
  if request.structured = false then
    if request.sourceMessage = "" then .error (.field "message")
    else .ok (plainSubmission request)
  else do
    let id ← okOr request.clarificationId (.field "clarification_id")
    let revision ← okOr request.clarificationRevision (.field "clarification_revision")
    let selected ← selectedOption payload principal request.selectedOptionId
    failIf (selected.any (fun option => option.id = OTHER_CLARIFICATION_OPTION_ID) = true ∧
      request.sourceMessage = "") (.field "message")
    let fields := offeredFields payload selected
    failIf (∃ key ∈ Assoc.keys request.answers, key ∉ fields.map (·.key)) (.field "answers")
    let patch ← validateFields parseDate catalog request.answers [] fields
    pure
      { clarificationId := some id
        clarificationRevision := some revision
        selectedOptionId := request.selectedOptionId
        sourceMessage := request.sourceMessage
        displayMessage := displayMessage request selected
        answers := request.answers
        constraintPatch := patch }

/-! ### Answers that are accepted -/

section Lemmas

variable {parseDate : String → Option NaiveDate} {catalog : KnowledgeCatalog}

/-- A range of two dates in order, within the span the field allows. -/
def ValidDateRange (parseDate : String → Option NaiveDate) (field : ClarificationField)
    (value : Json) : Prop :=
  ∃ members start stop startDate stopDate, value = .obj members ∧ members.length = 2 ∧
    value.get? "from" = some (.str start) ∧ value.get? "to" = some (.str stop) ∧
    parseDate start = some startDate ∧ parseDate stop = some stopDate ∧
    ¬ stopDate.before startDate ∧
    ∀ limit ∈ field.validation.maxRangeDays, stopDate.dayNumber - startDate.dayNumber ≤ limit

def ValidInteger (field : ClarificationField) (value : Json) : Prop :=
  ∃ integer, value.asI64? = some integer ∧ (∀ low ∈ field.validation.minInteger, low ≤ integer) ∧
    ∀ high ∈ field.validation.maxInteger, integer ≤ high

def ValidText (field : ClarificationField) (value : Json) : Prop :=
  ∃ text, value = .str text ∧ Text.trim text ≠ "" ∧
    ∀ limit ∈ field.validation.maxLength, (Text.trim text).length ≤ limit

/-- The answer is of the field's type and within its bounds. -/
def ValidAnswer (parseDate : String → Option NaiveDate) (field : ClarificationField)
    (value : Json) : Prop :=
  match field.fieldType with
  | .dateRange => ValidDateRange parseDate field value
  | .integer => ValidInteger field value
  | .text => ValidText field value

/-- Every field that is answered has a valid answer, every other one is optional or has
a default. -/
def ValidAnswers (parseDate : String → Option NaiveDate) (answers : List (String × Json))
    (fields : List ClarificationField) : Prop :=
  (∀ key ∈ Assoc.keys answers, key ∈ fields.map (·.key)) ∧
    ∀ field ∈ fields,
      match Assoc.get? answers field.key with
      | some value => ValidAnswer parseDate field value
      | none => field.required = true → field.defaultValue ≠ none

theorem asStr?_eq_some {value : Json} {text : String} :
    value.asStr? = some text ↔ value = .str text := by
  cases value <;> simp [Json.asStr?]

theorem validateDateRange_accepts {field : ClarificationField} {value : Json}
    (h : ValidDateRange parseDate field value) (patch : ConstraintPatch) :
    ∃ patched, validateDateRange parseDate field value patch = .ok patched := by
  obtain ⟨members, start, stop, startDate, stopDate, rfl, hlength, hfrom, hto, hstart, hstop,
    horder, hspan⟩ := h
  cases hmax : field.validation.maxRangeDays with
  | none => simp [validateDateRange, hlength, hfrom, hto, Json.asStr?, hstart, hstop, horder, hmax]
  | some limit =>
    have hlimit : ¬ (limit : ℤ) < stopDate.dayNumber - startDate.dayNumber :=
      not_lt.mpr (hspan limit hmax)
    simp [validateDateRange, hlength, hfrom, hto, Json.asStr?, hstart, hstop, horder, hmax, hlimit]

theorem validateInteger_accepts {field : ClarificationField} {value : Json}
    (h : ValidInteger field value) (patch : ConstraintPatch) :
    ∃ patched, validateInteger field value patch = .ok patched := by
  obtain ⟨integer, hinteger, hlow, hhigh⟩ := h
  have hmin : ¬ field.validation.minInteger.any (fun low => integer < low) = true := by
    simp only [Option.any_eq_true, decide_eq_true_eq, not_exists, not_and, not_lt]
    exact hlow
  have hmax : ¬ field.validation.maxInteger.any (fun high => integer > high) = true := by
    simp only [Option.any_eq_true, decide_eq_true_eq, not_exists, not_and, gt_iff_lt, not_lt]
    exact hhigh
  simp only [validateInteger, hinteger]
  rw [if_neg (not_or.mpr ⟨hmin, hmax⟩)]
  split_ifs
  · exact ⟨_, rfl⟩
  · exact ⟨_, rfl⟩

theorem validateText_accepts {field : ClarificationField} {value : Json}
    (h : ValidText field value) (target : Option ConstraintField) (patch : ConstraintPatch) :
    ∃ patched, validateText field target value patch = .ok patched := by
  obtain ⟨text, rfl, htext, hlength⟩ := h
  have hmax : ¬ field.validation.maxLength.any (fun limit => (Text.trim text).length > limit) =
      true := by
    simp only [Option.any_eq_true, decide_eq_true_eq, not_exists, not_and, gt_iff_lt, not_lt]
    exact hlength
  simp only [validateText, Json.asStr?, Option.map_some, Option.filter_some, ne_eq, htext,
    not_false_eq_true, decide_true, if_true, hmax]
  cases target with
  | none => exact ⟨_, rfl⟩
  | some fieldPath => exact ⟨_, rfl⟩

theorem validateField_accepts {field : ClarificationField} {value : Json}
    (h : ValidAnswer parseDate field value) (target : Option ConstraintField)
    (patch : ConstraintPatch) :
    ∃ patched, validateField parseDate field target value patch = .ok patched := by
  unfold validateField
  unfold ValidAnswer at h
  cases hkind : field.fieldType with
  | dateRange =>
    rw [hkind] at h
    exact validateDateRange_accepts h patch
  | integer =>
    rw [hkind] at h
    exact validateInteger_accepts h patch
  | text =>
    rw [hkind] at h
    exact validateText_accepts h target patch

theorem validateFields_accepts {answers : List (String × Json)}
    {fields : List ClarificationField} (patch : ConstraintPatch)
    (h : ∀ field ∈ fields,
      match Assoc.get? answers field.key with
      | some value => ValidAnswer parseDate field value
      | none => field.required = true → field.defaultValue ≠ none) :
    ∃ patched, validateFields parseDate catalog answers patch fields = .ok patched := by
  induction fields generalizing patch with
  | nil => exact ⟨patch, rfl⟩
  | cons field rest ih =>
    have hrest := fun item hitem => h item (List.mem_cons_of_mem _ hitem)
    have hfield := h field List.mem_cons_self
    unfold validateFields
    cases hanswer : Assoc.get? answers field.key with
    | some value =>
      rw [hanswer] at hfield
      obtain ⟨patched, hpatched⟩ :=
        validateField_accepts hfield (textTarget catalog field.key) patch
      obtain ⟨final, hfinal⟩ := ih patched hrest
      exact ⟨final, by simp only [hpatched, bind, Except.bind, hfinal]⟩
    | none =>
      rw [hanswer] at hfield
      have hoptional : ¬ (field.required = true ∧ field.defaultValue = none) :=
        fun hmissing => hfield hmissing.1 hmissing.2
      obtain ⟨final, hfinal⟩ := ih patch hrest
      exact ⟨final, by simp only [hoptional, if_false, hfinal]⟩

end Lemmas

end FineractReports.Job
