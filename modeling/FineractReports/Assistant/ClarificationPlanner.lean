import FineractReports.Knowledge.Model

/-!
# The clarification planner

Which inputs of the candidate capabilities are still missing, and the question that
asks for them. `toUppercase` stands for the upper case of the Unicode tables.
-/

namespace FineractReports

abbrev ClarificationFacts := List (ConstraintField × TypedFactValue)

inductive ClarificationPlanResult where
  | complete (capabilityId : String) (approvedDefaults : ConstraintPatch)
  | clarify (payload : ClarificationPayload) (approvedDefaults : ConstraintPatch)
deriving DecidableEq

namespace ClarificationPlanner

structure Candidate where
  capability : CapabilityKnowledge
  missing : List ClarificationField
  defaults : ConstraintPatch
deriving DecidableEq

/-- Asked of the user: required, and not filled from the principal or the sensitive input. -/
def isAskable (parameter : QueryParameter) : Bool :=
  parameter.required = true ∧ parameter.source ≠ some "authorized_scope" ∧
    parameter.source ≠ some "transient_sensitive_input"

/-- The first input that covers a parameter. -/
def coveringInput (inputs : List ParameterInputKnowledge) (parameter : QueryParameter) :
    Option ParameterInputKnowledge :=
  inputs.find? fun input => parameter.name ∈ input.parameters

/-- Adds an input unless its id is there already. -/
def addInput (result : List ParameterInputKnowledge) (input : ParameterInputKnowledge) :
    List ParameterInputKnowledge :=
  if input.id ∈ result.map (·.id) then result else result ++ [input]

/-- The inputs of the askable parameters of a query, each id once. -/
def requiredInputs (query : QueryKnowledge) (inputs : List ParameterInputKnowledge) :
    List ParameterInputKnowledge :=
  ((query.parameters.filter isAskable).filterMap (coveringInput inputs)).foldl addInput []

def limitDefault (capability : CapabilityKnowledge) (query : QueryKnowledge)
    (inputs : List ParameterInputKnowledge) : ConstraintPatch :=
  match capability.defaultLimit, inputs.find? fun input => input.id = "limit" with
  | some limit, some input =>
    if limit < input.validation.minInteger.getD 1 ∨
        capability.guards.maxLimit.any (fun high => limit > high) = true ∨
        input.validation.maxInteger.any (fun high => limit > high) = true then []
    else
      let mode : LimitMode :=
        if "top_n" ∈ query.parameters.map (·.name) then .topN else .limit
      [(.limitMode, .limitMode mode), (.limitValue, .integer limit)]
  | _, _ => []

/-- A fact, or the default for it. -/
def factOr (facts : ClarificationFacts) (defaults : ConstraintPatch) (field : ConstraintField) :
    Option TypedFactValue :=
  (Assoc.get? facts field).or (Assoc.get? defaults field)

def isDate : Option TypedFactValue → Bool
  | some (.date _) => true
  | _ => false

def isLimitMode : Option TypedFactValue → Bool
  | some (.limitMode .topN) | some (.limitMode .limit) => true
  | _ => false

def isInteger : Option TypedFactValue → Bool
  | some (.integer _) => true
  | _ => false

def isPersonName : Option TypedFactValue → Bool
  | some (.personName _) => true
  | _ => false

/-- Decided by the id of the input; only three ids can be satisfied. -/
def inputSatisfied (inputId : String) (facts : ClarificationFacts) (defaults : ConstraintPatch) :
    Bool :=
  match inputId with
  | "date_range" => isDate (Assoc.get? facts .fromDate) && isDate (Assoc.get? facts .toDate)
  | "limit" =>
    isLimitMode (factOr facts defaults .limitMode) &&
      isInteger (factOr facts defaults .limitValue)
  | "search" => isPersonName (Assoc.get? facts .personName)
  | _ => false

def dateValue (facts : ClarificationFacts) (field : ConstraintField) : Json :=
  match Assoc.get? facts field with
  | some (.date text) => .str text
  | _ => .null

def fieldValidation (input : ParameterInputKnowledge) (capability : CapabilityKnowledge) :
    ClarificationValidation :=
  match capability.guards.maxDateRangeDays with
  | some high =>
    if input.id = "date_range" then
      { input.validation with
        maxRangeDays := some ((input.validation.maxRangeDays.map (min · high)).getD high) }
    else input.validation
  | none => input.validation

def fieldFor (input : ParameterInputKnowledge) (facts : ClarificationFacts)
    (capability : CapabilityKnowledge) : ClarificationField where
  key := input.id
  label := input.label
  fieldType := input.fieldType
  required := input.required
  value :=
    if input.id = "date_range" then
      some (.obj [("from", dateValue facts .fromDate), ("to", dateValue facts .toDate)])
    else none
  defaultValue := none
  helpText := input.helpText
  validation := fieldValidation input capability
  errors := []

/-- An approved capability with its query, by id. -/
def candidate (catalog : KnowledgeCatalog) (facts : ClarificationFacts) (id : String) :
    Option Candidate := do
  let capability ← catalog.capabilities.find? fun capability =>
    capability.id = id ∧ capability.status = "approved_mvp"
  let query ← catalog.queries.find? fun query => query.id = capability.queryId
  let inputs := requiredInputs query catalog.parameterInputs
  let defaults := limitDefault capability query inputs
  pure
    { capability := capability
      missing := (inputs.filter fun input => !inputSatisfied input.id facts defaults).map
        fun input => fieldFor input facts capability
      defaults := defaults }

def sameInput (left right : ClarificationField) : Bool :=
  left.key = right.key ∧ left.fieldType = right.fieldType ∧ left.required = right.required ∧
    left.defaultValue = right.defaultValue ∧ left.validation = right.validation

/-- The defaults of the first candidate that all candidates share. -/
def commonDefaults (candidates : List Candidate) : ConstraintPatch :=
  match candidates with
  | [] => []
  | first :: _ => (ConstraintPatch.entries first.defaults).filter fun entry =>
      candidates.all fun candidate => Assoc.get? candidate.defaults entry.1 = some entry.2

/-- The missing fields of the first candidate that all candidates miss. -/
def commonFields (candidates : List Candidate) : List ClarificationField :=
  match candidates with
  | [] => []
  | first :: _ => first.missing.filter fun field =>
      candidates.all fun candidate => candidate.missing.any fun other => sameInput field other

def optionDescription (capability : CapabilityKnowledge) : Option String :=
  match capability.description, capability.examples.head? with
  | some description, some sample => some (description ++ "\nExample: " ++ sample)
  | some description, none => some description
  | none, some sample => some ("Example: " ++ sample)
  | none, none => none

def payload (id : Uuid) (kind : ClarificationKind) (question : String)
    (options : List ClarificationOption) (fields : List ClarificationField) :
    ClarificationPayload where
  version := CLARIFICATION_VERSION_1
  id := id
  revision := 0
  kind := kind
  question := question
  options := options
  fields := fields
  attempt := 0
  sourceIntent := none
  allowFreeText := false
  isMissingExecutionParameters := true
  workflowId := none
  nodeId := none
  resumeNodeId := none
  entityKind := none

def otherOption : ClarificationOption :=
  ⟨OTHER_CLARIFICATION_OPTION_ID, "Others", some "Let me describe it in my own words", []⟩

section Uppercase

variable (toUppercase : Char → String)

/-- A readable label of a snake-case id. -/
def humanizeId (id : String) : String :=
  String.intercalate " " ((Text.split (fun c => c = '_') id).map fun part =>
    match part.toList with
    | [] => ""
    | first :: rest => toUppercase first ++ String.ofList rest)

def candidateOption (common : List ClarificationField) (candidate : Candidate) :
    ClarificationOption where
  id := candidate.capability.id
  label := candidate.capability.displayName.getD (humanizeId toUppercase candidate.capability.id)
  description := optionDescription candidate.capability
  fields := candidate.missing.filter fun field => !common.any fun shared => sameInput shared field

def selectPayload (payloadId : Uuid) (candidates : List Candidate) : ClarificationPayload :=
  let common := commonFields candidates
  payload payloadId .selectOption "Which report would you like?"
    (candidates.map (candidateOption toUppercase common) ++ [otherOption]) common

def plan (catalog : KnowledgeCatalog) (candidateIds : List String) (facts : ClarificationFacts)
    (payloadId : Uuid) : ClarificationPlanResult :=
  let candidates := candidateIds.filterMap (candidate catalog facts)
  match candidates with
  | [single] =>
    if single.missing = [] then .complete single.capability.id (commonDefaults candidates)
    else .clarify (payload payloadId .collectFields "What details should I use for this report?" []
      single.missing) (commonDefaults candidates)
  | _ => .clarify (selectPayload toUppercase payloadId candidates) (commonDefaults candidates)

end Uppercase

section Lemmas

variable {inputs : List ParameterInputKnowledge} {query : QueryKnowledge}

theorem addInput_ids (result : List ParameterInputKnowledge) (input : ParameterInputKnowledge)
    (id : String) :
    id ∈ (addInput result input).map (·.id) ↔ id ∈ result.map (·.id) ∨ id = input.id := by
  unfold addInput
  split_ifs with hmem
  · constructor
    · exact Or.inl
    · rintro (hid | rfl)
      · exact hid
      · exact hmem
  · simp

theorem foldl_addInput_ids (result added : List ParameterInputKnowledge) (id : String) :
    id ∈ (added.foldl addInput result).map (·.id) ↔
      id ∈ result.map (·.id) ∨ id ∈ added.map (·.id) := by
  induction added generalizing result with
  | nil => simp
  | cons input rest ih =>
    rw [List.foldl_cons, ih, addInput_ids, List.map_cons, List.mem_cons, or_assoc]

/-- The ids of the required inputs are those of the inputs covering askable parameters. -/
theorem mem_requiredInputs_ids {id : String} :
    id ∈ (requiredInputs query inputs).map (·.id) ↔
      ∃ parameter ∈ query.parameters, isAskable parameter = true ∧
        ∃ input, coveringInput inputs parameter = some input ∧ input.id = id := by
  unfold requiredInputs
  rw [foldl_addInput_ids]
  constructor
  · rintro (hnil | hmem)
    · simp at hnil
    · obtain ⟨input, hinput, rfl⟩ := List.mem_map.mp hmem
      obtain ⟨parameter, hparameter, hcovering⟩ := List.mem_filterMap.mp hinput
      obtain ⟨hin, haskable⟩ := List.mem_filter.mp hparameter
      exact ⟨parameter, hin, haskable, input, hcovering, rfl⟩
  · rintro ⟨parameter, hin, haskable, input, hcovering, rfl⟩
    apply Or.inr
    apply List.mem_map_of_mem
    exact List.mem_filterMap.mpr ⟨parameter, List.mem_filter.mpr ⟨hin, haskable⟩, hcovering⟩

/-- A candidate is the approved capability of its id. -/
theorem candidate_capability {catalog : KnowledgeCatalog} {facts : ClarificationFacts} {id : String}
    {found : Candidate} (h : candidate catalog facts id = some found) :
    found.capability.id = id ∧ found.capability ∈ catalog.capabilities ∧
      found.capability.status = "approved_mvp" := by
  unfold candidate at h
  obtain ⟨capability, hcapability, h⟩ := Option.bind_eq_some_iff.mp h
  obtain ⟨query, -, h⟩ := Option.bind_eq_some_iff.mp h
  obtain rfl := Option.some.inj h
  have hfound := List.find?_some hcapability
  obtain ⟨hid, hstatus⟩ := of_decide_eq_true hfound
  exact ⟨hid, List.mem_of_find?_eq_some hcapability, hstatus⟩

/-- An option of a planned question other than the free-text one is a candidate of its
own id, with the fields the question does not ask anyway. -/
theorem plan_option {toUppercase : Char → String} {catalog : KnowledgeCatalog}
    {candidateIds : List String} {facts : ClarificationFacts} {payloadId : Uuid}
    {planned : ClarificationPayload} {defaults : ConstraintPatch} {option : ClarificationOption}
    (h : plan toUppercase catalog candidateIds facts payloadId = .clarify planned defaults)
    (hoption : option ∈ planned.options) (hother : option.id ≠ OTHER_CLARIFICATION_OPTION_ID) :
    planned.kind = .selectOption ∧ ∃ found, candidate catalog facts option.id = some found ∧
      option = candidateOption toUppercase planned.fields found := by
  unfold plan at h
  dsimp only at h
  split at h
  · split_ifs at h
    obtain ⟨rfl, -⟩ := ClarificationPlanResult.clarify.inj h
    cases hoption
  · obtain ⟨rfl, -⟩ := ClarificationPlanResult.clarify.inj h
    refine ⟨rfl, ?_⟩
    obtain hcandidate | hlast := List.mem_append.mp hoption
    · obtain ⟨found, hfound, rfl⟩ := List.mem_map.mp hcandidate
      obtain ⟨id, -, hid⟩ := List.mem_filterMap.mp hfound
      have hcapability := (candidate_capability hid).1
      refine ⟨found, ?_, rfl⟩
      simpa only [candidateOption, hcapability] using hid
    · obtain rfl := List.mem_singleton.mp hlast
      exact absurd rfl hother

/-- A plan without a question continues one of the candidates. -/
theorem plan_complete {toUppercase : Char → String} {catalog : KnowledgeCatalog}
    {candidateIds : List String} {facts : ClarificationFacts} {payloadId : Uuid}
    {capabilityId : String} {defaults : ConstraintPatch}
    (h : plan toUppercase catalog candidateIds facts payloadId = .complete capabilityId defaults) :
    capabilityId ∈ candidateIds := by
  unfold plan at h
  dsimp only at h
  split at h
  · rename_i single hsingle
    split_ifs at h
    obtain ⟨rfl, -⟩ := ClarificationPlanResult.complete.inj h
    have hmem : single ∈ candidateIds.filterMap (candidate catalog facts) := by
      rw [hsingle]
      exact List.mem_singleton_self single
    obtain ⟨id, hid, hcandidate⟩ := List.mem_filterMap.mp hmem
    rw [(candidate_capability hcandidate).1]
    exact hid
  · cases h

end Lemmas

end ClarificationPlanner

end FineractReports
