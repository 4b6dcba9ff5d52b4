import FineractReports.Execution.Clarification
import FineractReports.Execution.ParameterSource
import FineractReports.Knowledge.Validator

/-!
# The clarification planner against the binder

The planner decides by the id of an input whether it is missing, the binder by the
catalog's bindings. They agree on an input exactly when what the intent and the patch
state about the three ids the planner knows is what the binder finds a value from.
-/

namespace FineractReports.Execution

open ClarificationPlanner

/-- A capability planned and bound in one turn. -/
structure PlannedTurn where
  toLowercase : String → String
  toUppercase : Char → String
  catalog : KnowledgeCatalog
  capability : CapabilityKnowledge
  query : QueryKnowledge
  executable : executableCapability catalog capability.id = .ok capability
  approvedQuery : catalog.queries.find? (fun item => item.id = capability.queryId) = some query
  intent : AssistantIntent
  patch : ConstraintPatch
  extraction : Option DeterministicExtraction
  message : Option String
  ctx : Option EvaluationContext
  payloadId : Uuid

namespace PlannedTurn

variable (turn : PlannedTurn)

def plannerFacts : ClarificationFacts := clarificationFacts (some turn.intent) turn.patch

/-- The fields the planner asks for. -/
def reported : List ClarificationField :=
  match plan turn.toUppercase turn.catalog [turn.capability.id] turn.plannerFacts
    turn.payloadId with
  | .complete _ _ => []
  | .clarify payload _ => payload.fields

/-- The facts the binder works with. -/
def binderFacts : Facts :=
  requestFacts turn.toLowercase turn.message (some turn.intent) turn.extraction

/-- The input that asks for a required parameter of the query. -/
def Required (input : ParameterInputKnowledge) : Prop :=
  ∃ parameter ∈ turn.query.parameters, isAskable parameter = true ∧
    coveringInput turn.catalog.parameterInputs parameter = some input

def ReportsMissing (input : ParameterInputKnowledge) : Prop :=
  input.id ∈ turn.reported.map (·.key)

/-- A parameter the binder plans and the input covers. -/
def Covered (input : ParameterInputKnowledge) (parameter : QueryParameter) : Prop :=
  parameter ∈ turn.query.parameters ∧ filledAtExecution parameter = false ∧
    parameter.name ∈ input.parameters

/-- The binder finds no value for a parameter the input covers. -/
def LacksValue (input : ParameterInputKnowledge) : Prop :=
  ∃ parameter, turn.Covered input parameter ∧
    parameterValue turn.catalog turn.binderFacts turn.capability.parameterPolicies turn.ctx
      parameter = none

def Agrees : Prop :=
  ∀ input, turn.Required input → (turn.ReportsMissing input ↔ turn.LacksValue input)

/-- The default row limit of the capability, when its input allows it. -/
def defaults : ConstraintPatch :=
  limitDefault turn.capability turn.query
    (requiredInputs turn.query turn.catalog.parameterInputs)

/-- What the patch, or else the intent, states for a field. -/
def stated (field : ConstraintField) : Option TypedFactValue :=
  (Assoc.get? turn.patch field).or <|
    match field with
    | .fromDate => turn.intent.constraints.fromDate.map .date
    | .toDate => turn.intent.constraints.toDate.map .date
    | .limitMode => turn.intent.constraints.quantity.map fun quantity =>
        .limitMode (quantityFacts quantity).1
    | .limitValue => (turn.intent.constraints.quantity.bind fun quantity =>
        (quantityFacts quantity).2).map .integer
    | _ => none

/-- What the planner takes as known, for the three ids it has a rule for. -/
def PlannerKnows (inputId : String) : Prop :=
  match inputId with
  | "date_range" => isDate (turn.stated .fromDate) = true ∧ isDate (turn.stated .toDate) = true
  | "limit" =>
    isLimitMode ((turn.stated .limitMode).or (Assoc.get? turn.defaults .limitMode)) = true ∧
      isInteger ((turn.stated .limitValue).or (Assoc.get? turn.defaults .limitValue)) = true
  | "search" => isPersonName (Assoc.get? turn.patch .personName) = true
  | _ => False

/-- For every required input, the planner knows it exactly when every parameter it
covers has a source. -/
def KnowsTheSame : Prop :=
  ∀ input, turn.Required input →
    (turn.PlannerKnows input.id ↔
      ∀ parameter, turn.Covered input parameter → HasSource turn.catalog turn.binderFacts
        turn.capability.parameterPolicies turn.ctx parameter)

section Planner

variable {turn}

theorem fillGapSome_get? (facts : Facts) (gap field : ConstraintField)
    (value : Option TypedFactValue) :
    Assoc.get? (fillGapSome facts gap value) field =
      (Assoc.get? facts field).or (if gap = field then value else none) := by
  unfold fillGapSome
  cases value with
  | none => simp
  | some value => exact fillGap_get? facts gap field value

theorem plannerFacts_get? (field : ConstraintField) :
    Assoc.get? turn.plannerFacts field = turn.stated field := by
  unfold plannerFacts clarificationFacts stated
  simp only [fillGapSome_get?, Option.map_map, Option.bind_map]
  cases field <;> simp [Function.comp_def]

theorem inputSatisfied_iff (inputId : String) :
    inputSatisfied inputId turn.plannerFacts turn.defaults = true ↔
      turn.PlannerKnows inputId := by
  unfold inputSatisfied PlannerKnows factOr
  have hname : turn.stated .personName = Assoc.get? turn.patch .personName := by simp [stated]
  split <;> simp [plannerFacts_get?, hname]

theorem candidate_eq :
    candidate turn.catalog turn.plannerFacts turn.capability.id = some
      { capability := turn.capability
        missing := ((requiredInputs turn.query turn.catalog.parameterInputs).filter
          fun input => !inputSatisfied input.id turn.plannerFacts turn.defaults).map
            fun input => fieldFor input turn.plannerFacts turn.capability
        defaults := turn.defaults } := by
  have hcapability : turn.catalog.capabilities.find? (fun item =>
      item.id = turn.capability.id ∧ item.status = "approved_mvp") = some turn.capability :=
    okOr_eq_ok.mp turn.executable
  unfold candidate
  rw [hcapability]
  simp only [Option.bind_eq_bind, Option.bind_some, turn.approvedQuery]
  rfl

/-- The planner reports the ids of the required inputs it does not know. -/
theorem mem_reported_keys {id : String} :
    id ∈ turn.reported.map (·.key) ↔
      id ∈ (requiredInputs turn.query turn.catalog.parameterInputs).map (·.id) ∧
        ¬ turn.PlannerKnows id := by
  have hreported : turn.reported = ((requiredInputs turn.query
      turn.catalog.parameterInputs).filter
        fun input => !inputSatisfied input.id turn.plannerFacts turn.defaults).map
          fun input => fieldFor input turn.plannerFacts turn.capability := by
    unfold reported plan
    simp only [List.filterMap_cons, candidate_eq, List.filterMap_nil]
    split_ifs with hmissing
    · exact hmissing.symm
    · rfl
  rw [hreported, List.map_map]
  constructor
  · intro hmem
    obtain ⟨input, hinput, rfl⟩ := List.mem_map.mp hmem
    obtain ⟨hin, hunsatisfied⟩ := List.mem_filter.mp hinput
    refine ⟨List.mem_map_of_mem hin, ?_⟩
    rw [← inputSatisfied_iff]
    simpa [fieldFor] using hunsatisfied
  · rintro ⟨hmem, hunknown⟩
    obtain ⟨input, hin, rfl⟩ := List.mem_map.mp hmem
    rw [← inputSatisfied_iff] at hunknown
    exact List.mem_map.mpr ⟨input, List.mem_filter.mpr ⟨hin, by simpa using hunknown⟩, rfl⟩

theorem reportsMissing_iff {input : ParameterInputKnowledge} (h : turn.Required input) :
    turn.ReportsMissing input ↔ ¬ turn.PlannerKnows input.id := by
  unfold ReportsMissing
  rw [mem_reported_keys, mem_requiredInputs_ids]
  obtain ⟨parameter, hin, haskable, hcovering⟩ := h
  constructor
  · exact And.right
  · intro hunknown
    exact ⟨⟨parameter, hin, haskable, input, hcovering, rfl⟩, hunknown⟩

end Planner

theorem lacksValue_iff {input : ParameterInputKnowledge} :
    turn.LacksValue input ↔
      ¬ ∀ parameter, turn.Covered input parameter → HasSource turn.catalog turn.binderFacts
        turn.capability.parameterPolicies turn.ctx parameter := by
  unfold LacksValue
  push Not
  constructor
  · rintro ⟨parameter, hcovered, hnone⟩
    exact ⟨parameter, hcovered, parameterValue_eq_none.mp hnone⟩
  · rintro ⟨parameter, hcovered, hsource⟩
    exact ⟨parameter, hcovered, parameterValue_eq_none.mpr hsource⟩

end PlannedTurn

namespace NameLookup

open FineractReports.NameLookup (capability query searchInput catalog)

/-- The user names the client, and the extractor reads the name. -/
def namedTurn : PlannedTurn where
  toLowercase := Text.asciiLower
  toUppercase := fun c => String.singleton c.toUpper
  catalog := catalog
  capability := capability
  query := query
  executable := by decide
  approvedQuery := by decide
  intent :=
    { intent := .dataLookup
      domain := .client
      requestShape := capability.requestShape
      canonicalQueryEn := ""
      entities := []
      constraints := AssistantConstraints.empty
      source := none }
  patch := []
  extraction :=
    some { DeterministicExtraction.empty with entities := [⟨.personName, "Tony", none⟩] }
  message := some "Find client named Tony."
  ctx := none
  payloadId := 5

end NameLookup

end FineractReports.Execution
