import FineractReports.Execution.ParameterSource
import FineractReports.Execution.QueryRequest
import FineractReports.Workflow.SingleCapability

/-!
# The plan of a selected capability

The planner fills the parameters of the capability's query and resolves its recipe. The
workflow that runs the plan is compiled from what the plan knows.
-/

namespace FineractReports.Execution

open Workflow Dataset

section Planning

variable (toLowercase : String → String) (isDecimal : String → Bool) (catalog : KnowledgeCatalog)

/-- A metric the user named has to be one the capability declares. -/
def verifyCapabilityMetric (capabilityMetrics : List String)
    (extraction : Option DeterministicExtraction) : Except String Unit :=
  forSome (extraction.bind (·.constraints.metric)) fun metric =>
    forSome (catalog.resolveMetricId metric) fun requested =>
      failIf (¬ ∃ declared ∈ capabilityMetrics, catalog.resolveMetricId declared = some requested)
        ("selected capability does not match requested metric " ++ metric)

/-- The dataset selection of the planned capability. -/
def plannedSelection (capability : CapabilityKnowledge) (params : Json) :
    Except String (Option DatasetSelection) :=
  match capability.datasetRecipe with
  | none => .ok none
  | some recipe => do
    let dataset ← okOr (catalog.datasets.find? fun dataset => dataset.id = recipe.datasetId)
      "selected capability has no approved dataset"
    let selection ← resolveRecipe isDecimal dataset params recipe
    pure (some selection)

def planSelectedCapabilityVerified (capabilityId : String) (intent : AssistantIntent)
    (extraction : Option DeterministicExtraction) (ctx : Option EvaluationContext)
    (message : Option String) : Except String ExecutionPlan := do
  forSome (extraction.bind (·.temporalError)) fun error =>
    .error (error.code ++ ": " ++ error.message)
  let capability ← executableCapability catalog capabilityId
  verifyCapabilityMetric catalog capability.metrics extraction
  let query ← okOr (catalog.queries.find? fun item => item.id = capability.queryId)
    "selected capability has no approved query"
  let params ← paramsFromVerified toLowercase catalog query intent extraction
    capability.parameterPolicies ctx message
  let datasetSelection ← plannedSelection isDecimal catalog capability (.obj params)
  pure
    { domain := capability.domain
      capability := capability.id
      queryId := query.id
      datasetSelection := datasetSelection
      outputMode := capability.outputMode
      params := .obj params }

end Planning

/-- The values of a plan that reach the data executor beside the workflow. -/
def resolvedParams (plan : ExecutionPlan) : Bindings :=
  match plan.params with
  | .obj members => members.filter fun member => member.2.isNull = false
  | _ => []

/-- The fields the plan has values for, which open the compiler's acquisition gate. -/
def planFacts (catalog : KnowledgeCatalog) (plan : ExecutionPlan) : AcquisitionFacts where
  deterministic :=
    ((resolvedParams plan).flatMap fun member => catalog.bindingFields member.1).dedup
  verifiedUser := []
  safePrior := []
  priorSteps := []

/-! ### No planned value is null -/

section Values

variable {catalog : KnowledgeCatalog} {facts : Facts} {policies : List ParameterPolicy}
  {ctx : Option EvaluationContext} {parameter : QueryParameter} {value : Json}

theorem bindText_isNull {kind text : String} (h : bindText kind text = some value) :
    value.isNull = false := by
  unfold bindText at h
  split_ifs at h
  · obtain ⟨number, -, rfl⟩ := Option.map_eq_some_iff.mp h
    rfl
  · cases h
    rfl

theorem bindValue_isNull {kind : String} {fact : TypedFactValue}
    (h : bindValue kind fact = some value) : value.isNull = false := by
  cases fact with
  | integer number | clientId number =>
    cases h
    rfl
  | idList operation =>
    cases operation with
    | replace ids =>
      simp only [bindValue] at h
      split_ifs at h
      · obtain ⟨number, -, rfl⟩ := Option.map_eq_some_iff.mp h
        rfl
      · cases h
        rfl
    | _ => cases h
  | clear | limitMode _ | domain _ => cases h
  | _ => exact bindText_isNull h

theorem givenBy_isNull (h : GivenBy catalog facts policies ctx parameter value) :
    value.isNull = false := by
  cases h with
  | fact _ hconverts _ =>
    obtain ⟨fact, -, hvalue⟩ := hconverts
    exact bindValue_isNull hvalue
  | policyDefault _ hdefault =>
    obtain ⟨turnCtx, -, default, -, -, -, -, rfl⟩ := hdefault
    cases default.evaluate turnCtx <;> rfl
  | rowLimit => rfl

theorem clampHardCaps_isNull {params : Params}
    (h : ∀ member ∈ params, member.2.isNull = false) :
    ∀ member ∈ clampHardCaps params policies, member.2.isNull = false := by
  unfold clampHardCaps
  induction policies generalizing params with
  | nil => exact h
  | cons policy rest ih =>
    refine ih fun member hmember => ?_
    unfold clampHardCap at hmember
    split at hmember
    · split_ifs at hmember
      · obtain rfl | hin := Assoc.mem_insert hmember
        · rfl
        · exact h member hin
      · exact h member hmember
    · exact h member hmember

theorem fillParameters_isNull {valueOf : QueryParameter → Option Json} {params out : Params}
    {parameters : List QueryParameter}
    (hvalues : ∀ parameter value, valueOf parameter = some value → value.isNull = false)
    (hparams : ∀ member ∈ params, member.2.isNull = false)
    (h : fillParameters valueOf params parameters = .ok out) :
    ∀ member ∈ out, member.2.isNull = false := by
  induction parameters generalizing params with
  | nil =>
    cases h
    exact hparams
  | cons parameter rest ih =>
    unfold fillParameters at h
    by_cases hfilled : filledAtExecution parameter = true
    · rw [if_pos hfilled] at h
      exact ih hparams h
    · rw [if_neg hfilled] at h
      cases hvalue : valueOf parameter with
      | some filled =>
        rw [hvalue] at h
        refine ih (fun member hmember => ?_) h
        obtain rfl | hin := Assoc.mem_insert hmember
        · exact hvalues parameter filled hvalue
        · exact hparams member hin
      | none =>
        simp only [hvalue] at h
        split_ifs at h
        exact ih hparams h

variable {toLowercase : String → String} {query : QueryKnowledge} {intent : AssistantIntent}
  {extraction : Option DeterministicExtraction} {message : Option String} {params : Params}

theorem paramsFromVerified_isNull (h : paramsFromVerified toLowercase catalog query intent
    extraction policies ctx message = .ok params) :
    ∀ member ∈ params, member.2.isNull = false := by
  unfold paramsFromVerified at h
  simp only [bind_eq_ok_iff, pure_eq_ok] at h
  obtain ⟨filled, hfilled, rfl⟩ := h
  refine clampHardCaps_isNull (fillParameters_isNull ?_ (by simp) hfilled)
  intro parameter value hvalue
  exact givenBy_isNull (parameterValue_eq_some.mp hvalue)

end Values

end FineractReports.Execution
