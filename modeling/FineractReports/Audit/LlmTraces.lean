import FineractReports.Assistant.Clarification
import FineractReports.Library.Text

/-!
# Traces of language model calls

A client that a job talks to the language model through leaves a row for each call: what the
provider reported for it when it succeeds, and no usage at all when it fails. A structured call
whose answer cannot be decoded leaves a second row. A row that cannot be stored is lost, and the
caller of the model is told nothing of it.
-/

namespace FineractReports.Llm

inductive LlmPurpose where
  | routeIntent
  | routeEmbedding
  | clarificationEmbedding
  | clarificationResolve
  | evidenceRetrieval
  | responseBuild
  | workflowPlanning
  | test
deriving DecidableEq

def LlmPurpose.display : LlmPurpose → String
  | .routeIntent => "route_intent"
  | .routeEmbedding => "route_embedding"
  | .clarificationEmbedding => "clarification_embedding"
  | .clarificationResolve => "clarification_resolve"
  | .evidenceRetrieval => "evidence_retrieval"
  | .responseBuild => "response_build"
  | .workflowPlanning => "workflow_planning"
  | .test => "test"

/-- An error with what it says itself and what its causes say, the nearest cause first. -/
structure Error where
  message : String
  causes : List String
deriving DecidableEq

structure TokenUsage where
  inputTokens : Option Int32
  outputTokens : Option Int32
deriving DecidableEq

def TokenUsage.providerReported (inputTokens outputTokens : Int32) : TokenUsage :=
  ⟨some inputTokens, some outputTokens⟩

def TokenUsage.isProviderReported (usage : TokenUsage) : Bool :=
  usage.inputTokens.isSome && usage.outputTokens.isSome

def TokenUsage.totalTokens (usage : TokenUsage) : Option Int32 :=
  usage.inputTokens.bind fun input => usage.outputTokens.map fun output => input + output

/-- What the model answered; the value of an embedding call is its vector. -/
structure LlmResponse (F V : Type) where
  value : V
  usage : TokenUsage
  costUsd : Option F
  provider : String
  model : String
  latencyMs : Int32

inductive LlmTraceErrorCode where
  | providerUnavailable | providerTimeout | providerMalformed | unknown
deriving DecidableEq

def LlmTraceErrorCode.asStr : LlmTraceErrorCode → String
  | .providerUnavailable => "provider_unavailable"
  | .providerTimeout => "provider_timeout"
  | .providerMalformed => "provider_malformed"
  | .unknown => "unknown"

inductive LlmTraceUsageStatus where
  | providerReported | estimated | unavailable
deriving DecidableEq

def LlmTraceUsageStatus.asStr : LlmTraceUsageStatus → String
  | .providerReported => "provider_reported"
  | .estimated => "estimated"
  | .unavailable => "unavailable"

/-- Whose call it is. -/
structure LlmTraceContext where
  jobId : Option Uuid
  sessionId : Option Uuid
  userId : Uuid
  legacyApiKeyId : Option Uuid
  graphState : Option String
  correlationId : Option Uuid
  contextContractVersion : Option ℕ
  catalogVersionId : Option Uuid
  indexVersionId : Option Uuid
deriving DecidableEq

structure LlmTrace (F : Type) where
  context : LlmTraceContext
  purpose : String
  provider : String
  model : String
  inputTokens : Option Int32
  outputTokens : Option Int32
  usageStatus : LlmTraceUsageStatus
  costUsd : Option F
  priceVersion : Option String
  costCurrency : Option String
  latencyMs : Int32
  status : String
  errorKind : Option String
  errorCode : Option LlmTraceErrorCode

/-- A row of `assistant_llm_traces`. -/
structure LlmTraceRecord where
  id : Uuid
  context : LlmTraceContext
  purpose : String
  provider : String
  model : String
  inputTokens : Option Int32
  outputTokens : Option Int32
  totalTokens : Option Int32
  usageStatus : String
  costUsd : Option ℚ
  priceVersion : Option String
  costCurrency : Option String
  latencyMs : Int32
  status : String
  errorKind : Option String
  errorCode : Option String
  createdAt : ℤ
deriving DecidableEq

/-- The row that `record` inserts. `decimal` is the amount the column takes from a number. -/
def record {F : Type} (decimal : F → Option ℚ) (id : Uuid) (createdAt : ℤ) (trace : LlmTrace F) :
    Except String LlmTraceRecord := do
  let (inputTokens, outputTokens, totalTokens) ← match trace.usageStatus with
    | .unavailable => pure (none, none, none)
    | .providerReported | .estimated =>
      match trace.inputTokens, trace.outputTokens with
      | some input, some output => pure (some input, some output, some (input + output))
      | _, _ => throw "reported LLM usage requires both token counts"
  pure {
    id := id
    context := trace.context
    purpose := trace.purpose
    provider := trace.provider
    model := trace.model
    inputTokens := inputTokens
    outputTokens := outputTokens
    totalTokens := totalTokens
    usageStatus := trace.usageStatus.asStr
    costUsd := trace.costUsd.bind decimal
    priceVersion := trace.priceVersion
    costCurrency := trace.costCurrency
    latencyMs := trace.latencyMs
    status := trace.status
    errorKind := trace.errorKind
    errorCode := trace.errorCode.map LlmTraceErrorCode.asStr
    createdAt := createdAt }

/-! ### The traced client -/

section Traced

variable {F V : Type} (lower : String → String)

def classifyStatus (error : Error) : String :=
  let message := lower error.message
  if Text.contains message "timeout" || Text.contains message "timed out" then "timeout"
  else if Text.contains message "malformed" || Text.contains message "schema mismatch" ||
      Text.contains message "parse structured" then "malformed"
  else "error"

def normalizeErrorCode (error : Error) : Option LlmTraceErrorCode :=
  match classifyStatus lower error with
  | "timeout" => some .providerTimeout
  | "malformed" => some .providerMalformed
  | _ => none

def usageStatus (usage : TokenUsage) : LlmTraceUsageStatus :=
  if usage.isProviderReported then .providerReported else .unavailable

/-- The trace of a call that succeeded. -/
def successTrace (context : LlmTraceContext) (purpose : LlmPurpose)
    (response : LlmResponse F V) : LlmTrace F where
  context := context
  purpose := purpose.display
  provider := response.provider
  model := response.model
  inputTokens := response.usage.inputTokens
  outputTokens := response.usage.outputTokens
  usageStatus := usageStatus response.usage
  costUsd := response.costUsd
  priceVersion := response.costUsd.map fun _ => "static_config_v1"
  costCurrency := response.costUsd.map fun _ => "USD"
  latencyMs := response.latencyMs
  status := "ok"
  errorKind := none
  errorCode := none

/-- The trace of a call that came to nothing. -/
def failureTrace (context : LlmTraceContext) (purpose : LlmPurpose) (provider model : String)
    (status errorKind : String) (errorCode : Option LlmTraceErrorCode) : LlmTrace F where
  context := context
  purpose := purpose.display
  provider := provider
  model := model
  inputTokens := none
  outputTokens := none
  usageStatus := .unavailable
  costUsd := none
  priceVersion := none
  costCurrency := none
  latencyMs := 0
  status := status
  errorKind := some errorKind
  errorCode := errorCode

/-- The client under the traces: what it says of itself. -/
structure InnerClient where
  llmMetadata : String × String
  embeddingMetadata : String × String

/-- A call of the traced client and what the client under it answered. -/
inductive LlmCall (F : Type) where
  | structuredValue (purpose : LlmPurpose) (result : Except Error (LlmResponse F Json))
  | embed (purpose : LlmPurpose) (result : Except Error (LlmResponse F (List F)))
  | recordMalformed (purpose : LlmPurpose) (error : String)

/-- The trace of a call; a client without a context leaves none. -/
def LlmCall.trace (inner : InnerClient) (context : Option LlmTraceContext) :
    LlmCall F → Option (LlmTrace F)
  | .structuredValue purpose (.ok response) =>
    context.map fun context => successTrace context purpose response
  | .structuredValue purpose (.error error) => context.map fun context =>
    failureTrace context purpose inner.llmMetadata.1 inner.llmMetadata.2
      (classifyStatus lower error) error.message (normalizeErrorCode lower error)
  | .embed purpose (.ok response) =>
    context.map fun context => successTrace context purpose response
  | .embed purpose (.error error) => context.map fun context =>
    failureTrace context purpose inner.embeddingMetadata.1 inner.embeddingMetadata.2
      (classifyStatus lower error) error.message (normalizeErrorCode lower error)
  | .recordMalformed purpose error => context.map fun context =>
    failureTrace context purpose inner.llmMetadata.1 inner.llmMetadata.2 "malformed" error
      (some .providerMalformed)

end Traced

/-! ### Decoded answers -/

section Structured

variable {F T : Type} (deserialize : Json → Except String T)

/-- Decodes an answer, or the one value of an object that wraps it. -/
def decodeStructured (value : Json) : Except Error T :=
  match deserialize value with
  | .ok decoded => .ok decoded
  | .error primaryError =>
    let unwrapped := match value with
      | .obj [(_, inner)] => (deserialize inner).toOption
      | _ => none
    match unwrapped with
    | some decoded => .ok decoded
    | none => .error ⟨s!"structured LLM response schema mismatch: {primaryError}", []⟩

/-- A structured call: the calls it makes of the client, and the answer. -/
def structured (purpose : LlmPurpose) (result : Except Error (LlmResponse F Json)) :
    List (LlmCall F) × Except Error (LlmResponse F T) :=
  match result with
  | .error error => ([.structuredValue purpose result], .error error)
  | .ok response =>
    match decodeStructured deserialize response.value with
    | .ok value => ([.structuredValue purpose result],
        .ok ⟨value, response.usage, response.costUsd, response.provider, response.model,
          response.latencyMs⟩)
    | .error error =>
      ([.structuredValue purpose result, .recordMalformed purpose error.message], .error error)

/-- A structured call leaves one trace, and a second one when its answer cannot be decoded. -/
theorem structured_traces {lower : String → String} {inner : InnerClient}
    {context : LlmTraceContext} {purpose : LlmPurpose}
    {result : Except Error (LlmResponse F Json)} :
    ((structured deserialize purpose result).1.filterMap
        (LlmCall.trace lower inner (some context))).length =
      1 + (result.toOption.filter fun response =>
        (decodeStructured deserialize response.value).toOption.isNone).toList.length := by
  cases result with
  | error error => rfl
  | ok response =>
    cases hdecode : decodeStructured deserialize response.value with
    | ok value =>
      simp [structured, hdecode, LlmCall.trace, Except.toOption, Option.filter]
    | error error =>
      simp [structured, hdecode, LlmCall.trace, Except.toOption, Option.filter]

end Structured

/-! ### The rows of all calls -/

section Rows

variable {F V : Type} {lower : String → String} {decimal : F → Option ℚ}
  {rows : List LlmTraceRecord} {row : LlmTraceRecord}

/-- One more row is stored, for a call of any client; calls may overlap. -/
inductive TraceStep (lower : String → String) (decimal : F → Option ℚ) :
    List LlmTraceRecord → List LlmTraceRecord → Prop
  | stored {rows : List LlmTraceRecord} {row : LlmTraceRecord} {trace : LlmTrace F}
      (inner : InnerClient) (context : Option LlmTraceContext) (call : LlmCall F) (id : Uuid)
      (createdAt : ℤ) (htrace : call.trace lower inner context = some trace)
      (hrow : record decimal id createdAt trace = .ok row) :
      TraceStep lower decimal rows (rows ++ [row])

/-- The table as the program leaves it, from an empty one. -/
def Traced (lower : String → String) (decimal : F → Option ℚ) (rows : List LlmTraceRecord) : Prop :=
  Relation.ReflTransGen (TraceStep lower decimal) [] rows

/-- What every row says of its call: usage is reported in full or not at all, a call that failed
reports none, and every cost is priced the same way. -/
structure LlmTraceRecord.Coherent (row : LlmTraceRecord) : Prop where
  usage : (row.usageStatus = "unavailable" ∧ row.inputTokens = none ∧ row.outputTokens = none ∧
      row.totalTokens = none) ∨
    ∃ input output, row.usageStatus = "provider_reported" ∧ row.inputTokens = some input ∧
      row.outputTokens = some output ∧ row.totalTokens = some (input + output)
  failed : row.status ≠ "ok" → row.usageStatus = "unavailable"
  priced : (row.costUsd = none ∧ row.costCurrency = none ∧ row.priceVersion = none) ∨
    row.costCurrency = some "USD" ∧ row.priceVersion = some "static_config_v1"

/-- The tokens of a call fit into the integer that counts them. -/
def LlmTraceRecord.Fits (row : LlmTraceRecord) : Prop :=
  ∀ input ∈ row.inputTokens, ∀ output ∈ row.outputTokens,
    -2 ^ 31 ≤ input.toInt + output.toInt ∧ input.toInt + output.toInt < 2 ^ 31

theorem record_successTrace {id : Uuid} {createdAt : ℤ} {context : LlmTraceContext}
    {purpose : LlmPurpose} {response : LlmResponse F V}
    (h : record decimal id createdAt (successTrace context purpose response) = .ok row) :
    row.Coherent := by
  obtain ⟨value, ⟨inputTokens, outputTokens⟩, costUsd, provider, model, latencyMs⟩ := response
  have hpriced : ∀ cost : Option F, (cost.bind decimal = none ∧ cost.map (fun _ => "USD") = none ∧
        cost.map (fun _ => "static_config_v1") = none) ∨
      cost.map (fun _ => "USD") = some "USD" ∧
        cost.map (fun _ => "static_config_v1") = some "static_config_v1" := by
    intro cost
    cases cost with
    | none => exact .inl ⟨rfl, rfl, rfl⟩
    | some cost => exact .inr ⟨rfl, rfl⟩
  cases inputTokens with
  | none =>
    obtain rfl := Except.ok.inj h
    exact ⟨.inl ⟨rfl, rfl, rfl, rfl⟩, fun _ => rfl, hpriced costUsd⟩
  | some input =>
    cases outputTokens with
    | none =>
      obtain rfl := Except.ok.inj h
      exact ⟨.inl ⟨rfl, rfl, rfl, rfl⟩, fun _ => rfl, hpriced costUsd⟩
    | some output =>
      obtain rfl := Except.ok.inj h
      exact ⟨.inr ⟨input, output, rfl, rfl, rfl, rfl⟩, fun hne => absurd rfl hne, hpriced costUsd⟩

theorem record_failureTrace {id : Uuid} {createdAt : ℤ} {context : LlmTraceContext}
    {purpose : LlmPurpose} {provider model status errorKind : String}
    {errorCode : Option LlmTraceErrorCode}
    (h : record decimal id createdAt
      (failureTrace context purpose provider model status errorKind errorCode) = .ok row) :
    row.Coherent := by
  obtain rfl := Except.ok.inj h
  exact ⟨.inl ⟨rfl, rfl, rfl, rfl⟩, fun _ => rfl, .inl ⟨rfl, rfl, rfl⟩⟩

theorem LlmCall.coherent {inner : InnerClient} {context : Option LlmTraceContext}
    {call : LlmCall F} {trace : LlmTrace F} {id : Uuid} {createdAt : ℤ}
    (htrace : call.trace lower inner context = some trace)
    (hrow : record decimal id createdAt trace = .ok row) : row.Coherent := by
  cases call with
  | structuredValue purpose result =>
    cases result with
    | ok response =>
      obtain ⟨context, -, rfl⟩ := Option.map_eq_some_iff.mp htrace
      exact record_successTrace hrow
    | error error =>
      obtain ⟨context, -, rfl⟩ := Option.map_eq_some_iff.mp htrace
      exact record_failureTrace hrow
  | embed purpose result =>
    cases result with
    | ok response =>
      obtain ⟨context, -, rfl⟩ := Option.map_eq_some_iff.mp htrace
      exact record_successTrace hrow
    | error error =>
      obtain ⟨context, -, rfl⟩ := Option.map_eq_some_iff.mp htrace
      exact record_failureTrace hrow
  | recordMalformed purpose error =>
    obtain ⟨context, -, rfl⟩ := Option.map_eq_some_iff.mp htrace
    exact record_failureTrace hrow

/-- However the calls of all clients interleave, every row that is stored is coherent. -/
theorem Traced.coherent (h : Traced lower decimal rows) : ∀ row ∈ rows, row.Coherent := by
  induction h with
  | refl => simp
  | tail _ step ih =>
    cases step with
    | stored inner context call id createdAt htrace hrow =>
      intro row hmem
      rcases List.mem_append.mp hmem with hold | hnew
      · exact ih row hold
      · obtain rfl := List.mem_singleton.mp hnew
        exact call.coherent htrace hrow

end Rows

end FineractReports.Llm
