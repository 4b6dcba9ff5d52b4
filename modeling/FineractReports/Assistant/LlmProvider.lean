import FineractReports.Audit.LlmTraces
import FineractReports.Library.BinaryRounding
import FineractReports.Library.Checks
import FineractReports.Library.Retry

/-!
# Requests to the language model

A structured call sends its request again while the provider is overloaded, with growing waits
and within a budget of time; a provider that rejects the schema is asked once more for a plain
object. Times are in nanoseconds.
-/

namespace FineractReports.Llm

open BinaryNumber

/-- A double-precision number. -/
abbrev F64 : Type := BinaryNumber binary64

def RETRY_BASE_DELAY_MS : ℕ := 500
def RETRY_MAX_DELAY : ℕ := 8 * 10 ^ 9
def RETRY_BUDGET : ℕ := 45 * 10 ^ 9
def RETRY_JITTER_RATIO : F64 := nearest (1 / 4)

/-! ### Waits -/

/-- The seconds of a duration, its parts rounded on their own. -/
def asSecsF64 (duration : ℕ) : F64 :=
  nearest (duration / 10 ^ 9 : ℕ) + nearest (duration % 10 ^ 9 : ℕ) / nearest (10 ^ 9 : ℕ)

/-- The duration next to a number of seconds. -/
def fromSecsF64 (secs : F64) : ℕ := (roundEven (secs.value * 10 ^ 9)).toNat

def mulF64 (duration : ℕ) (factor : F64) : ℕ := fromSecsF64 (factor * asSecsF64 duration)

def retryDelay (attempt : ℕ) (retryAfter : Option ℕ) (jitter : F64) : ℕ :=
  let base := retryAfter.getD ((RETRY_BASE_DELAY_MS <<< min attempt 5) * 10 ^ 6)
  mulF64 (min base RETRY_MAX_DELAY)
    (nearest 1 + RETRY_JITTER_RATIO * max 0 (min (nearest 1) jitter))

/-! ### Failures that may pass -/

/-- The first number of three digits in a text. -/
def statusIn (message : String) : Option ℕ :=
  (message.toList.splitOnP fun c => !c.isDigit).findSome? fun token =>
    if token.length = 3 then Text.parseDigits token else none

def statusCode (error : Error) : Option ℕ := (error.message :: error.causes).findSome? statusIn

def isTransientStatus (status : ℕ) : Bool := status ∈ [429, 500, 502, 503, 504]

def isTransientError (error : Error) : Bool :=
  (statusCode error).any isTransientStatus ||
    Text.contains (Text.asciiLower error.message) "timeout" ||
    Text.contains (Text.asciiLower error.message) "connection"

/-! ### One request and its retries -/

/-- What a loop of requests meets: the outcome of each, when it is looked at and the jitter of
the wait behind it. The clock goes on by at least the time that is slept. -/
structure Exchange (α : Type) where
  startedAt : ℕ
  outcome : ℕ → Except Error α
  checkedAt : ℕ → ℕ
  jitter : ℕ → F64
  starts : startedAt ≤ checkedAt 0
  sleeps : ∀ i, checkedAt i + retryDelay i none (jitter i) ≤ checkedAt (i + 1)

def Exchange.attempt {α : Type} (exchange : Exchange α) (i : ℕ) : Attempt Error α where
  outcome := exchange.outcome i
  checkedAt := exchange.checkedAt i
  wait := retryDelay i none (exchange.jitter i)

def labelled (label : String) (error : Error) : Error := ⟨label ++ ": " ++ error.message, []⟩

def sendWithRetry {α : Type} (maxRetries : ℕ) (label : String) (exchange : Exchange α) :
    Retried Error α :=
  let deadline := exchange.startedAt + RETRY_BUDGET
  let sent := retryFrom isTransientError maxRetries deadline exchange.attempt 0
  { sent with result := mapError (labelled label) sent.result }

/-! ### A structured call -/

structure LlmConfig where
  provider : String
  apiKey : String
  model : String
  maxRetries : ℕ
deriving DecidableEq

structure ProviderStructuredResponse where
  content : String
  inputTokens : ℕ
  outputTokens : ℕ
deriving DecidableEq

/-- Counts beyond a 32-bit integer, and two zeros, are no usage. -/
def tokenUsage (inputTokens outputTokens : ℕ) : TokenUsage :=
  if inputTokens < 2 ^ 31 ∧ outputTokens < 2 ^ 31 ∧ (0 < inputTokens ∨ 0 < outputTokens) then
    .providerReported (Int32.ofNat inputTokens) (Int32.ofNat outputTokens)
  else ⟨none, none⟩

/-- An object with one member stands for that member. -/
def parseStructuredContent (parse : String → Except String Json) (content : String) :
    Except Error Json :=
  match parse content with
  | .error error => .error ⟨s!"malformed structured LLM JSON: {error}", []⟩
  | .ok (.obj [(_, value)]) => .ok value
  | .ok (.obj members) => .ok (.obj members)
  | .ok (.arr items) => .ok (.arr items)
  | .ok _ => .error ⟨"malformed structured LLM JSON: expected object or array", []⟩

/-- A structured call with the requests it sends, by response format. -/
structure ProviderCall (F : Type) where
  schemaSends : ℕ
  fallbackSends : ℕ
  result : Except Error (LlmResponse F Json)

section Call

variable {F : Type} (parse : String → Except String Json)
  (price : LlmConfig → TokenUsage → Option F)

/-- The answer that a response is read as; `price` is the cost of a usage that has a total. -/
def structuredResponse (config : LlmConfig) (latencyMs : Int32)
    (response : ProviderStructuredResponse) : Except Error (LlmResponse F Json) := do
  let value ← parseStructuredContent parse response.content
  let usage := tokenUsage response.inputTokens response.outputTokens
  let costUsd := usage.totalTokens.bind fun _ => price config usage
  pure ⟨value, usage, costUsd, config.provider, config.model, latencyMs⟩

/-- `schema` tells whether the schema of the answer could be read. -/
def structuredValue (config : LlmConfig) (schema : Except Error Unit)
    (structured fallback : Exchange ProviderStructuredResponse) (latencyMs : Int32) :
    ProviderCall F :=
  if Text.isBlank config.apiKey then
    ⟨0, 0, .error ⟨"LLM_API_KEY is required for semantic routing", []⟩⟩
  else match schema with
    | .error error => ⟨0, 0, .error ⟨"parse LLM JSON schema", error.message :: error.causes⟩⟩
    | .ok () =>
      let sent := sendWithRetry config.maxRetries "send structured LLM request" structured
      match sent.result with
      | .ok response => ⟨sent.sends, 0, structuredResponse parse price config latencyMs response⟩
      | .error error =>
        if statusCode error = some 400 then
          let resent := sendWithRetry config.maxRetries
            "send structured LLM json_object fallback" fallback
          ⟨sent.sends, resent.sends,
            resent.result.bind (structuredResponse parse price config latencyMs)⟩
        else ⟨sent.sends, 0, .error error⟩

end Call

/-! ### The waits grow -/

section Waits

variable {attempt : ℕ} {jitter : F64}

/-- The shortest wait behind an attempt. -/
def leastWait (attempt : ℕ) : ℕ :=
  min ((RETRY_BASE_DELAY_MS <<< min attempt 5) * 10 ^ 6) RETRY_MAX_DELAY

theorem jitter_bounds (jitter : F64) :
    nearest 1 ≤ nearest 1 + RETRY_JITTER_RATIO * max 0 (min (nearest 1) jitter) ∧
      nearest 1 + RETRY_JITTER_RATIO * max 0 (min (nearest 1) jitter) ≤ nearest (5 / 4) := by
  have hratio : (0 : F64) ≤ RETRY_JITTER_RATIO := nearest_nonneg (by norm_num)
  have hleast : (0 : F64) ≤ max 0 (min (nearest 1) jitter) := le_max_left _ _
  have hmost : max 0 (min (nearest 1) jitter) ≤ nearest 1 :=
    max_le (nearest_nonneg zero_le_one) (min_le_left _ _)
  have hend : nearest 1 + RETRY_JITTER_RATIO * nearest 1 = (nearest (5 / 4) : F64) :=
    ext (by decide +kernel)
  refine ⟨le_add_of_nonneg (mul_nonneg hratio hleast), ?_⟩
  rw [← hend]
  exact add_mono le_rfl (nearest_mono (mul_le_mul_of_nonneg_left (α := ℚ) hmost hratio))

/-- The waits before jitter are exact in double precision, and so is a quarter more. -/
theorem leastWait_exact : ∀ step < 6,
    (asSecsF64 (leastWait step)).value * 10 ^ 9 = ((leastWait step : ℤ) : ℚ) ∧
      ((nearest (5 / 4) : F64) * asSecsF64 (leastWait step)).value * 10 ^ 9 =
        (((leastWait step + leastWait step / 4 : ℕ) : ℤ) : ℚ) := by
  decide +kernel

theorem leastWait_min : leastWait (min attempt 5) = leastWait attempt := by
  rw [leastWait, min_assoc, min_self, leastWait]

/-- Jitter makes a wait longer by a quarter at most, and never shorter. -/
theorem retryDelay_bounds : leastWait attempt ≤ retryDelay attempt none jitter ∧
    retryDelay attempt none jitter ≤ leastWait attempt + leastWait attempt / 4 := by
  obtain ⟨hleast, hmost⟩ := jitter_bounds jitter
  obtain ⟨hexact, hquarter⟩ := leastWait_exact (min attempt 5) (by omega)
  rw [leastWait_min] at hexact hquarter
  have hpos : (0 : F64) ≤ asSecsF64 (leastWait attempt) := by
    have hscaled : (0 : ℚ) ≤ (asSecsF64 (leastWait attempt)).value * 10 ^ 9 := by
      rw [hexact, Int.cast_natCast]
      exact Nat.cast_nonneg _
    exact nonneg_of_mul_nonneg_left hscaled (by positivity)
  have hone : nearest 1 * asSecsF64 (leastWait attempt) = asSecsF64 (leastWait attempt) := by
    have hvalue : (nearest 1 : F64).value = 1 := by decide +kernel
    exact (congrArg nearest (by rw [hvalue, one_mul])).trans (nearest_value _)
  have hlower : (asSecsF64 (leastWait attempt)).value ≤ _ :=
    hone.symm.le.trans (mul_mono hpos hleast)
  have hupper : _ ≤ ((nearest (5 / 4) : F64) * asSecsF64 (leastWait attempt)).value :=
    mul_mono hpos hmost
  have hdelay : retryDelay attempt none jitter = mulF64 (leastWait attempt)
      (nearest 1 + RETRY_JITTER_RATIO * max 0 (min (nearest 1) jitter)) := rfl
  rw [hdelay, mulF64, fromSecsF64]
  constructor
  · have hround : ((leastWait attempt : ℕ) : ℤ) ≤ roundEven _ :=
      le_roundEven (hexact.symm.le.trans (mul_le_mul_of_nonneg_right hlower (by positivity)))
    omega
  · have hround : roundEven _ ≤ ((leastWait attempt + leastWait attempt / 4 : ℕ) : ℤ) :=
      roundEven_le ((mul_le_mul_of_nonneg_right hupper (by positivity)).trans hquarter.le)
    omega

/-- The first nine waits do not fit into the budget. -/
theorem nine_waits : RETRY_BUDGET < ((List.range 9).map leastWait).sum := by decide

end Waits

/-! ### The requests of a call -/

section Requests

variable {α : Type}

/-- What the requests of a loop keep to: nine of them at most, however many retries are
configured, each one behind a failure that may pass, and the waits within the budget. -/
structure Exchange.Bounded (exchange : Exchange α) (maxRetries sends : ℕ) : Prop where
  sends_pos : 0 < sends
  sends_le : sends ≤ min maxRetries 8 + 1
  slept_le : slept exchange.attempt (sends - 1) ≤ RETRY_BUDGET
  retried : ∀ i, i + 1 < sends →
    ∃ error, exchange.outcome i = .error error ∧ isTransientError error
  ended : ∀ error, exchange.outcome (sends - 1) = .error error → isTransientError error →
    maxRetries < sends ∨ exchange.startedAt + RETRY_BUDGET <
      exchange.checkedAt (sends - 1) + (exchange.attempt (sends - 1)).wait

theorem Exchange.clocked (exchange : Exchange α) :
    Clocked exchange.startedAt exchange.attempt :=
  ⟨exchange.starts, exchange.sleeps⟩

theorem sendWithRetry_spec (maxRetries : ℕ) (label : String) (exchange : Exchange α) :
    exchange.Bounded maxRetries (sendWithRetry maxRetries label exchange).sends ∧
      (sendWithRetry maxRetries label exchange).result = mapError (labelled label)
        (exchange.outcome ((sendWithRetry maxRetries label exchange).sends - 1)) := by
  have hof : (retryFrom isTransientError maxRetries (exchange.startedAt + RETRY_BUDGET)
      exchange.attempt 0).Of isTransientError maxRetries (exchange.startedAt + RETRY_BUDGET)
      exchange.attempt 0 := retryFrom_of
  have hslept := hof.slept_le exchange.clocked (Nat.le_add_right _ _)
  refine ⟨⟨hof.first_lt, ?_, Nat.le_of_add_le_add_left hslept, fun i hi =>
    (hof.before i i.zero_le hi).2, fun error herror => ?_⟩, ?_⟩
  · exact hof.sends_le_of_waits exchange.clocked (Nat.le_add_right _ _)
      (fun i => retryDelay_bounds.1) (Nat.add_lt_add_left nine_waits _)
  · exact hof.ended error (hof.result.trans herror)
  · exact congrArg (mapError (labelled label)) hof.result

end Requests

section Status

/-- A text without digits in front hides no status. -/
theorem findSome?_splitOnP {front : List Char} (h : ∀ c ∈ front, c.isDigit = false)
    (text : List Char) {read : List Char → Option ℕ} (hread : read [] = none) :
    ((front ++ text).splitOnP fun c => !c.isDigit).findSome? read =
      (text.splitOnP fun c => !c.isDigit).findSome? read := by
  induction front with
  | nil => rfl
  | cons c front ih =>
    obtain ⟨hc, hrest⟩ := List.forall_mem_cons.mp h
    rw [List.cons_append, List.splitOnP_cons_eq_if_modifyHead, if_pos (by simp [hc]),
      List.findSome?_cons, hread, ih hrest]

/-- The status of a failed loop is that of its last failure, by what the failure says itself. -/
theorem statusCode_labelled {label : String} (h : ∀ c ∈ label.toList, c.isDigit = false)
    (error : Error) : statusCode (labelled label error) = statusIn error.message := by
  have hlabel : ∀ c ∈ (label ++ ": ").toList, c.isDigit = false := by
    intro c hc
    rw [String.toList_append, List.mem_append] at hc
    rcases hc with hold | hnew
    · exact h c hold
    · have hcolon : ∀ c ∈ ": ".toList, c.isDigit = false := by simp
      exact hcolon c hnew
  have hstatus : statusIn (label ++ ": " ++ error.message) = statusIn error.message := by
    rw [statusIn, String.toList_append]
    exact findSome?_splitOnP hlabel _ rfl
  simp [statusCode, labelled, hstatus]

end Status

theorem mapError_eq_error {ε ε' α : Type} {f : ε → ε'} {result : Except ε α} {error : ε'} :
    mapError f result = .error error ↔ ∃ cause, result = .error cause ∧ error = f cause := by
  cases result <;> simp [mapError, eq_comm]

section Call

variable {F : Type} {parse : String → Except String Json}
  {price : LlmConfig → TokenUsage → Option F}

/-- A request that ran into the time limit of the call is not sent again. -/
example : isTransientError ⟨"LLM request timed out", []⟩ = false := by decide +kernel

end Call

end FineractReports.Llm
