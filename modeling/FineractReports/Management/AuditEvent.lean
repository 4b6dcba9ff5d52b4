import FineractReports.Assistant.Clarification
import FineractReports.Library.Formats

/-!
# Management audit events

What an audit producer hands to the outbox, and its JSON form: the payload of an outbox row
is written from it and read back when the row is published. `Formats` stands for the texts
of the uuid and calendar libraries and for the precision the database keeps of a time.
-/

namespace FineractReports.Management

/-- An identifier; it is checked where it is made and not when it is read. -/
structure SafeIdentifier where
  value : String
deriving DecidableEq, Repr

inductive NormalizedErrorCode where
  | databaseUnavailable | dispatcherUnavailable | serializationFailed | providerUnavailable
  | providerTimeout | providerMalformed | unknown
deriving DecidableEq, Repr

structure SanitizedError where
  code : NormalizedErrorCode
deriving DecidableEq, Repr

inductive PolicyResult where
  | allowed | denied
deriving DecidableEq, Repr

inductive AuditSummary where
  | jobCreated
  | jobCompleted
  | jobFailed
  | clarificationRequested
  | clarificationReceived
  | policyEvaluated (capabilityId : SafeIdentifier) (result : PolicyResult)
  | execution (queryId : SafeIdentifier) (rowCount : Option UInt64)
  | sessionArchived
  | businessDateFallback (resolvedDate : SafeIdentifier)
deriving DecidableEq

inductive AuditAggregateType where
  | chatJob | chatSession | management
deriving DecidableEq, Repr

inductive AuditEventType where
  | chatJobCreated | knowledgeRetrievalCompleted | contextAssembled | policyEvaluated
  | executionAuthorized | executionBlocked | executionCompleted | chatClarificationRequested
  | chatClarificationReceived | chatJobCompleted | chatJobFailed | chatSessionArchived
  | chatSessionDeleted | businessDateFallback | executionResultTruncated | executionTimedOut
deriving DecidableEq, Repr

inductive AuditOutcome where
  | success | blocked | clarification | unsupported | failed
deriving DecidableEq, Repr

/-- `occurredAt` is in nanoseconds. -/
structure ManagementAuditEvent where
  aggregateType : AuditAggregateType
  aggregateId : Uuid
  jobId : Option Uuid
  sessionId : Option Uuid
  actorUserId : Option Uuid
  eventType : AuditEventType
  outcome : AuditOutcome
  summary : AuditSummary
  sanitizedError : Option SanitizedError
  occurredAt : ℤ
deriving DecidableEq

/-! ### Names -/

def NormalizedErrorCode.serdeName : NormalizedErrorCode → String
  | databaseUnavailable => "database_unavailable"
  | dispatcherUnavailable => "dispatcher_unavailable"
  | serializationFailed => "serialization_failed"
  | providerUnavailable => "provider_unavailable"
  | providerTimeout => "provider_timeout"
  | providerMalformed => "provider_malformed"
  | unknown => "unknown"

def PolicyResult.serdeName : PolicyResult → String
  | allowed => "allowed"
  | denied => "denied"

def AuditAggregateType.asStr : AuditAggregateType → String
  | chatJob => "chat_job"
  | chatSession => "chat_session"
  | management => "management"

def AuditEventType.asStr : AuditEventType → String
  | chatJobCreated => "chat.job_created"
  | knowledgeRetrievalCompleted => "knowledge.retrieval_completed"
  | contextAssembled => "context.assembled"
  | policyEvaluated => "policy.evaluated"
  | executionAuthorized => "execution.authorized"
  | executionBlocked => "execution.blocked"
  | executionCompleted => "execution.completed"
  | chatClarificationRequested => "chat.clarification_requested"
  | chatClarificationReceived => "chat.clarification_received"
  | chatJobCompleted => "chat.job_completed"
  | chatJobFailed => "chat.job_failed"
  | chatSessionArchived => "chat.session_archived"
  | chatSessionDeleted => "chat.session_deleted"
  | businessDateFallback => "business_date.fallback_used"
  | executionResultTruncated => "execution.result_truncated"
  | executionTimedOut => "execution.timed_out"

def AuditOutcome.asStr : AuditOutcome → String
  | success => "success"
  | blocked => "blocked"
  | clarification => "clarification"
  | unsupported => "unsupported"
  | failed => "failed"

/-- The names of the serialised form; those with an `as_str` are written the same way. -/
def NormalizedErrorCode.format : TextFormat NormalizedErrorCode :=
  .named [.databaseUnavailable, .dispatcherUnavailable, .serializationFailed,
    .providerUnavailable, .providerTimeout, .providerMalformed, .unknown] serdeName
    (by intro code; cases code <;> decide) (by decide)

def PolicyResult.format : TextFormat PolicyResult :=
  .named [.allowed, .denied] serdeName (by intro result; cases result <;> decide) (by decide)

def AuditAggregateType.format : TextFormat AuditAggregateType :=
  .named [.chatJob, .chatSession, .management] asStr (by intro kind; cases kind <;> decide)
    (by decide)

def AuditEventType.format : TextFormat AuditEventType :=
  .named [.chatJobCreated, .knowledgeRetrievalCompleted, .contextAssembled, .policyEvaluated,
    .executionAuthorized, .executionBlocked, .executionCompleted, .chatClarificationRequested,
    .chatClarificationReceived, .chatJobCompleted, .chatJobFailed, .chatSessionArchived,
    .chatSessionDeleted, .businessDateFallback, .executionResultTruncated, .executionTimedOut]
    asStr (by intro kind; cases kind <;> decide) (by decide)

def AuditOutcome.format : TextFormat AuditOutcome :=
  .named [.success, .blocked, .clarification, .unsupported, .failed] asStr
    (by intro outcome; cases outcome <;> decide) (by decide)

/-! ### The JSON form -/

section Values

variable {α : Type}

def textValue (format : TextFormat α) (a : α) : Json := .str (format.write a)

/-- A text in the format. -/
def readText (format : TextFormat α) (value : Json) : Option α := value.asStr?.bind format.read

/-- A variant without data. -/
def readVariant (format : TextFormat α) (value : Json) : Option α :=
  value.variantName?.bind format.read

def optionValue (write : α → Json) : Option α → Json
  | some a => write a
  | none => .null

/-- A member that may be missing or `null`. -/
def readOption (read : Json → Option α) : Option Json → Option (Option α)
  | none => some none
  | some .null => some none
  | some value => (read value).map some

@[simp] theorem readText_textValue (format : TextFormat α) (a : α) :
    readText format (textValue format a) = some a := by
  simp [readText, textValue, Json.asStr?]

@[simp] theorem readVariant_textValue (format : TextFormat α) (a : α) :
    readVariant format (textValue format a) = some a := by
  simp [readVariant, textValue, Json.variantName?]

theorem readOption_optionValue {write : α → Json} {read : Json → Option α}
    (hnull : ∀ a, write a ≠ .null) (hread : ∀ a, read (write a) = some a) (o : Option α) :
    readOption read (some (optionValue write o)) = some o := by
  cases o with
  | none => rfl
  | some a =>
    have hwritten := hnull a
    have hback := hread a
    simp only [optionValue]
    cases hvalue : write a with
    | null => exact absurd hvalue hwritten
    | _ =>
      rw [hvalue] at hback
      simp [readOption, hback]

end Values

def rowCountValue (count : UInt64) : Json := .int count.toNat

def summaryToValue : AuditSummary → Json
  | .jobCreated => .obj [("kind", .str "job_created")]
  | .jobCompleted => .obj [("kind", .str "job_completed")]
  | .jobFailed => .obj [("kind", .str "job_failed")]
  | .clarificationRequested => .obj [("kind", .str "clarification_requested")]
  | .clarificationReceived => .obj [("kind", .str "clarification_received")]
  | .policyEvaluated capabilityId result =>
    .obj [("kind", .str "policy_evaluated"), ("capability_id", .str capabilityId.value),
      ("result", textValue PolicyResult.format result)]
  | .execution queryId rowCount =>
    .obj [("kind", .str "execution"), ("query_id", .str queryId.value),
      ("row_count", optionValue rowCountValue rowCount)]
  | .sessionArchived => .obj [("kind", .str "session_archived")]
  | .businessDateFallback resolvedDate =>
    .obj [("kind", .str "business_date_fallback"), ("resolved_date", .str resolvedDate.value)]

def readIdentifier (value : Json) : Option SafeIdentifier := value.asStr?.map SafeIdentifier.mk

/-- The variant named by the tag, with its members. -/
def summaryFromValue (value : Json) : Option AuditSummary := do
  let kind ← (value.get? "kind").bind Json.asStr?
  match kind with
  | "job_created" => pure .jobCreated
  | "job_completed" => pure .jobCompleted
  | "job_failed" => pure .jobFailed
  | "clarification_requested" => pure .clarificationRequested
  | "clarification_received" => pure .clarificationReceived
  | "policy_evaluated" => do
    let capabilityId ← (value.get? "capability_id").bind readIdentifier
    let result ← (value.get? "result").bind (readVariant PolicyResult.format)
    pure (.policyEvaluated capabilityId result)
  | "execution" => do
    let queryId ← (value.get? "query_id").bind readIdentifier
    let rowCount ← readOption Json.asU64? (value.get? "row_count")
    pure (.execution queryId rowCount)
  | "session_archived" => pure .sessionArchived
  | "business_date_fallback" => do
    let resolvedDate ← (value.get? "resolved_date").bind readIdentifier
    pure (.businessDateFallback resolvedDate)
  | _ => none

def errorToValue (error : SanitizedError) : Json :=
  .obj [("code", textValue NormalizedErrorCode.format error.code)]

def errorFromValue (value : Json) : Option SanitizedError := do
  let code ← (value.get? "code").bind (readVariant NormalizedErrorCode.format)
  pure ⟨code⟩

/-- The texts of identifiers and times, and a time as the database keeps it. -/
structure Formats where
  uuid : TextFormat Uuid
  time : TextFormat ℤ
  timestamptz : ℤ → ℤ

variable (formats : Formats)

def eventToValue (event : ManagementAuditEvent) : Json :=
  .obj [("aggregate_type", textValue AuditAggregateType.format event.aggregateType),
    ("aggregate_id", textValue formats.uuid event.aggregateId),
    ("job_id", optionValue (textValue formats.uuid) event.jobId),
    ("session_id", optionValue (textValue formats.uuid) event.sessionId),
    ("actor_user_id", optionValue (textValue formats.uuid) event.actorUserId),
    ("event_type", textValue AuditEventType.format event.eventType),
    ("outcome", textValue AuditOutcome.format event.outcome),
    ("summary", summaryToValue event.summary),
    ("sanitized_error", optionValue errorToValue event.sanitizedError),
    ("occurred_at", textValue formats.time event.occurredAt)]

/-- Only the objects the writer makes are of interest; the sequences a struct can also be
read from are left out. -/
def eventFromValue (value : Json) : Option ManagementAuditEvent := do
  let aggregateType ← (value.get? "aggregate_type").bind (readVariant AuditAggregateType.format)
  let aggregateId ← (value.get? "aggregate_id").bind (readText formats.uuid)
  let jobId ← readOption (readText formats.uuid) (value.get? "job_id")
  let sessionId ← readOption (readText formats.uuid) (value.get? "session_id")
  let actorUserId ← readOption (readText formats.uuid) (value.get? "actor_user_id")
  let eventType ← (value.get? "event_type").bind (readVariant AuditEventType.format)
  let outcome ← (value.get? "outcome").bind (readVariant AuditOutcome.format)
  let summary ← (value.get? "summary").bind summaryFromValue
  let sanitizedError ← readOption errorFromValue (value.get? "sanitized_error")
  let occurredAt ← (value.get? "occurred_at").bind (readText formats.time)
  pure ⟨aggregateType, aggregateId, jobId, sessionId, actorUserId, eventType, outcome, summary,
    sanitizedError, occurredAt⟩

/-! ### Round trips -/

@[simp] theorem readOption_text {α : Type} (format : TextFormat α) (o : Option α) :
    readOption (readText format) (some (optionValue (textValue format) o)) = some o :=
  readOption_optionValue (fun _ => Json.noConfusion) (readText_textValue format) o

theorem summaryFromValue_toValue (summary : AuditSummary) :
    summaryFromValue (summaryToValue summary) = some summary := by
  cases summary with
  | execution queryId rowCount =>
    have hcount : readOption Json.asU64? (some (optionValue rowCountValue rowCount)) =
        some rowCount :=
      readOption_optionValue (fun _ => Json.noConfusion) Json.asU64?_toNat rowCount
    simp [summaryToValue, summaryFromValue, Assoc.get?_cons, Json.asStr?, readIdentifier, hcount]
  | _ => simp [summaryToValue, summaryFromValue, Assoc.get?_cons, Json.asStr?, readIdentifier]

theorem errorFromValue_toValue (error : SanitizedError) :
    errorFromValue (errorToValue error) = some error := by
  simp [errorFromValue, errorToValue, Assoc.get?_cons]

/-- What was written is read back. -/
theorem eventFromValue_toValue (event : ManagementAuditEvent) :
    eventFromValue formats (eventToValue formats event) = some event := by
  have herror : readOption errorFromValue
      (some (optionValue errorToValue event.sanitizedError)) = some event.sanitizedError :=
    readOption_optionValue (fun _ => Json.noConfusion) errorFromValue_toValue _
  simp [eventFromValue, eventToValue, Assoc.get?_cons, summaryFromValue_toValue, herror]

end FineractReports.Management
