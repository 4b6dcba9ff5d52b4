import FineractReports.Library.Checks
import FineractReports.Library.Hex
import FineractReports.Library.Keyset
import FineractReports.Management.Outbox

/-!
# The list of audit events

The published events, newest first, a page at a time. The cursor of a page is the time and the id
of its last event in an opaque text. Times are in microseconds.
-/

namespace FineractReports.Management

/-! ### The names of the interface -/

namespace Dto

inductive AuditEventType where
  | chatJobCreated | knowledgeRetrievalCompleted | contextAssembled | policyEvaluated
  | executionAuthorized | executionBlocked | executionCompleted | chatClarificationRequested
  | chatClarificationReceived | chatJobCompleted | chatJobFailed | chatSessionArchived
  | chatSessionDeleted | businessDateFallbackUsed | executionResultTruncated | executionTimedOut
deriving DecidableEq, Repr

namespace AuditEventType

def serdeName : AuditEventType → String
  | chatJobCreated => "chat_job_created"
  | knowledgeRetrievalCompleted => "knowledge_retrieval_completed"
  | contextAssembled => "context_assembled"
  | policyEvaluated => "policy_evaluated"
  | executionAuthorized => "execution_authorized"
  | executionBlocked => "execution_blocked"
  | executionCompleted => "execution_completed"
  | chatClarificationRequested => "chat_clarification_requested"
  | chatClarificationReceived => "chat_clarification_received"
  | chatJobCompleted => "chat_job_completed"
  | chatJobFailed => "chat_job_failed"
  | chatSessionArchived => "chat_session_archived"
  | chatSessionDeleted => "chat_session_deleted"
  | businessDateFallbackUsed => "business_date_fallback_used"
  | executionResultTruncated => "execution_result_truncated"
  | executionTimedOut => "execution_timed_out"

def format : TextFormat AuditEventType :=
  .named [chatJobCreated, knowledgeRetrievalCompleted, contextAssembled, policyEvaluated,
    executionAuthorized, executionBlocked, executionCompleted, chatClarificationRequested,
    chatClarificationReceived, chatJobCompleted, chatJobFailed, chatSessionArchived,
    chatSessionDeleted, businessDateFallbackUsed, executionResultTruncated, executionTimedOut]
    serdeName (by intro kind; cases kind <;> decide) (by decide)

/-- The type an event is stored with. -/
def model : AuditEventType → Management.AuditEventType
  | chatJobCreated => .chatJobCreated
  | knowledgeRetrievalCompleted => .knowledgeRetrievalCompleted
  | contextAssembled => .contextAssembled
  | policyEvaluated => .policyEvaluated
  | executionAuthorized => .executionAuthorized
  | executionBlocked => .executionBlocked
  | executionCompleted => .executionCompleted
  | chatClarificationRequested => .chatClarificationRequested
  | chatClarificationReceived => .chatClarificationReceived
  | chatJobCompleted => .chatJobCompleted
  | chatJobFailed => .chatJobFailed
  | chatSessionArchived => .chatSessionArchived
  | chatSessionDeleted => .chatSessionDeleted
  | businessDateFallbackUsed => .businessDateFallback
  | executionResultTruncated => .executionResultTruncated
  | executionTimedOut => .executionTimedOut

end AuditEventType

end Dto

def eventType (kind : Dto.AuditEventType) : String := kind.model.asStr

/-- Dots are read as underscores. -/
def parseEventType (value : String) : Option Dto.AuditEventType :=
  Dto.AuditEventType.format.read
    (String.ofList (value.toList.map fun c => if c = '.' then '_' else c))

def aggregateType (value : String) : Option AuditAggregateType :=
  AuditAggregateType.format.read value

def parseOutcome (value : String) : Option AuditOutcome := AuditOutcome.format.read value

structure AuditEventResponse where
  id : Uuid
  jobId : Option Uuid
  sessionId : Option Uuid
  aggregateType : AuditAggregateType
  eventType : Dto.AuditEventType
  outcome : AuditOutcome
  summary : AuditSummary
  sanitizedError : Option SanitizedError
  occurredAt : ℤ
deriving DecidableEq

def readSanitizedError : Option Json → Option (Option SanitizedError)
  | some value => (errorFromValue value).map some
  | none => some none

/-- The row as it is shown; a row that cannot be read fails the whole page. -/
def auditEventResponse (row : EventRow) : Option AuditEventResponse := do
  let aggregateType ← aggregateType row.aggregateType
  let eventType ← parseEventType row.eventType
  let outcome ← parseOutcome row.outcome
  let summary ← summaryFromValue row.summaryJson
  let sanitizedError ← readSanitizedError row.sanitizedErrorJson
  pure ⟨row.id, row.jobId, row.sessionId, aggregateType, eventType, outcome, summary,
    sanitizedError, row.occurredAt⟩

/-! ### Cursors -/

structure Cursor where
  occurredAt : ℤ
  id : Uuid
deriving DecidableEq

/-- Years of four digits, the ones the text of a time can be read again for. -/
def FourDigitYear (instant : ℤ) : Prop :=
  -62167219200000000 ≤ instant ∧ instant < 253402300800000000

instance (instant : ℤ) : Decidable (FourDigitYear instant) := by
  unfold FourDigitYear; infer_instance

/-- The texts of the uuid and the calendar library. -/
structure CursorTexts where
  uuid : TextFormat Uuid
  toRfc3339 : ℤ → String
  parseRfc3339 : String → Option ℤ
  parse_to : ∀ instant, FourDigitYear instant → parseRfc3339 (toRfc3339 instant) = some instant
  to_no_bar : ∀ instant, '|' ∉ (toRfc3339 instant).toList

inductive AuditLookupError where
  | invalidCursor
  | internal
deriving DecidableEq, Repr

/-- The texts before and after the first of a character. -/
def splitOnce (separator : Char) (text : String) : Option (String × String) :=
  match text.toList.dropWhile (· ≠ separator) with
  | [] => none
  | _ :: back => some (String.ofList (text.toList.takeWhile (· ≠ separator)), String.ofList back)

section Cursors

variable (texts : CursorTexts)

def encodeCursor (cursor : Cursor) : String :=
  Hex.encode (texts.toRfc3339 cursor.occurredAt ++ "|" ++ texts.uuid.write cursor.id)

def decodeCursor (text : String) : Except AuditLookupError Cursor :=
  okOr (do
    let value ← Hex.decode text
    let (occurredAt, id) ← splitOnce '|' value
    let occurredAt ← texts.parseRfc3339 occurredAt
    let id ← texts.uuid.read id
    pure ⟨occurredAt, id⟩) .invalidCursor

end Cursors

/-! ### Queries -/

structure AuditQuery where
  fromTime : ℤ
  toTime : ℤ
  eventType : Option Dto.AuditEventType
  outcome : Option AuditOutcome
  jobId : Option Uuid
  sessionId : Option Uuid
  cursor : Option String
  limit : Option ℕ
deriving DecidableEq

def MANAGEMENT_MAX_PAGE_SIZE : ℕ := 100
def MANAGEMENT_MAX_AUDIT_RANGE_DAYS : ℤ := 90

structure AuditListResponse where
  items : List AuditEventResponse
  nextCursor : Option String
deriving DecidableEq

namespace AuditQuery

variable (query : AuditQuery)

/-- The checks of the handlers: the page size and the range of time. -/
def Validates : Prop :=
  (∀ limit ∈ query.limit, 1 ≤ limit ∧ limit ≤ MANAGEMENT_MAX_PAGE_SIZE) ∧
    query.fromTime < query.toTime ∧
    query.toTime - query.fromTime ≤ MANAGEMENT_MAX_AUDIT_RANGE_DAYS * 86400000000

instance : Decidable query.Validates := by unfold Validates; infer_instance

/-- The conditions of the statement, without the cursor. -/
def Selects (row : EventRow) : Prop :=
  query.fromTime ≤ row.occurredAt ∧ row.occurredAt < query.toTime ∧
    (∀ kind ∈ query.eventType, row.eventType = Management.eventType kind) ∧
    (∀ outcome ∈ query.outcome, row.outcome = outcome.asStr) ∧
    (∀ jobId ∈ query.jobId, row.jobId = some jobId) ∧
    ∀ sessionId ∈ query.sessionId, row.sessionId = some sessionId

instance (row : EventRow) : Decidable (query.Selects row) := by unfold Selects; infer_instance

def pageSize : ℕ := query.limit.getD 50

end AuditQuery

/-- The order of the statement, newest first. -/
abbrev FeedKey := (ℤ ×ₗ ℕ)ᵒᵈ

def Cursor.key (cursor : Cursor) : FeedKey :=
  OrderDual.toDual (toLex (cursor.occurredAt, cursor.id))

def EventRow.cursor (row : EventRow) : Cursor := ⟨row.occurredAt, row.id⟩

def feedKey (row : EventRow) : FeedKey := row.cursor.key

def keyCursor (key : FeedKey) : Cursor :=
  ⟨(ofLex (OrderDual.ofDual key)).1, (ofLex (OrderDual.ofDual key)).2⟩

def cursorKey (texts : CursorTexts) (cursor : Option String) :
    Except AuditLookupError (Option FeedKey) :=
  match cursor with
  | some text => (decodeCursor texts text).map fun cursor => some cursor.key
  | none => .ok none

/-- `ManagementAuditRepository::list`. -/
def listAuditEvents (texts : CursorTexts) (query : AuditQuery) (events : List EventRow) :
    Except AuditLookupError AuditListResponse := do
  let after ← cursorKey texts query.cursor
  let page := pageAfter feedKey query.pageSize after (events.filter fun row => query.Selects row)
  let items ← collectAll page.items fun row =>
    (okOr (auditEventResponse row) .internal).map fun item => [item]
  pure ⟨items, page.next.map fun key => encodeCursor texts (keyCursor key)⟩

end FineractReports.Management
