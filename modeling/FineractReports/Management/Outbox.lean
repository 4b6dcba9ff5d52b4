import FineractReports.Library.Transition
import FineractReports.Management.AuditEvent

/-!
# The audit outbox

Any number of dispatchers publish the rows of one outbox table, each in a transaction of its
own. A transaction sees what is committed and keeps its writes to itself until it commits; the
row it has taken stays locked for the others until it ends. A dispatcher may stop between any
two of its statements, which rolls its transaction back.

Times are in microseconds. Which of the due rows is taken first is left open.
-/

namespace FineractReports.Management

def DISPATCH_BATCH_SIZE : ℤ := 50
def RETRY_BASE_SECONDS : ℕ := 1
def RETRY_MAX_SECONDS : ℕ := 300

/-- The columns the dispatcher and `enqueue` read or write. -/
structure OutboxRow where
  id : Uuid
  aggregateType : String
  aggregateId : Uuid
  jobId : Option Uuid
  sessionId : Option Uuid
  actorUserId : Option Uuid
  contractVersion : ℕ
  payload : Json
  occurredAt : ℤ
  publishedAt : Option ℤ
  nextAttemptAt : ℤ
  attemptCount : ℕ
  lastErrorCode : Option String
deriving DecidableEq

structure EventRow where
  id : Uuid
  outboxId : Uuid
  jobId : Option Uuid
  sessionId : Option Uuid
  aggregateType : String
  aggregateId : Uuid
  actorUserId : Option Uuid
  eventType : String
  outcome : String
  contractVersion : ℕ
  summaryJson : Json
  sanitizedErrorJson : Option Json
  occurredAt : ℤ
deriving DecidableEq

structure OutboxTables where
  outbox : List OutboxRow
  events : List EventRow

/-! ### The statements -/

/-- The row `enqueue` inserts. -/
def enqueue (formats : Formats) (startedAt : ℤ) (id : Uuid) (event : ManagementAuditEvent) :
    OutboxRow where
  id := id
  aggregateType := event.aggregateType.asStr
  aggregateId := event.aggregateId
  jobId := event.jobId
  sessionId := event.sessionId
  actorUserId := event.actorUserId
  contractVersion := 1
  payload := eventToValue formats event
  occurredAt := formats.timestamptz event.occurredAt
  publishedAt := none
  nextAttemptAt := startedAt
  attemptCount := 0
  lastErrorCode := none

/-- The row `publish` inserts. -/
def eventRow (formats : Formats) (id outboxId : Uuid) (event : ManagementAuditEvent) :
    EventRow where
  id := id
  outboxId := outboxId
  jobId := event.jobId
  sessionId := event.sessionId
  aggregateType := event.aggregateType.asStr
  aggregateId := event.aggregateId
  actorUserId := event.actorUserId
  eventType := event.eventType.asStr
  outcome := event.outcome.asStr
  contractVersion := 1
  summaryJson := summaryToValue event.summary
  sanitizedErrorJson := event.sanitizedError.map errorToValue
  occurredAt := formats.timestamptz event.occurredAt

/-- The update of `publish`. -/
def OutboxRow.markPublished (now : ℤ) (row : OutboxRow) : OutboxRow :=
  { row with publishedAt := some now, lastErrorCode := none }

inductive FailureCode where
  | databaseUnavailable | dispatcherUnavailable | serializationFailed
deriving DecidableEq, Repr

/-- Why `publish` failed: the payload could not be read, the database returned an error, or
anything else. -/
inductive PublishError where
  | serde
  | database (sqlstate : Option String)
  | other
deriving DecidableEq, Repr

def normalizeFailureCode : PublishError → FailureCode
  | .serde => .serializationFailed
  | .database sqlstate =>
    if sqlstate = some "40001" then .serializationFailed else .databaseUnavailable
  | .other => .dispatcherUnavailable

def errorCode : FailureCode → String
  | .databaseUnavailable => "database_unavailable"
  | .dispatcherUnavailable => "dispatcher_unavailable"
  | .serializationFailed => "serialization_failed"

/-- The loop of `max_backoff_exponent`: doublings of `seconds` until the maximum. -/
def backoffExponent : ℕ → ℕ → ℕ
  | 0, _ => 0
  | fuel + 1, seconds =>
    if seconds < RETRY_MAX_SECONDS then backoffExponent fuel (seconds * 2) + 1 else 0

def maxBackoffExponent : ℕ := backoffExponent RETRY_MAX_SECONDS RETRY_BASE_SECONDS

/-- Seconds until the next attempt. -/
def backoffSeconds (attemptCount : ℕ) : ℕ :=
  min (RETRY_BASE_SECONDS * 2 ^ min attemptCount maxBackoffExponent) RETRY_MAX_SECONDS

/-- The update of `record_failure`, on a row it matches. -/
def OutboxRow.recordFailure (now : ℤ) (code : FailureCode) (row : OutboxRow) : OutboxRow :=
  { row with
    attemptCount := row.attemptCount + 1
    lastErrorCode := some (errorCode code)
    nextAttemptAt := now + 1000000 * backoffSeconds row.attemptCount }

/-- The largest value of an `INTEGER` column. -/
def MAX_INTEGER : ℕ := 2147483647

namespace OutboxTables

def setRow (tables : OutboxTables) (id : Uuid) (change : OutboxRow → OutboxRow) : OutboxTables :=
  { tables with outbox := tables.outbox.map fun row => if row.id = id then change row else row }

def row? (tables : OutboxTables) (id : Uuid) : Option OutboxRow :=
  tables.outbox.find? fun row => row.id = id

end OutboxTables

/-! ### The dispatchers -/

/-- Where `dispatch_one` stands. A transaction that is open holds the time it began at and,
once it has taken a row, that row and the writes it has not committed. -/
inductive DispatchStage where
  | ready
  | began (startedAt : ℤ)
  | holding (startedAt : ℤ) (id : Uuid) (payload : Json)
  | inserted (startedAt : ℤ) (id : Uuid) (written : Option EventRow)
  | marked (startedAt : ℤ) (id : Uuid) (written : Option EventRow)
  | failed (id : Uuid) (code : FailureCode)
deriving DecidableEq

/-- One call of `dispatch_due`: the turns of its loop that are left and the rows it published. -/
structure DispatchPass where
  remaining : ℕ
  published : ℕ
  stage : DispatchStage
deriving DecidableEq

/-- Between two passes a dispatcher holds what the last one returned, if it returned. -/
inductive Dispatcher where
  | waiting (returned : Option ℕ)
  | running (pass : DispatchPass)
deriving DecidableEq

namespace DispatchStage

/-- The row that is locked. -/
def held : DispatchStage → Option Uuid
  | holding _ id _ | inserted _ id _ | marked _ id _ => some id
  | ready | began _ | failed _ _ => none

/-- The event that is inserted and not committed. -/
def written : DispatchStage → Option EventRow
  | inserted _ _ written | marked _ _ written => written
  | ready | began _ | holding _ _ _ | failed _ _ => none

end DispatchStage

namespace Dispatcher

def held : Dispatcher → Option Uuid
  | running pass => pass.stage.held
  | waiting _ => none

def written : Dispatcher → Option EventRow
  | running pass => pass.stage.written
  | waiting _ => none

end Dispatcher

/-- The tables and the dispatchers; `enqueued` and `failures` are logs no statement reads: the
events that were enqueued and the rows whose failure was recorded. -/
structure OutboxSystem where
  now : ℤ
  tables : OutboxTables
  dispatchers : List Dispatcher
  enqueued : List (Uuid × ManagementAuditEvent)
  failures : List Uuid

namespace OutboxSystem

/-- Locked by a transaction that is open. -/
def isLocked (state : OutboxSystem) (id : Uuid) : Bool :=
  state.dispatchers.any fun dispatcher => dispatcher.held = some id

/-- Due rows that are not locked. -/
def isFree (state : OutboxSystem) (startedAt : ℤ) (row : OutboxRow) : Bool :=
  row.publishedAt = none ∧ row.nextAttemptAt ≤ startedAt ∧ state.isLocked row.id = false

def setDispatcher (state : OutboxSystem) (index : ℕ) (dispatcher : Dispatcher) : OutboxSystem :=
  { state with dispatchers := state.dispatchers.set index dispatcher }

/-- An insert of an event for the row waits for one that is not committed. -/
def isAwaited (state : OutboxSystem) (outboxId : Uuid) : Bool :=
  state.dispatchers.any fun dispatcher =>
    dispatcher.written.any fun event => event.outboxId = outboxId

/-- The id of an event is taken, by a committed row or one that is not committed. -/
def isTaken (state : OutboxSystem) (eventId : Uuid) : Bool :=
  state.tables.events.any (fun event => event.id = eventId) ||
    state.dispatchers.any fun dispatcher =>
      dispatcher.written.any fun event => event.id = eventId

end OutboxSystem

inductive DispatchAction where
  | start (limit : ℤ)
  | begin
  | take (id : Uuid)
  | takeNone
  | insert (eventId : Uuid)
  | mark
  | commit (acknowledged : Bool)
  | fail (error : PublishError)
  | record (acknowledged : Bool)
  | abort
deriving DecidableEq

/-- Time passes, a transaction of the given age that enqueued an event commits, or a dispatcher
goes on. -/
inductive OutboxAction where
  | tick (elapsed : ℕ)
  | enqueue (id : Uuid) (event : ManagementAuditEvent) (age : ℕ)
  | dispatch (index : ℕ) (action : DispatchAction)
deriving DecidableEq

/-- The turns `dispatch_due` makes at most. -/
def passLimit (limit : ℤ) : ℕ := (max 1 (min limit DISPATCH_BATCH_SIZE)).toNat

/-- `INSERT .. ON CONFLICT (outbox_id) DO NOTHING`. -/
def insertedEvent (formats : Formats) (tables : OutboxTables) (eventId outboxId : Uuid)
    (event : ManagementAuditEvent) : Option EventRow :=
  if tables.events.any (fun event => event.outboxId = outboxId) then none
  else some (eventRow formats eventId outboxId event)

/-- What the transaction wrote, seen by everyone. -/
def committed (tables : OutboxTables) (startedAt : ℤ) (id : Uuid) (written : Option EventRow) :
    OutboxTables :=
  { tables.setRow id (OutboxRow.markPublished startedAt) with
    events := tables.events ++ written.toList }

/-- The pass goes on with the next turn, or ends when the answer of the database was lost. -/
def nextTurn (acknowledged : Bool) (remaining published : ℕ) : Dispatcher :=
  if acknowledged then .running ⟨remaining, published, .ready⟩ else .waiting none

/-- One statement of a pass, or an error of it. -/
def passStep (formats : Formats) (state : OutboxSystem) (index : ℕ) (pass : DispatchPass)
    (action : DispatchAction) : Option OutboxSystem :=
  match pass.stage, action with
  | .ready, .begin =>
    match pass.remaining with
    | 0 => some (state.setDispatcher index (.waiting (some pass.published)))
    | remaining + 1 =>
      some (state.setDispatcher index (.running ⟨remaining, pass.published, .began state.now⟩))
  | .began startedAt, .take id =>
    ((state.tables.outbox.find? fun row => row.id = id).filter (state.isFree startedAt)).map
      fun row => state.setDispatcher index
        (.running { pass with stage := .holding startedAt row.id row.payload })
  | .began startedAt, .takeNone =>
    if state.tables.outbox.any (state.isFree startedAt) then none
    else some (state.setDispatcher index (.waiting (some pass.published)))
  | .holding startedAt id payload, .insert eventId =>
    if state.isAwaited id ∨ state.isTaken eventId then none
    else (eventFromValue formats payload).map fun event => state.setDispatcher index
      (.running { pass with
        stage := .inserted startedAt id
          (insertedEvent formats state.tables eventId id event) })
  | .inserted startedAt id written, .mark =>
    some (state.setDispatcher index
      (.running { pass with stage := .marked startedAt id written }))
  | .marked startedAt id written, .commit acknowledged =>
    some { state.setDispatcher index
      (nextTurn acknowledged pass.remaining (pass.published + 1)) with
      tables := committed state.tables startedAt id written }
  | .holding _ id payload, .fail error =>
    if error = .serde ↔ eventFromValue formats payload = none then
      some (state.setDispatcher index
        (.running { pass with stage := .failed id (normalizeFailureCode error) }))
    else none
  | .inserted _ id _, .fail error =>
    if error = .serde then none
    else some (state.setDispatcher index
      (.running { pass with stage := .failed id (normalizeFailureCode error) }))
  | .failed id code, .record acknowledged =>
    if state.isLocked id then none
    else
      let next := nextTurn acknowledged pass.remaining pass.published
      match state.tables.row? id with
      | some row =>
        if row.publishedAt ≠ none then some (state.setDispatcher index next)
        else if row.attemptCount < MAX_INTEGER then
          some { state.setDispatcher index next with
            tables := state.tables.setRow id (OutboxRow.recordFailure state.now code)
            failures := state.failures ++ [id] }
        else none
      | none => some (state.setDispatcher index next)
  | _, .abort => some (state.setDispatcher index (.waiting none))
  | _, _ => none

def outboxStep (formats : Formats) (state : OutboxSystem) : OutboxAction → Option OutboxSystem
  | .tick elapsed => some { state with now := state.now + elapsed }
  | .enqueue id event age =>
    if state.tables.outbox.any (fun row => row.id = id) then none
    else some { state with
      tables.outbox := state.tables.outbox ++ [enqueue formats (state.now - age) id event]
      enqueued := state.enqueued ++ [(id, event)] }
  | .dispatch index action =>
    match state.dispatchers[index]?, action with
    | some (.waiting _), .start limit =>
      some (state.setDispatcher index (.running ⟨passLimit limit, 0, .ready⟩))
    | some (.running pass), action => passStep formats state index pass action
    | _, _ => none

/-- Empty tables and any number of dispatchers. -/
def outboxMachine (formats : Formats) : Machine OutboxSystem OutboxAction where
  init state := state.tables = ⟨[], []⟩ ∧ state.enqueued = [] ∧ state.failures = [] ∧
    ∀ dispatcher ∈ state.dispatchers, dispatcher = .waiting none
  step := outboxStep formats

end FineractReports.Management
