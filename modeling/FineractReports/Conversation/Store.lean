import FineractReports.Audit.Worker
import FineractReports.Job.StoredDocuments
import FineractReports.Library.KeyedLists
import FineractReports.Library.RowTable
import FineractReports.Library.Text

/-!
# Conversations

The chat sessions, jobs and messages of all users, and the requests and background runs that read
and write them. Rows without an owner are older than the ownership by users; administrators see
them. Every statement or transaction is one step, so that a request is interrupted between two
of its statements.
-/

namespace FineractReports.Conversation

open Audit Job Workflow

/-! ### Rows -/

inductive SessionStatus where
  | active | archived | expired
deriving DecidableEq, Repr

structure ChatSession where
  id : Uuid
  userId : Option Uuid
  title : Option String
  status : SessionStatus
  createdAt : ℤ
  updatedAt : ℤ
  archivedAt : Option ℤ
deriving DecidableEq

structure ChatMessage where
  id : Uuid
  sessionId : Uuid
  jobId : Option Uuid
  role : String
  content : String
  metadataJson : Json
  createdAt : ℤ
deriving DecidableEq

/-- A job, with the part of its memory that a response is checked against. -/
structure ChatJob where
  id : Uuid
  sessionId : Uuid
  userId : Option Uuid
  userMessageId : Option Uuid
  status : JobStatus
  currentStep : String
  resumeFromStep : Option String
  message : String
  stateJson : Json
  resultJson : Option Json
  errorJson : Option Json
  createdAt : ℤ
  updatedAt : ℤ
  expiresAt : ℤ
  completedAt : Option ℤ
  failedAt : Option ℤ
  pendingClarification : Option ClarificationPayload
  memoryRevision : ℕ
deriving DecidableEq

/-- A row of the event log that is replayed to a late subscriber. -/
structure ChatJobEvent where
  id : Uuid
  jobId : Uuid
  eventType : String
  step : Option String
  payloadJson : Json
  createdAt : ℤ
deriving DecidableEq

structure CreatedChatJob where
  sessionId : Uuid
  jobId : Uuid
  userMessageId : Uuid
  status : String
  currentStep : String
deriving DecidableEq

/-! ### Requests and answers -/

inductive ChatRequest where
  | createSession (title : Option String)
  | listSessions
  | getSession (sessionId : Uuid)
  | renameSession (sessionId : Uuid) (title : String)
  | archiveSession (sessionId : Uuid)
  | listMessages (sessionId : Uuid)
  | createJob (sessionId : Option Uuid) (message : String) (clientJson : Json)
  | getJob (jobId : Uuid)
  | auditTimeline (jobId : Uuid)
  | replayEvents (jobId : Uuid)
  | respond (jobId : Uuid) (submission : ValidatedClarificationSubmission)
deriving DecidableEq

inductive Answer where
  /-- The body of the request is refused. -/
  | invalid
  | session (session : Option ChatSession)
  | sessions (sessions : List ChatSession)
  | archived (sessionId : Option Uuid)
  | messages (messages : Option (List ChatMessage))
  | created (job : Option CreatedChatJob)
  | job (job : Option ChatJob)
  | auditEvents (events : Option (List AuditRow))
  | events (events : Option (List ChatJobEvent))
  | responded (outcome : PersistResponseOutcome) (message : Option ChatMessage)
deriving DecidableEq

/-- What is left of a request after its first statement. -/
inductive Continuation where
  | listMessages (sessionId : Uuid)
  | auditTimeline (jobId : Uuid)
  | replayEvents (jobId : Uuid)
  | createJob (sessionId : Uuid) (message : String) (clientJson : Json)
  /-- The job is written; it is read back before its run is spawned. -/
  | spawnRun (jobId sessionId : Uuid) (answer : Answer)
deriving DecidableEq

structure OpenRequest where
  client : PrincipalContext
  rest : Continuation
deriving DecidableEq

/-- The identity a background run was spawned with. -/
structure JobRun where
  jobId : Uuid
  sessionId : Uuid
  userId : Uuid
deriving DecidableEq

@[ext] structure ChatStore where
  sessions : List ChatSession
  jobs : List ChatJob
  messages : List ChatMessage
  events : List ChatJobEvent
  auditEvents : List AuditRow
  requests : List OpenRequest
  runs : List JobRun
  /-- The answers so far, each with the user it went to. -/
  answers : List (Uuid × Answer)
deriving DecidableEq

/-! ### Statements that read -/

/-- `user_id = $1 OR ($2 AND user_id IS NULL)`. -/
def ownedBy (owner : Option Uuid) (userId : Uuid) (includeLegacy : Bool) : Bool :=
  owner = some userId || (includeLegacy && owner.isNone)

def includeLegacy (client : PrincipalContext) : Bool := client.role = "admin"

namespace SessionRepository

def matchesUser (sessionId userId : Uuid) (includeLegacy : Bool) (session : ChatSession) : Bool :=
  session.id = sessionId && ownedBy session.userId userId includeLegacy &&
    session.archivedAt.isNone

def listForUser (store : ChatStore) (userId : Uuid) (includeLegacy : Bool) : List ChatSession :=
  sortByKey (fun session => toLex (-session.updatedAt, -session.createdAt))
    (store.sessions.filter fun session =>
      ownedBy session.userId userId includeLegacy && session.archivedAt.isNone)

def getForUser (store : ChatStore) (sessionId userId : Uuid) (includeLegacy : Bool) :
    Option ChatSession :=
  store.sessions.find? (matchesUser sessionId userId includeLegacy)

/-- The row as the update leaves it. -/
def renameForUser (store : ChatStore) (sessionId userId : Uuid) (includeLegacy : Bool)
    (title : String) (now : ℤ) : Option ChatSession :=
  (getForUser store sessionId userId includeLegacy).map fun session =>
    { session with title := some title, updatedAt := now }

/-- The row as the update leaves it. -/
def archiveForUser (store : ChatStore) (sessionId userId : Uuid) (includeLegacy : Bool) (now : ℤ) :
    Option ChatSession :=
  (getForUser store sessionId userId includeLegacy).map fun session =>
    { session with status := .archived, archivedAt := some now, updatedAt := now }

/-- The row of a session that was just created. -/
def create (id userId : Uuid) (title : Option String) (now : ℤ) : ChatSession where
  id := id
  userId := some userId
  title := title
  status := .active
  createdAt := now
  updatedAt := now
  archivedAt := none

end SessionRepository

/-- The session of a row is there and not archived. -/
def inOpenSession (store : ChatStore) (sessionId : Uuid) : Bool :=
  store.sessions.any fun session => session.id = sessionId && session.archivedAt.isNone

namespace MessageRepository

def visible (store : ChatStore) (sessionId userId : Uuid) (includeLegacy : Bool) : Bool :=
  store.sessions.any (SessionRepository.matchesUser sessionId userId includeLegacy)

def list (store : ChatStore) (sessionId : Uuid) : List ChatMessage :=
  sortByKey ChatMessage.createdAt (store.messages.filter fun message =>
    message.sessionId = sessionId && inOpenSession store message.sessionId)

end MessageRepository

namespace JobRepository

def getForUser (store : ChatStore) (jobId userId : Uuid) (includeLegacy : Bool) : Option ChatJob :=
  store.jobs.find? fun job =>
    job.id = jobId && ownedBy job.userId userId includeLegacy && inOpenSession store job.sessionId

def getInternalForUser (store : ChatStore) (jobId userId : Uuid) : Option ChatJob :=
  store.jobs.find? fun job =>
    job.id = jobId && job.userId = some userId && inOpenSession store job.sessionId

def listAuditEvents (store : ChatStore) (jobId : Uuid) : List AuditRow :=
  sortByKey (fun row => toLex (row.createdAt, row.id))
    (store.auditEvents.filter fun row => row.event.jobId = jobId)

def listEvents (store : ChatStore) (jobId : Uuid) : List ChatJobEvent :=
  sortByKey (fun event => toLex (event.createdAt, event.id))
    (store.events.filter fun event => event.jobId = jobId)

/-- A structured submission has to name the pending clarification. -/
def namesPending (job : ChatJob) (submission : ValidatedClarificationSubmission) : Bool :=
  match submission.clarificationId, submission.clarificationRevision with
  | some id, some revision => job.pendingClarification.any
      fun payload => payload.id = id ∧ payload.revision = revision
  | _, _ => true

/-! ### Rows that are written -/

/-- Seven days in microseconds. -/
def jobLifetime : ℤ := 7 * 24 * 60 * 60 * 1000000

/-- The row of a job that was just created. -/
def create (jobId messageId sessionId userId : Uuid) (message : String) (clientJson : Json)
    (now : ℤ) : ChatJob where
  id := jobId
  sessionId := sessionId
  userId := some userId
  userMessageId := some messageId
  status := .queued
  currentStep := "queued"
  resumeFromStep := none
  message := message
  stateJson := stateJson clientJson message
  resultJson := none
  errorJson := none
  createdAt := now
  updatedAt := now
  expiresAt := now + jobLifetime
  completedAt := none
  failedAt := none
  pendingClarification := none
  memoryRevision := 0

def createdMessage (messageId jobId sessionId : Uuid) (message : String) (now : ℤ) :
    ChatMessage where
  id := messageId
  sessionId := sessionId
  jobId := some jobId
  role := "user"
  content := message
  metadataJson := .obj []
  createdAt := now

def responded (job : ChatJob) (now : ℤ) : ChatJob :=
  { job with
    status := .queued, currentStep := "queued", resumeFromStep := some job.currentStep
    updatedAt := now }

def respondedMessage (uuidText : Uuid → String) (messageId : Uuid) (job : ChatJob)
    (submission : ValidatedClarificationSubmission) (now : ℤ) : ChatMessage where
  id := messageId
  sessionId := job.sessionId
  jobId := some job.id
  role := "clarification"
  content := submission.displayMessage
  metadataJson := responseMetadata uuidText submission
  createdAt := now

def respondedEvent (uuidText : Uuid → String) (eventId messageId : Uuid) (job : ChatJob)
    (submission : ValidatedClarificationSubmission) (now : ℤ) : ChatJobEvent where
  id := eventId
  jobId := job.id
  eventType := "status"
  step := some "queued"
  payloadJson := .obj [("status", .str "queued"), ("current_step", .str "queued"),
    ("message_id", .str (uuidText messageId)),
    ("selected_option_id", JobRepository.optionalText submission.selectedOptionId)]
  createdAt := now

def waitForUserInput (job : ChatJob) (now : ℤ) : ChatJob :=
  { job with
    status := .waitingForUserInput, currentStep := "waiting_for_user_input", updatedAt := now }

def mergeRetrievalTrace (job : ChatJob) (trace : Json) (now : ℤ) : ChatJob :=
  { job with
    stateJson := job.stateJson.concat (.obj [("retrieval_trace", trace)]), updatedAt := now }

def storeAssistantResponseResult (job : ChatJob) (resultJson : Json) (now : ℤ) : ChatJob :=
  { job with resultJson := some resultJson, updatedAt := now }

def persistTerminalState (job : ChatJob) (resultJson : Json) (now : ℤ) :
    AssistantResponseTerminal → ChatJob
  | .completed => { job with
      status := .completed, currentStep := "completed", resultJson := some resultJson
      errorJson := none, completedAt := some now, updatedAt := now }
  | .failed errorJson => { job with
      status := .failed, currentStep := "failed", resultJson := some resultJson
      errorJson := some errorJson, failedAt := some now, updatedAt := now }

/-- Never overwrites a job that is already terminal. -/
def fail (job : ChatJob) (errorJson : Json) (now : ℤ) : ChatJob :=
  if job.status.isTerminal then job
  else { job with
    status := .failed, currentStep := "failed", errorJson := some errorJson
    failedAt := some now, updatedAt := now }

end JobRepository

def insertAssistantMessage (messageId : Uuid) (run : JobRun) (content : String)
    (metadataJson : Json) (now : ℤ) : ChatMessage where
  id := messageId
  sessionId := run.sessionId
  jobId := some run.jobId
  role := "assistant"
  content := content
  metadataJson := metadataJson
  createdAt := now

/-! ### Steps -/

/-- A statement or transaction of a background run. -/
inductive RunWrite where
  | insertEvent (eventId : Uuid) (eventType : String) (step : Option String) (payload : Json)
  | insertMessage (messageId : Uuid) (content : String) (metadataJson : Json)
  | waitForUserInput
  | savePending (pending : Option ClarificationPayload) (expectedRevision : ℕ)
  | mergeRetrievalTrace (trace : Json)
  | storeResult (resultJson : Json)
  | persist (messageId : Uuid) (content : String) (metadataJson resultJson : Json)
      (terminal : AssistantResponseTerminal)
  | fail (errorJson : Json)
deriving DecidableEq

/-- The ids that are drawn for a step. -/
structure Draws where
  first : Uuid
  second : Uuid
deriving DecidableEq

inductive ChatAction where
  | request (client : PrincipalContext) (request : ChatRequest) (draws : Draws) (now : ℤ)
  /-- The next statement of a request. -/
  | resume (request : OpenRequest) (draws : Draws) (now : ℤ)
  | write (run : JobRun) (write : RunWrite) (now : ℤ)
  /-- The audit worker commits an event of a run. -/
  | recordAudit (run : JobRun) (row : AuditRow)
deriving DecidableEq

/-- One row written; an update names the whole new row. -/
inductive Write where
  | insertSession (session : ChatSession)
  | updateSession (session : ChatSession)
  | insertJob (job : ChatJob)
  | updateJob (job : ChatJob)
  | insertMessage (message : ChatMessage)
  | insertEvent (event : ChatJobEvent)
  | insertAudit (row : AuditRow)
  | openRequest (request : OpenRequest)
  | closeRequest (request : OpenRequest)
  | spawnRun (run : JobRun)
  | answer (userId : Uuid) (answer : Answer)

def Write.apply (store : ChatStore) : Write → ChatStore
  | insertSession session => { store with sessions := store.sessions ++ [session] }
  | updateSession session =>
    { store with sessions := replaceRow ChatSession.id session store.sessions }
  | insertJob job => { store with jobs := store.jobs ++ [job] }
  | updateJob job => { store with jobs := replaceRow ChatJob.id job store.jobs }
  | insertMessage message => { store with messages := store.messages ++ [message] }
  | insertEvent event => { store with events := store.events ++ [event] }
  | insertAudit row => { store with auditEvents := store.auditEvents ++ [row] }
  | openRequest request => { store with requests := store.requests ++ [request] }
  | closeRequest request => { store with requests := store.requests.erase request }
  | spawnRun run => { store with runs := store.runs ++ [run] }
  | answer userId reply => { store with answers := store.answers ++ [(userId, reply)] }

/-- The tables whose rows have an id of their own. -/
inductive ChatTable where
  | sessions | jobs | messages | events | auditEvents
deriving DecidableEq

def ChatStore.ids (store : ChatStore) : ChatTable → List Uuid
  | .sessions => store.sessions.map ChatSession.id
  | .jobs => store.jobs.map ChatJob.id
  | .messages => store.messages.map ChatMessage.id
  | .events => store.events.map ChatJobEvent.id
  | .auditEvents => store.auditEvents.map AuditRow.id

/-- The primary key a write inserts. -/
def Write.newKey : Write → Option (ChatTable × Uuid)
  | insertSession session => some (.sessions, session.id)
  | insertJob job => some (.jobs, job.id)
  | insertMessage message => some (.messages, message.id)
  | insertEvent event => some (.events, event.id)
  | insertAudit row => some (.auditEvents, row.id)
  | _ => none

def Write.isFresh (store : ChatStore) (write : Write) : Bool :=
  write.newKey.all fun key => key.2 ∉ store.ids key.1

section Requests

variable (uuidText : Uuid → String) (store : ChatStore) (client : PrincipalContext)
  (draws : Draws) (now : ℤ)

/-- The titles `create` and `rename` let through. -/
def createTitleAllowed (title : Option String) : Bool := title.all fun title => title.length ≤ 120

def renameTitleAllowed (title : String) : Bool :=
  1 ≤ (Text.trim title).length ∧ (Text.trim title).length ≤ 120

/-- What the first statement of `create` for a job leaves to do. -/
def openJob (sessionId : Uuid) (message : String) (clientJson : Json) : Write :=
  .openRequest ⟨client, .createJob sessionId message clientJson⟩

/-- What `respond` writes for a job that waits. -/
def respondWrites (job : ChatJob) (submission : ValidatedClarificationSubmission) : List Write :=
  let message := JobRepository.respondedMessage uuidText draws.first job submission now
  [.insertMessage message, .updateJob (JobRepository.responded job now),
    .insertEvent
      (JobRepository.respondedEvent uuidText draws.second draws.first job submission now),
    .openRequest ⟨client, .spawnRun job.id job.sessionId (.responded .inserted (some message))⟩]

/-- The writes of the first statement of a request. -/
def requestWrites : ChatRequest → List Write
  | .createSession title =>
    if createTitleAllowed title then
      let session := SessionRepository.create draws.first client.userId
        ((title.map Text.trim).filter (· ≠ "")) now
      [.insertSession session, .answer client.userId (.session (some session))]
    else [.answer client.userId .invalid]
  | .listSessions =>
    [.answer client.userId
      (.sessions (SessionRepository.listForUser store client.userId (includeLegacy client)))]
  | .getSession sessionId =>
    [.answer client.userId (.session
      (SessionRepository.getForUser store sessionId client.userId (includeLegacy client)))]
  | .renameSession sessionId title =>
    if renameTitleAllowed title then
      let renamed := SessionRepository.renameForUser store sessionId client.userId
        (includeLegacy client) (Text.trim title) now
      renamed.toList.map .updateSession ++ [.answer client.userId (.session renamed)]
    else [.answer client.userId .invalid]
  | .archiveSession sessionId =>
    let archived := SessionRepository.archiveForUser store sessionId client.userId
      (includeLegacy client) now
    archived.toList.map .updateSession ++
      [.answer client.userId (.archived (archived.map ChatSession.id))]
  | .listMessages sessionId =>
    if MessageRepository.visible store sessionId client.userId (includeLegacy client) then
      [.openRequest ⟨client, .listMessages sessionId⟩]
    else [.answer client.userId (.messages none)]
  | .createJob none message clientJson =>
    [.insertSession (SessionRepository.create draws.first client.userId none now),
      openJob client draws.first message clientJson]
  | .createJob (some sessionId) message clientJson =>
    match SessionRepository.getForUser store sessionId client.userId false with
    | some _ => [openJob client sessionId message clientJson]
    | none => [.answer client.userId (.created none)]
  | .getJob jobId =>
    [.answer client.userId
      (.job (JobRepository.getForUser store jobId client.userId (includeLegacy client)))]
  | .auditTimeline jobId =>
    match JobRepository.getForUser store jobId client.userId (includeLegacy client) with
    | some _ => [.openRequest ⟨client, .auditTimeline jobId⟩]
    | none => [.answer client.userId (.auditEvents none)]
  | .replayEvents jobId =>
    match JobRepository.getForUser store jobId client.userId (includeLegacy client) with
    | some _ => [.openRequest ⟨client, .replayEvents jobId⟩]
    | none => [.answer client.userId (.events none)]
  | .respond jobId submission =>
    match JobRepository.getInternalForUser store jobId client.userId with
    | none => [.answer client.userId (.responded .notFound none)]
    | some job =>
      if job.status ≠ .waitingForUserInput then
        [.answer client.userId (.responded .notActive none)]
      else if JobRepository.namesPending job submission then
        respondWrites uuidText client draws now job submission
      else [.answer client.userId (.responded .stale none)]

/-- The writes of the rest of a request. A job that is gone when it is read back stops the
request without an answer. -/
def continueWrites : Continuation → List Write
  | .listMessages sessionId =>
    [.answer client.userId (.messages (some (MessageRepository.list store sessionId)))]
  | .auditTimeline jobId =>
    [.answer client.userId (.auditEvents (some (JobRepository.listAuditEvents store jobId)))]
  | .replayEvents jobId =>
    [.answer client.userId (.events (some (JobRepository.listEvents store jobId)))]
  | .createJob sessionId message clientJson =>
    [.insertJob (JobRepository.create draws.first draws.second sessionId client.userId message
        clientJson now),
      .insertMessage (JobRepository.createdMessage draws.second draws.first sessionId message now),
      .openRequest ⟨client, .spawnRun draws.first sessionId
        (.created (some ⟨sessionId, draws.first, draws.second, "queued", "queued"⟩))⟩]
  | .spawnRun jobId sessionId answer =>
    match JobRepository.getInternalForUser store jobId client.userId with
    | some _ => [.spawnRun ⟨jobId, sessionId, client.userId⟩, .answer client.userId answer]
    | none => []

end Requests

/-- The update of its job by a run. -/
def RunWrite.job (run : JobRun) (now : ℤ) (job : ChatJob) : RunWrite → Option ChatJob
  | insertEvent .. => none
  | insertMessage .. => none
  | waitForUserInput => some (JobRepository.waitForUserInput job now)
  | savePending pending expectedRevision =>
    if job.memoryRevision = expectedRevision then
      some { job with
        pendingClarification := pending, memoryRevision := job.memoryRevision + 1 }
    else none
  | mergeRetrievalTrace trace =>
    if job.userId = some run.userId then
      some (JobRepository.mergeRetrievalTrace job trace now)
    else none
  | storeResult resultJson => some (JobRepository.storeAssistantResponseResult job resultJson now)
  | persist _ _ _ resultJson terminal =>
    some (JobRepository.persistTerminalState job resultJson now terminal)
  | fail errorJson => some (JobRepository.fail job errorJson now)

/-- The rows a run inserts. -/
def RunWrite.inserts (run : JobRun) (now : ℤ) : RunWrite → List Write
  | insertEvent eventId eventType step payload =>
    [.insertEvent ⟨eventId, run.jobId, eventType, step, payload, now⟩]
  | insertMessage messageId content metadataJson =>
    [.insertMessage (insertAssistantMessage messageId run content metadataJson now)]
  | persist messageId content metadataJson _ _ =>
    [.insertMessage (insertAssistantMessage messageId run content metadataJson now)]
  | _ => []

/-- The writes of a run; an update is by the id of the job. -/
def runWrites (store : ChatStore) (run : JobRun) (write : RunWrite) (now : ℤ) : List Write :=
  let updated := (store.jobs.find? fun job => job.id = run.jobId).bind (write.job run now)
  write.inserts run now ++ updated.toList.map .updateJob

/-- The writes of an action, when it can be taken. -/
def actionWrites (uuidText : Uuid → String) (store : ChatStore) : ChatAction → Option (List Write)
  | .request client request draws now =>
    some (requestWrites uuidText store client draws now request)
  | .resume request draws now =>
    if request ∈ store.requests then
      some (.closeRequest request :: continueWrites store request.client draws now request.rest)
    else none
  | .write run write now => if run ∈ store.runs then some (runWrites store run write now) else none
  | .recordAudit run row =>
    if run ∈ store.runs ∧ row.event.jobId = run.jobId then some [.insertAudit row] else none

/-- Applies the writes in order; an id that is inserted has to be new in its table. -/
def applyAll (store : ChatStore) : List Write → Option ChatStore
  | [] => some store
  | write :: rest => if write.isFresh store then applyAll (write.apply store) rest else none

def chatStep (uuidText : Uuid → String) (store : ChatStore) (action : ChatAction) :
    Option ChatStore :=
  (actionWrites uuidText store action).bind (applyAll store)

end FineractReports.Conversation
