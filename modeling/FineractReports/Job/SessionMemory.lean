import FineractReports.Job.Service

/-!
# Session memory

The projection of a session's jobs that every run rewrites after it has saved its own
job memory: one row per session, read, changed in memory and written back under a
check of its revision.
-/

namespace FineractReports.Job

structure RelevantJobSummary where
  jobId : Uuid
  sessionId : Option Uuid
  domain : Option String
  intent : Option String
  createdAt : Option String
  summary : String
  retrievalPlan : Json
  evidenceDecision : Json
  evidenceRefs : List String
deriving DecidableEq

structure SessionMemory where
  sessionId : Uuid
  summary : Option String
  activeDomain : Option String
  pendingClarification : Option ClarificationPayload
  pendingClarificationSourceIntent : Option SourceIntentSnapshot
  entities : List AssistantEntity
  relevantJobs : List RelevantJobSummary
  contextWarnings : Json
  revision : ℕ
deriving DecidableEq

/-- What the projection reads of a job memory; `reason` is the one of its intent. -/
structure JobMemory where
  jobId : Uuid
  terminalState : Option TerminalState
  intent : Option AssistantIntent
  reason : String
  warnings : Json
  selectedCapability : Option String
  retrievalPlan : Json
  evidenceDecision : Json
  pendingClarification : Option ClarificationPayload
deriving DecidableEq

/-- The `Debug` name in lower case. -/
def domainName : AssistantDomain → String
  | .savings => "savings"
  | .client => "client"
  | .organization => "organization"
  | .groupCenter => "groupcenter"
  | .loan => "loan"
  | .accounting => "accounting"
  | .tax => "tax"
  | .audit => "audit"
  | .unknown => "unknown"

/-- The `Debug` name in lower case. -/
def intentName : AssistantIntentKind → String
  | .greeting => "greeting"
  | .help => "help"
  | .dataLookup => "datalookup"
  | .clarificationReply => "clarificationreply"
  | .followUp => "followup"
  | .unsafeRequest => "unsaferequest"
  | .outOfDomain => "outofdomain"
  | .reportRequest => "reportrequest"

namespace SessionMemoryRepository

/-- The row of a session; a missing one is inserted with the column defaults. -/
def getOrCreate (row : Option SessionMemory) (sessionId : Uuid) : SessionMemory :=
  row.getD
    { sessionId := sessionId
      summary := none
      activeDomain := none
      pendingClarification := none
      pendingClarificationSourceIntent := none
      entities := []
      relevantJobs := []
      contextWarnings := .arr []
      revision := 0 }

/-- Rewrites the row when its revision is still the expected one. -/
def save (row : Option SessionMemory) (memory : SessionMemory) (expectedRevision : ℕ) :
    Except String SessionMemory :=
  match row with
  | some current =>
    if current.revision = expectedRevision then
      .ok { memory with revision := current.revision + 1 }
    else .error "assistant session memory was updated by another request"
  | none => .error "assistant session memory was updated by another request"

def summaryOf (sessionId : Uuid) (job : JobMemory) : RelevantJobSummary where
  jobId := job.jobId
  sessionId := some sessionId
  domain := job.intent.map fun intent => domainName intent.domain
  intent := job.intent.map fun intent => intentName intent.intent
  createdAt := none
  summary := (job.selectedCapability.or (job.intent.map fun _ => job.reason)).getD
    "completed assistant job"
  retrievalPlan := job.retrievalPlan
  evidenceDecision := job.evidenceDecision
  evidenceRefs := job.selectedCapability.toList

/-- The newest ten completed jobs. -/
def recordJob (jobs : List RelevantJobSummary) (sessionId : Uuid) (job : JobMemory) :
    List RelevantJobSummary :=
  if job.terminalState = some .completed then (summaryOf sessionId job :: jobs).take 10 else jobs

/-- What `update_after_job` makes of the row it read. -/
def updatedAfterJob (memory : SessionMemory) (sessionId : Uuid) (job : JobMemory)
    (pending : Option (Option ClarificationPayload)) : SessionMemory :=
  let memory := { memory with
    activeDomain := job.intent.map fun intent => domainName intent.domain
    entities := (job.intent.map (·.entities)).getD memory.entities
    contextWarnings := job.warnings
    relevantJobs := recordJob memory.relevantJobs sessionId job }
  match pending with
  | some pending => { memory with
      pendingClarification := pending
      pendingClarificationSourceIntent := pending.bind (·.sourceIntent) }
  | none => memory

section Lemmas

variable {current memory : SessionMemory} {expectedRevision : ℕ}

theorem save_of_current (h : current.revision = expectedRevision) :
    save (some current) memory expectedRevision =
      .ok { memory with revision := current.revision + 1 } :=
  if_pos h

theorem save_of_outdated (h : current.revision ≠ expectedRevision) :
    save (some current) memory expectedRevision =
      .error "assistant session memory was updated by another request" :=
  if_neg h

theorem updatedAfterJob_relevantJobs (sessionId : Uuid) (job : JobMemory)
    (pending : Option (Option ClarificationPayload)) :
    (updatedAfterJob memory sessionId job pending).relevantJobs =
      recordJob memory.relevantJobs sessionId job := by
  cases pending <;> rfl

theorem recordJob_completed {jobs : List RelevantJobSummary} {sessionId : Uuid} {job : JobMemory}
    (h : job.terminalState = some .completed) :
    (recordJob jobs sessionId job).map (·.jobId) =
      (job.jobId :: jobs.map (·.jobId)).take 10 := by
  unfold recordJob
  rw [if_pos h, List.map_take]
  rfl

theorem recordJob_other {jobs : List RelevantJobSummary} {sessionId : Uuid} {job : JobMemory}
    (h : job.terminalState ≠ some .completed) : recordJob jobs sessionId job = jobs :=
  if_neg h

end Lemmas

end SessionMemoryRepository

end FineractReports.Job
