import FineractReports.Job.Model
import FineractReports.Workflow.State

/-!
# The job repository

The statements the job service issues on a job's rows. Messages, checkpoints and
audit rows are only ever written, so they are left out; the memory row starts at
revision 0 without a pending clarification.
-/

namespace FineractReports.Job

open Workflow

inductive PersistResponseOutcome where
  | inserted | notFound | notActive | stale
deriving DecidableEq, Repr

inductive AssistantResponseTerminal where
  | completed
  | failed (errorJson : Json)
deriving DecidableEq

namespace JobRepository

/-- The row of a job that was just created. -/
def create (jobId userId : Uuid) (stateJson : Json) : JobTables where
  jobId := jobId
  userId := userId
  sessionArchived := false
  status := .queued
  currentStep := "queued"
  resumeFromStep := none
  stateJson := stateJson
  resultJson := none
  errorJson := none
  workflowId := none
  workflowRevision := 0
  currentNodeId := none
  pendingClarification := none
  memoryRevision := 0
  nodeRuns := []
  events := []

def waitForUserInput (tables : JobTables) : JobTables :=
  { tables with status := .waitingForUserInput, currentStep := "waiting_for_user_input" }

/-- A structured submission has to name the pending clarification. -/
def namesPending (tables : JobTables) (submission : ValidatedClarificationSubmission) : Prop :=
  match submission.clarificationId, submission.clarificationRevision with
  | some id, some revision => tables.pendingClarification.any
      (fun payload => payload.id = id ∧ payload.revision = revision) = true
  | _, _ => True

instance (tables : JobTables) (submission : ValidatedClarificationSubmission) :
    Decidable (namesPending tables submission) := by
  unfold namesPending
  split <;> infer_instance

def optionalText (value : Option String) : Json :=
  match value with
  | some text => .str text
  | none => .null

/-- What an accepted response writes; the pending clarification stays. -/
def responded (tables : JobTables) (submission : ValidatedClarificationSubmission)
    (messageId : Uuid) : JobTables :=
  { tables with
    status := .queued
    currentStep := "queued"
    resumeFromStep := some tables.currentStep }.insertEvent "status" (some "queued")
      (.obj [("status", .str "queued"), ("current_step", .str "queued"),
        ("message_id", .int messageId),
        ("selected_option_id", optionalText submission.selectedOptionId)])

/-- Checked and written under the lock of the job row. -/
def respond (tables : JobTables) (jobId userId : Uuid)
    (submission : ValidatedClarificationSubmission) (messageId : Uuid) :
    PersistResponseOutcome × JobTables :=
  if ¬ (tables.jobId = jobId ∧ tables.userId = userId ∧ tables.sessionArchived = false) then
    (.notFound, tables)
  else if tables.status ≠ .waitingForUserInput then (.notActive, tables)
  else if ¬ namesPending tables submission then (.stale, tables)
  else (.inserted, responded tables submission messageId)

def complete (tables : JobTables) (resultJson : Json) : JobTables :=
  { tables with
    status := .completed, currentStep := "completed", resultJson := some resultJson
    errorJson := none }

def persistTerminalState (tables : JobTables) (resultJson : Json)
    (terminal : AssistantResponseTerminal) : JobTables :=
  match terminal with
  | .completed => complete tables resultJson
  | .failed errorJson =>
    { tables with
      status := .failed, currentStep := "failed", resultJson := some resultJson
      errorJson := some errorJson }

def storeAssistantResponseResult (tables : JobTables) (resultJson : Json) : JobTables :=
  { tables with resultJson := some resultJson }

/-- Never overwrites a job that is already terminal; tells whether it wrote. -/
def fail (tables : JobTables) (errorJson : Json) : Bool × JobTables :=
  if tables.status.isTerminal then (false, tables)
  else (true, { tables with
    status := .failed, currentStep := "failed", errorJson := some errorJson })

end JobRepository

namespace JobMemoryRepository

/-- Rewrites the pending clarification when the revision is still the expected one. -/
def save (tables : JobTables) (pending : Option ClarificationPayload) (expectedRevision : ℕ) :
    Except String JobTables :=
  if tables.memoryRevision = expectedRevision then
    .ok { tables with
      pendingClarification := pending, memoryRevision := tables.memoryRevision + 1 }
  else .error "assistant job memory was updated by another request"

end JobMemoryRepository

section Lemmas

variable {tables after : JobTables}

/-- A response changes nothing unless it is accepted, and it is accepted only while
the job waits and the submission names what is pending. -/
theorem respond_eq {jobId userId : Uuid} {submission : ValidatedClarificationSubmission}
    {messageId : Uuid} {outcome : PersistResponseOutcome}
    (h : JobRepository.respond tables jobId userId submission messageId = (outcome, after)) :
    (outcome = .inserted ∧ tables.status = .waitingForUserInput ∧
      JobRepository.namesPending tables submission ∧
      after = JobRepository.responded tables submission messageId) ∨
    (outcome ≠ .inserted ∧ after = tables) := by
  unfold JobRepository.respond at h
  split_ifs at h with howner hwaiting hnames
  · obtain ⟨rfl, rfl⟩ := Prod.mk.inj h
    exact Or.inr ⟨by simp, rfl⟩
  · obtain ⟨rfl, rfl⟩ := Prod.mk.inj h
    exact Or.inl ⟨rfl, not_not.mp hwaiting, hnames, rfl⟩
  · obtain ⟨rfl, rfl⟩ := Prod.mk.inj h
    exact Or.inr ⟨by simp, rfl⟩
  · obtain ⟨rfl, rfl⟩ := Prod.mk.inj h
    exact Or.inr ⟨by simp, rfl⟩

theorem fail_eq {errorJson : Json} {written : Bool}
    (h : JobRepository.fail tables errorJson = (written, after)) :
    (written = false ∧ tables.status.isTerminal = true ∧ after = tables) ∨
      (written = true ∧ tables.status.isTerminal = false ∧ after = { tables with
        status := .failed, currentStep := "failed", errorJson := some errorJson }) := by
  unfold JobRepository.fail at h
  split_ifs at h with hterminal
  · obtain ⟨rfl, rfl⟩ := Prod.mk.inj h
    exact Or.inl ⟨rfl, hterminal, rfl⟩
  · obtain ⟨rfl, rfl⟩ := Prod.mk.inj h
    exact Or.inr ⟨rfl, by simpa using hterminal, rfl⟩

theorem save_eq_ok {pending : Option ClarificationPayload} {expectedRevision : ℕ}
    (h : JobMemoryRepository.save tables pending expectedRevision = .ok after) :
    tables.memoryRevision = expectedRevision ∧ after = { tables with
      pendingClarification := pending, memoryRevision := tables.memoryRevision + 1 } := by
  unfold JobMemoryRepository.save at h
  split_ifs at h with hrevision
  exact ⟨hrevision, (Except.ok.inj h).symm⟩

end Lemmas

end FineractReports.Job
