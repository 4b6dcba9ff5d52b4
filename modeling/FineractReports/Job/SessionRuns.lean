import FineractReports.Job.ServiceEffect
import FineractReports.Job.SessionMemory

/-!
# The runs of one session

Any number of jobs of one session, one pipeline run each. The runs share only the
session memory, which each of them reads and writes back after its own save and
before it persists its terminal state.
-/

namespace FineractReports.Job

open Workflow

/-- How far a run is with the session memory. -/
inductive SessionUpdate where
  | pending
  | read (memory : SessionMemory)
  | saved
deriving DecidableEq

/-- Why a run returned an error: the session memory had been updated by another run, or
anything in the run itself. -/
inductive RunError where
  | own
  | sessionMemory
deriving DecidableEq

/-- A job of the session and its run; `memory` is the job memory it has saved. -/
structure SessionRun where
  jobId : Uuid
  tables : JobTables
  phase : RunPhase
  memory : Option (JobMemory × Option (Option ClarificationPayload))
  session : SessionUpdate
  error : Option RunError

namespace SessionRun

def created (userId : Uuid) (stateJson : Json) (jobId : Uuid) : SessionRun where
  jobId := jobId
  tables := JobRepository.create jobId userId stateJson
  phase := .spawned
  memory := none
  session := .pending
  error := none

/-- The job memory the run saved is that of a completed job. -/
def isCompleted (run : SessionRun) : Bool :=
  run.memory.any fun saved => saved.1.terminalState = some .completed

/-- The run has entered its completed job in the session memory. -/
def isEntered (run : SessionRun) : Bool := run.session = .saved ∧ run.isCompleted = true

end SessionRun

structure SessionSystem where
  sessionId : Uuid
  memory : Option SessionMemory
  runs : List SessionRun

inductive SessionAction where
  | run (index : ℕ) (action : RunAction)
  | save (index : ℕ) (memory : JobMemory) (pending : Option (Option ClarificationPayload))
    (hasResponse : Bool)
  | readSession (index : ℕ)
  | saveSession (index : ℕ)

/-- The statements of the projection, issued once the session memory is written. -/
def RunAction.afterSession : RunAction → Bool
  | store _ | write _ => true
  | _ => false

def RunAction.isSave : RunAction → Bool
  | save _ _ => true
  | _ => false

def RunAction.isAbort : RunAction → Bool
  | abort => true
  | _ => false

/-- The state a run saved its memory with decides how it goes on; without a response
the run ends there. -/
def savedTerminal (memory : JobMemory) (hasResponse : Bool) : Option TerminalState :=
  if hasResponse then some (memory.terminalState.getD .failedOperational) else none

/-- A statement of the run that concerns the job's own rows. -/
def SessionRun.step (redis : Bool) (run : SessionRun) (action : RunAction) : Option SessionRun :=
  if action.isSave = true ∨ (action.afterSession = true ∧ run.session ≠ .saved) then none
  else (runStep redis run.tables run.phase action).map fun after =>
    { run with
      tables := after.1
      phase := after.2
      error := if action.isAbort then some .own else run.error }

/-- The run saves its job memory. -/
def SessionRun.save (redis : Bool) (run : SessionRun) (memory : JobMemory)
    (pending : Option (Option ClarificationPayload)) (hasResponse : Bool) : Option SessionRun :=
  let memory := { memory with
    jobId := run.jobId
    pendingClarification := pending.getD memory.pendingClarification }
  (runStep redis run.tables run.phase
      (.save memory.pendingClarification (savedTerminal memory hasResponse))).map fun after =>
    if after.2 = .failing then
      { run with tables := after.1, phase := after.2, error := some .own }
    else { run with tables := after.1, phase := after.2, memory := some (memory, pending) }

def RunPhase.isSaved : RunPhase → Bool
  | saved _ => true
  | _ => false

/-- Writes back what the run makes of the session memory it read; an outdated revision
is the run's own error. -/
def SessionRun.saveSession (row : Option SessionMemory) (sessionId : Uuid) (run : SessionRun) :
    Option (Option SessionMemory × SessionRun) :=
  match run.phase, run.session, run.memory with
  | .saved _, .read snapshot, some (memory, pending) =>
    match SessionMemoryRepository.save row
      (SessionMemoryRepository.updatedAfterJob snapshot sessionId memory pending)
      snapshot.revision with
    | .ok saved => some (some saved, { run with session := .saved })
    | .error _ => some (row, { run with phase := .failing, error := some .sessionMemory })
  | _, _, _ => none

namespace SessionSystem

/-- The session memory as a run would read it. -/
def current (state : SessionSystem) : SessionMemory :=
  SessionMemoryRepository.getOrCreate state.memory state.sessionId

def setRun (state : SessionSystem) (index : ℕ) (run : SessionRun) : SessionSystem :=
  { state with runs := state.runs.set index run }

end SessionSystem

def sessionStep (redis : Bool) (state : SessionSystem) (action : SessionAction) :
    Option SessionSystem :=
  match action with
  | .run index action => do
    let run ← state.runs[index]?
    let after ← run.step redis action
    pure (state.setRun index after)
  | .save index memory pending hasResponse => do
    let run ← state.runs[index]?
    let after ← run.save redis memory pending hasResponse
    pure (state.setRun index after)
  | .readSession index => do
    let run ← state.runs[index]?
    if run.phase.isSaved = true ∧ run.session = .pending then
      pure { state.setRun index { run with session := .read state.current } with
        memory := some state.current }
    else none
  | .saveSession index => do
    let run ← state.runs[index]?
    let (row, after) ← run.saveSession state.memory state.sessionId
    pure { state.setRun index after with memory := row }

/-- Any jobs of the session, just created, over any session memory. -/
def sessionMachine (redis : Bool) : Machine SessionSystem SessionAction where
  init state := ∃ (userId : Uuid) (stateJson : Json) (jobIds : List Uuid),
    state.runs = jobIds.map (SessionRun.created userId stateJson)
  step := sessionStep redis

end FineractReports.Job
