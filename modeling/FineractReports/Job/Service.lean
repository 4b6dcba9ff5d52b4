import FineractReports.Job.Repository
import FineractReports.Library.Transition

/-!
# The job service

One job, from its creation on: the pipeline runs spawned for it, the answers
accepted for it and the rows they share. Every step is one statement, one
transaction or one Redis command, so runs and calls interleave freely. A run may
fail or panic wherever its code can; which question it asks and how it ends is
left open.
-/

namespace FineractReports.Job

open Workflow

/-- How a run's graph ended. -/
inductive TerminalState where
  | waitingForUserInput | completed | failedOperational | blockedByPolicy | unsupported
  | outOfDomain | contextWindowExceeded
deriving DecidableEq, Repr

/-- The events that end a stream. -/
inductive TerminalEvent where
  | final | error | clarification
deriving DecidableEq, Repr

namespace TerminalEvent

def name : TerminalEvent → String
  | final => "final"
  | error => "error"
  | clarification => "clarification"

end TerminalEvent

/-- `JobRunOutcome::from_terminal_state`. -/
def TerminalState.eventKind : TerminalState → TerminalEvent
  | waitingForUserInput => .clarification
  | failedOperational => .error
  | _ => .final

/-- The statements a workflow runner issues on node rows while the graph runs. -/
inductive NodeStatement where
  | begin (run : WorkflowNodeRun)
  | complete (run : WorkflowNodeRun) (output : Json) (rowsReturned durationMs : Int32)
  | fail (run : WorkflowNodeRun) (durationMs : Int32)
  | addBudgetConsumed (queries rows ms : ℤ)

def NodeStatement.execute (tables : JobTables) : NodeStatement → Except String JobTables
  | begin run => .ok (tables.beginNode run)
  | complete run output rowsReturned durationMs =>
    tables.completeNode run output rowsReturned durationMs
  | fail run durationMs => .ok (tables.failNode run durationMs)
  | addBudgetConsumed queries rows ms => .ok (tables.addBudgetConsumed queries rows ms)

/-- Where a pipeline run is. Before `persisted` its final status write is ahead of it;
from there on its terminal event is. -/
inductive RunPhase where
  | spawned
  | working (expectedRevision : ℕ) (workflowId : Option Uuid) (paused : Bool)
  | saved (terminal : Option TerminalState)
  | stored
  | failing
  | persisted (event : TerminalEvent)
  | inserted (event : TerminalEvent)
  | published (event : TerminalEvent)
  | finished
deriving DecidableEq, Repr

namespace RunPhase

def isFinished : RunPhase → Bool
  | finished => true
  | _ => false

/-- A status write of the run is still to come, guarded or not. -/
def statusWriteAhead : RunPhase → Bool
  | spawned | working _ _ _ | saved _ | stored | failing => true
  | _ => false

/-- A status write that does not look at the status can still come. A run that has
paused and read an outdated memory revision fails at its save. -/
def unguardedWriteAhead (memoryRevision : ℕ) : RunPhase → Bool
  | spawned | stored => true
  | working revision _ paused => !paused || revision = memoryRevision
  | saved terminal => terminal.isSome
  | _ => false

/-- Inside the graph and its projection, where an error or a panic is caught. -/
def inPipeline : RunPhase → Bool
  | spawned | working _ _ _ | saved _ | stored | persisted _ => true
  | _ => false

/-- The run can still pause a workflow. -/
def pauseAhead : RunPhase → Bool
  | spawned | working _ _ false => true
  | _ => false

end RunPhase

/-- A spawned `run_graph_skeleton_recording_failure`; the turn counts the answers that
had been accepted when it was spawned. -/
structure PipelineRun where
  turn : ℕ
  phase : RunPhase
deriving DecidableEq

/-- An accepted answer. -/
inductive Answer where
  | inserted (submission : ValidatedClarificationSubmission)
  | resumed (request : WorkflowResumeRequest)
deriving DecidableEq

namespace Answer

/-- The clarification an answer names; a legacy one names none. -/
def clarificationId : Answer → Option Uuid
  | inserted submission => submission.clarificationRevision.bind fun _ => submission.clarificationId
  | resumed request => some request.clarificationId

def isInserted : Answer → Bool
  | inserted _ => true
  | resumed _ => false

end Answer

/-- The `live_state` key; the turn of the run that set it is not stored in Redis. -/
structure LiveState where
  event : TerminalEvent
  turn : ℕ
deriving DecidableEq

structure JobSystem where
  tables : JobTables
  runs : List PipelineRun
  answers : List Answer
  liveState : Option LiveState

namespace JobSystem

/-- After `create`: the row is committed and the first run spawned. -/
def created (jobId userId : Uuid) (stateJson : Json) : JobSystem where
  tables := JobRepository.create jobId userId stateJson
  runs := [⟨0, .spawned⟩]
  answers := []
  liveState := none

end JobSystem

inductive RunAction where
  | load
  | install (workflowId : Uuid) (workflow : Json)
  | node (statement : NodeStatement)
  | pause (nodeId : NodeId) (clarification : ClarificationPayload)
  | save (pending : Option ClarificationPayload) (terminal : Option TerminalState)
  | store (resultJson : Json)
  | write (resultJson : Json)
  | progress (delta : Bool) (step : String) (payload : Json)
  | abort
  | fail
  | insertTerminal (step : Option String) (payload : Json)
  | publish
  | setLiveState

inductive JobAction where
  | run (index : ℕ) (action : RunAction)
  | respond (jobId userId : Uuid) (submission : ValidatedClarificationSubmission)
    (messageId : Uuid)
  | resume (request : WorkflowResumeRequest)
  | expireLiveState

def failureJson : Json :=
  .obj [("code", .str "assistant_failed"),
    ("message", .str "The assistant could not complete this request.")]

/-- The status write of a saved run that does not wait for the user. -/
def persistTerminal (tables : JobTables) (resultJson : Json) (terminal : TerminalState) :
    JobTables :=
  JobRepository.persistTerminalState tables resultJson
    (if terminal = .failedOperational then .failed failureJson else .completed)

/-- One step of a run. A statement that fails leaves the rows and ends the run's
graph, as an error or a panic anywhere before the terminal event does. -/
def runStep (redis : Bool) (tables : JobTables) (phase : RunPhase) (action : RunAction) :
    Option (JobTables × RunPhase) :=
  match phase, action with
  | .spawned, .load => some (tables, .working tables.memoryRevision none false)
  | .working revision none false, .install workflowId workflow =>
    match tables.installWorkflow tables.userId workflowId workflow with
    | .ok installed => some (installed, .working revision (some workflowId) false)
    | .error _ => none
  | .working revision (some workflowId) paused, .node statement =>
    match statement.execute tables with
    | .ok after => some (after, .working revision (some workflowId) paused)
    | .error _ => none
  | .working revision (some workflowId) false, .pause nodeId clarification =>
    match tables.markWorkflowPaused tables.userId workflowId nodeId clarification with
    | .ok paused => some (paused, .working revision (some workflowId) true)
    | .error _ => none
  | .working revision _ _, .save pending terminal =>
    match JobMemoryRepository.save tables pending revision with
    | .ok saved => some (saved, .saved terminal)
    | .error _ => some (tables, .failing)
  | .saved (some .waitingForUserInput), .store resultJson =>
    some (JobRepository.storeAssistantResponseResult tables resultJson, .stored)
  | .stored, .write _ => some (JobRepository.waitForUserInput tables, .persisted .clarification)
  | .saved (some terminal), .write resultJson =>
    if terminal = .waitingForUserInput then none
    else some (persistTerminal tables resultJson terminal, .persisted terminal.eventKind)
  | phase, .progress delta step payload =>
    if phase.inPipeline then
      some (tables.insertEvent (if delta then "delta" else "stage") (some step) payload, phase)
    else none
  | phase, .abort =>
    if phase.inPipeline then
      some (tables, .failing)
    else none
  | .failing, .fail =>
    match JobRepository.fail tables failureJson with
    | (true, failed) => some (failed, .persisted .error)
    | (false, _) => some (tables, .finished)
  | .persisted event, .insertTerminal step payload =>
    some (tables.insertEvent event.name step payload,
      if redis then .inserted event else .finished)
  | .inserted event, .publish => some (tables, .published event)
  | .published _, .setLiveState => some (tables, .finished)
  | _, _ => none

/-- What a run's step leaves in `live_state`. -/
def liveStateAfter (run : PipelineRun) (action : RunAction) (before : Option LiveState) :
    Option LiveState :=
  match run.phase, action with
  | .published event, .setLiveState => some ⟨event, run.turn⟩
  | _, _ => before

/-- An accepted response spawns a run in the same request; an accepted resume does
not. -/
def jobStep (redis : Bool) (state : JobSystem) (action : JobAction) : Option JobSystem :=
  match action with
  | .run index action =>
    match state.runs[index]? with
    | some run =>
      (runStep redis state.tables run.phase action).map fun after =>
        { state with
          tables := after.1
          runs := state.runs.set index { run with phase := after.2 }
          liveState := liveStateAfter run action state.liveState }
    | none => none
  | .respond jobId userId submission messageId =>
    match JobRepository.respond state.tables jobId userId submission messageId with
    | (.inserted, after) => some { state with
        tables := after
        runs := state.runs ++ [⟨state.answers.length + 1, .spawned⟩]
        answers := state.answers ++ [.inserted submission] }
    | _ => some state
  | .resume request =>
    match state.tables.resume request with
    | (.resumed, after) => some { state with
        tables := after
        answers := state.answers ++ [.resumed request] }
    | _ => some state
  | .expireLiveState => some { state with liveState := none }

def jobMachine (redis : Bool) : Machine JobSystem JobAction where
  init state := ∃ jobId userId stateJson, state = JobSystem.created jobId userId stateJson
  step := jobStep redis

/-! A job whose first run pauses at a clarification node, used by the examples. -/

namespace PausedJob

def question : ClarificationPayload :=
  ⟨1, 5, 0, .collectFields, "Which period?", [], [], 0, none, false, true, some 7,
    some "clarify_from_date", some "execute_query", none⟩

def nodeId : NodeId := ⟨"clarify_from_date", by decide⟩

def nodeRun : WorkflowNodeRun := JobTables.startedRun 7 nodeId 0 11 0

def created : JobSystem := JobSystem.created 1 2 (.obj [])

/-- Up to the pause, which makes the job answerable. -/
def pausing : List JobAction :=
  [.run 0 .load, .run 0 (.install 7 (.obj [])), .run 0 (.node (.begin nodeRun)),
   .run 0 (.pause nodeId question)]

/-- The same run's own writes after the pause. -/
def projecting : List JobAction :=
  [.run 0 (.save (some question) (some .waitingForUserInput)), .run 0 (.store (.obj [])),
   .run 0 (.write (.obj [])), .run 0 (.insertTerminal (some "complete_or_wait") (.obj []))]

/-- The answer through the paused workflow node. -/
def resumeRequest : WorkflowResumeRequest := ⟨1, 2, 7, nodeId, 5, 2, .obj []⟩

/-- The answer through the pending clarification. -/
def submission : ValidatedClarificationSubmission where
  clarificationId := some 5
  clarificationRevision := some 0
  selectedOptionId := none
  sourceMessage := "January"
  displayMessage := "January"
  answers := []
  constraintPatch := []

end PausedJob

end FineractReports.Job
