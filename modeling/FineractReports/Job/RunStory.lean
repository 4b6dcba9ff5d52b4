import FineractReports.Job.ResponseProjection

/-!
# What a run tells

One background run of a job, with everything it stores: the stages its pipeline reports, which a
second task inserts while the pipeline goes on, the response, the parts of its markdown and the
event that ends the stream. Every statement may be lost, and one whose answer is lost may be stored
all the same; the pipeline may fail or panic anywhere. A statement that is cut off is stored before
the run goes on or not at all. Others may change the status of the job between any two steps.
-/

namespace FineractReports.Job

open Execution Workflow

/-! ### Progress -/

inductive Stage where
  | routing | retrieval | reranking | policy | execution | formatting | understanding | planning
  | verifying
  | node (id : String)
  | composing
deriving DecidableEq, Repr

namespace Stage

def asStr : Stage → String
  | routing => "routing"
  | retrieval => "retrieval"
  | reranking => "reranking"
  | policy => "policy"
  | execution => "execution"
  | formatting => "formatting"
  | understanding => "understanding"
  | planning => "planning"
  | verifying => "verifying"
  | node _ => "node"
  | composing => "composing"

def nodeId : Stage → Option String
  | node id => some id
  | _ => none

end Stage

inductive ProgressState where
  | started | finished
deriving DecidableEq, Repr

structure ProgressEvent where
  stage : Stage
  state : ProgressState
  ms : Option ℕ
  detail : Option String
deriving DecidableEq, Repr

namespace ProgressEvent

def started (stage : Stage) : ProgressEvent := ⟨stage, .started, none, stage.nodeId⟩

def finished (stage : Stage) (ms : ℕ) : ProgressEvent := ⟨stage, .finished, some ms, stage.nodeId⟩

end ProgressEvent

/-! ### What a run stores -/

inductive EventPayload where
  | stage (stage : String) (state : ProgressState) (ms : Option ℕ)
  | delta (seq : ℕ) (text : String)
  | response (payload : ResponsePayload)
  | message (message : String)

/-- A row of `chat_job_events`. -/
structure EventRow where
  eventType : String
  step : Option String
  payload : EventPayload

/-- A statement or a transaction that was committed. The status of a persisted response is written
with it. -/
inductive RunRecord where
  | event (row : EventRow)
  | message (message : AssistantMessage)
  | result (resultJson : ResultJson)
  | waiting
  | persisted (message : AssistantMessage) (resultJson : ResultJson) (status : JobStatus)
  | failed

def RunRecord.event? : RunRecord → Option EventRow
  | event row => some row
  | _ => none

def RunRecord.isEvent (record : RunRecord) : Bool := record.event?.isSome

/-- The status a record leaves the job in. -/
def RunRecord.status? : RunRecord → Option JobStatus
  | waiting => some .waitingForUserInput
  | persisted _ _ status => some status
  | failed => some .failed
  | _ => none

def stageEvent (event : ProgressEvent) : RunRecord :=
  .event ⟨"stage", some event.stage.asStr, .stage event.stage.asStr event.state event.ms⟩

def deltaEvent (part : String × ℕ) : RunRecord :=
  .event ⟨"delta", some "formatting", .delta part.2 part.1⟩

def errorEvent : RunRecord :=
  .event ⟨"error", none, .message "The assistant could not complete this request."⟩

section Response

variable (turn : TurnRun)

/-- The parts of the markdown, numbered. -/
def numberedParts : List (String × ℕ) := (projections turn).deltas.zipIdx

def responseEvent : RunRecord :=
  .event ⟨turn.result.terminal.eventKind.name, some "complete_or_wait",
    .response (projections turn).payload⟩

/-- The writes that store a response: one transaction, or three when it is a question. -/
def responseWrites : List RunRecord :=
  let shown := projections turn
  match turn.result.terminal with
  | .waitingForUserInput => [.message shown.message, .result shown.resultJson, .waiting]
  | .failedOperational => [.persisted shown.message shown.resultJson .failed]
  | _ => [.persisted shown.message shown.resultJson .completed]

end Response

/-! ### The run -/

/-- What the run learns of a statement, and what became of it. -/
inductive Fate where
  | done | unacknowledged | lost
deriving DecidableEq, Repr

/-- What is left of something that a statement stores. -/
def Fate.kept {α : Type*} (stored : α) : Fate → List α
  | lost => []
  | _ => [stored]

inductive BodyResult where
  | answered | abandoned | failed
deriving DecidableEq, Repr

inductive RunEnd where
  | told | reported | silent
deriving DecidableEq, Repr

inductive StoryPhase where
  | working
  | storing (ahead : List RunRecord)
  /-- The pipeline has ended; the stages that it reported are still inserted. -/
  | closing (result : BodyResult)
  | telling (ahead : List (String × ℕ))
  | failing
  | reporting
  | over (how : RunEnd)

namespace StoryPhase

/-- The pipeline runs and can report. -/
def inBody : StoryPhase → Bool
  | working | storing _ => true
  | _ => false

def forwards : StoryPhase → Bool
  | working | storing _ | closing _ => true
  | _ => false

/-- Where a panic is caught. -/
def isCaught : StoryPhase → Bool
  | working | storing _ | closing _ | telling _ => true
  | _ => false

end StoryPhase

/-- `queue` holds what was reported and not inserted yet, `status` is that of the job's row. Nothing
went wrong so far in a `smooth` run; `reopened` says that others took a terminal status away. -/
structure RunState where
  phase : StoryPhase
  queue : List ProgressEvent
  reported : List ProgressEvent
  log : List RunRecord
  status : JobStatus
  smooth : Bool
  reopened : Bool

inductive StoryAction where
  | report (event : ProgressEvent)
  | forward (fate : Fate)
  | answer
  | abandon
  | error
  | panic
  | store (fate : Fate)
  | join
  | tell (fate : Fate)
  | finish (fate : Fate)
  | fail (fate : Fate)
  | reportError (fate : Fate)
  | others (status : JobStatus)
deriving DecidableEq

namespace RunState

variable (state : RunState)

/-- A statement of the run. -/
def issue (record : RunRecord) (fate : Fate) (phase : StoryPhase) : RunState :=
  { state with
    phase := phase
    log := state.log ++ fate.kept record
    status := if fate = .lost then state.status else record.status?.getD state.status
    smooth := state.smooth && fate = .done }

/-- The pipeline ends without a response. -/
def spoil (phase : StoryPhase) : RunState := { state with phase := phase, smooth := false }

/-- The next write of the response; an error ends the pipeline. -/
def storeNext (record : RunRecord) (ahead : List RunRecord) (fate : Fate) : RunState :=
  state.issue record fate <|
    if fate = .done then (if ahead.isEmpty then .closing .answered else .storing ahead)
    else .closing .failed

/-- `JobRepository::fail` never overwrites a terminal status. -/
def failNow (fate : Fate) : RunState :=
  if state.status.isTerminal then { state with phase := .over .silent }
  else state.issue .failed fate (if fate = .done then .reporting else .over .silent)

end RunState

/-- `classify_run_outcome`: whatever is no response fails the job. -/
def phaseAfter (turn : TurnRun) : BodyResult → StoryPhase
  | .answered => .telling (numberedParts turn)
  | _ => .failing

def storyStep (turn : TurnRun) (state : RunState) (action : StoryAction) : Option RunState :=
  match action, state.phase with
  | .report event, phase =>
    if phase.inBody then
      some { state with queue := state.queue ++ [event], reported := state.reported ++ [event] }
    else none
  | .forward fate, phase =>
    match state.queue with
    | event :: queue =>
      if phase.forwards then
        some { state.issue (stageEvent event) fate phase with queue := queue }
      else none
    | [] => none
  | .answer, .working => some { state with phase := .storing (responseWrites turn) }
  | .abandon, .working => some (state.spoil (.closing .abandoned))
  | .error, phase => if phase.inBody then some (state.spoil (.closing .failed)) else none
  | .panic, phase =>
    if phase.isCaught then some { state.spoil .failing with queue := [] } else none
  | .store fate, .storing (record :: ahead) => some (state.storeNext record ahead fate)
  | .join, .closing result =>
    if state.queue = [] then some { state with phase := phaseAfter turn result } else none
  | .tell fate, .telling (part :: ahead) =>
    some (state.issue (deltaEvent part) fate (.telling ahead))
  | .finish fate, .telling [] =>
    some (state.issue (responseEvent turn) fate (if fate = .done then .over .told else .failing))
  | .fail fate, .failing => some (state.failNow fate)
  | .reportError fate, .reporting =>
    some (state.issue errorEvent fate (.over (if fate = .done then .reported else .silent)))
  | .others status, _ =>
    some { state with
      status := status
      reopened := state.reopened || (state.status.isTerminal && !status.isTerminal) }
  | _, _ => none

def RunState.spawned (status : JobStatus) : RunState where
  phase := .working
  queue := []
  reported := []
  log := []
  status := status
  smooth := true
  reopened := false

def storyMachine (turn : TurnRun) : Machine RunState StoryAction where
  init state := ∃ status, state = .spawned status
  step := storyStep turn

/-- The steps of a run, inverted. -/
inductive StoryEffect (turn : TurnRun) (state : RunState) : StoryAction → RunState → Prop
  | report {event : ProgressEvent} (hphase : state.phase.inBody = true) :
      StoryEffect turn state (.report event) { state with
        queue := state.queue ++ [event], reported := state.reported ++ [event] }
  | forward {event : ProgressEvent} {queue : List ProgressEvent} {fate : Fate}
      (hqueue : state.queue = event :: queue) (hphase : state.phase.forwards = true) :
      StoryEffect turn state (.forward fate)
        { state.issue (stageEvent event) fate state.phase with queue := queue }
  | answer (hphase : state.phase = .working) :
      StoryEffect turn state .answer { state with phase := .storing (responseWrites turn) }
  | abandon (hphase : state.phase = .working) :
      StoryEffect turn state .abandon (state.spoil (.closing .abandoned))
  | error (hphase : state.phase.inBody = true) :
      StoryEffect turn state .error (state.spoil (.closing .failed))
  | panic (hphase : state.phase.isCaught = true) :
      StoryEffect turn state .panic { state.spoil .failing with queue := [] }
  | store {record : RunRecord} {ahead : List RunRecord} {fate : Fate}
      (hphase : state.phase = .storing (record :: ahead)) :
      StoryEffect turn state (.store fate) (state.storeNext record ahead fate)
  | join {result : BodyResult} (hphase : state.phase = .closing result)
      (hqueue : state.queue = []) :
      StoryEffect turn state .join { state with phase := phaseAfter turn result }
  | tell {part : String × ℕ} {ahead : List (String × ℕ)} {fate : Fate}
      (hphase : state.phase = .telling (part :: ahead)) :
      StoryEffect turn state (.tell fate) (state.issue (deltaEvent part) fate (.telling ahead))
  | finish {fate : Fate} (hphase : state.phase = .telling []) :
      StoryEffect turn state (.finish fate) (state.issue (responseEvent turn) fate
        (if fate = .done then .over .told else .failing))
  | fail {fate : Fate} (hphase : state.phase = .failing) :
      StoryEffect turn state (.fail fate) (state.failNow fate)
  | reportError {fate : Fate} (hphase : state.phase = .reporting) :
      StoryEffect turn state (.reportError fate) (state.issue errorEvent fate
        (.over (if fate = .done then .reported else .silent)))
  | others {status : JobStatus} :
      StoryEffect turn state (.others status) { state with
        status := status
        reopened := state.reopened || (state.status.isTerminal && !status.isTerminal) }

theorem storyStep_effect {turn : TurnRun} {state next : RunState} {action : StoryAction}
    (h : storyStep turn state action = some next) : StoryEffect turn state action next := by
  unfold storyStep at h
  split at h
  · split_ifs at h with hphase
    obtain rfl := Option.some.inj h
    exact .report hphase
  · split at h
    · rename_i hqueue
      split_ifs at h with hphase
      obtain rfl := Option.some.inj h
      exact .forward hqueue hphase
    · cases h
  · obtain rfl := Option.some.inj h
    exact .answer ‹_›
  · obtain rfl := Option.some.inj h
    exact .abandon ‹_›
  · split_ifs at h with hphase
    obtain rfl := Option.some.inj h
    exact .error hphase
  · split_ifs at h with hphase
    obtain rfl := Option.some.inj h
    exact .panic hphase
  · obtain rfl := Option.some.inj h
    exact .store ‹_›
  · split_ifs at h with hqueue
    obtain rfl := Option.some.inj h
    exact .join ‹_› hqueue
  · obtain rfl := Option.some.inj h
    exact .tell ‹_›
  · obtain rfl := Option.some.inj h
    exact .finish ‹_›
  · obtain rfl := Option.some.inj h
    exact .fail ‹_›
  · obtain rfl := Option.some.inj h
    exact .reportError ‹_›
  · obtain rfl := Option.some.inj h
    exact .others
  · cases h

/-! ### The story -/

def eventsOf (records : List RunRecord) : List RunRecord := records.filter fun record =>
  record.isEvent

def writesOf (records : List RunRecord) : List RunRecord := records.filter fun record =>
  !record.isEvent

/-- The log of a run, taken apart. -/
structure Told where
  /-- The stages and the writes of the response. -/
  first : List RunRecord
  stages : List ProgressEvent
  parts : List (String × ℕ)
  ending : List RunRecord
  /-- The failure of the job and the message about it. -/
  apology : List RunRecord

namespace Told

def log (told : Told) : List RunRecord :=
  told.first ++ told.parts.map deltaEvent ++ told.ending ++ told.apology

/-- Nothing of the response was told yet. -/
structure Silent (told : Told) : Prop where
  parts : told.parts = []
  ending : told.ending = []
  apology : told.apology = []

/-- The response is stored before any of it is told. -/
structure Ordered (turn : TurnRun) (told : Told) : Prop where
  stages : eventsOf told.first = told.stages.map stageEvent
  stored : writesOf told.first <+: responseWrites turn
  parts : told.parts.Sublist (numberedParts turn)
  ending : told.ending = [] ∨ told.ending = [responseEvent turn]
  apology : told.apology <+: [.failed, errorEvent]
  storedFirst : told.parts ≠ [] ∨ told.ending ≠ [] → writesOf told.first = responseWrites turn

end Told

/-- What holds of the log, and of where the run is in it. -/
structure Story (turn : TurnRun) (state : RunState) (told : Told) : Prop where
  log : state.log = told.log
  ordered : told.Ordered turn
  reported : told.stages.Sublist state.reported
  /-- What the client was told last is the response, and it was told nothing else behind it. -/
  closed : state.phase = .over .told → told.ending = [responseEvent turn] ∧ told.apology = []
  apologized : state.phase = .over .reported → told.apology = [.failed, errorEvent]
  /-- A response that is no question is not followed by an apology once it is stored. -/
  final : state.reopened = false → turn.result.terminal ≠ .waitingForUserInput →
    writesOf told.first = responseWrites turn → told.apology = []
  /-- Nothing is left out when nothing went wrong. -/
  complete : state.smooth = true → ∀ how, state.phase = .over how →
    how = .told ∧ told.stages = state.reported ∧ told.parts = numberedParts turn

/-! ### The invariant -/

/-- Where the run is, in terms of what it told. -/
def Told.AtPhase (turn : TurnRun) (smooth : Bool) (told : Told) : StoryPhase → Prop
  | .working => writesOf told.first = [] ∧ told.Silent
  | .storing ahead => writesOf told.first ++ ahead = responseWrites turn ∧ told.Silent
  | .closing result => (result = .answered → writesOf told.first = responseWrites turn) ∧
      (smooth = true → result = .answered) ∧ told.Silent
  | .telling ahead => writesOf told.first = responseWrites turn ∧ told.ending = [] ∧
      told.apology = [] ∧ ∃ gone, numberedParts turn = gone ++ ahead ∧ told.parts.Sublist gone ∧
        (smooth = true → told.parts = gone)
  | .failing => smooth = false ∧ told.apology = []
  | .reporting => smooth = false ∧ told.apology = [.failed]
  | .over .told => told.ending = [responseEvent turn] ∧ told.apology = [] ∧
      (smooth = true → told.parts = numberedParts turn)
  | .over .reported => smooth = false ∧ told.apology = [.failed, errorEvent]
  | .over .silent => smooth = false

/-- `settled` are the stages that are not in the queue any more. -/
structure Telling (turn : TurnRun) (state : RunState) (told : Told)
    (settled : List ProgressEvent) : Prop where
  log : state.log = told.log
  ordered : told.Ordered turn
  accounted : state.reported = settled ++ state.queue
  forwarded : told.stages.Sublist settled
  allForwarded : state.smooth = true → told.stages = settled
  quiet : state.phase.forwards = false → state.queue = []
  final : state.reopened = false → turn.result.terminal ≠ .waitingForUserInput →
    writesOf told.first = responseWrites turn →
      state.status.isTerminal = true ∧ told.apology = []
  phase : told.AtPhase turn state.smooth state.phase

section Records

variable {records more : List RunRecord} {event : ProgressEvent} {fate : Fate}

@[simp] theorem eventsOf_append : eventsOf (records ++ more) = eventsOf records ++ eventsOf more :=
  List.filter_append ..

@[simp] theorem writesOf_append : writesOf (records ++ more) = writesOf records ++ writesOf more :=
  List.filter_append ..

theorem map_kept {α β : Type*} (f : α → β) (stored : α) :
    (fate.kept stored).map f = fate.kept (f stored) := by
  cases fate <;> rfl

theorem kept_sublist {α : Type*} (stored : α) : (fate.kept stored).Sublist [stored] := by
  cases fate with
  | lost => exact List.nil_sublist _
  | _ => exact List.Sublist.refl _

@[simp] theorem eventsOf_stageEvent :
    eventsOf (fate.kept (stageEvent event)) = fate.kept (stageEvent event) := by
  cases fate <;> rfl

@[simp] theorem writesOf_stageEvent : writesOf (fate.kept (stageEvent event)) = [] := by
  cases fate <;> rfl

theorem isEvent_of_mem_responseWrites {turn : TurnRun} {record : RunRecord}
    (h : record ∈ responseWrites turn) : record.isEvent = false := by
  unfold responseWrites at h
  split at h
  · simp only [List.mem_cons, List.not_mem_nil, or_false] at h
    rcases h with rfl | rfl | rfl <;> rfl
  · obtain rfl := List.mem_singleton.mp h
    rfl
  · obtain rfl := List.mem_singleton.mp h
    rfl

/-- The write of a response that is no question ends the job. -/
theorem status_of_mem_responseWrites {turn : TurnRun} {record : RunRecord}
    (hterminal : turn.result.terminal ≠ .waitingForUserInput) (h : record ∈ responseWrites turn) :
    ∃ status, record.status? = some status ∧ status.isTerminal = true := by
  unfold responseWrites at h
  split at h
  · exact absurd ‹_› hterminal
  · obtain rfl := List.mem_singleton.mp h
    exact ⟨_, rfl, rfl⟩
  · obtain rfl := List.mem_singleton.mp h
    exact ⟨_, rfl, rfl⟩

end Records

namespace Told

variable {turn : TurnRun} {told : Told} {first : List RunRecord} {fate : Fate}

theorem Silent.log (h : told.Silent) : told.log = told.first := by
  simp [Told.log, h.parts, h.ending, h.apology]

/-- Before anything is told the order is that of the stages and the writes. -/
theorem Silent.ordered (h : told.Silent)
    (hstages : eventsOf told.first = told.stages.map stageEvent)
    (hstored : writesOf told.first <+: responseWrites turn) : told.Ordered turn where
  stages := hstages
  stored := hstored
  parts := by rw [h.parts]; exact List.nil_sublist _
  ending := .inl h.ending
  apology := by rw [h.apology]; exact List.nil_prefix
  storedFirst hsome := by
    rcases hsome with hparts | hending
    · exact absurd h.parts hparts
    · exact absurd h.ending hending

theorem Silent.closing (h : told.Silent) {result : BodyResult} (hresult : result ≠ .answered)
    {smooth : Bool} (hsmooth : smooth = false) : told.AtPhase turn smooth (.closing result) := by
  refine ⟨fun habsurd => absurd habsurd hresult, fun habsurd => ?_, h⟩
  rw [hsmooth] at habsurd
  cases habsurd

end Told

section Steps

variable {turn : TurnRun} {state : RunState} {told : Told} {settled : List ProgressEvent}
  {event : ProgressEvent} {fate : Fate}

theorem forwards_of_inBody {phase : StoryPhase} (h : phase.inBody = true) :
    phase.forwards = true := by
  cases phase with
  | working => rfl
  | storing => rfl
  | _ => cases h

theorem Telling.silent (h : Telling turn state told settled)
    (hphase : state.phase.forwards = true) : told.Silent := by
  have hat := h.phase
  cases hcase : state.phase with
  | working => rw [hcase] at hat; exact hat.2
  | storing => rw [hcase] at hat; exact hat.2
  | closing => rw [hcase] at hat; exact hat.2.2
  | _ => rw [hcase] at hphase; cases hphase

theorem Telling.apology_eq_nil (h : Telling turn state told settled)
    (hphase : state.phase.isCaught = true) : told.apology = [] := by
  have hat := h.phase
  cases hcase : state.phase with
  | working => rw [hcase] at hat; exact hat.2.apology
  | storing => rw [hcase] at hat; exact hat.2.apology
  | closing => rw [hcase] at hat; exact hat.2.2.apology
  | telling => rw [hcase] at hat; exact hat.2.2.1
  | _ => rw [hcase] at hphase; cases hphase

theorem Telling.report (h : Telling turn state told settled) (hphase : state.phase.inBody = true) :
    Telling turn { state with
      queue := state.queue ++ [event], reported := state.reported ++ [event] } told settled where
  log := h.log
  ordered := h.ordered
  accounted := by
    dsimp only
    rw [h.accounted, List.append_assoc]
  forwarded := h.forwarded
  allForwarded := h.allForwarded
  quiet hquiet := absurd (forwards_of_inBody hphase) (by simpa using hquiet)
  final := h.final
  phase := h.phase

/-- A stage goes from the queue into the log. -/
theorem Told.AtPhase.forward {phase : StoryPhase} {smooth : Bool}
    (h : told.AtPhase turn smooth phase) (hphase : phase.forwards = true) {record : RunRecord}
    (hrecord : writesOf (fate.kept record) = []) (stages : List ProgressEvent) :
    Told.AtPhase turn (smooth && fate = .done)
      { told with first := told.first ++ fate.kept record, stages := stages } phase := by
  have hwrites : writesOf (told.first ++ fate.kept record) = writesOf told.first := by
    rw [writesOf_append, hrecord, List.append_nil]
  cases phase with
  | working => exact ⟨hwrites.trans h.1, h.2.1, h.2.2, h.2.3⟩
  | storing ahead => exact ⟨by rw [hwrites]; exact h.1, h.2.1, h.2.2, h.2.3⟩
  | closing result =>
    refine ⟨fun hresult => hwrites.trans (h.1 hresult), fun hsmooth => h.2.1 ?_, h.2.2.1, h.2.2.2,
      h.2.2.3⟩
    exact (Bool.and_eq_true_iff.mp hsmooth).1
  | _ => cases hphase

theorem Telling.forward (h : Telling turn state told settled) {queue : List ProgressEvent}
    (hqueue : state.queue = event :: queue) (hphase : state.phase.forwards = true) :
    Telling turn { state.issue (stageEvent event) fate state.phase with queue := queue }
      { told with
        first := told.first ++ fate.kept (stageEvent event)
        stages := told.stages ++ fate.kept event }
      (settled ++ [event]) := by
  have hsilent := h.silent hphase
  have hstill : Told.Silent { told with
      first := told.first ++ fate.kept (stageEvent event)
      stages := told.stages ++ fate.kept event } :=
    ⟨hsilent.parts, hsilent.ending, hsilent.apology⟩
  constructor
  case log =>
    dsimp only [RunState.issue]
    rw [h.log, hsilent.log, hstill.log]
  case ordered =>
    apply hstill.ordered
    · dsimp only
      rw [eventsOf_append, eventsOf_stageEvent, h.ordered.stages, List.map_append, map_kept]
    · dsimp only
      rw [writesOf_append, writesOf_stageEvent, List.append_nil]
      exact h.ordered.stored
  case accounted =>
    dsimp only [RunState.issue]
    rw [h.accounted, hqueue, List.append_assoc, List.singleton_append]
  case forwarded => exact h.forwarded.append (kept_sublist event)
  case allForwarded =>
    intro hsmooth
    obtain ⟨hbefore, hdone⟩ := Bool.and_eq_true_iff.mp hsmooth
    obtain rfl := of_decide_eq_true hdone
    dsimp only
    rw [h.allForwarded hbefore]
    rfl
  case quiet => exact fun hquiet => absurd hphase (by simpa [RunState.issue] using hquiet)
  case final =>
    intro hreopened hterminal hwrites
    dsimp only at hwrites
    rw [writesOf_append, writesOf_stageEvent, List.append_nil] at hwrites
    have hfinal := h.final hreopened hterminal hwrites
    refine ⟨?_, hfinal.2⟩
    have hstatus : (state.issue (stageEvent event) fate state.phase).status = state.status :=
      ite_self _
    exact hstatus.symm ▸ hfinal.1
  case phase => exact h.phase.forward hphase writesOf_stageEvent _

theorem Telling.answer (h : Telling turn state told settled) (hphase : state.phase = .working) :
    Telling turn { state with phase := .storing (responseWrites turn) } told settled where
  log := h.log
  ordered := h.ordered
  accounted := h.accounted
  forwarded := h.forwarded
  allForwarded := h.allForwarded
  quiet hquiet := by cases hquiet
  final := h.final
  phase := by
    have hat := h.phase
    rw [hphase] at hat
    exact ⟨by rw [hat.1, List.nil_append], hat.2⟩

/-- The pipeline ends early; the queue is still emptied. -/
theorem Telling.spoil (h : Telling turn state told settled) (hphase : state.phase.inBody = true)
    {result : BodyResult} (hresult : result ≠ .answered) :
    Telling turn (state.spoil (.closing result)) told settled where
  log := h.log
  ordered := h.ordered
  accounted := h.accounted
  forwarded := h.forwarded
  allForwarded hsmooth := by cases hsmooth
  quiet hquiet := by cases hquiet
  final := h.final
  phase := (h.silent (forwards_of_inBody hphase)).closing hresult rfl

/-- What was reported and not inserted before a panic is lost. -/
theorem Telling.panic (h : Telling turn state told settled)
    (hphase : state.phase.isCaught = true) :
    Telling turn { state.spoil .failing with queue := [] } told (settled ++ state.queue) where
  log := h.log
  ordered := h.ordered
  accounted := by
    dsimp only [RunState.spoil]
    rw [h.accounted, List.append_nil]
  forwarded := h.forwarded.trans (List.sublist_append_left _ _)
  allForwarded hsmooth := by cases hsmooth
  quiet _ := rfl
  final := h.final
  phase := ⟨rfl, h.apology_eq_nil hphase⟩

theorem Telling.store (h : Telling turn state told settled) {record : RunRecord}
    {ahead : List RunRecord} (hphase : state.phase = .storing (record :: ahead)) :
    Telling turn (state.storeNext record ahead fate)
      { told with first := told.first ++ fate.kept record } settled := by
  have hat := h.phase
  rw [hphase] at hat
  obtain ⟨hwrites, hsilent⟩ := hat
  have hmem : record ∈ responseWrites turn := by
    rw [← hwrites]
    exact List.mem_append_right _ List.mem_cons_self
  have hevents : eventsOf (fate.kept record) = [] := by
    have hrecord := isEvent_of_mem_responseWrites hmem
    cases fate <;> simp [Fate.kept, eventsOf, hrecord]
  have hkept : writesOf (fate.kept record) = fate.kept record := by
    have hrecord := isEvent_of_mem_responseWrites hmem
    cases fate <;> simp [Fate.kept, writesOf, hrecord]
  have hstill : Told.Silent { told with first := told.first ++ fate.kept record } :=
    ⟨hsilent.parts, hsilent.ending, hsilent.apology⟩
  constructor
  case log =>
    dsimp only [RunState.storeNext, RunState.issue]
    rw [h.log, hsilent.log, hstill.log]
  case ordered =>
    apply hstill.ordered
    · dsimp only
      rw [eventsOf_append, hevents, List.append_nil, h.ordered.stages]
    · dsimp only
      rw [writesOf_append, hkept, ← hwrites, List.prefix_append_right_inj]
      cases fate with
      | lost => exact List.nil_prefix
      | _ => exact ⟨ahead, rfl⟩
  case accounted => exact h.accounted
  case forwarded => exact h.forwarded
  case allForwarded => exact fun hsmooth => h.allForwarded (Bool.and_eq_true_iff.mp hsmooth).1
  case quiet =>
    intro hquiet
    dsimp only [RunState.storeNext, RunState.issue] at hquiet
    split_ifs at hquiet <;> cases hquiet
  case final =>
    intro hreopened hterminal hall
    refine ⟨?_, hsilent.apology⟩
    obtain ⟨status, hstatus, hisTerminal⟩ := status_of_mem_responseWrites hterminal hmem
    cases fate with
    | lost =>
      dsimp only [Fate.kept] at hall
      rw [List.append_nil] at hall
      exact (h.final hreopened hterminal hall).1
    | _ =>
      dsimp only [RunState.storeNext, RunState.issue]
      rw [if_neg (by decide), hstatus]
      exact hisTerminal
  case phase =>
    cases fate with
    | done =>
      cases ahead with
      | nil =>
        refine ⟨fun _ => ?_, fun _ => rfl, hstill⟩
        dsimp only
        rw [writesOf_append, hkept]
        exact hwrites
      | cons next ahead =>
        refine ⟨?_, hstill⟩
        dsimp only
        rw [writesOf_append, hkept, ← hwrites, List.append_assoc]
        rfl
    | _ => exact hstill.closing (by decide) (Bool.and_false _)

theorem Telling.join (h : Telling turn state told settled) {result : BodyResult}
    (hphase : state.phase = .closing result) (hqueue : state.queue = []) :
    Telling turn { state with phase := phaseAfter turn result } told settled where
  log := h.log
  ordered := h.ordered
  accounted := h.accounted
  forwarded := h.forwarded
  allForwarded := h.allForwarded
  quiet _ := hqueue
  final := h.final
  phase := by
    have hat := h.phase
    rw [hphase] at hat
    obtain ⟨hanswered, hsmooth, hsilent⟩ := hat
    have hfailing : result ≠ .answered → told.AtPhase turn state.smooth .failing :=
      fun hresult => ⟨Bool.eq_false_iff.mpr fun htrue => hresult (hsmooth htrue), hsilent.apology⟩
    cases result with
    | answered =>
      refine ⟨hanswered rfl, hsilent.ending, hsilent.apology, [], rfl, ?_, fun _ => hsilent.parts⟩
      rw [hsilent.parts]
    | abandoned => exact hfailing (by decide)
    | failed => exact hfailing (by decide)

theorem Telling.tell (h : Telling turn state told settled) {part : String × ℕ}
    {ahead : List (String × ℕ)} (hphase : state.phase = .telling (part :: ahead)) :
    Telling turn (state.issue (deltaEvent part) fate (.telling ahead))
      { told with parts := told.parts ++ fate.kept part } settled := by
  have hat := h.phase
  rw [hphase] at hat
  obtain ⟨hwrites, hending, hapology, gone, hgone, hparts, hall⟩ := hat
  have hmore : (told.parts ++ fate.kept part).Sublist (gone ++ [part]) :=
    hparts.append (kept_sublist part)
  have hsplit : numberedParts turn = (gone ++ [part]) ++ ahead := by
    rw [hgone, List.append_assoc, List.singleton_append]
  constructor
  case log =>
    dsimp only [RunState.issue]
    rw [h.log, Told.log, Told.log, hending, hapology, List.map_append, map_kept]
    simp only [List.append_nil, List.append_assoc]
  case ordered =>
    refine ⟨h.ordered.stages, h.ordered.stored, ?_, h.ordered.ending, h.ordered.apology,
      fun _ => hwrites⟩
    rw [hsplit]
    exact hmore.trans (List.sublist_append_left _ _)
  case accounted => exact h.accounted
  case forwarded => exact h.forwarded
  case allForwarded => exact fun hsmooth => h.allForwarded (Bool.and_eq_true_iff.mp hsmooth).1
  case quiet => exact fun _ => h.quiet (by rw [hphase]; rfl)
  case final =>
    intro hreopened hterminal hwritten
    have hstatus : (state.issue (deltaEvent part) fate (.telling ahead)).status = state.status :=
      ite_self _
    exact hstatus.symm ▸ h.final hreopened hterminal hwritten
  case phase =>
    refine ⟨hwrites, hending, hapology, gone ++ [part], hsplit, hmore, fun hsmooth => ?_⟩
    obtain ⟨hbefore, hdone⟩ := Bool.and_eq_true_iff.mp hsmooth
    obtain rfl := of_decide_eq_true hdone
    dsimp only
    rw [hall hbefore]
    rfl

theorem Telling.finish (h : Telling turn state told settled) (hphase : state.phase = .telling []) :
    Telling turn (state.issue (responseEvent turn) fate
      (if fate = .done then .over .told else .failing))
      { told with ending := told.ending ++ fate.kept (responseEvent turn) } settled := by
  have hat := h.phase
  rw [hphase] at hat
  obtain ⟨hwrites, hending, hapology, gone, hgone, hparts, hall⟩ := hat
  rw [List.append_nil] at hgone
  subst hgone
  constructor
  case log =>
    dsimp only [RunState.issue]
    rw [h.log, Told.log, Told.log, hending, hapology]
    simp only [List.append_nil, List.append_assoc, List.nil_append]
  case ordered =>
    refine ⟨h.ordered.stages, h.ordered.stored, hparts, ?_, h.ordered.apology, fun _ => hwrites⟩
    dsimp only
    rw [hending, List.nil_append]
    cases fate with
    | lost => exact .inl rfl
    | _ => exact .inr rfl
  case accounted => exact h.accounted
  case forwarded => exact h.forwarded
  case allForwarded => exact fun hsmooth => h.allForwarded (Bool.and_eq_true_iff.mp hsmooth).1
  case quiet => exact fun _ => h.quiet (by rw [hphase]; rfl)
  case final =>
    intro hreopened hterminal hwritten
    have hstatus : (state.issue (responseEvent turn) fate
        (if fate = .done then .over .told else .failing)).status = state.status := ite_self _
    exact hstatus.symm ▸ h.final hreopened hterminal hwritten
  case phase =>
    cases fate with
    | done =>
      refine ⟨?_, hapology, fun hsmooth => hall (Bool.and_eq_true_iff.mp hsmooth).1⟩
      dsimp only
      rw [hending]
      rfl
    | _ => exact ⟨Bool.and_false _, hapology⟩

/-- The failure is written only when the status is not terminal. -/
theorem Telling.fail (h : Telling turn state told settled) (hphase : state.phase = .failing) :
    ∃ told, Telling turn (state.failNow fate) told settled := by
  have hat := h.phase
  rw [hphase] at hat
  obtain ⟨hsmooth, hapology⟩ := hat
  have hquiet := h.quiet (by rw [hphase]; rfl)
  by_cases hterminal : state.status.isTerminal = true
  · refine ⟨told, ?_⟩
    rw [RunState.failNow, if_pos hterminal]
    exact ⟨h.log, h.ordered, h.accounted, h.forwarded, h.allForwarded, fun _ => hquiet, h.final,
      hsmooth⟩
  · refine ⟨{ told with apology := told.apology ++ fate.kept .failed }, ?_⟩
    rw [RunState.failNow, if_neg hterminal]
    constructor
    case log =>
      dsimp only [RunState.issue]
      rw [h.log, Told.log, Told.log, hapology]
      simp only [List.append_nil, List.nil_append]
    case ordered =>
      refine ⟨h.ordered.stages, h.ordered.stored, h.ordered.parts, h.ordered.ending, ?_,
        h.ordered.storedFirst⟩
      dsimp only
      rw [hapology, List.nil_append]
      cases fate with
      | lost => exact List.nil_prefix
      | _ => exact ⟨[errorEvent], rfl⟩
    case accounted => exact h.accounted
    case forwarded => exact h.forwarded
    case allForwarded => exact fun habsurd => h.allForwarded (Bool.and_eq_true_iff.mp habsurd).1
    case quiet => exact fun _ => hquiet
    case final =>
      exact fun hreopened hquestion hwritten =>
        absurd (h.final hreopened hquestion hwritten).1 hterminal
    case phase =>
      have hstill : (state.smooth && fate = .done) = false := by rw [hsmooth, Bool.false_and]
      cases fate with
      | done =>
        refine ⟨hstill, ?_⟩
        dsimp only
        rw [hapology]
        rfl
      | _ => exact hstill

theorem Telling.reportError (h : Telling turn state told settled)
    (hphase : state.phase = .reporting) :
    Telling turn (state.issue errorEvent fate (.over (if fate = .done then .reported else .silent)))
      { told with apology := told.apology ++ fate.kept errorEvent } settled := by
  have hat := h.phase
  rw [hphase] at hat
  obtain ⟨hsmooth, hapology⟩ := hat
  constructor
  case log =>
    dsimp only [RunState.issue]
    rw [h.log, Told.log, Told.log]
    simp only [List.append_assoc]
  case ordered =>
    refine ⟨h.ordered.stages, h.ordered.stored, h.ordered.parts, h.ordered.ending, ?_,
      h.ordered.storedFirst⟩
    dsimp only
    rw [hapology]
    cases fate with
    | lost => exact ⟨[errorEvent], rfl⟩
    | _ => exact List.prefix_rfl
  case accounted => exact h.accounted
  case forwarded => exact h.forwarded
  case allForwarded => exact fun habsurd => h.allForwarded (Bool.and_eq_true_iff.mp habsurd).1
  case quiet => exact fun _ => h.quiet (by rw [hphase]; rfl)
  case final =>
    intro hreopened hquestion hwritten
    have habsurd := (h.final hreopened hquestion hwritten).2
    rw [hapology] at habsurd
    cases habsurd
  case phase =>
    have hstill : (state.smooth && fate = .done) = false := by rw [hsmooth, Bool.false_and]
    cases fate with
    | done =>
      refine ⟨hstill, ?_⟩
      dsimp only
      rw [hapology]
      rfl
    | _ => exact hstill

theorem Telling.others (h : Telling turn state told settled) (status : JobStatus) :
    Telling turn { state with
      status := status
      reopened := state.reopened || (state.status.isTerminal && !status.isTerminal) }
      told settled where
  log := h.log
  ordered := h.ordered
  accounted := h.accounted
  forwarded := h.forwarded
  allForwarded := h.allForwarded
  quiet := h.quiet
  final hreopened hterminal hwritten := by
    obtain ⟨hbefore, hkept⟩ := Bool.or_eq_false_iff.mp hreopened
    obtain ⟨hstatus, hapology⟩ := h.final hbefore hterminal hwritten
    rw [hstatus, Bool.true_and, Bool.not_eq_eq_eq_not, Bool.not_false] at hkept
    exact ⟨hkept, hapology⟩
  phase := h.phase

theorem Telling.step (h : Telling turn state told settled) {next : RunState}
    {action : StoryAction} (hstep : storyStep turn state action = some next) :
    ∃ told settled, Telling turn next told settled := by
  cases storyStep_effect hstep with
  | report hphase => exact ⟨_, _, h.report hphase⟩
  | forward hqueue hphase => exact ⟨_, _, h.forward hqueue hphase⟩
  | answer hphase => exact ⟨_, _, h.answer hphase⟩
  | abandon hphase => exact ⟨_, _, h.spoil (by rw [hphase]; rfl) (by decide)⟩
  | error hphase => exact ⟨_, _, h.spoil hphase (by decide)⟩
  | panic hphase => exact ⟨_, _, h.panic hphase⟩
  | store hphase => exact ⟨_, _, h.store hphase⟩
  | join hphase hqueue => exact ⟨_, _, h.join hphase hqueue⟩
  | tell hphase => exact ⟨_, _, h.tell hphase⟩
  | finish hphase => exact ⟨_, _, h.finish hphase⟩
  | fail hphase =>
    obtain ⟨failed, hfailed⟩ := h.fail hphase
    exact ⟨failed, _, hfailed⟩
  | reportError hphase => exact ⟨_, _, h.reportError hphase⟩
  | others => exact ⟨_, _, h.others _⟩

theorem Telling.story (h : Telling turn state told settled) : Story turn state told where
  log := h.log
  ordered := h.ordered
  reported := by
    rw [h.accounted]
    exact h.forwarded.trans (List.sublist_append_left _ _)
  closed hphase := by
    have hat := h.phase
    rw [hphase] at hat
    exact ⟨hat.1, hat.2.1⟩
  apologized hphase := by
    have hat := h.phase
    rw [hphase] at hat
    exact hat.2
  final hreopened hterminal hwritten := (h.final hreopened hterminal hwritten).2
  complete := by
    intro hsmooth how hphase
    have hat := h.phase
    have hqueue := h.quiet (by rw [hphase]; rfl)
    rw [hphase, hsmooth] at hat
    cases how with
    | told =>
      refine ⟨rfl, ?_, hat.2.2 rfl⟩
      rw [h.allForwarded hsmooth, h.accounted, hqueue, List.append_nil]
    | reported => cases hat.1
    | silent => cases hat

theorem telling_spawned (status : JobStatus) :
    Telling turn (.spawned status) ⟨[], [], [], [], []⟩ [] where
  log := rfl
  ordered := by
    have hsilent : Told.Silent ⟨[], [], [], [], []⟩ := ⟨rfl, rfl, rfl⟩
    exact hsilent.ordered rfl List.nil_prefix
  accounted := rfl
  forwarded := List.Sublist.refl _
  allForwarded _ := rfl
  quiet _ := rfl
  final _ hterminal hwritten := by
    obtain ⟨_, hmem⟩ : ∃ record, record ∈ responseWrites turn := by
      unfold responseWrites
      split <;> exact ⟨_, List.mem_cons_self⟩
    rw [← hwritten] at hmem
    cases hmem
  phase := ⟨rfl, rfl, rfl, rfl⟩

/-- The markdown of the response, when none of its parts is missing. -/
theorem join_numberedParts :
    String.join ((numberedParts turn).map Prod.fst) = (projections turn).payload.markdown := by
  rw [numberedParts, List.zipIdx_map_fst]
  exact join_chunkMarkdown _

end Steps

/-- Whatever is lost on the way and wherever the run stops, its log is a story: stages in the order
they were reported, then the stored response, its parts by number, the event that ends the stream
and, where the run cannot know that the client has its end, the failure of the job and a message
about it. -/
theorem run_tells_one_story {turn : TurnRun} {state : RunState}
    (h : (storyMachine turn).Reachable state) :
    ∃ told, Story turn state told ∧ (told.parts = numberedParts turn →
      String.join (told.parts.map Prod.fst) = (projections turn).payload.markdown) := by
  have htelling : ∃ told settled, Telling turn state told settled := by
    apply h.invariant (P := fun state => ∃ told settled, Telling turn state told settled)
    · rintro _ ⟨status, rfl⟩
      exact ⟨_, _, telling_spawned status⟩
    · rintro before action after ⟨told, settled, hbefore⟩ - hstep
      exact hbefore.step hstep
  obtain ⟨told, settled, htelling⟩ := htelling
  refine ⟨told, htelling.story, fun hall => ?_⟩
  rw [hall]
  exact join_numberedParts

/-! A run that panics behind its first stage. -/

namespace PanickedRun

def actions : List StoryAction :=
  [.report (.started .routing), .forward .done, .report (.finished .routing 12), .panic,
    .fail .done, .reportError .done]

def state : RunState where
  phase := .over .reported
  queue := []
  reported := [.started .routing, .finished .routing 12]
  log := [stageEvent (.started .routing), .failed, errorEvent]
  status := .failed
  smooth := false
  reopened := false

theorem reachable : (storyMachine LookedUp.lookup).Reachable state := by
  have hrun : (storyMachine LookedUp.lookup).run (.spawned .queued) actions = some state := rfl
  exact Machine.Reachable.run (.init ⟨_, rfl⟩) hrun

/-- The stage that was still queued is lost, and the client is told about the failure. -/
theorem apologized : ∃ told, Story LookedUp.lookup state told ∧
    told.apology = [.failed, errorEvent] := by
  obtain ⟨told, hstory, -⟩ := run_tells_one_story reachable
  exact ⟨told, hstory, hstory.apologized rfl⟩

end PanickedRun

end FineractReports.Job
