import FineractReports.Job.Service

/-!
# Event streams

Clients that follow a job: over the durable log, or over the Redis channel with
`live_state` read once after subscribing. Redis is either configured, and then its
commands succeed, or not. Frames that no run emits (the status snapshot and the
keep-alives) are left out.
-/

namespace FineractReports.Job

open Workflow

/-- The statuses the handler ends a stream on. -/
def isTerminalJobStatus : JobStatus → Bool
  | .completed | .failed | .waitingForUserInput => true
  | _ => false

/-- The event kinds that end a stream. -/
def isTerminalKind (kind : String) : Bool :=
  kind = "final" || kind = "error" || kind = "clarification"

/-- What `live_state` holds after the event. -/
def TerminalEvent.jobStatus : TerminalEvent → JobStatus
  | final => .completed
  | error => .failed
  | clarification => .waitingForUserInput

def liveStateIsTerminal (liveState : Option LiveState) : Bool :=
  liveState.any fun state => isTerminalJobStatus state.event.jobStatus

/-- An event as a client sees it, with the turn of the run that emitted it. -/
structure Message where
  kind : String
  turn : ℕ
deriving DecidableEq

inductive StreamMode where
  /-- Polling the log from position `seen`. -/
  | polling (seen : ℕ)
  /-- The status was read; the channel is not subscribed yet. -/
  | subscribing
  /-- Subscribed; `live_state` is not read yet. -/
  | subscribed (channel : List Message)
  /-- About to send the whole log and end. -/
  | replaying
  | live (channel : List Message)
  | closed
deriving DecidableEq

/-- A stream with the status its handler read and the number of answers accepted
until then. -/
structure Stream where
  status : JobStatus
  turn : ℕ
  mode : StreamMode
  delivered : List Message
deriving DecidableEq

namespace Stream

/-- A published message reaches the channels subscribed at that moment. -/
def publish (message : Message) (stream : Stream) : Stream :=
  match stream.mode with
  | .subscribed channel => { stream with mode := .subscribed (channel ++ [message]) }
  | .live channel => { stream with mode := .live (channel ++ [message]) }
  | _ => stream

/-- The handler's first decision. -/
def opened (redis : Bool) (status : JobStatus) (turn : ℕ) : Stream where
  status := status
  turn := turn
  mode := if isTerminalJobStatus status then .replaying
    else if redis then .subscribing else .polling 0
  delivered := []

/-- Sends a message and goes on, or ends after a terminal one. -/
def deliver (message : Message) (mode : StreamMode) (stream : Stream) : Stream :=
  { stream with
    mode := if isTerminalKind message.kind then .closed else mode
    delivered := stream.delivered ++ [message] }

/-- The next thing the handler does for this stream. -/
def advance (log : List Message) (liveState : Option LiveState) (stream : Stream) : Stream :=
  match stream.mode with
  | .polling seen =>
    match log[seen]? with
    | some message => stream.deliver message (.polling (seen + 1))
    | none => stream
  | .subscribing => { stream with mode := .subscribed [] }
  | .subscribed channel => { stream with
      mode := if liveStateIsTerminal liveState then .replaying else .live channel }
  | .replaying => { stream with mode := .closed, delivered := stream.delivered ++ log }
  | .live [] => stream
  | .live (message :: channel) => stream.deliver message (.live channel)
  | .closed => stream

end Stream

/-- The job, its event log with the turn each row was written in, and its streams. -/
structure StreamSystem where
  job : JobSystem
  log : List Message
  streams : List Stream

inductive StreamAction where
  | job (action : JobAction)
  | «open»
  | advance (index : ℕ)

/-- The turn an action of the job belongs to; an accepted answer opens the next one. -/
def JobSystem.turnOf (state : JobSystem) : JobAction → ℕ
  | .run index _ => (state.runs[index]?.map (·.turn)).getD 0
  | _ => state.answers.length + 1

/-- The rows an action added to the event log. -/
def JobSystem.logged (state : JobSystem) (action : JobAction) (next : JobSystem) : List Message :=
  (next.tables.events.drop state.tables.events.length).map fun event =>
    ⟨event.eventType, state.turnOf action⟩

/-- What an action publishes on the job's channel: progress along with its row, a
terminal event after it. Rows written by the repositories are not published. -/
def JobSystem.published (state : JobSystem) : JobAction → Option Message
  | .run index action =>
    match state.runs[index]?, action with
    | some ⟨turn, .inserted event⟩, .publish => some ⟨event.name, turn⟩
    | some ⟨turn, _⟩, .progress delta _ _ => some ⟨if delta then "delta" else "stage", turn⟩
    | _, _ => none
  | _ => none

/-- The job moved: its new rows are in the log and its message is on the channels. -/
def StreamSystem.moved (state : StreamSystem) (action : JobAction) (next : JobSystem) :
    StreamSystem where
  job := next
  log := state.log ++ state.job.logged action next
  streams := match state.job.published action with
    | some message => state.streams.map (Stream.publish message)
    | none => state.streams

def streamStep (redis : Bool) (state : StreamSystem) : StreamAction → Option StreamSystem
  | .job action => (jobStep redis state.job action).map (state.moved action)
  | .open => some { state with
      streams := state.streams ++
        [Stream.opened redis state.job.tables.status state.job.answers.length] }
  | .advance index =>
    match state.streams[index]? with
    | some stream => some { state with
        streams := state.streams.set index (stream.advance state.log state.job.liveState) }
    | none => none

def streamMachine (redis : Bool) : Machine StreamSystem StreamAction where
  init state := ∃ jobId userId stateJson,
    state = ⟨JobSystem.created jobId userId stateJson, [], []⟩
  step := streamStep redis

end FineractReports.Job
