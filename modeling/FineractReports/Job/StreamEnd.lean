import FineractReports.Job.ServiceEffect
import FineractReports.Job.Stream

/-!
# How streams end

A stream opened once every earlier run has ended, on a log or `live_state` that an
earlier turn left nothing terminal in, only ever sees terminal events of its own turn
or a later one.
-/

namespace FineractReports.Job

open Workflow

variable {redis : Bool}

/-- A stream of an unsettled job is opened when the runs of earlier turns have ended
and nothing terminal of theirs is left where the stream looks. -/
def opensFresh (redis : Bool) (state : StreamSystem) (action : StreamAction) : Prop :=
  match action with
  | .open => isTerminalJobStatus state.job.tables.status = false →
      (∀ run ∈ state.job.runs, run.turn < state.job.answers.length →
        run.phase.isFinished = true) ∧
      (if redis then ∀ left ∈ state.job.liveState, state.job.answers.length ≤ left.turn
        else ∀ message ∈ state.log, isTerminalKind message.kind = true →
          state.job.answers.length ≤ message.turn)
  | _ => True

instance (state : StreamSystem) (action : StreamAction) :
    Decidable (opensFresh redis state action) := by
  unfold opensFresh
  split <;> infer_instance

/-- Terminal messages are of that turn or later. -/
def terminalsFrom (turn : ℕ) (messages : List Message) : Prop :=
  ∀ message ∈ messages, isTerminalKind message.kind = true → turn ≤ message.turn

/-- There is a terminal message of that turn or later. -/
def hasTerminal (turn : ℕ) (messages : List Message) : Prop :=
  ∃ message ∈ messages, isTerminalKind message.kind = true ∧ turn ≤ message.turn

/-- `live_state` was not left by an earlier turn. -/
def liveFrom (turn : ℕ) (liveState : Option LiveState) : Prop :=
  ∀ left ∈ liveState, turn ≤ left.turn

/-- The terminal event is in the log, `live_state` may not be set yet. -/
def RunPhase.terminalInserted : RunPhase → Bool
  | .inserted _ | .published _ => true
  | _ => false

/-- What `live_state` and the runs announce is in the log. -/
structure TerminalsLogged (state : StreamSystem) : Prop where
  liveState : ∀ left ∈ state.job.liveState, hasTerminal left.turn state.log
  inserted : ∀ run ∈ state.job.runs, run.phase.terminalInserted = true →
    hasTerminal run.turn state.log

/-- What a stream can still run into. -/
def Stream.OnTrack (state : StreamSystem) (stream : Stream) : Prop :=
  match stream.mode with
  | .polling _ => terminalsFrom stream.turn state.log
  | .subscribing => liveFrom stream.turn state.job.liveState
  | .subscribed channel => liveFrom stream.turn state.job.liveState ∧
      terminalsFrom stream.turn channel
  | .replaying => hasTerminal stream.turn state.log
  | .live channel => terminalsFrom stream.turn channel
  | .closed => hasTerminal stream.turn stream.delivered

/-- The runs before a turn have ended. -/
structure TurnReached (turn : ℕ) (job : JobSystem) : Prop where
  answered : turn ≤ job.answers.length
  ended : ∀ run ∈ job.runs, run.turn < turn → run.phase.isFinished = true

structure Followed (state : StreamSystem) (stream : Stream) : Prop where
  reached : TurnReached stream.turn state.job
  onTrack : stream.OnTrack state

section Messages

variable {turn : ℕ} {messages more : List Message}

theorem terminalsFrom.append (h : terminalsFrom turn messages) (hmore : terminalsFrom turn more) :
    terminalsFrom turn (messages ++ more) := by
  intro message hmessage
  rcases List.mem_append.mp hmessage with hold | hnew
  · exact h message hold
  · exact hmore message hnew

theorem hasTerminal.append_left (h : hasTerminal turn messages) :
    hasTerminal turn (messages ++ more) := by
  obtain ⟨message, hmessage, hfound⟩ := h
  exact ⟨message, List.mem_append_left _ hmessage, hfound⟩

theorem hasTerminal.append_right (h : hasTerminal turn more) :
    hasTerminal turn (messages ++ more) := by
  obtain ⟨message, hmessage, hfound⟩ := h
  exact ⟨message, List.mem_append_right _ hmessage, hfound⟩

theorem hasTerminal.mono {later : ℕ} (h : hasTerminal later messages) (hle : turn ≤ later) :
    hasTerminal turn messages := by
  obtain ⟨message, hmessage, hkind, hturn⟩ := h
  exact ⟨message, hmessage, hkind, hle.trans hturn⟩

theorem isTerminalKind_name (event : TerminalEvent) : isTerminalKind event.name = true := by
  cases event <;> rfl

end Messages

section Job

variable {state next : JobSystem} {action : JobAction} {turn : ℕ}

theorem RunEffect.not_finished {tables after : JobTables} {phase phase' : RunPhase}
    {action : RunAction} (h : RunEffect redis tables phase action after phase') :
    phase.isFinished = false := by
  cases h with
  | progress hpipeline =>
    cases phase with
    | finished => cases hpipeline
    | _ => rfl
  | abort hpipeline =>
    cases phase with
    | finished => cases hpipeline
    | _ => rfl
  | _ => rfl

/-- The runs before the turn cannot move, so every action is of the turn or later. -/
theorem JobEffect.turnOf_ge (h : JobEffect redis state action next)
    (hreached : TurnReached turn state) : turn ≤ state.turnOf action := by
  cases h with
  | @run index run action after phase hrun heffect =>
    rw [JobSystem.turnOf, hrun, Option.map_some, Option.getD_some]
    by_contra hearlier
    have hended := hreached.ended run (List.mem_of_getElem? hrun) (not_le.mp hearlier)
    rw [heffect.not_finished] at hended
    cases hended
  | responded _ _ => exact hreached.answered.trans (Nat.le_succ _)
  | resumed _ _ _ => exact hreached.answered.trans (Nat.le_succ _)
  | expired => exact hreached.answered.trans (Nat.le_succ _)
  | rejected hanswer =>
    cases action with
    | run index step => exact absurd rfl (hanswer index step)
    | _ => exact hreached.answered.trans (Nat.le_succ _)

theorem JobEffect.turnReached (h : JobEffect redis state action next)
    (hreached : TurnReached turn state) : TurnReached turn next := by
  have hturn := h.turnOf_ge hreached
  cases h with
  | @run index run action after phase hrun heffect =>
    refine ⟨hreached.answered, fun other hother hearlier => ?_⟩
    rw [JobSystem.turnOf, hrun, Option.map_some, Option.getD_some] at hturn
    rcases List.mem_or_eq_of_mem_set hother with hold | rfl
    · exact hreached.ended other hold hearlier
    · exact absurd hturn (not_le.mpr hearlier)
  | responded _ _ =>
    refine ⟨?_, fun other hother hearlier => ?_⟩
    · rw [List.length_append]
      exact hreached.answered.trans (Nat.le_add_right _ _)
    · rcases List.mem_append.mp hother with hold | hnew
      · exact hreached.ended other hold hearlier
      · obtain rfl := List.mem_singleton.mp hnew
        exact absurd hearlier (not_lt.mpr (hreached.answered.trans (Nat.le_succ _)))
  | resumed _ _ _ =>
    refine ⟨?_, hreached.ended⟩
    rw [List.length_append]
    exact hreached.answered.trans (Nat.le_add_right _ _)
  | rejected _ => exact hreached
  | expired => exact ⟨hreached.answered, hreached.ended⟩

theorem JobEffect.liveFrom (h : JobEffect redis state action next)
    (hreached : TurnReached turn state) (hlive : liveFrom turn state.liveState) :
    liveFrom turn next.liveState := by
  have hturn := h.turnOf_ge hreached
  cases h with
  | @run index run action after phase hrun heffect =>
    rw [JobSystem.turnOf, hrun, Option.map_some, Option.getD_some] at hturn
    intro left hleft
    unfold liveStateAfter at hleft
    split at hleft
    · obtain rfl := Option.some.inj hleft
      exact hturn
    · exact hlive left hleft
  | expired =>
    intro left hleft
    cases hleft
  | responded _ _ => exact hlive
  | resumed _ _ _ => exact hlive
  | rejected _ => exact hlive

theorem logged_turn {message : Message} (h : message ∈ state.logged action next) :
    message.turn = state.turnOf action := by
  obtain ⟨event, -, rfl⟩ := List.mem_map.mp h
  rfl

theorem published_turn {message : Message} (h : state.published action = some message) :
    message.turn = state.turnOf action := by
  cases action with
  | run index action =>
    simp only [JobSystem.published] at h
    split at h
    · rename_i hrun
      obtain rfl := Option.some.inj h
      rw [JobSystem.turnOf, hrun]
      rfl
    · rename_i hrun
      obtain rfl := Option.some.inj h
      rw [JobSystem.turnOf, hrun]
      rfl
    · cases h
  | _ => cases h

end Job

section Streams

variable {state next : StreamSystem} {stream : Stream} {action : JobAction} {job : JobSystem}

/-- The job moved, and the stream was not sent anything. -/
theorem Followed.moved (h : Followed state stream)
    (heffect : JobEffect redis state.job action job) :
    Followed (state.moved action job) stream := by
  refine ⟨heffect.turnReached h.reached, ?_⟩
  have hnew : terminalsFrom stream.turn (state.job.logged action job) := by
    intro message hmessage _
    rw [logged_turn hmessage]
    exact heffect.turnOf_ge h.reached
  have hon := h.onTrack
  cases hmode : stream.mode with
  | polling seen =>
    simp only [Stream.OnTrack, hmode] at hon ⊢
    exact hon.append hnew
  | subscribing =>
    simp only [Stream.OnTrack, hmode] at hon ⊢
    exact heffect.liveFrom h.reached hon
  | subscribed channel =>
    simp only [Stream.OnTrack, hmode] at hon ⊢
    exact ⟨heffect.liveFrom h.reached hon.1, hon.2⟩
  | replaying =>
    simp only [Stream.OnTrack, hmode] at hon ⊢
    exact hon.append_left
  | live channel =>
    simp only [Stream.OnTrack, hmode] at hon ⊢
    exact hon
  | closed =>
    simp only [Stream.OnTrack, hmode] at hon ⊢
    exact hon

theorem publish_turn (message : Message) : (stream.publish message).turn = stream.turn := by
  unfold Stream.publish
  split <;> rfl

theorem publish_status (message : Message) : (stream.publish message).status = stream.status := by
  unfold Stream.publish
  split <;> rfl

theorem Followed.publish {message : Message} (h : Followed state stream)
    (hturn : stream.turn ≤ message.turn) : Followed state (stream.publish message) := by
  have hreached := h.reached
  rw [← publish_turn message] at hreached
  refine ⟨hreached, ?_⟩
  have hnew : terminalsFrom stream.turn [message] := by
    intro other hother _
    rw [List.mem_singleton.mp hother]
    exact hturn
  have hon := h.onTrack
  cases hmode : stream.mode with
  | subscribed channel =>
    simp only [Stream.OnTrack, Stream.publish, hmode] at hon ⊢
    exact ⟨hon.1, hon.2.append hnew⟩
  | live channel =>
    simp only [Stream.OnTrack, Stream.publish, hmode] at hon ⊢
    exact hon.append hnew
  | _ =>
    simp only [Stream.OnTrack, Stream.publish, hmode] at hon ⊢
    exact hon

theorem advance_status {log : List Message} {liveState : Option LiveState} :
    (stream.advance log liveState).status = stream.status := by
  unfold Stream.advance
  repeat' split
  all_goals rfl

/-- A terminal message of the turn ends the stream on track, another leaves it there. -/
theorem Followed.deliver {message : Message} {mode : StreamMode} (h : Followed state stream)
    (hturn : isTerminalKind message.kind = true → stream.turn ≤ message.turn)
    (hmode : Stream.OnTrack state { stream with
      mode := mode, delivered := stream.delivered ++ [message] }) :
    Followed state (stream.deliver message mode) := by
  refine ⟨h.reached, ?_⟩
  unfold Stream.deliver
  by_cases hkind : isTerminalKind message.kind = true
  · rw [if_pos hkind]
    refine ⟨message, ?_, hkind, hturn hkind⟩
    exact List.mem_append_right _ (List.mem_singleton.mpr rfl)
  · rw [if_neg hkind]
    exact hmode

/-- The handler goes on: it closes a stream only on a terminal event it has sent. -/
theorem Followed.advance (h : Followed state stream) (hlogged : TerminalsLogged state) :
    Followed state (stream.advance state.log state.job.liveState) := by
  have hon := h.onTrack
  unfold Stream.OnTrack at hon
  unfold Stream.advance
  cases hmode : stream.mode with
  | polling seen =>
    rw [hmode] at hon
    dsimp only at hon ⊢
    cases hnext : state.log[seen]? with
    | none => exact h
    | some message => exact h.deliver (hon message (List.mem_of_getElem? hnext)) hon
  | subscribing =>
    rw [hmode] at hon
    exact ⟨h.reached, hon, fun message hmessage => absurd hmessage List.not_mem_nil⟩
  | subscribed channel =>
    rw [hmode] at hon
    refine ⟨h.reached, ?_⟩
    dsimp only
    by_cases hterminal : liveStateIsTerminal state.job.liveState = true
    · obtain ⟨left, hleft, -⟩ := (Option.any_eq_true _ _).mp hterminal
      rw [if_pos hterminal]
      exact (hlogged.liveState left hleft).mono (hon.1 left hleft)
    · rw [if_neg hterminal]
      exact hon.2
  | replaying =>
    rw [hmode] at hon
    exact ⟨h.reached, hasTerminal.append_right hon⟩
  | live channel =>
    rw [hmode] at hon
    cases channel with
    | nil => exact h
    | cons message channel =>
      apply h.deliver (hon message List.mem_cons_self)
      exact fun other hother => hon other (List.mem_cons_of_mem _ hother)
  | closed => exact h

end Streams

section Log

variable {state next : JobSystem} {action : JobAction}

/-- Rows are only appended to the event log. -/
theorem RunEffect.events_append {tables after : JobTables} {phase phase' : RunPhase}
    {action : RunAction} (h : RunEffect redis tables phase action after phase') :
    tables.events <+: after.events := by
  cases h with
  | node hnode =>
    obtain ⟨nodeRuns, stateJson, events, rfl⟩ := nodeStatement_frame hnode
    exact List.prefix_append _ _
  | pause hpause => exact markWorkflowPaused_events hpause
  | install hinstall =>
    obtain ⟨stateJson, rfl⟩ := installWorkflow_frame hinstall
    exact List.prefix_rfl
  | saved hsave =>
    obtain ⟨-, rfl⟩ := save_eq_ok hsave
    exact List.prefix_rfl
  | persist _ =>
    unfold persistTerminal
    split_ifs <;> exact List.prefix_rfl
  | failed hfail =>
    rcases fail_eq hfail with ⟨-, -, rfl⟩ | ⟨-, -, rfl⟩
    · exact List.prefix_rfl
    · exact List.prefix_rfl
  | progress _ => exact List.prefix_append _ _
  | insertTerminal => exact List.prefix_append _ _
  | _ => exact List.prefix_rfl

theorem JobEffect.events_append (h : JobEffect redis state action next) :
    state.tables.events <+: next.tables.events := by
  cases h with
  | run _ heffect => exact heffect.events_append
  | responded _ _ => exact List.prefix_append _ _
  | resumed _ _ _ => exact List.prefix_append _ _
  | rejected _ => exact List.prefix_rfl
  | expired => exact List.prefix_rfl

/-- The log of the streams is the job's event log. -/
theorem log_kinds {state : StreamSystem} (h : (streamMachine redis).Reachable state) :
    state.log.map (·.kind) = state.job.tables.events.map (·.eventType) := by
  apply h.invariant
    (P := fun state => state.log.map (·.kind) = state.job.tables.events.map (·.eventType))
  · rintro s ⟨jobId, userId, stateJson, rfl⟩
    rfl
  · intro s a s' hinv _ hstep
    cases a with
    | job action =>
      obtain ⟨job, hjob, rfl⟩ := Option.map_eq_some_iff.mp hstep
      obtain ⟨new, hnew⟩ := (jobStep_effect hjob).events_append
      simp only [StreamSystem.moved, JobSystem.logged, List.map_append, hinv, ← hnew,
        List.drop_left, List.map_map]
      rfl
    | «open» =>
      obtain rfl := Option.some.inj hstep
      exact hinv
    | advance index =>
      simp only [streamMachine, streamStep] at hstep
      split at hstep
      · obtain rfl := Option.some.inj hstep
        exact hinv
      · cases hstep

/-- A run that inserts its terminal event leaves it in the log. -/
theorem logged_insertTerminal {run : PipelineRun} {index : ℕ} {event : TerminalEvent}
    {step : Option String} {payload : Json} (hrun : state.runs[index]? = some run)
    (hnext : next.tables.events = (state.tables.insertEvent event.name step payload).events) :
    hasTerminal run.turn (state.logged (.run index (.insertTerminal step payload)) next) := by
  refine ⟨⟨event.name, run.turn⟩, ?_, isTerminalKind_name event, le_rfl⟩
  simp only [JobSystem.logged, hnext, JobTables.insertEvent, List.drop_left, JobSystem.turnOf,
    hrun, Option.map_some, Option.getD_some, List.map_cons, List.map_nil]
  exact List.mem_singleton.mpr rfl

/-- A run comes past its terminal event by inserting it. -/
theorem RunEffect.terminalInserted {tables after : JobTables} {phase phase' : RunPhase}
    {action : RunAction} (h : RunEffect redis tables phase action after phase')
    (hinserted : phase'.terminalInserted = true) :
    phase.terminalInserted = true ∨ ∃ (event : TerminalEvent) (step : Option String)
      (payload : Json), action = .insertTerminal step payload ∧
        after = tables.insertEvent event.name step payload := by
  cases h with
  | @insertTerminal event step payload => exact Or.inr ⟨event, step, payload, rfl, rfl⟩
  | publish => exact Or.inl rfl
  | progress _ => exact Or.inl hinserted
  | _ => cases hinserted

theorem TerminalsLogged.moved {state : StreamSystem} {action : JobAction} {job : JobSystem}
    (h : TerminalsLogged state) (heffect : JobEffect redis state.job action job) :
    TerminalsLogged (state.moved action job) := by
  cases heffect with
  | @run index run action after phase hrun heffect =>
    have hmem := List.mem_of_getElem? hrun
    constructor
    · intro left hleft
      simp only [StreamSystem.moved, liveStateAfter] at hleft
      split at hleft
      · rename_i event hphase
        obtain rfl := Option.some.inj hleft
        exact (h.inserted run hmem (by rw [hphase]; rfl)).append_left
      · exact (h.liveState left hleft).append_left
    · intro other hother hinserted
      rcases List.mem_or_eq_of_mem_set hother with hold | rfl
      · exact (h.inserted other hold hinserted).append_left
      · rcases heffect.terminalInserted hinserted with hbefore | ⟨event, step, payload, rfl, rfl⟩
        · exact (h.inserted run hmem hbefore).append_left
        · exact (logged_insertTerminal hrun rfl).append_right
  | responded _ _ =>
    refine ⟨fun left hleft => (h.liveState left hleft).append_left, ?_⟩
    intro other hother hinserted
    rcases List.mem_append.mp hother with hold | hnew
    · exact (h.inserted other hold hinserted).append_left
    · obtain rfl := List.mem_singleton.mp hnew
      cases hinserted
  | resumed _ _ _ =>
    exact ⟨fun left hleft => (h.liveState left hleft).append_left,
      fun other hother hinserted => (h.inserted other hother hinserted).append_left⟩
  | rejected _ =>
    exact ⟨fun left hleft => (h.liveState left hleft).append_left,
      fun other hother hinserted => (h.inserted other hother hinserted).append_left⟩
  | expired =>
    refine ⟨fun left hleft => ?_,
      fun other hother hinserted => (h.inserted other hother hinserted).append_left⟩
    cases hleft

theorem terminalsLogged_reachable {state : StreamSystem}
    (h : (streamMachine redis).Reachable state) : TerminalsLogged state := by
  apply h.invariant
  · rintro s ⟨jobId, userId, stateJson, rfl⟩
    constructor
    · intro left hleft
      cases hleft
    · intro run hrun hinserted
      obtain rfl := List.mem_singleton.mp hrun
      cases hinserted
  · intro s a s' hinv _ hstep
    cases a with
    | job action =>
      obtain ⟨job, hjob, rfl⟩ := Option.map_eq_some_iff.mp hstep
      exact hinv.moved (jobStep_effect hjob)
    | «open» =>
      obtain rfl := Option.some.inj hstep
      exact ⟨hinv.liveState, hinv.inserted⟩
    | advance index =>
      simp only [streamMachine, streamStep] at hstep
      split at hstep
      · obtain rfl := Option.some.inj hstep
        exact ⟨hinv.liveState, hinv.inserted⟩
      · cases hstep

end Log

section Runs

variable {state : StreamSystem} {stream : Stream}

/-- Every stream of an unsettled job is followed. -/
def StreamsFollowed (state : StreamSystem) : Prop :=
  ∀ stream ∈ state.streams, isTerminalJobStatus stream.status = false → Followed state stream

theorem opened_followed {turn : ℕ} {status : JobStatus}
    (hstatus : isTerminalJobStatus status = false) (hreached : TurnReached turn state.job)
    (hfresh : if redis then liveFrom turn state.job.liveState
      else terminalsFrom turn state.log) :
    Followed state (Stream.opened redis status turn) := by
  refine ⟨hreached, ?_⟩
  simp only [Stream.OnTrack, Stream.opened, hstatus, Bool.false_eq_true, if_false]
  cases redis with
  | true => exact hfresh
  | false => exact hfresh

theorem StreamsFollowed.step {action : StreamAction} {next : StreamSystem}
    (h : StreamsFollowed state) (hlogged : TerminalsLogged state)
    (hcond : opensFresh redis state action) (hstep : streamStep redis state action = some next) :
    StreamsFollowed next := by
  cases action with
  | job action =>
    obtain ⟨job, hjob, rfl⟩ := Option.map_eq_some_iff.mp hstep
    have heffect := jobStep_effect hjob
    intro stream hstream hstatus
    simp only [StreamSystem.moved] at hstream
    split at hstream
    · rename_i message hmessage
      obtain ⟨sent, hsent, rfl⟩ := List.mem_map.mp hstream
      rw [publish_status] at hstatus
      have hfollowed := h sent hsent hstatus
      apply (hfollowed.moved heffect).publish
      rw [published_turn hmessage]
      exact heffect.turnOf_ge hfollowed.reached
    · exact (h stream hstream hstatus).moved heffect
  | «open» =>
    obtain rfl := Option.some.inj hstep
    intro stream hstream hstatus
    rcases List.mem_append.mp hstream with hold | hnew
    · have hfollowed := h stream hold hstatus
      exact ⟨hfollowed.reached, hfollowed.onTrack⟩
    · obtain rfl := List.mem_singleton.mp hnew
      obtain ⟨hended, hfresh⟩ := hcond hstatus
      have hfollowed : Followed state (Stream.opened redis state.job.tables.status
          state.job.answers.length) := opened_followed hstatus ⟨le_rfl, hended⟩ hfresh
      exact ⟨hfollowed.reached, hfollowed.onTrack⟩
  | advance index =>
    simp only [streamStep] at hstep
    split at hstep
    · rename_i stream hstream
      obtain rfl := Option.some.inj hstep
      intro other hother hstatus
      have hfollowed : Followed state other := by
        rcases List.mem_or_eq_of_mem_set hother with hold | rfl
        · exact h other hold hstatus
        · rw [advance_status] at hstatus
          exact (h stream (List.mem_of_getElem? hstream) hstatus).advance hlogged
      exact ⟨hfollowed.reached, hfollowed.onTrack⟩
    · cases hstep

/-- While streams of an unsettled job are opened fresh, one closes only after a
terminal event of the turn it was opened in or of a later one. -/
theorem stream_ends_with_current_run
    (h : (streamMachine redis).ReachableVia (opensFresh redis) state)
    (hstream : stream ∈ state.streams) (hstatus : isTerminalJobStatus stream.status = false)
    (hclosed : stream.mode = .closed) :
    ∃ message ∈ stream.delivered, isTerminalKind message.kind = true ∧
      stream.turn ≤ message.turn := by
  have hfollowed : StreamsFollowed state := by
    apply Machine.ReachableVia.invariant_under
      (fun hreach => terminalsLogged_reachable hreach.reachable) _ _ h
    · rintro s ⟨jobId, userId, stateJson, rfl⟩ stream hstream
      cases hstream
    · intro s a s' hlogged hinv hcond hstep
      exact hinv.step hlogged hcond hstep
  have hon := (hfollowed stream hstream hstatus).onTrack
  rw [Stream.OnTrack, hclosed] at hon
  exact hon

end Runs

namespace PausedJob

def streaming : StreamSystem := ⟨created, [], []⟩

def announcing : List JobAction := [.run 0 .publish, .run 0 .setLiveState]

def answered : JobAction := .respond 1 2 submission 12

/-- The stream was opened in that turn of an unsettled job and has closed on messages
of the first run only. -/
def endedByFirstRun (turn : ℕ) (state : StreamSystem) : Bool :=
  decide (∃ stream ∈ state.streams, stream.status = .queued ∧ stream.turn = turn ∧
    stream.mode = .closed ∧ ∀ message ∈ stream.delivered,
      isTerminalKind message.kind = true → message.turn = 0)

/-- Opened in the first turn; the log ends with the clarification. -/
def pollingFirstTurn : List StreamAction :=
  .open :: (pausing ++ projecting).map .job ++ [.advance 0, .advance 0, .advance 0]

/-- Opened after the answer, over the log. -/
def pollingSecondTurn : List StreamAction :=
  (pausing ++ projecting ++ [answered]).map .job ++ [.open, .advance 0, .advance 0, .advance 0]

/-- Opened after the answer, over the channel. -/
def subscribingSecondTurn : List StreamAction :=
  (pausing ++ projecting ++ announcing ++ [answered]).map .job ++
    [.open, .advance 0, .advance 0, .advance 0]

end PausedJob

theorem stream_ends_with_current_run_first : ∃ (state : StreamSystem) (stream : Stream),
    stream ∈ state.streams ∧ stream.status = .queued ∧ stream.mode = .closed ∧
      ∃ message ∈ stream.delivered, isTerminalKind message.kind = true ∧
        stream.turn ≤ message.turn := by
  have hcreated : (streamMachine false).ReachableVia (opensFresh false) PausedJob.streaming :=
    .init ⟨1, 2, .obj [], rfl⟩
  have hrun : ((streamMachine false).runVia (opensFresh false) PausedJob.streaming
      PausedJob.pollingFirstTurn).any (PausedJob.endedByFirstRun 0) = true := by decide
  obtain ⟨state, hreach, htest⟩ := hcreated.exists_of_runVia hrun
  obtain ⟨stream, hstream, hstatus, -, hclosed, -⟩ := of_decide_eq_true htest
  have hqueued : isTerminalJobStatus stream.status = false := by
    rw [hstatus]
    rfl
  exact ⟨state, stream, hstream, hstatus, hclosed,
    stream_ends_with_current_run hreach hstream hqueued hclosed⟩

/-- A stream opened in the second turn has closed on messages of the first run only. -/
def EndsBeforeTurn (redis : Bool) : Prop :=
  ∃ (state : StreamSystem) (stream : Stream), (streamMachine redis).Reachable state ∧
    stream ∈ state.streams ∧ stream.status = .queued ∧ stream.turn = 1 ∧ stream.mode = .closed ∧
      ∀ message ∈ stream.delivered, isTerminalKind message.kind = true → message.turn = 0

theorem endsBeforeTurn_of_run (actions : List StreamAction)
    (hrun : ((streamMachine redis).run PausedJob.streaming actions).any
      (PausedJob.endedByFirstRun 1) = true) : EndsBeforeTurn redis := by
  have hcreated : (streamMachine redis).Reachable PausedJob.streaming :=
    .init ⟨1, 2, .obj [], rfl⟩
  obtain ⟨state, hreach, htest⟩ := hcreated.exists_of_run hrun
  obtain ⟨stream, hstream, hended⟩ := of_decide_eq_true htest
  exact ⟨state, stream, hreach, hstream, hended⟩

/-- The job was answered and queued again; a stream opened then closes on the
clarification that was answered, whether it polls the log or subscribes. -/
theorem stream_ends_with_answered_turn : EndsBeforeTurn false ∧ EndsBeforeTurn true := by
  constructor
  · apply endsBeforeTurn_of_run PausedJob.pollingSecondTurn
    decide
  · apply endsBeforeTurn_of_run PausedJob.subscribingSecondTurn
    decide

end FineractReports.Job
