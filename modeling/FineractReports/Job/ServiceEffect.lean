import FineractReports.Job.Service

/-!
# What a step of the job service can do

The steps of a run and of the service, inverted once. What the invariants need of
the statements is how they move the job's status and its pending clarification.
-/

namespace FineractReports.Job

open Workflow

inductive RunEffect (redis : Bool) (tables : JobTables) :
    RunPhase → RunAction → JobTables → RunPhase → Prop
  | load : RunEffect redis tables .spawned .load tables (.working tables.memoryRevision none false)
  | install {revision workflowId workflow after}
      (h : tables.installWorkflow tables.userId workflowId workflow = .ok after) :
      RunEffect redis tables (.working revision none false) (.install workflowId workflow) after
        (.working revision (some workflowId) false)
  | node {revision workflowId paused statement after}
      (h : NodeStatement.execute tables statement = .ok after) :
      RunEffect redis tables (.working revision (some workflowId) paused) (.node statement) after
        (.working revision (some workflowId) paused)
  | pause {revision workflowId nodeId clarification after}
      (h : tables.markWorkflowPaused tables.userId workflowId nodeId clarification = .ok after) :
      RunEffect redis tables (.working revision (some workflowId) false)
        (.pause nodeId clarification) after (.working revision (some workflowId) true)
  | saved {revision workflowId paused pending terminal after}
      (h : JobMemoryRepository.save tables pending revision = .ok after) :
      RunEffect redis tables (.working revision workflowId paused) (.save pending terminal) after
        (.saved terminal)
  | saveStale {revision workflowId paused pending terminal} :
      RunEffect redis tables (.working revision workflowId paused) (.save pending terminal) tables
        .failing
  | store {resultJson} :
      RunEffect redis tables (.saved (some .waitingForUserInput)) (.store resultJson)
        (JobRepository.storeAssistantResponseResult tables resultJson) .stored
  | wait {resultJson} :
      RunEffect redis tables .stored (.write resultJson) (JobRepository.waitForUserInput tables)
        (.persisted .clarification)
  | persist {terminal resultJson} (h : terminal ≠ .waitingForUserInput) :
      RunEffect redis tables (.saved (some terminal)) (.write resultJson)
        (persistTerminal tables resultJson terminal) (.persisted terminal.eventKind)
  | progress {phase delta step payload} (h : phase.inPipeline = true) :
      RunEffect redis tables phase (.progress delta step payload)
        (tables.insertEvent (if delta then "delta" else "stage") (some step) payload) phase
  | abort {phase} (h : phase.inPipeline = true) :
      RunEffect redis tables phase .abort tables .failing
  | failed {after} (h : JobRepository.fail tables failureJson = (true, after)) :
      RunEffect redis tables .failing .fail after (.persisted .error)
  | alreadyTerminal (h : tables.status.isTerminal = true) :
      RunEffect redis tables .failing .fail tables .finished
  | insertTerminal {event step payload} :
      RunEffect redis tables (.persisted event) (.insertTerminal step payload)
        (tables.insertEvent event.name step payload)
        (if redis then .inserted event else .finished)
  | publish {event} :
      RunEffect redis tables (.inserted event) .publish tables (.published event)
  | setLiveState {event} :
      RunEffect redis tables (.published event) .setLiveState tables .finished

variable {redis : Bool} {tables after : JobTables}

theorem runStep_effect {phase phase' : RunPhase} {action : RunAction}
    (h : runStep redis tables phase action = some (after, phase')) :
    RunEffect redis tables phase action after phase' := by
  unfold runStep at h
  split at h
  · obtain ⟨rfl, rfl⟩ := Prod.mk.inj (Option.some.inj h)
    exact .load
  · split at h
    · rename_i installed hinstalled
      obtain ⟨rfl, rfl⟩ := Prod.mk.inj (Option.some.inj h)
      exact .install hinstalled
    · simp at h
  · split at h
    · rename_i executed hexecuted
      obtain ⟨rfl, rfl⟩ := Prod.mk.inj (Option.some.inj h)
      exact .node hexecuted
    · simp at h
  · split at h
    · rename_i paused hpaused
      obtain ⟨rfl, rfl⟩ := Prod.mk.inj (Option.some.inj h)
      exact .pause hpaused
    · simp at h
  · split at h
    · rename_i saved hsaved
      obtain ⟨rfl, rfl⟩ := Prod.mk.inj (Option.some.inj h)
      exact .saved hsaved
    · obtain ⟨rfl, rfl⟩ := Prod.mk.inj (Option.some.inj h)
      exact .saveStale
  · obtain ⟨rfl, rfl⟩ := Prod.mk.inj (Option.some.inj h)
    exact .store
  · obtain ⟨rfl, rfl⟩ := Prod.mk.inj (Option.some.inj h)
    exact .wait
  · split_ifs at h with hwaiting
    obtain ⟨rfl, rfl⟩ := Prod.mk.inj (Option.some.inj h)
    exact .persist hwaiting
  · split at h
    · rename_i hpipeline
      obtain ⟨rfl, rfl⟩ := Prod.mk.inj (Option.some.inj h)
      exact .progress hpipeline
    · simp at h
  · split at h
    · rename_i hpipeline
      obtain ⟨rfl, rfl⟩ := Prod.mk.inj (Option.some.inj h)
      exact .abort hpipeline
    · simp at h
  · split at h
    · rename_i failed hfailed
      obtain ⟨rfl, rfl⟩ := Prod.mk.inj (Option.some.inj h)
      exact .failed hfailed
    · rename_i failed hfailed
      obtain ⟨rfl, rfl⟩ := Prod.mk.inj (Option.some.inj h)
      rcases fail_eq hfailed with ⟨-, hterminal, -⟩ | ⟨habsurd, -⟩
      · exact .alreadyTerminal hterminal
      · simp at habsurd
  · obtain ⟨rfl, rfl⟩ := Prod.mk.inj (Option.some.inj h)
    exact .insertTerminal
  · obtain ⟨rfl, rfl⟩ := Prod.mk.inj (Option.some.inj h)
    exact .publish
  · obtain ⟨rfl, rfl⟩ := Prod.mk.inj (Option.some.inj h)
    exact .setLiveState
  · simp at h

/-- One step of the service: a run's step, an accepted answer, a call that writes
nothing or the expiry of the Redis key. -/
inductive JobEffect (redis : Bool) (state : JobSystem) : JobAction → JobSystem → Prop
  | run {index run action after phase} (hrun : state.runs[index]? = some run)
      (heffect : RunEffect redis state.tables run.phase action after phase) :
      JobEffect redis state (.run index action) { state with
        tables := after
        runs := state.runs.set index { run with phase := phase }
        liveState := liveStateAfter run action state.liveState }
  | responded {jobId userId submission messageId}
      (hwaiting : state.tables.status = .waitingForUserInput)
      (hnames : JobRepository.namesPending state.tables submission) :
      JobEffect redis state (.respond jobId userId submission messageId) { state with
        tables := JobRepository.responded state.tables submission messageId
        runs := state.runs ++ [⟨state.answers.length + 1, .spawned⟩]
        answers := state.answers ++ [.inserted submission] }
  | resumed {request} (hwaiting : state.tables.status = .waitingForUserInput)
      (hnames : state.tables.namesPausedNode request)
      (howner : (state.tables.resume request).1 = .resumed) :
      JobEffect redis state (.resume request) { state with
        tables := state.tables.resumed request
        answers := state.answers ++ [.resumed request] }
  | rejected {action} (hanswer : ∀ index step, action ≠ .run index step) :
      JobEffect redis state action state
  | expired : JobEffect redis state .expireLiveState { state with liveState := none }

theorem jobStep_effect {state next : JobSystem} {action : JobAction}
    (h : jobStep redis state action = some next) : JobEffect redis state action next := by
  cases action with
  | run index action =>
    simp only [jobStep] at h
    split at h
    · rename_i run hrun
      obtain ⟨⟨after, phase⟩, hstep, rfl⟩ := Option.map_eq_some_iff.mp h
      exact .run hrun (runStep_effect hstep)
    · simp at h
  | respond jobId userId submission messageId =>
    simp only [jobStep] at h
    split at h
    · rename_i after hrespond
      obtain rfl := Option.some.inj h
      rcases respond_eq hrespond with ⟨-, hwaiting, hnames, rfl⟩ | ⟨habsurd, -⟩
      · exact .responded hwaiting hnames
      · exact absurd rfl habsurd
    · obtain rfl := Option.some.inj h
      exact .rejected (by simp)
  | resume request =>
    simp only [jobStep] at h
    split at h
    · rename_i after hresume
      obtain rfl := Option.some.inj h
      rcases JobTables.resume_eq hresume with ⟨-, hwaiting, hnames, rfl⟩ | ⟨habsurd, -⟩
      · exact .resumed hwaiting hnames (by rw [hresume])
      · exact absurd rfl habsurd
    · obtain rfl := Option.some.inj h
      exact .rejected (by simp)
  | expireLiveState =>
    obtain rfl := Option.some.inj h
    exact .expired

section Statements

theorem installWorkflow_frame {userId workflowId : Uuid} {workflow : Json}
    (h : tables.installWorkflow userId workflowId workflow = .ok after) :
    ∃ stateJson, after = { tables with
      workflowId := some workflowId, workflowRevision := tables.workflowRevision + 1
      currentNodeId := none, currentStep := "planning", stateJson := stateJson } := by
  unfold JobTables.installWorkflow at h
  split_ifs at h
  obtain rfl := Except.ok.inj h
  exact ⟨_, rfl⟩

/-- A node statement writes node rows and the runtime record and appends events. -/
theorem nodeStatement_frame {statement : NodeStatement} (h : statement.execute tables = .ok after) :
    ∃ nodeRuns stateJson events, after = { tables with
      nodeRuns := nodeRuns, stateJson := stateJson, events := tables.events ++ events } := by
  cases statement with
  | «begin» run =>
    obtain rfl := Except.ok.inj h
    exact ⟨_, _, _, rfl⟩
  | complete run output rowsReturned durationMs =>
    simp only [NodeStatement.execute, JobTables.completeNode] at h
    split_ifs at h
    obtain rfl := Except.ok.inj h
    exact ⟨_, _, _, rfl⟩
  | fail run durationMs =>
    obtain rfl := Except.ok.inj h
    refine ⟨(tables.failNode run durationMs).nodeRuns, tables.stateJson, [], ?_⟩
    rw [List.append_nil]
    rfl
  | addBudgetConsumed queries rows ms =>
    obtain rfl := Except.ok.inj h
    unfold JobTables.addBudgetConsumed
    split
    · refine ⟨tables.nodeRuns, ?stateJson, [], ?frame⟩
      case frame => rw [List.append_nil]
    · refine ⟨tables.nodeRuns, tables.stateJson, [], ?_⟩
      rw [List.append_nil]

theorem markWorkflowPaused_events {userId workflowId : Uuid} {nodeId : NodeId}
    {clarification : ClarificationPayload}
    (h : tables.markWorkflowPaused userId workflowId nodeId clarification = .ok after) :
    tables.events <+: after.events := by
  unfold JobTables.markWorkflowPaused at h
  split_ifs at h
  obtain rfl := Except.ok.inj h
  exact List.prefix_append _ _

theorem markWorkflowPaused_status {userId workflowId : Uuid} {nodeId : NodeId}
    {clarification : ClarificationPayload}
    (h : tables.markWorkflowPaused userId workflowId nodeId clarification = .ok after) :
    after.status = .waitingForUserInput := by
  unfold JobTables.markWorkflowPaused at h
  split_ifs at h
  obtain rfl := Except.ok.inj h
  rfl

theorem persistTerminal_isTerminal (resultJson : Json) (terminal : TerminalState) :
    (persistTerminal tables resultJson terminal).status.isTerminal = true := by
  unfold persistTerminal
  split_ifs <;> rfl

end Statements

/-- The steps that write the job's status. -/
def RunAction.writesStatus : RunAction → Bool
  | pause _ _ | write _ | fail => true
  | _ => false

theorem RunEffect.status_eq {phase phase' : RunPhase} {action : RunAction}
    (h : RunEffect redis tables phase action after phase')
    (hwrites : action.writesStatus = false) : after.status = tables.status := by
  cases h with
  | load => rfl
  | install h =>
    obtain ⟨stateJson, rfl⟩ := installWorkflow_frame h
    rfl
  | node h =>
    obtain ⟨nodeRuns, stateJson, events, rfl⟩ := nodeStatement_frame h
    rfl
  | pause _ => simp [RunAction.writesStatus] at hwrites
  | saved h =>
    obtain ⟨-, rfl⟩ := save_eq_ok h
    rfl
  | saveStale => rfl
  | store => rfl
  | wait => simp [RunAction.writesStatus] at hwrites
  | persist _ => simp [RunAction.writesStatus] at hwrites
  | progress _ => rfl
  | abort _ => rfl
  | failed _ => simp [RunAction.writesStatus] at hwrites
  | alreadyTerminal _ => simp [RunAction.writesStatus] at hwrites
  | insertTerminal => rfl
  | publish => rfl
  | setLiveState => rfl

theorem map_set_of_eq {α β : Type*} {f : α → β} {l : List α} {index : ℕ} {a b : α}
    (h : l[index]? = some a) (hf : f b = f a) : (l.set index b).map f = l.map f := by
  apply List.ext_getElem?
  intro i
  rw [List.getElem?_map, List.getElem?_map, List.getElem?_set]
  split_ifs with hi hlt
  · subst hi
    simp [h, hf]
  · subst hi
    simp [List.getElem?_eq_none (not_lt.mp hlt)]
  · rfl

/-- Which runs were spawned for which answers. -/
def JobSystem.turns (state : JobSystem) : List ℕ := state.runs.map (·.turn)

/-- A step of a run spawns nothing. -/
theorem turns_set {state : JobSystem} {index : ℕ} {run : PipelineRun} {phase : RunPhase}
    (hrun : state.runs[index]? = some run) :
    (state.runs.set index { run with phase := phase }).map (·.turn) = state.turns :=
  map_set_of_eq hrun rfl

end FineractReports.Job
