import FineractReports.Job.ServiceEffect

/-!
# Terminal statuses

Only the failure path looks at the status before it writes. A job stays terminal when
it became terminal with no other unguarded write of a run still to come.
-/

namespace FineractReports.Job

open Workflow

variable {redis : Bool} {state next : JobSystem}

/-- The steps that write `completed` or `failed`. -/
def RunPhase.endsJob (phase : RunPhase) (action : RunAction) : Bool :=
  match phase, action with
  | .saved _, .write _ | .failing, .fail => true
  | _, _ => false

/-- No run of the job, except perhaps one, can still write the status unguarded. -/
def quietExcept (state : JobSystem) (index : Option ℕ) : Prop :=
  ∀ i < state.runs.length, some i ≠ index → ∀ run ∈ state.runs[i]?,
    run.phase.unguardedWriteAhead state.tables.memoryRevision = false

instance (state : JobSystem) (index : Option ℕ) : Decidable (quietExcept state index) :=
  inferInstanceAs (Decidable (∀ i < state.runs.length, some i ≠ index → ∀ run ∈ state.runs[i]?,
    run.phase.unguardedWriteAhead state.tables.memoryRevision = false))

/-- A run ends the job only when no other run can still write the status unguarded. -/
def endsAlone (state : JobSystem) (action : JobAction) : Prop :=
  match action with
  | .run index action => (∃ run ∈ state.runs[index]?, run.phase.endsJob action = true) →
      quietExcept state (some index)
  | _ => True

instance (state : JobSystem) : (action : JobAction) → Decidable (endsAlone state action)
  | .run index action => inferInstanceAs
    (Decidable ((∃ run ∈ state.runs[index]?, run.phase.endsJob action = true) →
      quietExcept state (some index)))
  | .respond .. | .resume _ | .expireLiveState => isTrue trivial

section Steps

variable {tables after : JobTables} {phase phase' : RunPhase} {action : RunAction}

/-- A run without an unguarded write ahead leaves a terminal status alone and gets
none. -/
theorem RunEffect.quiet (h : RunEffect redis tables phase action after phase')
    (hterminal : tables.status.isTerminal = true)
    (hquiet : phase.unguardedWriteAhead tables.memoryRevision = false) :
    after.status = tables.status ∧ after.memoryRevision = tables.memoryRevision ∧
      phase'.unguardedWriteAhead tables.memoryRevision = false := by
  cases h with
  | node h =>
    obtain ⟨nodeRuns, stateJson, events, rfl⟩ := nodeStatement_frame h
    exact ⟨rfl, rfl, hquiet⟩
  | saved h =>
    obtain ⟨hrevision, -⟩ := save_eq_ok h
    simp [RunPhase.unguardedWriteAhead, hrevision] at hquiet
  | progress _ => exact ⟨rfl, rfl, hquiet⟩
  | failed h =>
    rcases fail_eq h with ⟨habsurd, -⟩ | ⟨-, hrunning, -⟩
    · cases habsurd
    · exact absurd (hrunning.symm.trans hterminal) (by simp)
  | load => simp [RunPhase.unguardedWriteAhead] at hquiet
  | install _ => simp [RunPhase.unguardedWriteAhead] at hquiet
  | pause _ => simp [RunPhase.unguardedWriteAhead] at hquiet
  | store => simp [RunPhase.unguardedWriteAhead] at hquiet
  | wait => simp [RunPhase.unguardedWriteAhead] at hquiet
  | persist _ => simp [RunPhase.unguardedWriteAhead] at hquiet
  | insertTerminal =>
    refine ⟨rfl, rfl, ?_⟩
    split_ifs <;> rfl
  | _ => exact ⟨rfl, rfl, rfl⟩

/-- A step that makes the job terminal is one of the two that end it. -/
theorem RunEffect.ends (h : RunEffect redis tables phase action after phase')
    (hrunning : tables.status.isTerminal = false) (hterminal : after.status.isTerminal = true) :
    phase.endsJob action = true ∧ after.memoryRevision = tables.memoryRevision ∧
      phase'.unguardedWriteAhead tables.memoryRevision = false := by
  cases hwrites : action.writesStatus with
  | false =>
    rw [h.status_eq hwrites, hrunning] at hterminal
    cases hterminal
  | true =>
    cases h with
    | pause h =>
      rw [markWorkflowPaused_status h] at hterminal
      cases hterminal
    | wait => cases hterminal
    | persist _ =>
      refine ⟨rfl, ?_, rfl⟩
      unfold persistTerminal
      split_ifs <;> rfl
    | failed h =>
      rcases fail_eq h with ⟨habsurd, -⟩ | ⟨-, -, rfl⟩
      · cases habsurd
      · exact ⟨rfl, rfl, rfl⟩
    | alreadyTerminal h => exact absurd (hrunning.symm.trans h) (by simp)
    | _ => simp [RunAction.writesStatus] at hwrites

end Steps

/-- One run moves: the others are as quiet as they were. -/
theorem quietExcept.set {index : ℕ} {run : PipelineRun} {after : JobTables} {phase : RunPhase}
    {liveState : Option LiveState} (h : quietExcept state (some index))
    (hrevision : after.memoryRevision = state.tables.memoryRevision)
    (hphase : phase.unguardedWriteAhead state.tables.memoryRevision = false) :
    quietExcept { state with
      tables := after, runs := state.runs.set index { run with phase := phase }
      liveState := liveState } none := by
  intro i hi _ other hother
  rw [List.length_set] at hi
  rw [Option.mem_def, List.getElem?_set] at hother
  rw [hrevision]
  by_cases hindex : index = i
  · rw [if_pos hindex] at hother
    split_ifs at hother
    obtain rfl := Option.some.inj hother
    exact hphase
  · rw [if_neg hindex] at hother
    exact h i hi (fun heq => hindex (Option.some.inj heq).symm) other hother

/-- In a terminal job without an unguarded write ahead nothing changes the status. -/
theorem JobEffect.quiet {action : JobAction} (h : JobEffect redis state action next)
    (hterminal : state.tables.status.isTerminal = true) (hquiet : quietExcept state none) :
    next.tables.status = state.tables.status ∧ quietExcept next none := by
  cases h with
  | @run index run action after phase hrun heffect =>
    have hlt := (List.getElem?_eq_some_iff.mp hrun).1
    obtain ⟨hstatus, hrevision, hphase⟩ :=
      heffect.quiet hterminal (hquiet index hlt (by simp) run hrun)
    refine ⟨hstatus, quietExcept.set ?_ hrevision hphase⟩
    intro i hi _ other hother
    exact hquiet i hi (by simp) other hother
  | responded hwaiting _ =>
    rw [hwaiting] at hterminal
    cases hterminal
  | resumed hwaiting _ _ =>
    rw [hwaiting] at hterminal
    cases hterminal
  | rejected => exact ⟨rfl, hquiet⟩
  | expired => exact ⟨rfl, hquiet⟩

/-- A job becomes terminal only quiet. -/
theorem JobEffect.quiet_when_terminal {action : JobAction}
    (h : JobEffect redis state action next) (hcond : endsAlone state action)
    (hinv : state.tables.status.isTerminal = true → quietExcept state none)
    (hterminal : next.tables.status.isTerminal = true) : quietExcept next none := by
  cases hbefore : state.tables.status.isTerminal with
  | true => exact (h.quiet hbefore (hinv hbefore)).2
  | false =>
    cases h with
    | @run index run action after phase hrun heffect =>
      obtain ⟨hends, hrevision, hphase⟩ := heffect.ends hbefore hterminal
      exact quietExcept.set (hcond ⟨run, hrun, hends⟩) hrevision hphase
    | responded _ _ => cases hterminal
    | resumed _ _ _ => cases hterminal
    | rejected => exact absurd (hbefore.symm.trans hterminal) (by simp)
    | expired => exact absurd (hbefore.symm.trans hterminal) (by simp)

/-- When runs end a job only alone, nothing that comes later changes a terminal
status. -/
theorem terminal_status_absorbs (h : (jobMachine redis).ReachableVia endsAlone state)
    (hterminal : state.tables.status.isTerminal = true) {actions : List JobAction}
    (hrun : (jobMachine redis).run state actions = some next) :
    next.tables.status = state.tables.status := by
  have hquiet : state.tables.status.isTerminal = true → quietExcept state none := by
    apply h.invariant
      (P := fun state => state.tables.status.isTerminal = true → quietExcept state none)
    · rintro s ⟨jobId, userId, stateJson, rfl⟩ habsurd
      cases habsurd
    · intro s a s' hinv hcond hstep
      exact (jobStep_effect hstep).quiet_when_terminal hcond hinv
  have hkept : next.tables.status = state.tables.status ∧ quietExcept next none := by
    apply Machine.run_keeps
      (P := fun later => later.tables.status = state.tables.status ∧ quietExcept later none)
      _ ⟨rfl, hquiet hterminal⟩ hrun
    intro s a s' ⟨hstatus, hq⟩ hstep
    have hterminal' : s.tables.status.isTerminal = true := by rwa [hstatus]
    obtain ⟨hsame, hq⟩ := (jobStep_effect hstep).quiet hterminal' hq
    exact ⟨hsame.trans hstatus, hq⟩
  exact hkept.1

namespace PausedJob

/-- The answer's run ends the job. -/
def answering : List JobAction :=
  [.respond 1 2 submission 12, .run 1 .load, .run 1 (.save none (some .completed)),
   .run 1 (.write (.obj []))]

/-- The run that paused has written its own status; a late failure comes after the
job completed. -/
def completedJob (state : JobSystem) : Bool :=
  decide (state.tables.status = .completed) &&
    ((jobMachine false).run state [.run 1 .abort, .run 1 .fail]).isSome

/-- The run that paused still has its waiting status to write. -/
def overtaken (state : JobSystem) : Bool :=
  decide (state.tables.status = .completed) &&
    ((jobMachine false).run state [.run 0 (.write (.obj []))]).any fun next =>
      decide (next.tables.status = .waitingForUserInput)

end PausedJob

theorem terminal_status_absorbs_answered : ∃ state next : JobSystem,
    state.tables.status = .completed ∧
      (jobMachine false).run state [.run 1 .abort, .run 1 .fail] = some next ∧
      next.tables.status = .completed := by
  have hcreated : (jobMachine false).ReachableVia endsAlone PausedJob.created :=
    .init ⟨1, 2, .obj [], rfl⟩
  have hrun : ((jobMachine false).runVia endsAlone PausedJob.created
      (PausedJob.pausing ++ PausedJob.projecting ++ PausedJob.answering)).any
        PausedJob.completedJob = true := by decide
  obtain ⟨state, hreach, htest⟩ := hcreated.exists_of_runVia hrun
  obtain ⟨hstatus, hlate⟩ := Bool.and_eq_true_iff.mp htest
  have hcompleted := of_decide_eq_true hstatus
  obtain ⟨next, hnext⟩ := Option.isSome_iff_exists.mp hlate
  refine ⟨state, next, hcompleted, hnext, ?_⟩
  rw [← hcompleted]
  apply terminal_status_absorbs hreach _ hnext
  rw [hcompleted]
  rfl

/-- The job is answered between the pause and the pausing run's own status write: the
write puts the completed job back to waiting. -/
theorem completed_job_waits_again : ∃ state next : JobSystem,
    (jobMachine false).Reachable state ∧ state.tables.status = .completed ∧
      (jobMachine false).step state (.run 0 (.write (.obj []))) = some next ∧
      next.tables.status = .waitingForUserInput := by
  have hcreated : (jobMachine false).Reachable PausedJob.created := .init ⟨1, 2, .obj [], rfl⟩
  have hrun : ((jobMachine false).run PausedJob.created (PausedJob.pausing ++
      PausedJob.projecting.take 2 ++ PausedJob.answering)).any PausedJob.overtaken = true := by
    decide
  obtain ⟨state, hreach, htest⟩ := hcreated.exists_of_run hrun
  obtain ⟨hstatus, hlate⟩ := Bool.and_eq_true_iff.mp htest
  obtain ⟨next, hnext, hwaiting⟩ := (Option.any_eq_true _ _).mp hlate
  rw [Machine.run_cons] at hnext
  obtain ⟨mid, hmid, hnil⟩ := Option.bind_eq_some_iff.mp hnext
  obtain rfl : mid = next := by simpa using hnil
  exact ⟨state, mid, hreach, of_decide_eq_true hstatus, hmid, of_decide_eq_true hwaiting⟩

end FineractReports.Job
