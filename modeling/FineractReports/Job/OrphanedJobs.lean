import FineractReports.Job.ServiceEffect

/-!
# Queued jobs and the runs behind them

A run that still has its status write ahead keeps a queued job alive: either it
writes a settled status or it stays ahead of that write. A response spawns such a
run. A resume spawns nothing, so it relies on the run that paused the job still
being at work.
-/

namespace FineractReports.Job

open Workflow

variable {redis : Bool} {state next : JobSystem}

/-- A resume is accepted only while some run has its status write ahead. -/
def resumesAtWork (state : JobSystem) (action : JobAction) : Prop :=
  match action with
  | .resume request => (state.tables.resume request).1 = .resumed →
      ∃ run ∈ state.runs, run.phase.statusWriteAhead = true
  | _ => True

instance (state : JobSystem) (action : JobAction) : Decidable (resumesAtWork state action) := by
  unfold resumesAtWork
  split <;> infer_instance

/-- A job that is neither terminal nor waiting has a run about to write its status. -/
def StatusWriteAhead (state : JobSystem) : Prop :=
  state.tables.status.isTerminal = false → state.tables.status ≠ .waitingForUserInput →
    ∃ run ∈ state.runs, run.phase.statusWriteAhead = true

/-- Every run was spawned for the creation or for an accepted answer, and exactly the
inserted answers have one. -/
structure AnswersSpawn (turns : List ℕ) (answers : List Answer) : Prop where
  bounded : ∀ turn ∈ turns, turn ≤ answers.length
  spawned : ∀ i answer, answers[i]? = some answer → (i + 1 ∈ turns ↔ answer.isInserted = true)

theorem AnswersSpawn.append {turns : List ℕ} {answers : List Answer}
    (h : AnswersSpawn turns answers) (answer : Answer) :
    AnswersSpawn (turns ++ if answer.isInserted then [answers.length + 1] else [])
      (answers ++ [answer]) := by
  have hnew : answers.length + 1 ∉ turns := fun hmem => by
    have := h.bounded _ hmem
    omega
  constructor
  · intro turn hturn
    rw [List.length_append, List.length_singleton]
    rcases List.mem_append.mp hturn with hold | hlast
    · have := h.bounded turn hold
      omega
    · split_ifs at hlast
      · rw [List.mem_singleton.mp hlast]
      · cases hlast
  · intro i other hother
    rw [List.getElem?_append] at hother
    split_ifs at hother with hlt
    · have hold := h.spawned i other hother
      have hlast : i + 1 ∉ if answer.isInserted then [answers.length + 1] else [] := by
        split_ifs
        · simp only [List.mem_singleton]
          omega
        · simp
      rw [List.mem_append, hold]
      exact or_iff_left hlast
    · obtain ⟨hi, rfl⟩ := List.getElem?_eq_some_iff.mp hother
      rw [List.length_singleton] at hi
      obtain rfl : i = answers.length := by omega
      simp only [List.mem_append, hnew, false_or, Nat.sub_self, List.getElem_cons_zero]
      split_ifs with hinserted <;> simp [hinserted]

theorem statusWriteAhead_not_finished {phase : RunPhase} (h : phase.statusWriteAhead = true) :
    phase.isFinished = false := by
  cases phase with
  | finished => simp [RunPhase.statusWriteAhead] at h
  | _ => rfl

/-- A run's step settles the status, or leaves it and stays ahead of the status
write if it was. -/
theorem RunEffect.settles_or_keeps {tables after : JobTables} {phase phase' : RunPhase}
    {action : RunAction} (h : RunEffect redis tables phase action after phase') :
    (after.status.isTerminal = true ∨ after.status = .waitingForUserInput) ∨
      (after.status = tables.status ∧
        (phase.statusWriteAhead = true → phase'.statusWriteAhead = true)) := by
  cases hwrites : action.writesStatus with
  | false =>
    have hstatus := h.status_eq hwrites
    refine Or.inr ⟨hstatus, fun hahead => ?_⟩
    cases h with
    | insertTerminal => simp [RunPhase.statusWriteAhead] at hahead
    | publish => simp [RunPhase.statusWriteAhead] at hahead
    | setLiveState => simp [RunPhase.statusWriteAhead] at hahead
    | progress _ => exact hahead
    | pause _ => simp [RunAction.writesStatus] at hwrites
    | wait => simp [RunAction.writesStatus] at hwrites
    | persist _ => simp [RunAction.writesStatus] at hwrites
    | failed _ => simp [RunAction.writesStatus] at hwrites
    | alreadyTerminal _ => simp [RunAction.writesStatus] at hwrites
    | _ => rfl
  | true =>
    apply Or.inl
    cases h with
    | pause h => exact Or.inr (markWorkflowPaused_status h)
    | wait => exact Or.inr rfl
    | persist _ => exact Or.inl (persistTerminal_isTerminal _ _)
    | failed h =>
      rcases fail_eq h with ⟨habsurd, -⟩ | ⟨-, -, rfl⟩
      · cases habsurd
      · exact Or.inl rfl
    | alreadyTerminal h => exact Or.inl h
    | _ => simp [RunAction.writesStatus] at hwrites

theorem JobEffect.statusWriteAhead {action : JobAction} (h : JobEffect redis state action next)
    (hcond : resumesAtWork state action) (hinv : StatusWriteAhead state) :
    StatusWriteAhead next := by
  intro hterminal hwaiting
  cases h with
  | @run index run action after phase hrun heffect =>
    rcases heffect.settles_or_keeps with (hsettled | hsettled) | ⟨hstatus, hkeeps⟩
    · exact absurd (hterminal.symm.trans hsettled) (by simp)
    · exact absurd hsettled hwaiting
    · have hterminal' : state.tables.status.isTerminal = false := by
        rw [← hstatus]
        exact hterminal
      have hwaiting' : state.tables.status ≠ .waitingForUserInput := by
        rw [← hstatus]
        exact hwaiting
      obtain ⟨other, hother, hahead⟩ := hinv hterminal' hwaiting'
      obtain ⟨i, hi⟩ := List.mem_iff_getElem?.mp hother
      by_cases hindex : index = i
      · -- the run that moved is the one at work: it is still ahead of the write
        subst hindex
        obtain rfl : run = other := Option.some.inj (hrun.symm.trans hi)
        exact ⟨_, List.mem_set (List.getElem?_eq_some_iff.mp hrun).1 _, hkeeps hahead⟩
      · refine ⟨other, List.mem_iff_getElem?.mpr ⟨i, ?_⟩, hahead⟩
        rw [List.getElem?_set_ne hindex]
        exact hi
  | responded _ _ =>
    refine ⟨⟨state.answers.length + 1, .spawned⟩, ?_, rfl⟩
    simp
  | resumed _ _ howner => exact hcond howner
  | rejected => exact hinv hterminal hwaiting
  | expired => exact hinv hterminal hwaiting

theorem JobEffect.answersSpawn {action : JobAction} (h : JobEffect redis state action next)
    (hinv : AnswersSpawn state.turns state.answers) : AnswersSpawn next.turns next.answers := by
  cases h with
  | @run index run action after phase hrun heffect =>
    rw [JobSystem.turns, turns_set hrun]
    exact hinv
  | @responded jobId userId submission messageId _ _ =>
    have happend := hinv.append (.inserted submission)
    rw [JobSystem.turns, List.map_append]
    exact happend
  | @resumed request _ _ _ =>
    have happend := hinv.append (.resumed request)
    rw [Answer.isInserted, if_neg (by simp), List.append_nil] at happend
    exact happend
  | rejected => exact hinv
  | expired => exact hinv

theorem answersSpawn_reachable (h : (jobMachine redis).Reachable state) :
    AnswersSpawn state.turns state.answers := by
  apply h.invariant (P := fun state => AnswersSpawn state.turns state.answers)
  · rintro s ⟨jobId, userId, stateJson, rfl⟩
    constructor
    · intro turn hturn
      rw [List.mem_singleton.mp hturn]
      exact Nat.zero_le _
    · intro i answer hanswer
      cases hanswer
  · intro s a s' hinv _ hstep
    exact (jobStep_effect hstep).answersSpawn hinv

/-- While resumes are accepted only beside a run at work, no job is orphaned; an
accepted answer has a run of its own exactly when a response brought it. -/
theorem unsettled_job_has_run (h : (jobMachine redis).ReachableVia resumesAtWork state) :
    (state.tables.status.isTerminal = false → state.tables.status ≠ .waitingForUserInput →
      ∃ run ∈ state.runs, run.phase.isFinished = false) ∧
    ∀ i answer, state.answers[i]? = some answer →
      ((∃ run ∈ state.runs, run.turn = i + 1) ↔ answer.isInserted = true) := by
  have hahead : StatusWriteAhead state := by
    apply h.invariant
    · rintro s ⟨jobId, userId, stateJson, rfl⟩ - -
      exact ⟨⟨0, .spawned⟩, List.mem_singleton.mpr rfl, rfl⟩
    · intro s a s' hinv hcond hstep
      exact (jobStep_effect hstep).statusWriteAhead hcond hinv
  constructor
  · intro hterminal hwaiting
    obtain ⟨run, hrun, hwrite⟩ := hahead hterminal hwaiting
    exact ⟨run, hrun, statusWriteAhead_not_finished hwrite⟩
  · intro i answer hanswer
    rw [← (answersSpawn_reachable h.reachable).spawned i answer hanswer]
    exact List.mem_map.symm

namespace PausedJob

/-- The answer comes while the run that paused is still at work. -/
def resumedAtWork (state : JobSystem) : Bool :=
  decide (state.tables.status = .queued ∧ state.answers = [.resumed resumeRequest])

/-- The answer comes after that run has ended. -/
def orphaned (state : JobSystem) : Bool :=
  decide (state.tables.status = .queued ∧ state.answers = [.resumed resumeRequest] ∧
    ∀ run ∈ state.runs, run.phase.isFinished = true)

end PausedJob

theorem unsettled_job_has_run_paused : ∃ state : JobSystem,
    state.tables.status = .queued ∧ state.answers = [.resumed PausedJob.resumeRequest] ∧
      ∃ run ∈ state.runs, run.phase.isFinished = false := by
  have hcreated : (jobMachine false).ReachableVia resumesAtWork PausedJob.created :=
    .init ⟨1, 2, .obj [], rfl⟩
  have hrun : ((jobMachine false).runVia resumesAtWork PausedJob.created
      (PausedJob.pausing ++ [.resume PausedJob.resumeRequest])).any
        PausedJob.resumedAtWork = true := by decide
  obtain ⟨state, hreach, htest⟩ := hcreated.exists_of_runVia hrun
  obtain ⟨hstatus, hanswers⟩ := of_decide_eq_true htest
  refine ⟨state, hstatus, hanswers, ?_⟩
  apply (unsettled_job_has_run hreach).1
  · rw [hstatus]
    rfl
  · rw [hstatus]
    simp

/-- The run that paused has ended, the resume is accepted, and the queued job has no
run. -/
theorem resumed_job_orphaned : ∃ state, (jobMachine false).Reachable state ∧
    state.tables.status = .queued ∧ state.answers = [.resumed PausedJob.resumeRequest] ∧
      ∀ run ∈ state.runs, run.phase.isFinished = true := by
  have hcreated : (jobMachine false).Reachable PausedJob.created := .init ⟨1, 2, .obj [], rfl⟩
  have hrun : ((jobMachine false).run PausedJob.created
      (PausedJob.pausing ++ PausedJob.projecting ++ [.resume PausedJob.resumeRequest])).any
        PausedJob.orphaned = true := by decide
  obtain ⟨state, hreach, htest⟩ := hcreated.exists_of_run hrun
  exact ⟨state, hreach, of_decide_eq_true htest⟩

end FineractReports.Job
