import FineractReports.Job.ServiceEffect

/-!
# Answering a clarification once

Between its pause and its waiting status a run still owns the memory row and the
status. An answer accepted in that window is undone by the run's later writes, unless
the run finds the clarification answered and no longer pending.
-/

namespace FineractReports.Job

open Workflow

variable {redis : Bool} {state next : JobSystem}

namespace JobSystem

/-- The clarifications named by the answers accepted so far. -/
def answered (state : JobSystem) : List Uuid := state.answers.filterMap Answer.clarificationId

/-- What a client would answer now has not been answered. -/
def pendingUnanswered (state : JobSystem) : Prop :=
  ∀ payload ∈ state.tables.pendingClarification, payload.id ∉ state.answered

instance (state : JobSystem) : Decidable state.pendingUnanswered := by
  unfold pendingUnanswered
  infer_instance

end JobSystem

/-- Only the first run moves, and it writes the waiting status only over a pending
clarification that has not been answered. -/
def waitsUnanswered (state : JobSystem) (action : JobAction) : Prop :=
  match action with
  | .run index (.write _) => index = 0 ∧
      ((∃ run ∈ state.runs[0]?, run.phase = .stored) → state.pendingUnanswered)
  | .run index _ => index = 0
  | _ => True

instance (state : JobSystem) (action : JobAction) : Decidable (waitsUnanswered state action) := by
  unfold waitsUnanswered
  split <;> infer_instance

/-- A structured response or a resume that names another clarification or revision
than the pending ones. -/
def JobAction.namesOther (tables : JobTables) : JobAction → Prop
  | .respond _ _ submission _ => ∃ id revision,
      submission.clarificationId = some id ∧ submission.clarificationRevision = some revision ∧
        ∀ payload ∈ tables.pendingClarification, ¬ (payload.id = id ∧ payload.revision = revision)
  | .resume request => tables.workflowRevision ≠ request.workflowRevision ∨
      ∀ payload ∈ tables.pendingClarification, payload.id ≠ request.clarificationId
  | _ => False

/-- The memory row is still the run's to save. -/
def RunPhase.saveAhead : RunPhase → Bool
  | .spawned | .working _ _ _ => true
  | _ => false

/-- What the first run's progress says about the answers. -/
structure AnswerWindow (state : JobSystem) (phase : RunPhase) : Prop where
  beforePause : phase.pauseAhead = true →
    state.answers = [] ∧ state.tables.status ≠ .waitingForUserInput
  beforeSave : phase.saveAhead = true → state.tables.status = .waitingForUserInput →
    state.answers = []
  waiting : state.tables.status = .waitingForUserInput → state.pendingUnanswered
  once : state.answered.Nodup

def FirstRunWindow (state : JobSystem) : Prop :=
  ∃ run ∈ state.runs[0]?, AnswerWindow state run.phase

section Window

variable {after : JobTables} {phase phase' : RunPhase} {action : RunAction}

theorem pendingUnanswered_of_nil (h : state.answers = []) : state.pendingUnanswered := by
  intro payload _
  rw [JobSystem.answered, h]
  exact List.not_mem_nil

/-- Nothing the window looks at changed, and the run only went on. -/
theorem AnswerWindow.of_same (h : AnswerWindow state phase)
    (hstatus : next.tables.status = state.tables.status)
    (hpending : next.tables.pendingClarification = state.tables.pendingClarification)
    (hanswers : next.answers = state.answers)
    (hpause : phase'.pauseAhead = true → phase.pauseAhead = true)
    (hsave : phase'.saveAhead = true → phase.saveAhead = true) : AnswerWindow next phase' where
  beforePause hahead := by
    rw [hanswers, hstatus]
    exact h.beforePause (hpause hahead)
  beforeSave hahead hwaiting := by
    rw [hanswers]
    exact h.beforeSave (hsave hahead) (hstatus ▸ hwaiting)
  waiting hwaiting := by
    have hold := h.waiting (hstatus ▸ hwaiting)
    rwa [JobSystem.pendingUnanswered, hpending, JobSystem.answered, hanswers]
  once := by
    rw [JobSystem.answered, hanswers]
    exact h.once

/-- The run wrote a status and has neither its pause nor its save ahead. -/
theorem AnswerWindow.of_written (h : AnswerWindow state phase)
    (hanswers : next.answers = state.answers) (hpause : phase'.pauseAhead = false)
    (hsave : phase'.saveAhead = false)
    (hunanswered : next.tables.status = .waitingForUserInput → next.pendingUnanswered) :
    AnswerWindow next phase' where
  beforePause hahead := absurd (hpause.symm.trans hahead) (by simp)
  beforeSave hahead := absurd (hsave.symm.trans hahead) (by simp)
  waiting := hunanswered
  once := by
    rw [JobSystem.answered, hanswers]
    exact h.once

/-- Nothing the window looks at changed, and the run is past its save. -/
theorem AnswerWindow.of_past (h : AnswerWindow state phase)
    (hstatus : next.tables.status = state.tables.status)
    (hpending : next.tables.pendingClarification = state.tables.pendingClarification)
    (hanswers : next.answers = state.answers) (hpause : phase'.pauseAhead = false)
    (hsave : phase'.saveAhead = false) : AnswerWindow next phase' := by
  apply h.of_same hstatus hpending hanswers
  · intro hahead
    exact absurd (hpause.symm.trans hahead) (by simp)
  · intro hahead
    exact absurd (hsave.symm.trans hahead) (by simp)

theorem AnswerWindow.run_step (h : AnswerWindow state phase)
    (heffect : RunEffect redis state.tables phase action after phase')
    (hafter : next.tables = after) (hanswers : next.answers = state.answers)
    (hcond : ∀ resultJson, action = .write resultJson → phase = .stored →
      state.pendingUnanswered) : AnswerWindow next phase' := by
  cases heffect with
  | load => exact h.of_same (by rw [hafter]) (by rw [hafter]) hanswers id id
  | install hinstall =>
    obtain ⟨stateJson, rfl⟩ := installWorkflow_frame hinstall
    exact h.of_same (by rw [hafter]) (by rw [hafter]) hanswers id id
  | node hnode =>
    obtain ⟨nodeRuns, stateJson, events, rfl⟩ := nodeStatement_frame hnode
    exact h.of_same (by rw [hafter]) (by rw [hafter]) hanswers id id
  | progress _ => exact h.of_same (by rw [hafter]; rfl) (by rw [hafter]; rfl) hanswers id id
  | pause hpause =>
    -- no answer can have been accepted before the pause
    have hnone : next.answers = [] := hanswers.trans (h.beforePause rfl).1
    constructor
    · intro habsurd
      cases habsurd
    · exact fun _ _ => hnone
    · exact fun _ => pendingUnanswered_of_nil hnone
    · rw [JobSystem.answered, hnone]
      exact List.nodup_nil
  | saved hsave =>
    obtain ⟨-, rfl⟩ := save_eq_ok hsave
    apply h.of_written hanswers rfl rfl
    intro hwaiting
    rw [hafter] at hwaiting
    exact pendingUnanswered_of_nil (hanswers.trans (h.beforeSave rfl hwaiting))
  | wait =>
    apply h.of_written hanswers rfl rfl
    intro _
    have hunanswered := hcond _ rfl rfl
    rwa [JobSystem.pendingUnanswered, hafter, JobSystem.answered, hanswers]
  | @persist terminal resultJson _ =>
    apply h.of_written hanswers rfl rfl
    intro hwaiting
    have hended : (persistTerminal state.tables resultJson terminal).status.isTerminal = true :=
      persistTerminal_isTerminal resultJson terminal
    rw [← hafter, hwaiting] at hended
    cases hended
  | failed hfail =>
    apply h.of_written hanswers rfl rfl
    intro hwaiting
    rcases fail_eq hfail with ⟨habsurd, -⟩ | ⟨-, -, rfl⟩
    · cases habsurd
    · rw [hafter] at hwaiting
      cases hwaiting
  | saveStale => exact h.of_past (by rw [hafter]) (by rw [hafter]) hanswers rfl rfl
  | store => exact h.of_past (by rw [hafter]; rfl) (by rw [hafter]; rfl) hanswers rfl rfl
  | abort _ => exact h.of_past (by rw [hafter]) (by rw [hafter]) hanswers rfl rfl
  | alreadyTerminal _ => exact h.of_past (by rw [hafter]) (by rw [hafter]) hanswers rfl rfl
  | publish => exact h.of_past (by rw [hafter]) (by rw [hafter]) hanswers rfl rfl
  | setLiveState => exact h.of_past (by rw [hafter]) (by rw [hafter]) hanswers rfl rfl
  | insertTerminal =>
    apply h.of_past (by rw [hafter]; rfl) (by rw [hafter]; rfl) hanswers
    · split_ifs <;> rfl
    · split_ifs <;> rfl

end Window

/-- An accepted answer was asked for, and it takes the job out of waiting. -/
theorem AnswerWindow.answer {phase : RunPhase} {answer : Answer} (h : AnswerWindow state phase)
    (hwaiting : state.tables.status = .waitingForUserInput)
    (hpending : ∀ id, answer.clarificationId = some id →
      ∃ payload ∈ state.tables.pendingClarification, payload.id = id)
    (hqueued : next.tables.status = .queued) (hanswers : next.answers = state.answers ++ [answer]) :
    AnswerWindow next phase := by
  have hleft : next.tables.status ≠ .waitingForUserInput := by
    rw [hqueued]
    simp
  constructor
  · intro hahead
    exact absurd hwaiting (h.beforePause hahead).2
  · exact fun _ habsurd => absurd habsurd hleft
  · exact fun habsurd => absurd habsurd hleft
  · rw [JobSystem.answered, hanswers, List.filterMap_append]
    apply h.once.append
    · cases hid : answer.clarificationId <;> simp [hid]
    · intro id hold hnew
      have hanswer : answer.clarificationId = some id := by simpa using hnew
      obtain ⟨payload, hpayload, rfl⟩ := hpending id hanswer
      exact h.waiting hwaiting payload hpayload hold

theorem inserted_names_pending {submission : ValidatedClarificationSubmission} {id : Uuid}
    (hnames : JobRepository.namesPending state.tables submission)
    (hid : (Answer.inserted submission).clarificationId = some id) :
    ∃ payload ∈ state.tables.pendingClarification, payload.id = id := by
  obtain ⟨revision, hrevision, hid⟩ := Option.bind_eq_some_iff.mp hid
  simp only [JobRepository.namesPending, hid, hrevision] at hnames
  obtain ⟨payload, hpayload, hmatch⟩ := (Option.any_eq_true _ _).mp hnames
  exact ⟨payload, hpayload, (of_decide_eq_true hmatch).1⟩

theorem JobEffect.answerWindow {action : JobAction} (h : JobEffect redis state action next)
    (hcond : waitsUnanswered state action)
    (hinv : FirstRunWindow state) : FirstRunWindow next := by
  obtain ⟨first, hfirst, hwindow⟩ := hinv
  have hlt := (List.getElem?_eq_some_iff.mp hfirst).1
  cases h with
  | @run index run action after phase hrun heffect =>
    have hindex : index = 0 := by
      cases action with
      | write _ => exact hcond.1
      | _ => exact hcond
    subst hindex
    obtain rfl : first = run := Option.some.inj (hfirst.symm.trans hrun)
    refine ⟨{ first with phase := phase }, List.getElem?_set_self hlt, ?_⟩
    apply hwindow.run_step heffect
    · rfl
    · rfl
    · rintro resultJson rfl hstored
      exact hcond.2 ⟨first, hfirst, hstored⟩
  | responded hwaiting hnames =>
    refine ⟨first, ?_, hwindow.answer hwaiting ?_ rfl rfl⟩
    · exact (List.getElem?_append_left hlt).trans hfirst
    · exact fun id hid => inserted_names_pending hnames hid
  | resumed hwaiting hnames _ =>
    refine ⟨first, hfirst, hwindow.answer hwaiting ?_ rfl rfl⟩
    intro id hid
    obtain ⟨payload, hpayload, hmatch⟩ := (Option.any_eq_true _ _).mp hnames.2.2.2
    exact ⟨payload, hpayload, (of_decide_eq_true hmatch).trans (Option.some.inj hid)⟩
  | rejected => exact ⟨first, hfirst, hwindow⟩
  | expired => exact ⟨first, hfirst, hwindow.of_same rfl rfl rfl id id⟩

/-- A call that names another clarification or revision is refused and writes nothing. -/
theorem namesOther_writes_nothing {action : JobAction} (h : action.namesOther state.tables) :
    jobStep redis state action = some state := by
  cases action with
  | run index action => exact h.elim
  | expireLiveState => exact h.elim
  | respond jobId userId submission messageId =>
    obtain ⟨id, revision, hid, hrevision, hother⟩ := h
    simp only [jobStep]
    split
    · rename_i after hrespond
      rcases respond_eq hrespond with ⟨-, -, hnames, -⟩ | ⟨habsurd, -⟩
      · simp only [JobRepository.namesPending, hid, hrevision] at hnames
        obtain ⟨payload, hpayload, hmatch⟩ := (Option.any_eq_true _ _).mp hnames
        exact absurd (of_decide_eq_true hmatch) (hother payload hpayload)
      · exact absurd rfl habsurd
    · rfl
  | resume request =>
    simp only [jobStep]
    split
    · rename_i after hresume
      rcases JobTables.resume_eq hresume with ⟨-, -, hnames, -⟩ | ⟨habsurd, -⟩
      · obtain ⟨-, hrevision, -, hpending⟩ := hnames
        obtain ⟨payload, hpayload, hmatch⟩ := (Option.any_eq_true _ _).mp hpending
        rcases h with hother | hother
        · exact absurd hrevision hother
        · exact absurd (of_decide_eq_true hmatch) (hother payload hpayload)
      · exact absurd rfl habsurd
    · rfl

/-- Of one run's clarifications none is accepted twice, while the run writes its
waiting status only over an unanswered one; calls naming another write nothing. -/
theorem clarification_answered_once (h : (jobMachine redis).ReachableVia waitsUnanswered state) :
    (state.answers.filterMap Answer.clarificationId).Nodup ∧
      ∀ action : JobAction, action.namesOther state.tables →
        jobStep redis state action = some state := by
  have hwindow : FirstRunWindow state := by
    apply h.invariant
    · rintro s ⟨jobId, userId, stateJson, rfl⟩
      refine ⟨⟨0, .spawned⟩, rfl, ?_⟩
      constructor
      · exact fun _ => ⟨rfl, by simp [JobSystem.created, JobRepository.create]⟩
      · exact fun _ _ => rfl
      · exact fun _ => pendingUnanswered_of_nil rfl
      · exact List.nodup_nil
    · intro s a s' hinv hcond hstep
      exact (jobStep_effect hstep).answerWindow hcond hinv
  obtain ⟨run, -, hwindow⟩ := hwindow
  exact ⟨hwindow.once, fun action hother => namesOther_writes_nothing hother⟩

namespace PausedJob

/-- The pending clarification was answered; another revision of it is named. -/
def otherRevision : JobAction :=
  .respond 1 2 { submission with clarificationRevision := some 1 } 13

/-- Both calls naming the clarification were accepted. -/
def answeredTwice (state : JobSystem) : Bool :=
  decide (state.answers = [.inserted submission, .inserted submission])

def answeredOnce (state : JobSystem) : Bool :=
  decide (state.answers = [.inserted submission] ∧
    state.tables.pendingClarification = some question)

end PausedJob

theorem clarification_answered_once_paused : ∃ state : JobSystem,
    state.answers = [.inserted PausedJob.submission] ∧
      (state.answers.filterMap Answer.clarificationId).Nodup ∧
      jobStep false state PausedJob.otherRevision = some state := by
  have hcreated : (jobMachine false).ReachableVia waitsUnanswered PausedJob.created :=
    .init ⟨1, 2, .obj [], rfl⟩
  have hrun : ((jobMachine false).runVia waitsUnanswered PausedJob.created
      (PausedJob.pausing ++ PausedJob.projecting ++
        [.respond 1 2 PausedJob.submission 12])).any PausedJob.answeredOnce = true := by decide
  obtain ⟨state, hreach, htest⟩ := hcreated.exists_of_runVia hrun
  obtain ⟨hanswers, hpending⟩ := of_decide_eq_true htest
  obtain ⟨honce, hother⟩ := clarification_answered_once hreach
  refine ⟨state, hanswers, honce, hother PausedJob.otherRevision ⟨5, 1, rfl, rfl, ?_⟩⟩
  rw [hpending]
  rintro payload hpayload ⟨-, hrevision⟩
  obtain rfl := Option.some.inj hpayload
  cases hrevision

/-- The answer comes between the pause and the save; the run then writes the same
clarification and the waiting status again, and the answer is accepted again. -/
theorem clarification_answered_twice : ∃ state : JobSystem, (jobMachine false).Reachable state ∧
    state.answers = [.inserted PausedJob.submission, .inserted PausedJob.submission] ∧
      ¬ (state.answers.filterMap Answer.clarificationId).Nodup := by
  have hcreated : (jobMachine false).Reachable PausedJob.created := .init ⟨1, 2, .obj [], rfl⟩
  have hrun : ((jobMachine false).run PausedJob.created (PausedJob.pausing ++
      [.respond 1 2 PausedJob.submission 12] ++ PausedJob.projecting ++
      [.respond 1 2 PausedJob.submission 13])).any PausedJob.answeredTwice = true := by decide
  obtain ⟨state, hreach, htest⟩ := hcreated.exists_of_run hrun
  have hanswers := of_decide_eq_true htest
  refine ⟨state, hreach, hanswers, ?_⟩
  rw [hanswers]
  decide

end FineractReports.Job
