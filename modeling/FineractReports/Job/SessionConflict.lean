import FineractReports.Job.SessionRuns

/-!
# Conflicts on the session memory

A run whose session memory is outdated at its write fails, although its own job memory
is saved and its answer is ready. When every write still finds the revision its run
read, the runs of a session do not fail each other and the memory lists them all.
-/

namespace FineractReports.Job

open Workflow SessionMemoryRepository

variable {redis : Bool}

def SessionUpdate.snapshot? : SessionUpdate → Option SessionMemory
  | read memory => some memory
  | pending | saved => none

/-- A run writes the session memory only while it is the one the run has read. -/
def savesCurrent (state : SessionSystem) (action : SessionAction) : Prop :=
  match action with
  | .saveSession index => ∀ run ∈ state.runs[index]?, ∀ snapshot ∈ run.session.snapshot?,
      state.current.revision = snapshot.revision
  | _ => True

instance (state : SessionSystem) (action : SessionAction) :
    Decidable (savesCurrent state action) := by
  unfold savesCurrent
  split <;> infer_instance

section Runs

variable {run after : SessionRun}

theorem SessionRun.step_eq {action : RunAction} (h : run.step redis action = some after) :
    action.isSave = false ∧ (action.afterSession = true → run.session = .saved) ∧
      ∃ tables phase, RunEffect redis run.tables run.phase action tables phase ∧
        after = { run with
          tables := tables
          phase := phase
          error := if action.isAbort then some .own else run.error } := by
  unfold SessionRun.step at h
  by_cases hguard : action.isSave = true ∨ (action.afterSession = true ∧ run.session ≠ .saved)
  · rw [if_pos hguard] at h
    cases h
  · rw [if_neg hguard] at h
    obtain ⟨⟨tables, phase⟩, hstep, rfl⟩ := Option.map_eq_some_iff.mp h
    push Not at hguard
    exact ⟨by simpa using hguard.1, hguard.2, tables, phase, runStep_effect hstep, rfl⟩

/-- Saving the job memory fails the run or leaves the saved memory with it. -/
theorem SessionRun.save_eq {memory : JobMemory} {pending : Option (Option ClarificationPayload)}
    {hasResponse : Bool} (h : run.save redis memory pending hasResponse = some after) :
    after = { run with phase := .failing, error := some .own } ∨
      ∃ tables saved, saved.jobId = run.jobId ∧ saved.terminalState = memory.terminalState ∧
        (∃ revision workflowId paused, run.phase = .working revision workflowId paused) ∧
        after = { run with
          tables := tables
          phase := .saved (savedTerminal saved hasResponse)
          memory := some (saved, pending) } := by
  unfold SessionRun.save at h
  obtain ⟨⟨tables, phase⟩, hstep, rfl⟩ := Option.map_eq_some_iff.mp h
  generalize hphase : run.phase = before at hstep
  have heffect := runStep_effect hstep
  cases heffect with
  | saved hsaved =>
    refine Or.inr ⟨tables, { memory with
      jobId := run.jobId
      pendingClarification := pending.getD memory.pendingClarification }, rfl, rfl,
      ⟨_, _, _, rfl⟩, ?_⟩
    exact if_neg (by simp)
  | saveStale => exact Or.inl rfl

/-- Writing the session memory back either finds the revision that was read or fails the
run. -/
theorem SessionRun.saveSession_eq {row row' : Option SessionMemory} {sessionId : Uuid}
    (h : run.saveSession row sessionId = some (row', after)) :
    ∃ terminal snapshot memory pending, run.phase = .saved terminal ∧
      run.session = .read snapshot ∧ run.memory = some (memory, pending) ∧
      ((∃ current, row = some current ∧ current.revision = snapshot.revision ∧
          row' = some { updatedAfterJob snapshot sessionId memory pending with
            revision := current.revision + 1 } ∧
          after = { run with session := .saved }) ∨
        ((∀ current, row = some current → current.revision ≠ snapshot.revision) ∧ row' = row ∧
          after = { run with phase := .failing, error := some .sessionMemory })) := by
  unfold SessionRun.saveSession at h
  split at h
  · rename_i terminal snapshot memory pending hphase hsession hmemory
    refine ⟨terminal, snapshot, memory, pending, hphase, hsession, hmemory, ?_⟩
    cases row with
    | none =>
      obtain ⟨rfl, rfl⟩ := Prod.mk.inj (Option.some.inj h)
      exact Or.inr ⟨by simp, rfl, rfl⟩
    | some current =>
      by_cases hrevision : current.revision = snapshot.revision
      · rw [save_of_current hrevision] at h
        obtain ⟨rfl, rfl⟩ := Prod.mk.inj (Option.some.inj h)
        exact Or.inl ⟨current, rfl, hrevision, rfl, rfl⟩
      · rw [save_of_outdated hrevision] at h
        obtain ⟨rfl, rfl⟩ := Prod.mk.inj (Option.some.inj h)
        refine Or.inr ⟨?_, rfl, rfl⟩
        rintro other ⟨rfl⟩
        exact hrevision
  · cases h

end Runs

/-- What holds of a run in each phase; a run without an error that is past its terminal
write has entered the session memory and, when its job completed, the job is completed. -/
def SessionRun.Consistent (run : SessionRun) : Prop :=
  (∀ saved ∈ run.memory, saved.1.jobId = run.jobId) ∧
    match run.phase with
    | .spawned | .working _ _ _ => run.session = .pending
    | .saved terminal => ∃ memory pending, run.memory = some (memory, pending) ∧
        ∀ state ∈ terminal, state = memory.terminalState.getD .failedOperational
    | .stored => run.isCompleted = false ∧ run.session = .saved
    | .failing => run.error ≠ none
    | .persisted _ | .inserted _ | .published _ | .finished => run.error = none →
        run.session = .saved ∧ (run.isCompleted = true → run.tables.status = .completed)

theorem SessionRun.isCompleted_iff {run : SessionRun} {memory : JobMemory}
    {pending : Option (Option ClarificationPayload)} (h : run.memory = some (memory, pending)) :
    run.isCompleted = true ↔ memory.terminalState = some .completed := by
  simp [isCompleted, h]

theorem SessionRun.Consistent.step {run after : SessionRun} {action : RunAction}
    (h : run.Consistent) (hstep : run.step redis action = some after) : after.Consistent := by
  obtain ⟨hsave, hafter, tables, phase, heffect, rfl⟩ := run.step_eq hstep
  obtain ⟨hjob, hphase⟩ := h
  refine ⟨hjob, ?_⟩
  generalize hbefore : run.phase = before at heffect hphase
  cases heffect with
  | load => exact hphase
  | install _ => exact hphase
  | node _ => exact hphase
  | pause _ => exact hphase
  | saved _ => cases hsave
  | saveStale => cases hsave
  | store =>
    obtain ⟨memory, pending, hmemory, hterminal⟩ := hphase
    refine ⟨?_, hafter rfl⟩
    have hwaiting := hterminal _ rfl
    by_contra hcompleted
    rw [(isCompleted_iff hmemory).mp (by simpa [isCompleted] using hcompleted)] at hwaiting
    cases hwaiting
  | wait =>
    obtain ⟨hcompleted, hsession⟩ := hphase
    intro _
    exact ⟨hsession, fun habsurd => absurd (hcompleted.symm.trans habsurd) (by simp)⟩
  | persist _ =>
    obtain ⟨memory, pending, hmemory, hterminal⟩ := hphase
    intro _
    refine ⟨hafter rfl, ?_⟩
    intro hcompleted
    have hstate := hterminal _ rfl
    rw [(isCompleted_iff hmemory).mp (by simpa [isCompleted] using hcompleted)] at hstate
    subst hstate
    rfl
  | progress _ => exact hphase
  | abort _ => exact Option.some_ne_none _
  | failed _ =>
    intro hnone
    exact absurd hnone hphase
  | alreadyTerminal _ =>
    intro hnone
    exact absurd hnone hphase
  | insertTerminal =>
    cases redis with
    | true => exact hphase
    | false => exact hphase
  | publish => exact hphase
  | setLiveState => exact hphase

theorem SessionRun.Consistent.save {run after : SessionRun} {memory : JobMemory}
    {pending : Option (Option ClarificationPayload)} {hasResponse : Bool} (h : run.Consistent)
    (hsave : run.save redis memory pending hasResponse = some after) : after.Consistent := by
  obtain rfl | ⟨tables, saved, hjob, -, -, rfl⟩ := run.save_eq hsave
  · exact ⟨h.1, Option.some_ne_none _⟩
  · refine ⟨?_, saved, pending, rfl, ?_⟩
    · rintro _ ⟨rfl⟩
      exact hjob
    · intro state hstate
      unfold savedTerminal at hstate
      split_ifs at hstate
      · exact (Option.some.inj hstate).symm
      · cases hstate

theorem SessionRun.Consistent.saveSession {run after : SessionRun}
    {row row' : Option SessionMemory} {sessionId : Uuid} (h : run.Consistent)
    (hsave : run.saveSession row sessionId = some (row', after)) : after.Consistent := by
  obtain ⟨terminal, snapshot, memory, pending, hphase, -, -, hresult⟩ := run.saveSession_eq hsave
  obtain ⟨hjob, hbefore⟩ := h
  obtain ⟨-, -, -, -, rfl⟩ | ⟨-, -, rfl⟩ := hresult
  · refine ⟨hjob, ?_⟩
    rw [hphase] at hbefore ⊢
    exact hbefore
  · exact ⟨hjob, Option.some_ne_none _⟩

/-- One step of the session, by the run that takes it. -/
inductive SessionEffect (redis : Bool) (state : SessionSystem) :
    SessionAction → SessionSystem → Prop
  | run {index run action after} (hrun : state.runs[index]? = some run)
      (hstep : run.step redis action = some after) :
      SessionEffect redis state (.run index action) (state.setRun index after)
  | save {index run memory pending hasResponse after} (hrun : state.runs[index]? = some run)
      (hsave : run.save redis memory pending hasResponse = some after) :
      SessionEffect redis state (.save index memory pending hasResponse) (state.setRun index after)
  | readSession {index run} (hrun : state.runs[index]? = some run)
      (hphase : run.phase.isSaved = true) (hsession : run.session = .pending) :
      SessionEffect redis state (.readSession index)
        { state.setRun index { run with session := .read state.current } with
          memory := some state.current }
  | saveSession {index run row after} (hrun : state.runs[index]? = some run)
      (hsave : run.saveSession state.memory state.sessionId = some (row, after)) :
      SessionEffect redis state (.saveSession index) { state.setRun index after with memory := row }

theorem sessionStep_effect {state next : SessionSystem} {action : SessionAction}
    (h : sessionStep redis state action = some next) : SessionEffect redis state action next := by
  unfold sessionStep at h
  cases action with
  | run index action =>
    obtain ⟨run, hrun, h⟩ := Option.bind_eq_some_iff.mp h
    obtain ⟨after, hstep, h⟩ := Option.bind_eq_some_iff.mp h
    cases h
    exact .run hrun hstep
  | save index memory pending hasResponse =>
    obtain ⟨run, hrun, h⟩ := Option.bind_eq_some_iff.mp h
    obtain ⟨after, hsave, h⟩ := Option.bind_eq_some_iff.mp h
    cases h
    exact .save hrun hsave
  | readSession index =>
    obtain ⟨run, hrun, h⟩ := Option.bind_eq_some_iff.mp h
    split_ifs at h with hguard
    cases h
    exact .readSession hrun hguard.1 hguard.2
  | saveSession index =>
    obtain ⟨run, hrun, h⟩ := Option.bind_eq_some_iff.mp h
    obtain ⟨⟨row, after⟩, hsave, h⟩ := Option.bind_eq_some_iff.mp h
    cases h
    exact .saveSession hrun hsave

namespace SessionSystem

/-- The row of the session is what every run that has read it at this revision holds. -/
def SnapshotsCurrent (state : SessionSystem) : Prop :=
  ∀ run ∈ state.runs, ∀ snapshot, run.session = .read snapshot →
    state.memory = some state.current ∧ snapshot.revision ≤ state.current.revision ∧
      (snapshot.revision = state.current.revision → snapshot = state.current)

/-- The newest ten entered jobs stand at the front of the relevant jobs. -/
def ListsEntered (state : SessionSystem) : Prop :=
  ∃ order : List Uuid, order.take 10 <+: state.current.relevantJobs.map (·.jobId) ∧
    order.length = state.runs.countP SessionRun.isEntered ∧
    ∀ run ∈ state.runs, run.isEntered = true → run.jobId ∈ order

variable {state next : SessionSystem} {index : ℕ} {run after : SessionRun}

theorem forall_setRun {P : SessionRun → Prop} (h : ∀ run ∈ state.runs, P run) (hafter : P after) :
    ∀ run ∈ (state.setRun index after).runs, P run := by
  intro other hother
  obtain hmem | rfl := List.mem_or_eq_of_mem_set hother
  · exact h other hmem
  · exact hafter

/-- One run moves: the entered jobs grow by it when it enters. -/
theorem countP_setRun (hrun : state.runs[index]? = some run) (hbefore : run.isEntered = false) :
    (state.setRun index after).runs.countP SessionRun.isEntered =
      state.runs.countP SessionRun.isEntered + if after.isEntered = true then 1 else 0 := by
  obtain ⟨hlt, hget⟩ := List.getElem?_eq_some_iff.mp hrun
  unfold setRun
  rw [List.countP_set hlt, hget, hbefore]
  simp

/-- A run that does not enter leaves the list as it is. -/
theorem ListsEntered.setRun (h : state.ListsEntered) (hrun : state.runs[index]? = some run)
    (hnext : next.runs = (state.setRun index after).runs)
    (hentered : after.isEntered = run.isEntered) (hjob : after.jobId = run.jobId)
    (hcurrent : next.current.relevantJobs = state.current.relevantJobs) : next.ListsEntered := by
  obtain ⟨order, hbegins, hlength, hmem⟩ := h
  refine ⟨order, ?_, ?_, ?_⟩
  · rw [hcurrent]
    exact hbegins
  · obtain ⟨hlt, hget⟩ := List.getElem?_eq_some_iff.mp hrun
    rw [hnext, hlength]
    unfold SessionSystem.setRun
    rw [List.countP_set hlt, hget, hentered]
    have hone : (if run.isEntered = true then 1 else 0) ≤
        state.runs.countP SessionRun.isEntered := by
      split_ifs with hin
      · exact List.countP_pos_iff.mpr ⟨run, List.mem_of_getElem? hrun, hin⟩
      · exact Nat.zero_le _
    omega
  · rw [hnext]
    apply forall_setRun hmem
    intro hin
    rw [hjob]
    exact hmem run (List.mem_of_getElem? hrun) (hentered ▸ hin)

theorem not_entered (h : run.session ≠ .saved) : run.isEntered = false := by
  simp [SessionRun.isEntered, h]

/-- A run that writes the memory back puts its completed job in front. -/
theorem ListsEntered.saveSession {memory : JobMemory}
    {pending : Option (Option ClarificationPayload)} (h : state.ListsEntered)
    (hrun : state.runs[index]? = some run) (hsession : run.session ≠ .saved)
    (hmemory : run.memory = some (memory, pending)) (hjob : memory.jobId = run.jobId)
    (hnext : next.runs = (state.setRun index { run with session := .saved }).runs)
    (hlisted : next.current.relevantJobs =
      recordJob state.current.relevantJobs state.sessionId memory) : next.ListsEntered := by
  have hbefore : run.isEntered = false := not_entered hsession
  have hentered : ∀ completed : Bool, run.isCompleted = completed →
      SessionRun.isEntered { run with session := .saved } = completed := by
    rintro completed rfl
    simp [SessionRun.isEntered, SessionRun.isCompleted]
  obtain ⟨order, hbegins, hlength, hmem⟩ := h
  cases hcompleted : run.isCompleted with
  | true =>
    refine ⟨run.jobId :: order, ?_, ?_, ?_⟩
    · rw [hlisted, recordJob_completed ((SessionRun.isCompleted_iff hmemory).mp hcompleted), hjob,
        List.take_succ_cons, List.take_succ_cons]
      apply List.cons_prefix_cons.mpr
      refine ⟨rfl, ?_⟩
      have htake := hbegins.take 9
      rwa [List.take_take] at htake
    · rw [hnext, countP_setRun hrun hbefore, if_pos (hentered true hcompleted), List.length_cons,
        hlength]
    · rw [hnext]
      apply forall_setRun
      · intro other hother hin
        exact List.mem_cons_of_mem _ (hmem other hother hin)
      · intro _
        exact List.mem_cons_self
  | false =>
    apply ListsEntered.setRun ⟨order, hbegins, hlength, hmem⟩ hrun hnext
    · rw [hentered false hcompleted, hbefore]
    · rfl
    · rw [hlisted, recordJob_other]
      intro hterminal
      rw [(SessionRun.isCompleted_iff hmemory).mpr hterminal] at hcompleted
      cases hcompleted

/-- What every reachable state keeps while every write finds the memory its run read. -/
structure Consistent (state : SessionSystem) : Prop where
  runs : ∀ run ∈ state.runs, run.Consistent
  unhurt : ∀ run ∈ state.runs, run.error ≠ some .sessionMemory
  snapshots : state.SnapshotsCurrent
  listed : state.ListsEntered

theorem consistent_init (userId : Uuid) (stateJson : Json) (jobIds : List Uuid)
    (h : state.runs = jobIds.map (SessionRun.created userId stateJson)) : state.Consistent := by
  have hcreated : ∀ run ∈ state.runs, ∃ jobId, run = SessionRun.created userId stateJson jobId := by
    intro run hrun
    rw [h] at hrun
    obtain ⟨jobId, -, rfl⟩ := List.mem_map.mp hrun
    exact ⟨jobId, rfl⟩
  refine ⟨?_, ?_, ?_, [], by simp, ?_, ?_⟩
  · intro run hrun
    obtain ⟨jobId, rfl⟩ := hcreated run hrun
    exact ⟨by simp [SessionRun.created], rfl⟩
  · intro run hrun
    obtain ⟨jobId, rfl⟩ := hcreated run hrun
    simp [SessionRun.created]
  · intro run hrun snapshot hread
    obtain ⟨jobId, rfl⟩ := hcreated run hrun
    cases hread
  · symm
    apply List.countP_eq_zero.mpr
    intro run hrun
    obtain ⟨jobId, rfl⟩ := hcreated run hrun
    simp [SessionRun.isEntered, SessionRun.created]
  · intro run hrun hin
    obtain ⟨jobId, rfl⟩ := hcreated run hrun
    simp [SessionRun.isEntered, SessionRun.created] at hin

theorem Consistent.step {action : SessionAction} (h : state.Consistent)
    (hcond : savesCurrent state action) (hstep : sessionStep redis state action = some next) :
    next.Consistent := by
  cases sessionStep_effect hstep with
  | @run index run action after hrun hmove =>
    have hin := List.mem_of_getElem? hrun
    have hafter := (h.runs run hin).step hmove
    obtain ⟨-, -, tables, phase, -, rfl⟩ := run.step_eq hmove
    refine ⟨forall_setRun h.runs hafter, forall_setRun h.unhurt ?_,
      forall_setRun h.snapshots (h.snapshots run hin), h.listed.setRun hrun rfl rfl rfl rfl⟩
    dsimp only
    split_ifs
    · simp
    · exact h.unhurt run hin
  | @save index run memory pending hasResponse after hrun hsave =>
    have hin := List.mem_of_getElem? hrun
    have hafter := (h.runs run hin).save hsave
    obtain rfl | ⟨tables, saved, -, -, ⟨revision, workflowId, paused, hphase⟩, rfl⟩ :=
      run.save_eq hsave
    · exact ⟨forall_setRun h.runs hafter, forall_setRun h.unhurt (by simp),
        forall_setRun h.snapshots (h.snapshots run hin), h.listed.setRun hrun rfl rfl rfl rfl⟩
    · have hsession : run.session = .pending := by
        have hbefore := (h.runs run hin).2
        rw [hphase] at hbefore
        exact hbefore
      refine ⟨forall_setRun h.runs hafter, forall_setRun h.unhurt (h.unhurt run hin),
        forall_setRun h.snapshots (h.snapshots run hin), h.listed.setRun hrun rfl ?_ rfl rfl⟩
      rw [not_entered (by simp [hsession]), not_entered (by simp [hsession])]
  | @readSession index run hrun hphase hsession =>
    have hin := List.mem_of_getElem? hrun
    refine ⟨forall_setRun h.runs ?_, forall_setRun h.unhurt (h.unhurt run hin), ?_,
      h.listed.setRun hrun rfl ?_ rfl rfl⟩
    · obtain ⟨hjob, hbefore⟩ := h.runs run hin
      refine ⟨hjob, ?_⟩
      unfold RunPhase.isSaved at hphase
      split at hphase
      · rename_i terminal hsaved
        rw [hsaved] at hbefore
        dsimp only
        rw [hsaved]
        exact hbefore
      · cases hphase
    · apply forall_setRun
      · intro other hother snapshot hread
        exact ⟨rfl, (h.snapshots other hother snapshot hread).2⟩
      · rintro _ ⟨rfl⟩
        exact ⟨rfl, le_refl _, fun _ => rfl⟩
    · have hbefore : run.isEntered = false := not_entered (by simp [hsession])
      rw [hbefore, not_entered (by simp)]
  | @saveSession index run row after hrun hsave =>
    have hin := List.mem_of_getElem? hrun
    have hafter := (h.runs run hin).saveSession hsave
    obtain ⟨terminal, snapshot, memory, pending, hphase, hsession, hmemory, hresult⟩ :=
      run.saveSession_eq hsave
    obtain ⟨hrow, hle, hsame⟩ := h.snapshots run hin snapshot hsession
    have hrevision : state.current.revision = snapshot.revision :=
      hcond run hrun snapshot (by simp [hsession, SessionUpdate.snapshot?])
    obtain ⟨current, hcurrent, -, rfl, rfl⟩ | ⟨habsurd, -, -⟩ := hresult
    · obtain rfl : current = state.current := Option.some.inj (hcurrent.symm.trans hrow)
      obtain rfl := hsame hrevision.symm
      refine ⟨forall_setRun h.runs hafter, forall_setRun h.unhurt (h.unhurt run hin), ?_, ?_⟩
      · apply forall_setRun
        · intro other hother snapshot hread
          obtain ⟨-, hle, -⟩ := h.snapshots other hother snapshot hread
          refine ⟨rfl, Nat.le_succ_of_le hle, ?_⟩
          intro heq
          exact absurd heq (Nat.ne_of_lt (Nat.lt_succ_of_le hle))
        · rintro _ ⟨⟩
      · refine h.listed.saveSession hrun (by simp [hsession]) hmemory
          ((h.runs run hin).1 _ hmemory) ?_ ?_
        · rfl
        · exact updatedAfterJob_relevantJobs state.sessionId memory pending
    · exact absurd hrevision (habsurd _ hrow)

/-- No run fails over the session memory; once all have finished, every job that completed
without an error of its own is completed and, among at most ten of them, relevant. -/
def RunsIndependent (state : SessionSystem) : Prop :=
  (∀ run ∈ state.runs, run.error ≠ some .sessionMemory) ∧
    ((∀ run ∈ state.runs, run.phase = .finished) →
      ∀ run ∈ state.runs, run.isCompleted = true → run.error ≠ some .own →
        run.tables.status = .completed ∧
          (state.runs.countP SessionRun.isCompleted ≤ 10 →
            run.jobId ∈ state.current.relevantJobs.map (·.jobId)))

theorem Consistent.runsIndependent (h : state.Consistent) : state.RunsIndependent := by
  refine ⟨h.unhurt, ?_⟩
  intro hfinished run hrun hcompleted hown
  have hnone : run.error = none := by
    have hunhurt := h.unhurt run hrun
    cases herror : run.error with
    | none => rfl
    | some error =>
      cases error with
      | own => exact absurd herror hown
      | sessionMemory => exact absurd herror hunhurt
  have hphase := (h.runs run hrun).2
  rw [hfinished run hrun] at hphase
  obtain ⟨hsession, hstatus⟩ := hphase hnone
  refine ⟨hstatus hcompleted, ?_⟩
  intro hten
  obtain ⟨order, hbegins, hlength, hmem⟩ := h.listed
  have hentered : run.isEntered = true := by simp [SessionRun.isEntered, hsession, hcompleted]
  have hcount : state.runs.countP SessionRun.isEntered ≤
      state.runs.countP SessionRun.isCompleted := by
    apply List.countP_mono_left
    intro other _ hin
    simp only [SessionRun.isEntered, decide_eq_true_eq] at hin
    exact hin.2
  have hshort : order.length ≤ 10 := by omega
  rw [List.take_of_length_le hshort] at hbegins
  exact hbegins.subset (hmem run hrun hentered)

end SessionSystem

/-- While every write of the session memory finds the one its run read, the runs of a
session do not fail each other. -/
theorem session_runs_independent {state : SessionSystem}
    (h : (sessionMachine redis).ReachableVia savesCurrent state) : state.RunsIndependent := by
  apply SessionSystem.Consistent.runsIndependent
  apply h.invariant
  · rintro first ⟨userId, stateJson, jobIds, hruns⟩
    exact SessionSystem.consistent_init userId stateJson jobIds hruns
  · intro before action after hbefore hcond hstep
    exact hbefore.step hcond hstep

namespace TwoJobs

def memory : JobMemory where
  jobId := 0
  terminalState := some .completed
  intent := none
  reason := ""
  warnings := .arr []
  selectedCapability := some "client_name_lookup"
  retrievalPlan := .null
  evidenceDecision := .null
  pendingClarification := none

/-- Two jobs asked one after the other, before the first has finished. -/
def created : SessionSystem where
  sessionId := 9
  memory := none
  runs := [SessionRun.created 2 (.obj []) 1, SessionRun.created 2 (.obj []) 3]

theorem created_init : (sessionMachine false).init created := ⟨2, .obj [], [1, 3], rfl⟩

def working (index : ℕ) : List SessionAction := [.run index .load, .save index memory none true]

def finishing (index : ℕ) : List SessionAction :=
  [.run index (.write (.obj [])), .run index (.insertTerminal (some "complete_or_wait") (.obj []))]

def allFinished (state : SessionSystem) : Bool :=
  decide (∀ run ∈ state.runs, run.phase = .finished ∧ run.isCompleted = true)

/-- The memory of the second job is completed, the job failed. -/
def secondFailed (state : SessionSystem) : Bool :=
  state.runs[1]?.any fun run => run.isCompleted = true ∧ run.tables.status = .failed ∧
    run.error = some .sessionMemory

end TwoJobs

theorem session_runs_independent_sequential : ∃ state : SessionSystem,
    (∀ run ∈ state.runs, run.phase = .finished ∧ run.isCompleted = true) ∧
      state.RunsIndependent := by
  have hcreated : (sessionMachine false).ReachableVia savesCurrent TwoJobs.created :=
    .init TwoJobs.created_init
  have hrun : ((sessionMachine false).runVia savesCurrent TwoJobs.created
      (TwoJobs.working 0 ++ TwoJobs.working 1 ++ [.readSession 0, .saveSession 0, .readSession 1,
        .saveSession 1] ++ TwoJobs.finishing 0 ++ TwoJobs.finishing 1)).any
          TwoJobs.allFinished = true := by decide
  obtain ⟨state, hreach, htest⟩ := hcreated.exists_of_runVia hrun
  exact ⟨state, of_decide_eq_true htest, session_runs_independent hreach⟩

/-- Both runs read the session memory before either writes it: the second one fails and
its completed answer is lost. -/
theorem completed_job_failed_by_another : ∃ state : SessionSystem,
    (sessionMachine false).Reachable state ∧
      (∃ run ∈ state.runs, run.isCompleted = true ∧ run.tables.status = .failed ∧
        run.error = some .sessionMemory) ∧ ¬ state.RunsIndependent := by
  have hcreated : (sessionMachine false).Reachable TwoJobs.created := .init TwoJobs.created_init
  have hrun : ((sessionMachine false).run TwoJobs.created
      (TwoJobs.working 0 ++ TwoJobs.working 1 ++ [.readSession 0, .readSession 1, .saveSession 0,
        .saveSession 1, .run 1 .fail])).any TwoJobs.secondFailed = true := by decide
  obtain ⟨state, hreach, htest⟩ := hcreated.exists_of_run hrun
  obtain ⟨run, hget, hrun⟩ := (Option.any_eq_true _ _).mp htest
  have hin : run ∈ state.runs := List.mem_of_getElem? hget
  obtain ⟨hcompleted, hfailed, herror⟩ := of_decide_eq_true hrun
  refine ⟨state, hreach, ⟨run, hin, hcompleted, hfailed, herror⟩, ?_⟩
  intro hindependent
  exact hindependent.1 run hin herror

end FineractReports.Job
