import FineractReports.Conversation.Isolation

/-!
# Archiving is final

Once a session is archived its row never changes again. No request shows it or one of its jobs,
whatever was under way at the time, and no run is started for it.
-/

namespace FineractReports.Conversation

open Audit Job Workflow

section Archiving

variable {uuidText : Uuid → String} {store after : ChatStore} {client : PrincipalContext}
  {draws : Draws} {now : ℤ} {action : ChatAction} {write : Write} {writes : List Write}
  {session : ChatSession} {sessionId jobId : Uuid}

/-- A write that leaves the archived sessions alone. -/
def Write.SparesArchived (store : ChatStore) : Write → Prop
  | updateSession row => inOpenSession store row.id = true
  | spawnRun run => inOpenSession store run.sessionId = true
  | _ => True

theorem getForUser_open {userId : Uuid} {legacy : Bool}
    (h : SessionRepository.getForUser store sessionId userId legacy = some session) :
    inOpenSession store session.id = true := by
  obtain ⟨hmem, -, -, hopen⟩ := getForUser_eq_some h
  exact List.any_eq_true.mpr ⟨session, hmem, by simp [hopen]⟩

theorem getInternalForUser_open {userId : Uuid} {job : ChatJob}
    (h : JobRepository.getInternalForUser store jobId userId = some job) :
    inOpenSession store job.sessionId = true := by
  have hmatches := List.find?_some h
  exact (Bool.and_eq_true_iff.mp hmatches).2

theorem updates_spare {updated : Option ChatSession} {userId : Uuid} {reply : Answer}
    (h : ∀ session, updated = some session → inOpenSession store session.id = true) :
    ∀ write ∈ updated.toList.map Write.updateSession ++ [.answer userId reply],
      write.SparesArchived store := by
  cases updated with
  | none => simp [Write.SparesArchived]
  | some session => simpa [Write.SparesArchived] using h session rfl

theorem requestWrites_spare (request : ChatRequest) :
    ∀ write ∈ requestWrites uuidText store client draws now request,
      write.SparesArchived store := by
  cases request with
  | renameSession sessionId title =>
    cases hallowed : renameTitleAllowed title with
    | false => simp [requestWrites, hallowed, Write.SparesArchived]
    | true =>
      simp only [requestWrites, hallowed, if_true]
      refine updates_spare fun session hrenamed => ?_
      obtain ⟨found, hget, rfl⟩ := Option.map_eq_some_iff.mp hrenamed
      have hopen : inOpenSession store found.id = true := getForUser_open hget
      exact hopen
  | archiveSession sessionId =>
    refine updates_spare fun session harchived => ?_
    obtain ⟨found, hget, rfl⟩ := Option.map_eq_some_iff.mp harchived
    have hopen : inOpenSession store found.id = true := getForUser_open hget
    exact hopen
  | createSession title =>
    rw [requestWrites]
    split_ifs <;> simp [Write.SparesArchived]
  | createJob session message clientJson =>
    cases session with
    | none => simp [requestWrites, openJob, Write.SparesArchived]
    | some sessionId =>
      rw [requestWrites]
      split <;> simp [openJob, Write.SparesArchived]
  | respond jobId submission =>
    rw [requestWrites]
    split
    · simp [Write.SparesArchived]
    · split_ifs <;> simp [respondWrites, Write.SparesArchived]
  | listMessages sessionId =>
    rw [requestWrites]
    split_ifs <;> simp [Write.SparesArchived]
  | auditTimeline jobId =>
    rw [requestWrites]
    split <;> simp [Write.SparesArchived]
  | replayEvents jobId =>
    rw [requestWrites]
    split <;> simp [Write.SparesArchived]
  | _ => simp [requestWrites, Write.SparesArchived]

/-- The job is read back before its run is spawned. -/
theorem continueWrites_spare (h : Sound store) {rest : Continuation}
    (hrest : rest.Fits store client) :
    ∀ write ∈ continueWrites store client draws now rest, write.SparesArchived store := by
  cases rest with
  | spawnRun jobId sessionId reply =>
    rw [continueWrites]
    split
    next job hget =>
      obtain ⟨hmem, hid, -⟩ := getInternalForUser_eq_some hget
      have hopen := getInternalForUser_open hget
      rw [(h.jobOwner_eq hrest hmem hid).1] at hopen
      simpa [Write.SparesArchived] using hopen
    next => simp
  | _ => simp [continueWrites, Write.SparesArchived]

theorem actionWrites_spare (h : Sound store)
    (hwrites : actionWrites uuidText store action = some writes) :
    ∀ write ∈ writes, write.SparesArchived store := by
  cases action with
  | request client request draws now =>
    obtain rfl := Option.some.inj hwrites
    exact requestWrites_spare request
  | resume request draws now =>
    simp only [actionWrites] at hwrites
    split_ifs at hwrites with hmem
    obtain rfl := Option.some.inj hwrites
    rw [List.forall_mem_cons]
    exact ⟨trivial, continueWrites_spare h (h.requests request hmem)⟩
  | write run write now =>
    simp only [actionWrites] at hwrites
    split_ifs at hwrites with hmem
    obtain rfl := Option.some.inj hwrites
    intro row hrow
    rcases runWrites_cases h hmem hrow with ⟨event, rfl, -⟩ | ⟨message, rfl, -⟩ | ⟨job, rfl, -⟩
    all_goals trivial
  | recordAudit run row =>
    simp only [actionWrites] at hwrites
    split_ifs at hwrites with hmem
    obtain rfl := Option.some.inj hwrites
    exact List.forall_mem_singleton.mpr trivial

/-- An archived session is not open. -/
theorem Sound.not_open (h : Sound store) (hmem : session ∈ store.sessions)
    (harchived : session.archivedAt ≠ none) : inOpenSession store session.id = false := by
  rw [inOpenSession, List.any_eq_false]
  intro other hother hopen
  simp only [Bool.and_eq_true, decide_eq_true_eq, Option.isNone_iff_eq_none] at hopen
  obtain rfl := h.session_eq hother hmem hopen.1
  exact harchived hopen.2

/-- What a list of sparing writes leaves of an archived session. -/
theorem archived_applyAll (hmem : session ∈ store.sessions)
    (hspare : ∀ write ∈ writes, (∀ row, write = .updateSession row → row.id ≠ session.id) ∧
      ∀ run, write = .spawnRun run → run.sessionId ≠ session.id)
    (happly : applyAll store writes = some after) :
    session ∈ after.sessions ∧
      ∀ run ∈ after.runs, run.sessionId = session.id → run ∈ store.runs := by
  induction writes generalizing store with
  | nil =>
    obtain rfl := Option.some.inj happly
    exact ⟨hmem, fun run hrun _ => hrun⟩
  | cons write rest ih =>
    rw [applyAll] at happly
    split_ifs at happly with hfresh
    obtain ⟨hupdate, hspawn⟩ := hspare write List.mem_cons_self
    have hkept : session ∈ (write.apply store).sessions := by
      cases write with
      | insertSession row => exact List.mem_append_left _ hmem
      | updateSession row => exact mem_replaceRow_of_ne hmem (hupdate row rfl).symm
      | _ => exact hmem
    obtain ⟨hafter, hruns⟩ :=
      ih hkept (fun other hother => hspare other (List.mem_cons_of_mem _ hother)) happly
    refine ⟨hafter, fun run hrun hid => ?_⟩
    have hnow := hruns run hrun hid
    cases write with
    | spawnRun spawned =>
      rcases List.mem_append.mp hnow with hold | hnew
      · exact hold
      · obtain rfl := List.mem_singleton.mp hnew
        exact absurd hid (hspawn run rfl)
    | _ => exact hnow

theorem archived_step (h : Sound store) (hmem : session ∈ store.sessions)
    (harchived : session.archivedAt ≠ none) (hstep : chatStep uuidText store action = some after) :
    session ∈ after.sessions ∧
      ∀ run ∈ after.runs, run.sessionId = session.id → run ∈ store.runs := by
  obtain ⟨writes, hwrites, happly⟩ := Option.bind_eq_some_iff.mp hstep
  have hclosed := h.not_open hmem harchived
  refine archived_applyAll hmem (fun write hwrite => ?_) happly
  have hspare := actionWrites_spare h hwrites write hwrite
  constructor
  · rintro row rfl hid
    rw [Write.SparesArchived, hid, hclosed] at hspare
    cases hspare
  · rintro run rfl hid
    rw [Write.SparesArchived, hid, hclosed] at hspare
    cases hspare

theorem archived_run {actions : List ChatAction} (h : Sound store) (hmem : session ∈ store.sessions)
    (harchived : session.archivedAt ≠ none)
    (hrun : (chatMachine uuidText).run store actions = some after) :
    Sound after ∧ session ∈ after.sessions ∧
      ∀ run ∈ after.runs, run.sessionId = session.id → run ∈ store.runs := by
  induction actions generalizing store with
  | nil =>
    obtain rfl := Option.some.inj hrun
    exact ⟨h, hmem, fun run hin _ => hin⟩
  | cons action rest ih =>
    obtain ⟨next, hstep, hrest⟩ := Option.bind_eq_some_iff.mp hrun
    obtain ⟨hnext, hspawned⟩ := archived_step h hmem harchived hstep
    obtain ⟨hsound, hafter, hruns⟩ := ih (h.step hstep) hnext hrest
    exact ⟨hsound, hafter, fun run hin hid => hspawned run (hruns run hin hid) hid⟩

/-- No statement shows the session, a message of it or a job of it. -/
structure Unreadable (store : ChatStore) (session : ChatSession) : Prop where
  found : ∀ userId legacy,
    SessionRepository.getForUser store session.id userId legacy = none
  listed : ∀ userId legacy, session ∉ SessionRepository.listForUser store userId legacy
  visible : ∀ userId legacy, MessageRepository.visible store session.id userId legacy = false
  messages : MessageRepository.list store session.id = []
  jobs : ∀ job ∈ store.jobs, job.sessionId = session.id → ∀ userId legacy,
    JobRepository.getForUser store job.id userId legacy = none ∧
      JobRepository.getInternalForUser store job.id userId = none

theorem Sound.unreadable (h : Sound store) (hmem : session ∈ store.sessions)
    (harchived : session.archivedAt ≠ none) : Unreadable store session := by
  have hclosed := h.not_open hmem harchived
  have hnoSession : ∀ userId legacy, ∀ other ∈ store.sessions,
      ¬ SessionRepository.matchesUser session.id userId legacy other = true := by
    intro userId legacy other hother hmatches
    simp only [SessionRepository.matchesUser, Bool.and_eq_true, decide_eq_true_eq,
      Option.isNone_iff_eq_none] at hmatches
    obtain rfl := h.session_eq hother hmem hmatches.1.1
    exact harchived hmatches.2
  refine ⟨fun userId legacy => ?_, fun userId legacy hlisted => ?_, fun userId legacy => ?_, ?_, ?_⟩
  · exact List.find?_eq_none.mpr (hnoSession userId legacy)
  · have hopen := (List.mem_filter.mp (mem_sortByKey.mp hlisted)).2
    rw [Bool.and_eq_true, Option.isNone_iff_eq_none] at hopen
    exact harchived hopen.2
  · exact List.any_eq_false.mpr (hnoSession userId legacy)
  · have hnone : (store.messages.filter fun message =>
        message.sessionId = session.id && inOpenSession store message.sessionId) = [] := by
      refine List.filter_eq_nil_iff.mpr fun message _ hmatches => ?_
      rw [Bool.and_eq_true, decide_eq_true_eq] at hmatches
      rw [hmatches.1, hclosed] at hmatches
      cases hmatches.2
    rw [MessageRepository.list, hnone]
    rfl
  · intro job hjob hsession userId legacy
    have hnoJob : ∀ other ∈ store.jobs, other.id = job.id →
        inOpenSession store other.sessionId = false := by
      intro other hother hid
      obtain rfl := h.job_eq hother hjob hid
      rw [hsession, hclosed]
    constructor
    all_goals
      refine List.find?_eq_none.mpr fun other hother hmatches => ?_
      simp only [Bool.and_eq_true, decide_eq_true_eq] at hmatches
      rw [hnoJob other hother hmatches.1.1] at hmatches
      cases hmatches.2

end Archiving

/-! A session archived between the check of a new job and its insertion. -/

namespace ArchivedMeanwhile

def client : PrincipalContext := ⟨1, "analyst", [], [], false⟩

def session : ChatSession := ⟨10, some 1, none, .archived, 1, 3, some 3⟩

def request : OpenRequest := ⟨client, .createJob 10 "loans" (.obj [])⟩

/-- The session is archived and the request still open. -/
def store : ChatStore := ⟨[session], [], [], [], [], [request], [], []⟩

def actions : List ChatAction :=
  let reply : Answer := .created (some ⟨10, 100, 101, "queued", "queued"⟩)
  [.resume request ⟨100, 101⟩ 4, .resume ⟨client, .spawnRun 100 10 reply⟩ ⟨0, 0⟩ 5]

theorem sound_store : Sound store where
  sessionIds := by decide
  jobIds := List.nodup_nil
  jobs := by simp [store]
  messages := by simp [store]
  events := by simp [store]
  auditEvents := by simp [store]
  requests := by
    refine List.forall_mem_singleton.mpr ?_
    exact ⟨session, List.mem_singleton_self _, rfl, rfl⟩
  runs := by simp [store]

end ArchivedMeanwhile

end FineractReports.Conversation
