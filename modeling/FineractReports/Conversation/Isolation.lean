import FineractReports.Conversation.Views
import FineractReports.Library.Unwinding

/-!
# Users do not see each other

What a user is answered is a function of that user's own requests and runs: taken out of any run,
the actions of everybody else leave the answers as they were. Administrators share the sessions
without an owner, so that to one of them the changes of such a session by others count as well.
-/

namespace FineractReports.Conversation

open Audit Job Workflow

section Isolation

variable {uuidText : Uuid → String} {viewer : Viewer} {store : ChatStore}
  {client : PrincipalContext} {draws : Draws} {now : ℤ} {id sessionId jobId : Uuid}
  {owner : Option Uuid}

/-! ### The writes of an action fit -/

theorem ownedBy_iff {userId : Uuid} {legacy : Bool} :
    ownedBy owner userId legacy = true ↔ owner = some userId ∨ (legacy = true ∧ owner = none) := by
  simp [ownedBy]

theorem ownedBy_some {userId : Uuid} {legacy : Bool} : ownedBy (some userId) userId legacy = true :=
  ownedBy_iff.mpr (Or.inl rfl)

theorem getForUser_eq_some {session : ChatSession} {legacy : Bool} {userId : Uuid}
    (h : SessionRepository.getForUser store sessionId userId legacy = some session) :
    session ∈ store.sessions ∧ session.id = sessionId ∧
      ownedBy session.userId userId legacy = true ∧ session.archivedAt = none := by
  have hmatches := List.find?_some h
  simp only [SessionRepository.matchesUser, Bool.and_eq_true, decide_eq_true_eq,
    Option.isNone_iff_eq_none] at hmatches
  exact ⟨List.mem_of_find?_eq_some h, hmatches.1.1, hmatches.1.2, hmatches.2⟩

theorem getJobForUser_eq_some {job : ChatJob} {legacy : Bool} {userId : Uuid}
    (h : JobRepository.getForUser store jobId userId legacy = some job) :
    job ∈ store.jobs ∧ job.id = jobId ∧ ownedBy job.userId userId legacy = true := by
  have hmatches := List.find?_some h
  simp only [Bool.and_eq_true, decide_eq_true_eq] at hmatches
  exact ⟨List.mem_of_find?_eq_some h, hmatches.1.1, hmatches.1.2⟩

theorem getInternalForUser_eq_some {job : ChatJob} {userId : Uuid}
    (h : JobRepository.getInternalForUser store jobId userId = some job) :
    job ∈ store.jobs ∧ job.id = jobId ∧ job.userId = some userId := by
  have hmatches := List.find?_some h
  simp only [Bool.and_eq_true, decide_eq_true_eq] at hmatches
  exact ⟨List.mem_of_find?_eq_some h, hmatches.1.1, hmatches.1.2⟩

theorem renameForUser_stays {session : ChatSession} {legacy : Bool} {userId : Uuid} {title : String}
    (h : SessionRepository.renameForUser store sessionId userId legacy title now = some session) :
    HasSession store session.id session.userId := by
  obtain ⟨found, hget, rfl⟩ := Option.map_eq_some_iff.mp h
  exact ⟨found, (getForUser_eq_some hget).1, rfl, rfl⟩

theorem archiveForUser_stays {session : ChatSession} {legacy : Bool} {userId : Uuid}
    (h : SessionRepository.archiveForUser store sessionId userId legacy now = some session) :
    HasSession store session.id session.userId := by
  obtain ⟨found, hget, rfl⟩ := Option.map_eq_some_iff.mp h
  exact ⟨found, (getForUser_eq_some hget).1, rfl, rfl⟩

theorem updates_fit (h : Sound store) {updated : Option ChatSession} {userId : Uuid}
    {reply : Answer}
    (hupdated : ∀ session, updated = some session → HasSession store session.id session.userId) :
    Fitting store (updated.toList.map .updateSession ++ [.answer userId reply]) := by
  refine fitting_of_forall h ?_
  cases updated with
  | none => simp [Write.Fits]
  | some session => simpa [Write.Fits] using hupdated session rfl

/-- The writes of the first statement fit. -/
theorem requestWrites_fit (h : Sound store) (request : ChatRequest) :
    Fitting store (requestWrites uuidText store client draws now request) := by
  cases request with
  | createSession title =>
    rw [requestWrites]
    split_ifs
    · exact fitting_of_forall h (by simp [Write.Fits, SessionRepository.create])
    · exact fitting_of_forall h (by simp [Write.Fits])
  | listSessions => exact fitting_of_forall h (by simp [requestWrites, Write.Fits])
  | getSession sessionId => exact fitting_of_forall h (by simp [requestWrites, Write.Fits])
  | renameSession sessionId title =>
    cases hallowed : renameTitleAllowed title with
    | false =>
      simp only [requestWrites, hallowed, Bool.false_eq_true, if_false]
      exact fitting_of_forall h (by simp [Write.Fits])
    | true =>
      simp only [requestWrites, hallowed, if_true]
      exact updates_fit h fun session hrenamed => renameForUser_stays hrenamed
  | archiveSession sessionId =>
    exact updates_fit h fun session harchived => archiveForUser_stays harchived
  | listMessages sessionId =>
    rw [requestWrites]
    split_ifs with hvisible
    · refine fitting_of_forall h (List.forall_mem_singleton.mpr ?_)
      obtain ⟨session, hmem, hmatches⟩ := List.any_eq_true.mp hvisible
      simp only [SessionRepository.matchesUser, Bool.and_eq_true, decide_eq_true_eq] at hmatches
      exact ⟨session.userId, hmatches.1.2, session, hmem, hmatches.1.1, rfl⟩
    · exact fitting_of_forall h (by simp [Write.Fits])
  | createJob session message clientJson =>
    cases session with
    | none =>
      refine ⟨by simp [Write.Fits, SessionRepository.create], fun _ => ⟨?_, fun _ => trivial⟩⟩
      exact ⟨_, List.mem_append_right _ (List.mem_singleton_self _), rfl, rfl⟩
    | some sessionId =>
      rw [requestWrites]
      split
      next session hget =>
        obtain ⟨hmem, hid, howned, -⟩ := getForUser_eq_some hget
        have howner : session.userId = some client.userId := by simpa [ownedBy] using howned
        exact fitting_of_forall h (List.forall_mem_singleton.mpr ⟨session, hmem, hid, howner⟩)
      next => exact fitting_of_forall h (by simp [Write.Fits])
  | getJob jobId => exact fitting_of_forall h (by simp [requestWrites, Write.Fits])
  | auditTimeline jobId =>
    rw [requestWrites]
    split
    next job hget =>
      obtain ⟨hmem, hid, howned⟩ := getJobForUser_eq_some hget
      exact fitting_of_forall h (List.forall_mem_singleton.mpr
        ⟨job.sessionId, job.userId, howned, job, hmem, hid, rfl, rfl⟩)
    next => exact fitting_of_forall h (by simp [Write.Fits])
  | replayEvents jobId =>
    rw [requestWrites]
    split
    next job hget =>
      obtain ⟨hmem, hid, howned⟩ := getJobForUser_eq_some hget
      exact fitting_of_forall h (List.forall_mem_singleton.mpr
        ⟨job.sessionId, job.userId, howned, job, hmem, hid, rfl, rfl⟩)
    next => exact fitting_of_forall h (by simp [Write.Fits])
  | respond jobId submission =>
    rw [requestWrites]
    split
    next => exact fitting_of_forall h (by simp [Write.Fits])
    next job hget =>
      obtain ⟨hmem, -, howner⟩ := getInternalForUser_eq_some hget
      have hjob : HasJob store job.id job.sessionId (some client.userId) :=
        ⟨job, hmem, rfl, rfl, howner⟩
      split_ifs
      · exact fitting_of_forall h (by simp [Write.Fits])
      · refine fitting_of_forall h ?_
        simp only [respondWrites, List.forall_mem_cons, List.not_mem_nil, false_implies,
          implies_true, and_true]
        exact ⟨⟨job.userId, h.jobs job hmem⟩, ⟨job, hmem, rfl, rfl, rfl⟩, ⟨_, _, hjob⟩, hjob⟩
      · exact fitting_of_forall h (by simp [Write.Fits])

/-- The writes of the rest of a request fit. -/
theorem continueWrites_fit (h : Sound store) {rest : Continuation}
    (hrest : rest.Fits store client) :
    Fitting store (continueWrites store client draws now rest) := by
  cases rest with
  | listMessages sessionId => exact fitting_of_forall h (by simp [continueWrites, Write.Fits])
  | auditTimeline jobId => exact fitting_of_forall h (by simp [continueWrites, Write.Fits])
  | replayEvents jobId => exact fitting_of_forall h (by simp [continueWrites, Write.Fits])
  | createJob sessionId message clientJson =>
    have hsession : HasSession store sessionId (some client.userId) := hrest
    have hinsert : (Write.insertJob (JobRepository.create draws.first draws.second sessionId
        client.userId message clientJson now)).Fits store := hsession
    refine ⟨hinsert, fun hfresh => fitting_of_forall (h.apply hinsert hfresh) ?_⟩
    simp only [List.forall_mem_cons, List.not_mem_nil, false_implies, implies_true, and_true]
    refine ⟨⟨_, hsession.apply h hinsert⟩, ?_⟩
    exact ⟨_, List.mem_append_right _ (List.mem_singleton_self _), rfl, rfl, rfl⟩
  | spawnRun jobId sessionId reply =>
    rw [continueWrites]
    split
    · refine fitting_of_forall h ?_
      simp only [List.forall_mem_cons, List.not_mem_nil, false_implies, implies_true, and_true]
      exact ⟨hrest, trivial⟩
    · trivial

/-- An update of a run is one of its job. -/
theorem runWrite_job {run : JobRun} {write : RunWrite} {job after : ChatJob}
    (h : write.job run now job = some after) :
    after.id = job.id ∧ after.sessionId = job.sessionId ∧ after.userId = job.userId := by
  cases write with
  | insertEvent => cases h
  | insertMessage => cases h
  | waitForUserInput =>
    obtain rfl := Option.some.inj h
    exact ⟨rfl, rfl, rfl⟩
  | savePending pending expectedRevision =>
    simp only [RunWrite.job] at h
    split_ifs at h
    obtain rfl := Option.some.inj h
    exact ⟨rfl, rfl, rfl⟩
  | mergeRetrievalTrace trace =>
    simp only [RunWrite.job] at h
    split_ifs at h
    obtain rfl := Option.some.inj h
    exact ⟨rfl, rfl, rfl⟩
  | storeResult resultJson =>
    obtain rfl := Option.some.inj h
    exact ⟨rfl, rfl, rfl⟩
  | persist messageId content metadataJson resultJson terminal =>
    obtain rfl := Option.some.inj h
    cases terminal <;> exact ⟨rfl, rfl, rfl⟩
  | fail errorJson =>
    obtain rfl := Option.some.inj h
    unfold JobRepository.fail
    split_ifs <;> exact ⟨rfl, rfl, rfl⟩

/-- A run inserts into its own session and for its own job. -/
theorem runWrite_inserts {run : JobRun} {write : RunWrite} {row : Write}
    (h : row ∈ write.inserts run now) :
    (∃ event, row = .insertEvent event ∧ event.jobId = run.jobId) ∨
      ∃ message, row = .insertMessage message ∧ message.sessionId = run.sessionId := by
  cases write with
  | insertEvent eventId eventType step payload =>
    obtain rfl := List.mem_singleton.mp h
    exact Or.inl ⟨_, rfl, rfl⟩
  | insertMessage messageId content metadataJson =>
    obtain rfl := List.mem_singleton.mp h
    exact Or.inr ⟨_, rfl, rfl⟩
  | persist messageId content metadataJson resultJson terminal =>
    obtain rfl := List.mem_singleton.mp h
    exact Or.inr ⟨_, rfl, rfl⟩
  | _ => cases h

/-- The rows a run writes: its job, events of its job and messages of its session. -/
theorem runWrites_cases (h : Sound store) {run : JobRun} (hrun : run ∈ store.runs)
    {write : RunWrite} {row : Write} (hrow : row ∈ runWrites store run write now) :
    (∃ event, row = .insertEvent event ∧ event.jobId = run.jobId) ∨
      (∃ message, row = .insertMessage message ∧ message.sessionId = run.sessionId) ∨
        ∃ job, row = .updateJob job ∧ job.id = run.jobId ∧ job.sessionId = run.sessionId ∧
          job.userId = some run.userId := by
  rcases List.mem_append.mp hrow with hinsert | hupdate
  · exact (runWrite_inserts hinsert).imp_right Or.inl
  · obtain ⟨after, hafter, rfl⟩ := List.mem_map.mp hupdate
    obtain ⟨job, hjob, hwrite⟩ := Option.bind_eq_some_iff.mp (Option.mem_toList.mp hafter)
    have hid : job.id = run.jobId := by simpa using List.find?_some hjob
    obtain ⟨hsameSession, hsameOwner⟩ :=
      h.jobOwner_eq (h.runs run hrun) (List.mem_of_find?_eq_some hjob) hid
    obtain ⟨hafterId, hafterSession, hafterOwner⟩ := runWrite_job hwrite
    exact Or.inr (Or.inr ⟨after, rfl, hafterId.trans hid, hafterSession.trans hsameSession,
      hafterOwner.trans hsameOwner⟩)

theorem runWrites_fit (h : Sound store) {run : JobRun} (hrun : run ∈ store.runs)
    {write : RunWrite} : Fitting store (runWrites store run write now) := by
  have hjob := h.runs run hrun
  refine fitting_of_forall h fun row hrow => ?_
  rcases runWrites_cases h hrun hrow with ⟨event, rfl, hid⟩ | ⟨message, rfl, hid⟩ |
    ⟨job, rfl, hid, hsession, howner⟩
  · exact ⟨_, _, hid ▸ hjob⟩
  · obtain ⟨found, hfound, -, hsame, -⟩ := hjob
    exact ⟨found.userId, hid ▸ hsame ▸ h.jobs found hfound⟩
  · show HasJob store job.id job.sessionId job.userId
    rw [hid, hsession, howner]
    exact hjob

theorem actionWrites_fit (h : Sound store) {action : ChatAction} {writes : List Write}
    (hwrites : actionWrites uuidText store action = some writes) : Fitting store writes := by
  cases action with
  | request client request draws now =>
    obtain rfl := Option.some.inj hwrites
    exact requestWrites_fit h request
  | resume request draws now =>
    simp only [actionWrites] at hwrites
    split_ifs at hwrites with hmem
    obtain rfl := Option.some.inj hwrites
    have hfits : (Write.closeRequest request).Fits store := trivial
    exact ⟨hfits, fun hfresh => continueWrites_fit (h.apply hfits hfresh)
      ((h.requests request hmem).apply h hfits)⟩
  | write run write now =>
    simp only [actionWrites] at hwrites
    split_ifs at hwrites with hmem
    obtain rfl := Option.some.inj hwrites
    exact runWrites_fit h hmem
  | recordAudit run row =>
    simp only [actionWrites] at hwrites
    split_ifs at hwrites with hmem
    obtain rfl := Option.some.inj hwrites
    refine fitting_of_forall h (List.forall_mem_singleton.mpr ?_)
    exact ⟨_, _, hmem.2 ▸ h.runs run hmem.1⟩

/-- The machine of the conversations over any consistent store. -/
def chatMachine (uuidText : Uuid → String) : Machine ChatStore ChatAction where
  init store := Sound store
  step := chatStep uuidText

theorem Sound.step (h : Sound store) {action : ChatAction} {after : ChatStore}
    (hstep : chatStep uuidText store action = some after) : Sound after := by
  obtain ⟨writes, hwrites, happly⟩ := Option.bind_eq_some_iff.mp hstep
  exact h.applyAll (actionWrites_fit h hwrites) happly

/-! ### The writes of a user's own action depend on the user's part -/

section Own

variable {userId : Uuid} {legacy : Bool}

theorem listForUser_view (hsees : ∀ owner, ownedBy owner userId legacy = true →
    viewer.sees owner = true) :
    SessionRepository.listForUser (viewer.view store) userId legacy =
      SessionRepository.listForUser store userId legacy := by
  refine congrArg (sortByKey _) (filter_filter_of_imp fun session _ hmatches => ?_)
  exact hsees _ (Bool.and_eq_true_iff.mp hmatches).1

/-- A session that can only be one the viewer sees is found in the viewer's part. -/
theorem getForUser_view (hsees : ∀ session ∈ store.sessions,
    SessionRepository.matchesUser sessionId userId legacy session = true →
      viewer.sees session.userId = true) :
    SessionRepository.getForUser (viewer.view store) sessionId userId legacy =
      SessionRepository.getForUser store sessionId userId legacy :=
  find?_filter_of_imp hsees

theorem sees_of_matches (hsees : ∀ owner, ownedBy owner userId legacy = true →
    viewer.sees owner = true) {session : ChatSession}
    (h : SessionRepository.matchesUser sessionId userId legacy session = true) :
    viewer.sees session.userId = true := by
  simp only [SessionRepository.matchesUser, Bool.and_eq_true] at h
  exact hsees _ h.1.2

theorem visible_view (hsees : ∀ owner, ownedBy owner userId legacy = true →
    viewer.sees owner = true) :
    MessageRepository.visible (viewer.view store) sessionId userId legacy =
      MessageRepository.visible store sessionId userId legacy :=
  any_filter_of_imp fun _ _ hmatches => sees_of_matches hsees hmatches

theorem inOpenSession_view (h : Sound store) (hhas : HasSession store sessionId owner)
    (howner : viewer.sees owner = true) :
    inOpenSession (viewer.view store) sessionId = inOpenSession store sessionId := by
  refine any_filter_of_imp fun session hmem hmatches => ?_
  rw [Bool.and_eq_true, decide_eq_true_eq] at hmatches
  rw [h.sees_session viewer hhas session hmem hmatches.1, howner]

theorem listMessages_view (h : Sound store) (hhas : HasSession store sessionId owner)
    (howner : viewer.sees owner = true) :
    MessageRepository.list (viewer.view store) sessionId =
      MessageRepository.list store sessionId := by
  refine congrArg (sortByKey _) ?_
  have hopen : ∀ message ∈ (viewer.view store).messages,
      (decide (message.sessionId = sessionId) &&
        inOpenSession (viewer.view store) message.sessionId) =
      (decide (message.sessionId = sessionId) && inOpenSession store message.sessionId) := by
    intro message _
    by_cases hid : message.sessionId = sessionId
    · rw [hid, inOpenSession_view h hhas howner]
    · simp [hid]
  rw [List.filter_congr hopen]
  refine filter_filter_of_imp fun message _ hmatches => ?_
  rw [Bool.and_eq_true, decide_eq_true_eq] at hmatches
  rw [hmatches.1, h.seesSession hhas, howner]

/-- A job that can only be one the viewer sees is found in the viewer's part. -/
theorem findJob_view (h : Sound store) {mine : ChatJob → Bool}
    (hsees : ∀ job ∈ store.jobs, mine job = true → viewer.sees job.userId = true) :
    ((viewer.view store).jobs.find? fun job =>
      mine job && inOpenSession (viewer.view store) job.sessionId) =
    store.jobs.find? fun job => mine job && inOpenSession store job.sessionId := by
  have hopen : ((viewer.view store).jobs.find? fun job =>
      mine job && inOpenSession (viewer.view store) job.sessionId) =
      (viewer.view store).jobs.find? fun job => mine job && inOpenSession store job.sessionId := by
    refine List.find?_congr fun job hmem => ?_
    obtain ⟨hin, howner⟩ := List.mem_filter.mp hmem
    rw [inOpenSession_view h (h.jobs job hin) howner]
  rw [hopen]
  exact find?_filter_of_imp fun job hmem hmatches =>
    hsees job hmem (Bool.and_eq_true_iff.mp hmatches).1

theorem getJobForUser_view (h : Sound store) (hsees : ∀ owner,
    ownedBy owner userId legacy = true → viewer.sees owner = true) :
    JobRepository.getForUser (viewer.view store) jobId userId legacy =
      JobRepository.getForUser store jobId userId legacy :=
  findJob_view h fun _ _ hmatches => hsees _ (Bool.and_eq_true_iff.mp hmatches).2

theorem getInternalForUser_view (h : Sound store) (hsees : viewer.sees (some userId) = true) :
    JobRepository.getInternalForUser (viewer.view store) jobId userId =
      JobRepository.getInternalForUser store jobId userId := by
  refine findJob_view h fun job _ hmatches => ?_
  rw [Bool.and_eq_true, decide_eq_true_eq, decide_eq_true_eq] at hmatches
  rw [hmatches.2, hsees]

theorem listAuditEvents_view (h : Sound store) (hhas : HasJob store jobId sessionId owner)
    (howner : viewer.sees owner = true) :
    JobRepository.listAuditEvents (viewer.view store) jobId =
      JobRepository.listAuditEvents store jobId := by
  refine congrArg (sortByKey _) (filter_filter_of_imp fun row _ hmatches => ?_)
  rw [of_decide_eq_true hmatches, h.seesJob hhas, howner]

theorem listEvents_view (h : Sound store) (hhas : HasJob store jobId sessionId owner)
    (howner : viewer.sees owner = true) :
    JobRepository.listEvents (viewer.view store) jobId = JobRepository.listEvents store jobId := by
  refine congrArg (sortByKey _) (filter_filter_of_imp fun event _ hmatches => ?_)
  rw [of_decide_eq_true hmatches, h.seesJob hhas, howner]

theorem runWrites_view (h : Sound store) {run : JobRun} {write : RunWrite} (hrun : run ∈ store.runs)
    (hsees : viewer.sees (some run.userId) = true) :
    runWrites (viewer.view store) run write now = runWrites store run write now := by
  unfold runWrites
  have hfind : ((viewer.view store).jobs.find? fun job => job.id = run.jobId) =
      store.jobs.find? fun job => job.id = run.jobId := by
    refine find?_filter_of_imp fun job hmem hid => ?_
    rw [h.sees_job viewer (h.runs run hrun) job hmem (of_decide_eq_true hid), hsees]
  rw [hfind]

/-- The writes of a request of the viewer. -/
theorem requestWrites_view (h : Sound store)
    (hsees : ∀ owner, ownedBy owner client.userId (includeLegacy client) = true →
      viewer.sees owner = true) (request : ChatRequest) :
    requestWrites uuidText (viewer.view store) client draws now request =
      requestWrites uuidText store client draws now request := by
  have hmine : viewer.sees (some client.userId) = true := hsees _ ownedBy_some
  have hget : ∀ sessionId, SessionRepository.getForUser (viewer.view store) sessionId client.userId
      (includeLegacy client) = SessionRepository.getForUser store sessionId client.userId
        (includeLegacy client) :=
    fun _ => getForUser_view fun _ _ hmatches => sees_of_matches hsees hmatches
  cases request with
  | createSession title => rfl
  | listSessions => rw [requestWrites, requestWrites, listForUser_view hsees]
  | getSession sessionId => rw [requestWrites, requestWrites, hget]
  | renameSession sessionId title =>
    simp only [requestWrites, SessionRepository.renameForUser, hget]
  | archiveSession sessionId =>
    simp only [requestWrites, SessionRepository.archiveForUser, hget]
  | listMessages sessionId => rw [requestWrites, requestWrites, visible_view hsees]
  | createJob session message clientJson =>
    cases session with
    | none => rfl
    | some sessionId =>
      have hstrict : ∀ owner, ownedBy owner client.userId false = true →
          viewer.sees owner = true := by
        intro owner howned
        obtain rfl : owner = some client.userId := by simpa [ownedBy] using howned
        exact hmine
      have hgetOwn :
          SessionRepository.getForUser (viewer.view store) sessionId client.userId false =
            SessionRepository.getForUser store sessionId client.userId false :=
        getForUser_view fun _ _ hmatches => sees_of_matches hstrict hmatches
      simp only [requestWrites, hgetOwn]
  | getJob jobId => rw [requestWrites, requestWrites, getJobForUser_view h hsees]
  | auditTimeline jobId => simp only [requestWrites, getJobForUser_view h hsees]
  | replayEvents jobId => simp only [requestWrites, getJobForUser_view h hsees]
  | respond jobId submission => simp only [requestWrites, getInternalForUser_view h hmine]

/-- The writes of the rest of a request of the viewer. -/
theorem continueWrites_view (h : Sound store) {rest : Continuation} (hrest : rest.Fits store client)
    (hsees : ∀ owner, ownedBy owner client.userId (includeLegacy client) = true →
      viewer.sees owner = true) :
    continueWrites (viewer.view store) client draws now rest =
      continueWrites store client draws now rest := by
  cases rest with
  | listMessages sessionId =>
    obtain ⟨owner, howned, hhas⟩ := hrest
    rw [continueWrites, continueWrites, listMessages_view h hhas (hsees owner howned)]
  | auditTimeline jobId =>
    obtain ⟨sessionId, owner, howned, hhas⟩ := hrest
    rw [continueWrites, continueWrites, listAuditEvents_view h hhas (hsees owner howned)]
  | replayEvents jobId =>
    obtain ⟨sessionId, owner, howned, hhas⟩ := hrest
    rw [continueWrites, continueWrites, listEvents_view h hhas (hsees owner howned)]
  | createJob sessionId message clientJson => rfl
  | spawnRun jobId sessionId reply =>
    simp only [continueWrites, getInternalForUser_view h (hsees _ ownedBy_some)]

end Own

/-! ### Whom an action concerns -/

namespace ChatAction

/-- The user who asks, or for whom the run was spawned. -/
def userId : ChatAction → Uuid
  | request client _ _ _ => client.userId
  | resume opened _ _ => opened.client.userId
  | write run _ _ => run.userId
  | recordAudit run _ => run.userId

def asAdmin : ChatAction → Bool
  | request client _ _ _ => includeLegacy client
  | resume opened _ _ => includeLegacy opened.client
  | _ => false

/-- The session a request is to change by itself. -/
def changedSession : ChatAction → Option Uuid
  | request _ (.renameSession sessionId _) _ _ => some sessionId
  | request _ (.archiveSession sessionId) _ _ => some sessionId
  | _ => none

end ChatAction

namespace Viewer

variable (viewer : Viewer)

/-- The viewer's own actions and, for an administrator, the changes of sessions without owner. -/
def concerns (start : ChatStore) (action : ChatAction) : Bool :=
  action.userId = viewer.userId || (viewer.includeLegacy && action.changedSession.any fun id =>
    start.sessions.any fun session => session.id = id && session.userId.isNone)

/-- A user who asks as an administrator is viewed as one. -/
def Covers (action : ChatAction) : Prop :=
  action.userId = viewer.userId → action.asAdmin = true → viewer.includeLegacy = true

end Viewer

section Concerns

variable {start : ChatStore} {action : ChatAction} {writes : List Write}

theorem legacy_iff : (start.sessions.any fun session => session.id = id && session.userId.isNone) =
    true ↔ HasSession start id none := by
  simp [HasSession, List.any_eq_true]

theorem sees_of_covers {legacy : Bool} (hcovers : legacy = true → viewer.includeLegacy = true) :
    ∀ owner, ownedBy owner viewer.userId legacy = true → viewer.sees owner = true := by
  intro owner howned
  exact ownedBy_iff.mpr ((ownedBy_iff.mp howned).imp_right fun hnone =>
    ⟨hcovers hnone.1, hnone.2⟩)

/-- The writes of an action of the viewer depend on the viewer's part. -/
theorem actionWrites_view (h : Sound store) (hown : action.userId = viewer.userId)
    (hcovers : viewer.Covers action) :
    actionWrites uuidText (viewer.view store) action = actionWrites uuidText store action := by
  have hcovers := hcovers hown
  cases action with
  | request client request draws now =>
    obtain ⟨userId, includeLegacy⟩ := viewer
    obtain rfl : client.userId = userId := hown
    exact congrArg some (requestWrites_view h (sees_of_covers hcovers) request)
  | resume request draws now =>
    obtain ⟨userId, includeLegacy⟩ := viewer
    obtain rfl : request.client.userId = userId := hown
    have hmem : request ∈ (Viewer.view ⟨request.client.userId, includeLegacy⟩ store).requests ↔
        request ∈ store.requests := by simp [Viewer.view]
    simp only [actionWrites, hmem]
    split_ifs with hopen
    · rw [continueWrites_view h (h.requests request hopen) (sees_of_covers hcovers)]
    · rfl
  | write run write now =>
    have hrunOwn : run.userId = viewer.userId := hown
    have hmem : run ∈ (viewer.view store).runs ↔ run ∈ store.runs := by simp [Viewer.view, hrunOwn]
    simp only [actionWrites, hmem]
    split_ifs with hrun
    · have hsees : viewer.sees (some run.userId) = true :=
        ownedBy_iff.mpr (Or.inl (congrArg some hown))
      rw [runWrites_view h hrun hsees]
    · rfl
  | recordAudit run row =>
    have hrunOwn : run.userId = viewer.userId := hown
    have hmem : run ∈ (viewer.view store).runs ↔ run ∈ store.runs := by simp [Viewer.view, hrunOwn]
    simp only [actionWrites, hmem]

/-- So do the writes of a change of a shared session. -/
theorem sharedWrites_view (h : Sound store) (hlegacy : viewer.includeLegacy = true)
    (hchanged : action.changedSession = some id) (hhas : HasSession store id none) :
    actionWrites uuidText (viewer.view store) action = actionWrites uuidText store action := by
  have hnone : viewer.sees none = true := ownedBy_iff.mpr (Or.inr ⟨hlegacy, rfl⟩)
  have hget : ∀ userId legacy, SessionRepository.getForUser (viewer.view store) id userId legacy =
      SessionRepository.getForUser store id userId legacy := by
    intro userId legacy
    refine getForUser_view fun session hmem hmatches => ?_
    simp only [SessionRepository.matchesUser, Bool.and_eq_true, decide_eq_true_eq] at hmatches
    rw [h.sees_session viewer hhas session hmem hmatches.1.1, hnone]
  cases action with
  | request client request draws now =>
    cases request with
    | renameSession sessionId title =>
      obtain rfl : sessionId = id := Option.some.inj hchanged
      simp only [actionWrites, requestWrites, SessionRepository.renameForUser, hget]
    | archiveSession sessionId =>
      obtain rfl : sessionId = id := Option.some.inj hchanged
      simp only [actionWrites, requestWrites, SessionRepository.archiveForUser, hget]
    | _ => cases hchanged
  | _ => cases hchanged

/-- The part of the writes of anybody else that the viewer sees is empty. -/
theorem updates_hidden {view : ChatStore} {updated : Option ChatSession} {userId : Uuid}
    {reply : Answer} (hother : ¬ userId = viewer.userId)
    (hupdated : ∀ session, updated = some session → viewer.sees session.userId = false) :
    ∀ write ∈ updated.toList.map Write.updateSession ++ [.answer userId reply],
      viewer.shows view write = false := by
  cases updated with
  | none => simpa [Viewer.shows] using hother
  | some session => simpa [Viewer.shows, hother] using hupdated session rfl

theorem sees_some_of_ne {userId : Uuid} (hother : ¬ userId = viewer.userId) :
    viewer.sees (some userId) = false := by
  simp [Viewer.sees, ownedBy, hother]

theorem renamed_owner {session : ChatSession} {legacy : Bool} {userId : Uuid} {title : String}
    (h : SessionRepository.renameForUser store sessionId userId legacy title now = some session) :
    HasSession store sessionId session.userId ∧ ownedBy session.userId userId legacy = true := by
  obtain ⟨found, hget, rfl⟩ := Option.map_eq_some_iff.mp h
  obtain ⟨hmem, hid, howned, -⟩ := getForUser_eq_some hget
  exact ⟨⟨found, hmem, hid, rfl⟩, howned⟩

theorem archived_owner {session : ChatSession} {legacy : Bool} {userId : Uuid}
    (h : SessionRepository.archiveForUser store sessionId userId legacy now = some session) :
    HasSession store sessionId session.userId ∧ ownedBy session.userId userId legacy = true := by
  obtain ⟨found, hget, rfl⟩ := Option.map_eq_some_iff.mp h
  obtain ⟨hmem, hid, howned, -⟩ := getForUser_eq_some hget
  exact ⟨⟨found, hmem, hid, rfl⟩, howned⟩

/-- The writes of a request that does not concern the viewer. -/
theorem requestWrites_hidden (h : Sound store) (hother : ¬ client.userId = viewer.userId)
    (request : ChatRequest)
    (hshared : ∀ id, (ChatAction.request client request draws now).changedSession = some id →
      HasSession store id none → viewer.includeLegacy = false) :
    ∀ write ∈ requestWrites uuidText store client draws now request,
      viewer.shows (viewer.view store) write = false := by
  have hsome := sees_some_of_ne hother
  have hanswer : ∀ reply, ∀ write ∈ [Write.answer client.userId reply],
      viewer.shows (viewer.view store) write = false := by
    intro reply
    simpa [Viewer.shows] using hother
  have hopen : ∀ rest, ∀ write ∈ [Write.openRequest ⟨client, rest⟩],
      viewer.shows (viewer.view store) write = false := by
    intro rest
    simpa [Viewer.shows] using hother
  have howner : ∀ id owner, (ChatAction.request client request draws now).changedSession = some id →
      HasSession store id owner ∧ ownedBy owner client.userId (includeLegacy client) = true →
        viewer.sees owner = false := by
    rintro id owner hid ⟨hhas, howned⟩
    rcases ownedBy_iff.mp howned with rfl | ⟨-, rfl⟩
    · exact hsome
    · simp [Viewer.sees, ownedBy, hshared id hid hhas]
  cases request with
  | createSession title =>
    rw [requestWrites]
    split_ifs
    · simpa [Viewer.shows, SessionRepository.create, hother] using hsome
    · exact hanswer _
  | listSessions => exact hanswer _
  | getSession sessionId => exact hanswer _
  | renameSession sessionId title =>
    cases hallowed : renameTitleAllowed title with
    | false =>
      simp only [requestWrites, hallowed, Bool.false_eq_true, if_false]
      exact hanswer _
    | true =>
      simp only [requestWrites, hallowed, if_true]
      exact updates_hidden hother fun session hrenamed =>
        howner sessionId session.userId rfl (renamed_owner hrenamed)
  | archiveSession sessionId =>
    exact updates_hidden hother fun session harchived =>
      howner sessionId session.userId rfl (archived_owner harchived)
  | listMessages sessionId =>
    rw [requestWrites]
    split_ifs
    · exact hopen _
    · exact hanswer _
  | createJob session message clientJson =>
    cases session with
    | none =>
      simpa [requestWrites, openJob, Viewer.shows, SessionRepository.create, hother] using hsome
    | some sessionId =>
      rw [requestWrites]
      split
      · exact hopen _
      · exact hanswer _
  | getJob jobId => exact hanswer _
  | auditTimeline jobId =>
    rw [requestWrites]
    split
    · exact hopen _
    · exact hanswer _
  | replayEvents jobId =>
    rw [requestWrites]
    split
    · exact hopen _
    · exact hanswer _
  | respond jobId submission =>
    rw [requestWrites]
    split
    next => exact hanswer _
    next job hget =>
      obtain ⟨hmem, -, howner⟩ := getInternalForUser_eq_some hget
      have hsession := h.jobs job hmem
      have hjob : HasJob store job.id job.sessionId job.userId := ⟨job, hmem, rfl, rfl, rfl⟩
      rw [howner] at hsession hjob
      split_ifs
      · exact hanswer _
      · simp only [respondWrites, List.forall_mem_cons]
        refine ⟨?_, ?_, ?_, hopen _ _ (List.mem_singleton_self _), by simp⟩
        · exact (h.seesSession hsession).trans hsome
        · exact (congrArg viewer.sees howner).trans hsome
        · exact (h.seesJob hjob).trans hsome
      · exact hanswer _

theorem continueWrites_hidden (h : Sound store) (hother : ¬ client.userId = viewer.userId)
    {rest : Continuation} (hrest : rest.Fits store client) :
    ∀ write ∈ continueWrites store client draws now rest,
      viewer.shows (viewer.view store) write = false := by
  have hsome := sees_some_of_ne hother
  have hanswer : ∀ reply, ∀ write ∈ [Write.answer client.userId reply],
      viewer.shows (viewer.view store) write = false := by
    intro reply
    simpa [Viewer.shows] using hother
  cases rest with
  | listMessages sessionId => exact hanswer _
  | auditTimeline jobId => exact hanswer _
  | replayEvents jobId => exact hanswer _
  | createJob sessionId message clientJson =>
    simp only [continueWrites, List.forall_mem_cons]
    refine ⟨hsome, (h.seesSession hrest).trans hsome, ?_⟩
    simpa [Viewer.shows] using hother
  | spawnRun jobId sessionId reply =>
    rw [continueWrites]
    split
    · simpa [Viewer.shows] using hother
    · simp

/-- The writes of an action that does not concern the viewer. -/
theorem actionWrites_hidden (h : Sound store)
    (hlegacy : ∀ id, HasSession store id none → HasSession start id none)
    (hhidden : viewer.concerns start action = false)
    (hwrites : actionWrites uuidText store action = some writes) :
    ∀ write ∈ writes, viewer.shows (viewer.view store) write = false := by
  simp only [Viewer.concerns, Bool.or_eq_false_iff, decide_eq_false_iff_not] at hhidden
  obtain ⟨hother, hnotShared⟩ := hhidden
  cases action with
  | request client request draws now =>
    obtain rfl := Option.some.inj hwrites
    refine requestWrites_hidden h hother request fun id hchanged hhas => ?_
    rw [hchanged, Option.any_some, legacy_iff.mpr (hlegacy id hhas), Bool.and_true] at hnotShared
    exact hnotShared
  | resume request draws now =>
    simp only [actionWrites] at hwrites
    split_ifs at hwrites with hmem
    obtain rfl := Option.some.inj hwrites
    rw [List.forall_mem_cons]
    exact ⟨decide_eq_false hother, continueWrites_hidden h hother (h.requests request hmem)⟩
  | write run write now =>
    simp only [actionWrites] at hwrites
    split_ifs at hwrites with hmem
    obtain rfl := Option.some.inj hwrites
    have hjob := h.runs run hmem
    have hsome := sees_some_of_ne hother
    intro row hrow
    rcases runWrites_cases h hmem hrow with ⟨event, rfl, hid⟩ | ⟨message, rfl, hid⟩ |
      ⟨job, rfl, -, -, howner⟩
    · exact ((congrArg _ hid).trans (h.seesJob hjob)).trans hsome
    · obtain ⟨found, hfound, -, hsession, howner⟩ := hjob
      have hhas := h.jobs found hfound
      rw [hsession, howner] at hhas
      exact ((congrArg _ hid).trans (h.seesSession hhas)).trans hsome
    · exact (congrArg viewer.sees howner).trans hsome
  | recordAudit run row =>
    simp only [actionWrites] at hwrites
    split_ifs at hwrites with hmem
    obtain rfl := Option.some.inj hwrites
    refine List.forall_mem_singleton.mpr ?_
    exact ((congrArg _ hmem.2).trans (h.seesJob (h.runs run hmem.1))).trans (sees_some_of_ne hother)

end Concerns

/-! ### A run and the part of it that concerns the viewer -/

section Runs

variable {start other after : ChatStore} {action : ChatAction} {writes : List Write}

theorem legacy_applyAll (h : Sound store) (hfits : Fitting store writes)
    (happly : applyAll store writes = some after) :
    HasSession after id none ↔ HasSession store id none := by
  induction writes generalizing store with
  | nil =>
    obtain rfl := Option.some.inj happly
    exact Iff.rfl
  | cons write rest ih =>
    rw [applyAll] at happly
    split_ifs at happly with hfresh
    rw [ih (h.apply hfits.1 hfresh) (hfits.2 hfresh) happly]
    exact ⟨hasSession_of_apply hfits.1, fun hhas => hhas.apply h hfits.1⟩

/-- A run and one with fewer actions, from the same start. -/
structure Alike (viewer : Viewer) (start store other : ChatStore) : Prop where
  left : Sound store
  right : Sound other
  view : viewer.view store = viewer.view other
  keys : KeysIn other store
  legacyLeft : ∀ id, HasSession store id none ↔ HasSession start id none
  legacyRight : ∀ id, HasSession other id none ↔ HasSession start id none

/-- An action that concerns the viewer does the same in both. -/
theorem Alike.actionWrites_eq (h : Alike viewer start store other)
    (hcovers : viewer.Covers action) (hconcerns : viewer.concerns start action = true) :
    actionWrites uuidText other action = actionWrites uuidText store action := by
  rw [Viewer.concerns, Bool.or_eq_true, decide_eq_true_eq, Bool.and_eq_true,
    Option.any_eq_true] at hconcerns
  rcases hconcerns with hown | ⟨hlegacy, id, hchanged, hshared⟩
  · rw [← actionWrites_view h.left hown hcovers, ← actionWrites_view h.right hown hcovers, h.view]
  · have hstart := legacy_iff.mp hshared
    rw [← sharedWrites_view h.left hlegacy hchanged ((h.legacyLeft id).mpr hstart),
      ← sharedWrites_view h.right hlegacy hchanged ((h.legacyRight id).mpr hstart), h.view]

theorem unwinding : (chatMachine uuidText).Unwinding viewer.Covers (viewer.concerns start)
    (Alike viewer start) where
  shown_step := by
    intro store other action after h hcovers hconcerns hstep
    obtain ⟨writes, hwrites, happly⟩ := Option.bind_eq_some_iff.mp hstep
    have hsame : actionWrites uuidText other action = some writes :=
      (h.actionWrites_eq hcovers hconcerns).trans hwrites
    obtain ⟨otherAfter, hother, hkeys⟩ := h.keys.applyAll happly
    have hfits := actionWrites_fit h.left hwrites
    have hotherFits := actionWrites_fit h.right hsame
    refine ⟨otherAfter, Option.bind_eq_some_iff.mpr ⟨writes, hsame, hother⟩, ?_⟩
    exact {
      left := h.left.applyAll hfits happly
      right := h.right.applyAll hotherFits hother
      view := view_applyAll h.left h.right hfits hotherFits h.view happly hother
      keys := hkeys
      legacyLeft := fun id => (legacy_applyAll h.left hfits happly).trans (h.legacyLeft id)
      legacyRight := fun id =>
        (legacy_applyAll h.right hotherFits hother).trans (h.legacyRight id) }
  hidden_step := by
    intro store other action after h _ hhidden hstep
    obtain ⟨writes, hwrites, happly⟩ := Option.bind_eq_some_iff.mp hstep
    have hfits := actionWrites_fit h.left hwrites
    have hnone := actionWrites_hidden h.left (fun id => (h.legacyLeft id).mp) hhidden hwrites
    exact { h with
      left := h.left.applyAll hfits happly
      view := (view_applyAll_hidden h.left hfits hnone happly).trans h.view
      keys := h.keys.applyAllRight happly
      legacyLeft := fun id => (legacy_applyAll h.left hfits happly).trans (h.legacyLeft id) }

end Runs

/-- The answers a user has been given. -/
def ChatStore.answersTo (store : ChatStore) (userId : Uuid) : List Answer :=
  (store.answers.filter fun answer => answer.1 = userId).map Prod.snd

end Isolation

/-! Two users with a job each, who both ask for the session and the job of the first one. -/

namespace TwoUsers

def client (userId : Uuid) : PrincipalContext := ⟨userId, "analyst", [], [], false⟩

def store : ChatStore := ⟨[], [], [], [], [], [], [], []⟩

/-- A user creates a job in a new session, and its run answers. -/
def conversation (userId sessionId jobId : Uuid) : List ChatAction :=
  let rest : Continuation := .createJob sessionId "loans" (.obj [])
  let reply : Answer := .created (some ⟨sessionId, jobId, jobId + 1, "queued", "queued"⟩)
  [.request (client userId) (.createJob none "loans" (.obj [])) ⟨sessionId, 0⟩ 1,
    .resume ⟨client userId, rest⟩ ⟨jobId, jobId + 1⟩ 2,
    .resume ⟨client userId, .spawnRun jobId sessionId reply⟩ ⟨0, 0⟩ 3,
    .write ⟨jobId, sessionId, userId⟩
      (.persist (jobId + 2) "12 loans" (.obj []) (.obj []) .completed) 4]

def questions (userId sessionId jobId : Uuid) : List ChatAction :=
  [.request (client userId) (.listMessages sessionId) ⟨0, 0⟩ 5,
    .request (client userId) (.getJob jobId) ⟨0, 0⟩ 5,
    .request (client userId) (.archiveSession sessionId) ⟨0, 0⟩ 6]

def actions : List ChatAction :=
  conversation 1 10 100 ++ conversation 2 20 200 ++ questions 2 10 100 ++ questions 1 10 100

theorem sound_store : Sound store where
  sessionIds := List.nodup_nil
  jobIds := List.nodup_nil
  jobs := by simp [store]
  messages := by simp [store]
  events := by simp [store]
  auditEvents := by simp [store]
  requests := by simp [store]
  runs := by simp [store]

end TwoUsers

end FineractReports.Conversation
