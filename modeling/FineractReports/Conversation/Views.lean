import FineractReports.Conversation.Store

/-!
# Whose rows a store holds

A store is consistent when its rows refer to rows that exist and every job has the owner of its
session. Of a consistent store each user has a part, and a write changes that part as if it were
a store of its own, or not at all.
-/

namespace FineractReports.Conversation

open Audit Job Workflow

/-! ### Consistent stores -/

section Rows

variable (store : ChatStore)

def HasSession (id : Uuid) (owner : Option Uuid) : Prop :=
  ∃ session ∈ store.sessions, session.id = id ∧ session.userId = owner

def HasJob (id sessionId : Uuid) (owner : Option Uuid) : Prop :=
  ∃ job ∈ store.jobs, job.id = id ∧ job.sessionId = sessionId ∧ job.userId = owner

/-- What the first statement of a request found. -/
def Continuation.Fits (client : PrincipalContext) : Continuation → Prop
  | .listMessages sessionId =>
    ∃ owner, ownedBy owner client.userId (includeLegacy client) = true ∧
      HasSession store sessionId owner
  | .auditTimeline jobId => ∃ sessionId owner,
      ownedBy owner client.userId (includeLegacy client) = true ∧ HasJob store jobId sessionId owner
  | .replayEvents jobId => ∃ sessionId owner,
      ownedBy owner client.userId (includeLegacy client) = true ∧ HasJob store jobId sessionId owner
  | .createJob sessionId _ _ => HasSession store sessionId (some client.userId)
  | .spawnRun jobId sessionId _ => HasJob store jobId sessionId (some client.userId)

/-- Rows refer to rows that exist, and a job has the owner of its session. -/
structure Sound : Prop where
  sessionIds : (store.sessions.map ChatSession.id).Nodup
  jobIds : (store.jobs.map ChatJob.id).Nodup
  jobs : ∀ job ∈ store.jobs, HasSession store job.sessionId job.userId
  messages : ∀ message ∈ store.messages, ∃ owner, HasSession store message.sessionId owner
  events : ∀ event ∈ store.events, ∃ sessionId owner, HasJob store event.jobId sessionId owner
  auditEvents : ∀ row ∈ store.auditEvents,
    ∃ sessionId owner, HasJob store row.event.jobId sessionId owner
  requests : ∀ request ∈ store.requests, request.rest.Fits store request.client
  runs : ∀ run ∈ store.runs, HasJob store run.jobId run.sessionId (some run.userId)

/-- A write that keeps a store consistent. -/
def Write.Fits : Write → Prop
  | insertSession session => session.userId ≠ none
  | updateSession session => HasSession store session.id session.userId
  | insertJob job => HasSession store job.sessionId job.userId
  | updateJob job => HasJob store job.id job.sessionId job.userId
  | insertMessage message => ∃ owner, HasSession store message.sessionId owner
  | insertEvent event => ∃ sessionId owner, HasJob store event.jobId sessionId owner
  | insertAudit row => ∃ sessionId owner, HasJob store row.event.jobId sessionId owner
  | openRequest request => request.rest.Fits store request.client
  | closeRequest _ => True
  | spawnRun run => HasJob store run.jobId run.sessionId (some run.userId)
  | answer _ _ => True

end Rows

section Consistency

variable {store : ChatStore} {write : Write} {writes : List Write} {id sessionId : Uuid}
  {owner : Option Uuid}

theorem Sound.session_eq (h : Sound store) {a b : ChatSession} (ha : a ∈ store.sessions)
    (hb : b ∈ store.sessions) (hid : a.id = b.id) : a = b :=
  List.inj_on_of_nodup_map h.sessionIds ha hb hid

theorem Sound.job_eq (h : Sound store) {a b : ChatJob} (ha : a ∈ store.jobs)
    (hb : b ∈ store.jobs) (hid : a.id = b.id) : a = b :=
  List.inj_on_of_nodup_map h.jobIds ha hb hid

/-- The owner of a session is read off any of its rows. -/
theorem Sound.owner_eq (h : Sound store) (hhas : HasSession store id owner) {session : ChatSession}
    (hmem : session ∈ store.sessions) (hid : session.id = id) : session.userId = owner := by
  obtain ⟨found, hfound, hsame, rfl⟩ := hhas
  rw [h.session_eq hmem hfound (hid.trans hsame.symm)]

theorem Sound.jobOwner_eq (h : Sound store) (hhas : HasJob store id sessionId owner) {job : ChatJob}
    (hmem : job ∈ store.jobs) (hid : job.id = id) :
    job.sessionId = sessionId ∧ job.userId = owner := by
  obtain ⟨found, hfound, hsame, rfl, rfl⟩ := hhas
  rw [h.job_eq hmem hfound (hid.trans hsame.symm)]
  exact ⟨rfl, rfl⟩

/-- Sessions stay, with their owners. -/
theorem HasSession.apply (h : Sound store) (hfits : write.Fits store)
    (hhas : HasSession store id owner) : HasSession (write.apply store) id owner := by
  obtain ⟨found, hfound, hid, howner⟩ := hhas
  cases write with
  | insertSession session => exact ⟨found, List.mem_append_left _ hfound, hid, howner⟩
  | updateSession session =>
    by_cases hsame : found.id = session.id
    · refine ⟨session, mem_replaceRow_self hfound hsame, hsame.symm.trans hid, ?_⟩
      exact (h.owner_eq hfits hfound hsame).symm.trans howner
    · exact ⟨found, mem_replaceRow_of_ne hfound hsame, hid, howner⟩
  | _ => exact ⟨found, hfound, hid, howner⟩

/-- No session without an owner is added. -/
theorem hasSession_of_apply (hfits : write.Fits store)
    (hhas : HasSession (write.apply store) id none) : HasSession store id none := by
  obtain ⟨found, hfound, hid, howner⟩ := hhas
  cases write with
  | insertSession session =>
    rcases List.mem_append.mp hfound with hold | hnew
    · exact ⟨found, hold, hid, howner⟩
    · obtain rfl := List.mem_singleton.mp hnew
      exact absurd howner hfits
  | updateSession session =>
    rcases mem_replaceRow hfound with rfl | ⟨hold, -⟩
    · have hstored : HasSession store found.id found.userId := hfits
      rwa [hid, howner] at hstored
    · exact ⟨found, hold, hid, howner⟩
  | _ => exact ⟨found, hfound, hid, howner⟩

theorem HasJob.apply (h : Sound store) (hfits : write.Fits store)
    (hhas : HasJob store id sessionId owner) : HasJob (write.apply store) id sessionId owner := by
  obtain ⟨found, hfound, hid, hsession, howner⟩ := hhas
  cases write with
  | insertJob job => exact ⟨found, List.mem_append_left _ hfound, hid, hsession, howner⟩
  | updateJob job =>
    by_cases hsame : found.id = job.id
    · obtain ⟨hjobSession, hjobOwner⟩ := h.jobOwner_eq hfits hfound hsame
      exact ⟨job, mem_replaceRow_self hfound hsame, hsame.symm.trans hid,
        hjobSession.symm.trans hsession, hjobOwner.symm.trans howner⟩
    · exact ⟨found, mem_replaceRow_of_ne hfound hsame, hid, hsession, howner⟩
  | _ => exact ⟨found, hfound, hid, hsession, howner⟩

theorem Continuation.Fits.apply {client : PrincipalContext} {rest : Continuation}
    (h : Sound store) (hfits : write.Fits store) (hrest : rest.Fits store client) :
    rest.Fits (write.apply store) client := by
  cases rest with
  | listMessages sessionId =>
    obtain ⟨owner, howned, hhas⟩ := hrest
    exact ⟨owner, howned, hhas.apply h hfits⟩
  | auditTimeline jobId =>
    obtain ⟨sessionId, owner, howned, hhas⟩ := hrest
    exact ⟨sessionId, owner, howned, hhas.apply h hfits⟩
  | replayEvents jobId =>
    obtain ⟨sessionId, owner, howned, hhas⟩ := hrest
    exact ⟨sessionId, owner, howned, hhas.apply h hfits⟩
  | createJob sessionId message clientJson => exact HasSession.apply h hfits hrest
  | spawnRun jobId sessionId reply => exact HasJob.apply h hfits hrest

/-- What fits now fits after another write. -/
theorem Write.Fits.apply {other : Write} (h : Sound store) (hfits : write.Fits store)
    (hother : other.Fits store) : other.Fits (write.apply store) := by
  cases other with
  | insertSession session => exact hother
  | updateSession session => exact HasSession.apply h hfits hother
  | insertJob job => exact HasSession.apply h hfits hother
  | updateJob job => exact HasJob.apply h hfits hother
  | insertMessage message =>
    obtain ⟨owner, hhas⟩ := hother
    exact ⟨owner, hhas.apply h hfits⟩
  | insertEvent event =>
    obtain ⟨sessionId, owner, hhas⟩ := hother
    exact ⟨sessionId, owner, hhas.apply h hfits⟩
  | insertAudit row =>
    obtain ⟨sessionId, owner, hhas⟩ := hother
    exact ⟨sessionId, owner, hhas.apply h hfits⟩
  | openRequest request => exact Continuation.Fits.apply h hfits hother
  | closeRequest request => trivial
  | spawnRun run => exact HasJob.apply h hfits hother
  | answer userId reply => trivial

theorem Sound.apply (h : Sound store) (hfits : write.Fits store)
    (hfresh : write.isFresh store = true) : Sound (write.apply store) where
  sessionIds := by
    cases write with
    | insertSession session =>
      have hnew : session.id ∉ store.sessions.map ChatSession.id := of_decide_eq_true hfresh
      simpa [Write.apply, List.nodup_append] using ⟨h.sessionIds, fun other hmem hid =>
        hnew (List.mem_map.mpr ⟨other, hmem, hid⟩)⟩
    | updateSession session =>
      have hids := h.sessionIds
      rwa [← map_key_replaceRow] at hids
    | _ => exact h.sessionIds
  jobIds := by
    cases write with
    | insertJob job =>
      have hnew : job.id ∉ store.jobs.map ChatJob.id := of_decide_eq_true hfresh
      simpa [Write.apply, List.nodup_append] using ⟨h.jobIds, fun other hmem hid =>
        hnew (List.mem_map.mpr ⟨other, hmem, hid⟩)⟩
    | updateJob job =>
      have hids := h.jobIds
      rwa [← map_key_replaceRow] at hids
    | _ => exact h.jobIds
  jobs := by
    have hkept : ∀ job ∈ store.jobs, HasSession (write.apply store) job.sessionId job.userId :=
      fun job hmem => (h.jobs job hmem).apply h hfits
    cases write with
    | insertJob job =>
      exact List.forall_mem_append.mpr ⟨hkept, List.forall_mem_singleton.mpr
        (HasSession.apply h hfits hfits)⟩
    | updateJob job =>
      intro found hfound
      rcases mem_replaceRow hfound with rfl | ⟨hold, -⟩
      · obtain ⟨old, hold, hid, hsession, howner⟩ := hfits
        have hhas := h.jobs old hold
        rwa [hsession, howner] at hhas
      · exact hkept found hold
    | _ => exact hkept
  messages := by
    have hkept : ∀ message ∈ store.messages,
        ∃ owner, HasSession (write.apply store) message.sessionId owner :=
      fun message hmem => (h.messages message hmem).imp fun _ hhas => hhas.apply h hfits
    cases write with
    | insertMessage message =>
      exact List.forall_mem_append.mpr ⟨hkept, List.forall_mem_singleton.mpr hfits⟩
    | _ => exact hkept
  events := by
    have hkept : ∀ event ∈ store.events,
        ∃ sessionId owner, HasJob (write.apply store) event.jobId sessionId owner := by
      intro event hmem
      obtain ⟨sessionId, owner, hhas⟩ := h.events event hmem
      exact ⟨sessionId, owner, hhas.apply h hfits⟩
    cases write with
    | insertEvent event =>
      exact List.forall_mem_append.mpr ⟨hkept, List.forall_mem_singleton.mpr hfits⟩
    | _ => exact hkept
  auditEvents := by
    have hkept : ∀ row ∈ store.auditEvents,
        ∃ sessionId owner, HasJob (write.apply store) row.event.jobId sessionId owner := by
      intro row hmem
      obtain ⟨sessionId, owner, hhas⟩ := h.auditEvents row hmem
      exact ⟨sessionId, owner, hhas.apply h hfits⟩
    cases write with
    | insertAudit row =>
      exact List.forall_mem_append.mpr ⟨hkept, List.forall_mem_singleton.mpr hfits⟩
    | _ => exact hkept
  requests := by
    have hkept : ∀ request ∈ store.requests,
        request.rest.Fits (write.apply store) request.client :=
      fun request hmem => (h.requests request hmem).apply h hfits
    cases write with
    | openRequest request =>
      exact List.forall_mem_append.mpr ⟨hkept, List.forall_mem_singleton.mpr
        (Continuation.Fits.apply h hfits hfits)⟩
    | closeRequest request => exact fun other hmem => hkept other (List.mem_of_mem_erase hmem)
    | _ => exact hkept
  runs := by
    have hkept : ∀ run ∈ store.runs,
        HasJob (write.apply store) run.jobId run.sessionId (some run.userId) :=
      fun run hmem => (h.runs run hmem).apply h hfits
    cases write with
    | spawnRun run =>
      exact List.forall_mem_append.mpr ⟨hkept, List.forall_mem_singleton.mpr hfits⟩
    | _ => exact hkept

/-- Each write fits where those before it have been applied. -/
def Fitting (store : ChatStore) : List Write → Prop
  | [] => True
  | write :: rest =>
    write.Fits store ∧ (write.isFresh store = true → Fitting (write.apply store) rest)

theorem fitting_of_forall (h : Sound store) (hfits : ∀ write ∈ writes, write.Fits store) :
    Fitting store writes := by
  induction writes generalizing store with
  | nil => trivial
  | cons write rest ih =>
    have hfirst := hfits write List.mem_cons_self
    refine ⟨hfirst, fun hfresh => ih (h.apply hfirst hfresh) fun other hmem => ?_⟩
    exact Write.Fits.apply h hfirst (hfits other (List.mem_cons_of_mem _ hmem))

theorem Sound.applyAll {after : ChatStore} (h : Sound store) (hfits : Fitting store writes)
    (happly : applyAll store writes = some after) : Sound after := by
  induction writes generalizing store with
  | nil =>
    obtain rfl := Option.some.inj happly
    exact h
  | cons write rest ih =>
    rw [Conversation.applyAll] at happly
    split_ifs at happly with hfresh
    exact ih (h.apply hfits.1 hfresh) (hfits.2 hfresh) happly

end Consistency

/-! ### What a user can come to see -/

/-- A user; `includeLegacy` for one who asks as an administrator. -/
structure Viewer where
  userId : Uuid
  includeLegacy : Bool

namespace Viewer

variable (viewer : Viewer) (store : ChatStore)

def sees (owner : Option Uuid) : Bool := ownedBy owner viewer.userId viewer.includeLegacy

def sessions : List ChatSession := store.sessions.filter fun session => viewer.sees session.userId

def jobs : List ChatJob := store.jobs.filter fun job => viewer.sees job.userId

def seesSession (sessions : List ChatSession) (id : Uuid) : Bool :=
  sessions.any fun session => session.id = id

def seesJob (jobs : List ChatJob) (id : Uuid) : Bool := jobs.any fun job => job.id = id

/-- The part of the store that belongs to the viewer. -/
def view : ChatStore where
  sessions := viewer.sessions store
  jobs := viewer.jobs store
  messages := store.messages.filter fun message =>
    seesSession (viewer.sessions store) message.sessionId
  events := store.events.filter fun event => seesJob (viewer.jobs store) event.jobId
  auditEvents := store.auditEvents.filter fun row => seesJob (viewer.jobs store) row.event.jobId
  requests := store.requests.filter fun request => request.client.userId = viewer.userId
  runs := store.runs.filter fun run => run.userId = viewer.userId
  answers := store.answers.filter fun answer => answer.1 = viewer.userId

/-- A write changes what belongs to the viewer, given the view of the store. -/
def shows (view : ChatStore) : Write → Bool
  | .insertSession session => viewer.sees session.userId
  | .updateSession session => viewer.sees session.userId
  | .insertJob job => viewer.sees job.userId
  | .updateJob job => viewer.sees job.userId
  | .insertMessage message => seesSession view.sessions message.sessionId
  | .insertEvent event => seesJob view.jobs event.jobId
  | .insertAudit row => seesJob view.jobs row.event.jobId
  | .openRequest request => request.client.userId = viewer.userId
  | .closeRequest request => request.client.userId = viewer.userId
  | .spawnRun run => run.userId = viewer.userId
  | .answer userId _ => userId = viewer.userId

end Viewer

section Views

variable {viewer : Viewer} {store after : ChatStore} {write : Write} {writes : List Write}
  {id sessionId : Uuid} {owner : Option Uuid}

theorem Sound.sees_session (h : Sound store) (viewer : Viewer) (hhas : HasSession store id owner) :
    ∀ other ∈ store.sessions, other.id = id → viewer.sees other.userId = viewer.sees owner := by
  intro other hmem hid
  rw [h.owner_eq hhas hmem hid]

theorem Sound.sees_job (h : Sound store) (viewer : Viewer)
    (hhas : HasJob store id sessionId owner) :
    ∀ other ∈ store.jobs, other.id = id → viewer.sees other.userId = viewer.sees owner := by
  intro other hmem hid
  rw [(h.jobOwner_eq hhas hmem hid).2]

theorem Sound.seesSession (h : Sound store) (hhas : HasSession store id owner) :
    Viewer.seesSession (viewer.sessions store) id = viewer.sees owner := by
  rw [Bool.eq_iff_iff, Viewer.seesSession, List.any_eq_true]
  constructor
  · rintro ⟨session, hmem, hid⟩
    obtain ⟨hin, hsees⟩ := List.mem_filter.mp hmem
    rwa [h.owner_eq hhas hin (of_decide_eq_true hid)] at hsees
  · intro hsees
    obtain ⟨session, hmem, hid, rfl⟩ := hhas
    exact ⟨session, List.mem_filter.mpr ⟨hmem, hsees⟩, decide_eq_true hid⟩

theorem Sound.seesJob (h : Sound store) (hhas : HasJob store id sessionId owner) :
    Viewer.seesJob (viewer.jobs store) id = viewer.sees owner := by
  rw [Bool.eq_iff_iff, Viewer.seesJob, List.any_eq_true]
  constructor
  · rintro ⟨job, hmem, hid⟩
    obtain ⟨hin, hsees⟩ := List.mem_filter.mp hmem
    rwa [(h.jobOwner_eq hhas hin (of_decide_eq_true hid)).2] at hsees
  · intro hsees
    obtain ⟨job, hmem, hid, -, rfl⟩ := hhas
    exact ⟨job, List.mem_filter.mpr ⟨hmem, hsees⟩, decide_eq_true hid⟩

/-- A write keeps whose session a row refers to. -/
theorem seesSession_apply (h : Sound store) (hfits : write.Fits store)
    (hfresh : write.isFresh store = true) (hhas : HasSession store id owner) :
    Viewer.seesSession (viewer.sessions (write.apply store)) id =
      Viewer.seesSession (viewer.sessions store) id := by
  rw [(h.apply hfits hfresh).seesSession (hhas.apply h hfits), h.seesSession hhas]

theorem seesJob_apply (h : Sound store) (hfits : write.Fits store)
    (hfresh : write.isFresh store = true) (hhas : HasJob store id sessionId owner) :
    Viewer.seesJob (viewer.jobs (write.apply store)) id =
      Viewer.seesJob (viewer.jobs store) id := by
  rw [(h.apply hfits hfresh).seesJob (hhas.apply h hfits), h.seesJob hhas]

theorem view_messages (viewer : Viewer) (h : Sound store) (hfits : write.Fits store)
    (hfresh : write.isFresh store = true) :
    (store.messages.filter fun message =>
      Viewer.seesSession (viewer.sessions (write.apply store)) message.sessionId) =
        (viewer.view store).messages := by
  refine List.filter_congr fun message hmem => ?_
  obtain ⟨owner, hhas⟩ := h.messages message hmem
  exact seesSession_apply h hfits hfresh hhas

theorem view_events (viewer : Viewer) (h : Sound store) (hfits : write.Fits store)
    (hfresh : write.isFresh store = true) :
    (store.events.filter fun event =>
      Viewer.seesJob (viewer.jobs (write.apply store)) event.jobId) =
        (viewer.view store).events := by
  refine List.filter_congr fun event hmem => ?_
  obtain ⟨sessionId, owner, hhas⟩ := h.events event hmem
  exact seesJob_apply h hfits hfresh hhas

theorem view_auditEvents (viewer : Viewer) (h : Sound store) (hfits : write.Fits store)
    (hfresh : write.isFresh store = true) :
    (store.auditEvents.filter fun row =>
      Viewer.seesJob (viewer.jobs (write.apply store)) row.event.jobId) =
        (viewer.view store).auditEvents := by
  refine List.filter_congr fun row hmem => ?_
  obtain ⟨sessionId, owner, hhas⟩ := h.auditEvents row hmem
  exact seesJob_apply h hfits hfresh hhas

theorem filter_append_of_neg {α : Type*} {p : α → Bool} {a : α} {rows : List α}
    (h : p a = false) : (rows ++ [a]).filter p = rows.filter p := by
  simp [List.filter_append, h]

theorem filter_append_of_pos {α : Type*} {p : α → Bool} {a : α} {rows : List α}
    (h : p a = true) : (rows ++ [a]).filter p = rows.filter p ++ [a] := by
  simp [List.filter_append, h]

/-- A write of somebody else leaves the viewer's part as it was. -/
theorem view_apply_hidden (h : Sound store) (hfits : write.Fits store)
    (hfresh : write.isFresh store = true)
    (hshows : viewer.shows (viewer.view store) write = false) :
    viewer.view (write.apply store) = viewer.view store := by
  have hmessages := view_messages viewer h hfits hfresh
  have hevents := view_events viewer h hfits hfresh
  have haudit := view_auditEvents viewer h hfits hfresh
  cases write with
  | insertSession session =>
    exact ChatStore.ext (filter_append_of_neg hshows) rfl hmessages rfl rfl rfl rfl rfl
  | updateSession session =>
    have hagree := h.sees_session viewer hfits
    exact ChatStore.ext (filter_replaceRow_hidden hagree hshows) rfl hmessages rfl rfl rfl rfl rfl
  | insertJob job =>
    exact ChatStore.ext rfl (filter_append_of_neg hshows) rfl hevents haudit rfl rfl rfl
  | updateJob job =>
    have hagree := h.sees_job viewer hfits
    exact ChatStore.ext rfl (filter_replaceRow_hidden hagree hshows) rfl hevents haudit rfl rfl rfl
  | insertMessage message =>
    exact ChatStore.ext rfl rfl (filter_append_of_neg hshows) rfl rfl rfl rfl rfl
  | insertEvent event =>
    exact ChatStore.ext rfl rfl rfl (filter_append_of_neg hshows) rfl rfl rfl rfl
  | insertAudit row =>
    exact ChatStore.ext rfl rfl rfl rfl (filter_append_of_neg hshows) rfl rfl rfl
  | openRequest request =>
    exact ChatStore.ext rfl rfl rfl rfl rfl (filter_append_of_neg hshows) rfl rfl
  | closeRequest request =>
    have hother : request ∉ (viewer.view store).requests := by
      intro hmem
      have hmine := (List.mem_filter.mp hmem).2
      rw [show decide (request.client.userId = viewer.userId) = false from hshows] at hmine
      cases hmine
    refine ChatStore.ext rfl rfl rfl rfl rfl ?_ rfl rfl
    exact List.erase_filter.symm.trans (List.erase_of_not_mem hother)
  | spawnRun run =>
    exact ChatStore.ext rfl rfl rfl rfl rfl rfl (filter_append_of_neg hshows) rfl
  | answer userId reply =>
    exact ChatStore.ext rfl rfl rfl rfl rfl rfl rfl (filter_append_of_neg hshows)

/-- Any other write is one of the viewer's part alone. -/
theorem view_apply_shown (h : Sound store) (hfits : write.Fits store)
    (hfresh : write.isFresh store = true)
    (hshows : viewer.shows (viewer.view store) write = true) :
    viewer.view (write.apply store) = write.apply (viewer.view store) := by
  have hmessages := view_messages viewer h hfits hfresh
  have hevents := view_events viewer h hfits hfresh
  have haudit := view_auditEvents viewer h hfits hfresh
  cases write with
  | insertSession session =>
    exact ChatStore.ext (filter_append_of_pos hshows) rfl hmessages rfl rfl rfl rfl rfl
  | updateSession session =>
    have hagree := h.sees_session viewer hfits
    exact ChatStore.ext (filter_replaceRow hagree) rfl hmessages rfl rfl rfl rfl rfl
  | insertJob job =>
    exact ChatStore.ext rfl (filter_append_of_pos hshows) rfl hevents haudit rfl rfl rfl
  | updateJob job =>
    have hagree := h.sees_job viewer hfits
    exact ChatStore.ext rfl (filter_replaceRow hagree) rfl hevents haudit rfl rfl rfl
  | insertMessage message =>
    exact ChatStore.ext rfl rfl (filter_append_of_pos hshows) rfl rfl rfl rfl rfl
  | insertEvent event =>
    exact ChatStore.ext rfl rfl rfl (filter_append_of_pos hshows) rfl rfl rfl rfl
  | insertAudit row =>
    exact ChatStore.ext rfl rfl rfl rfl (filter_append_of_pos hshows) rfl rfl rfl
  | openRequest request =>
    exact ChatStore.ext rfl rfl rfl rfl rfl (filter_append_of_pos hshows) rfl rfl
  | closeRequest request => exact ChatStore.ext rfl rfl rfl rfl rfl List.erase_filter.symm rfl rfl
  | spawnRun run =>
    exact ChatStore.ext rfl rfl rfl rfl rfl rfl (filter_append_of_pos hshows) rfl
  | answer userId reply =>
    exact ChatStore.ext rfl rfl rfl rfl rfl rfl rfl (filter_append_of_pos hshows)

/-- After writes of somebody else. -/
theorem view_applyAll_hidden (h : Sound store) (hfits : Fitting store writes)
    (hhidden : ∀ write ∈ writes, viewer.shows (viewer.view store) write = false)
    (happly : applyAll store writes = some after) : viewer.view after = viewer.view store := by
  induction writes generalizing store with
  | nil =>
    obtain rfl := Option.some.inj happly
    rfl
  | cons write rest ih =>
    rw [applyAll] at happly
    split_ifs at happly with hfresh
    have hsame := view_apply_hidden h hfits.1 hfresh (hhidden write List.mem_cons_self)
    rw [ih (h.apply hfits.1 hfresh) (hfits.2 hfresh) _ happly, hsame]
    rw [hsame]
    exact fun other hmem => hhidden other (List.mem_cons_of_mem _ hmem)

/-- Writes leave equal views equal. -/
theorem view_applyAll {other otherAfter : ChatStore} (h : Sound store) (hother : Sound other)
    (hfits : Fitting store writes) (hotherFits : Fitting other writes)
    (hview : viewer.view store = viewer.view other) (happly : applyAll store writes = some after)
    (hotherApply : applyAll other writes = some otherAfter) :
    viewer.view after = viewer.view otherAfter := by
  induction writes generalizing store other with
  | nil =>
    obtain rfl := Option.some.inj happly
    obtain rfl := Option.some.inj hotherApply
    exact hview
  | cons write rest ih =>
    rw [applyAll] at happly hotherApply
    split_ifs at happly with hfresh
    split_ifs at hotherApply with hotherFresh
    refine ih (h.apply hfits.1 hfresh) (hother.apply hotherFits.1 hotherFresh) (hfits.2 hfresh)
      (hotherFits.2 hotherFresh) ?_ happly hotherApply
    cases hshows : viewer.shows (viewer.view store) write with
    | false =>
      rw [view_apply_hidden h hfits.1 hfresh hshows,
        view_apply_hidden hother hotherFits.1 hotherFresh (hview ▸ hshows), hview]
    | true =>
      rw [view_apply_shown h hfits.1 hfresh hshows,
        view_apply_shown hother hotherFits.1 hotherFresh (hview ▸ hshows), hview]

end Views

section Keys

variable {store other after : ChatStore} {write : Write} {writes : List Write}

/-- Every key of the one store is taken in the other as well. -/
def KeysIn (store other : ChatStore) : Prop := ∀ table, store.ids table ⊆ other.ids table

theorem ids_apply (table : ChatTable) : (write.apply store).ids table =
    store.ids table ++ ((write.newKey.filter fun key => key.1 = table).map Prod.snd).toList := by
  cases write <;> cases table <;>
    simp [Write.apply, ChatStore.ids, Write.newKey, Option.filter_some]

theorem KeysIn.isFresh (h : KeysIn store other) (hfresh : write.isFresh other = true) :
    write.isFresh store = true := by
  unfold Write.isFresh at hfresh ⊢
  cases hkey : write.newKey with
  | none => rfl
  | some key =>
    rw [hkey] at hfresh
    exact decide_eq_true fun hmem => of_decide_eq_true hfresh (h key.1 hmem)

theorem KeysIn.apply (h : KeysIn store other) : KeysIn (write.apply store) (write.apply other) := by
  intro table
  rw [ids_apply, ids_apply]
  exact List.append_subset.mpr ⟨List.Subset.trans (h table) (List.subset_append_left _ _),
    List.subset_append_right _ _⟩

theorem KeysIn.applyRight (h : KeysIn store other) : KeysIn store (write.apply other) := by
  intro table
  rw [ids_apply]
  exact List.Subset.trans (h table) (List.subset_append_left _ _)

theorem KeysIn.applyAllRight (h : KeysIn store other)
    (happly : applyAll other writes = some after) : KeysIn store after := by
  induction writes generalizing other with
  | nil =>
    obtain rfl := Option.some.inj happly
    exact h
  | cons write rest ih =>
    rw [applyAll] at happly
    split_ifs at happly with hfresh
    exact ih h.applyRight happly

/-- Where fewer keys are taken the same writes can be applied. -/
theorem KeysIn.applyAll (h : KeysIn store other) (happly : applyAll other writes = some after) :
    ∃ fewer, Conversation.applyAll store writes = some fewer ∧ KeysIn fewer after := by
  induction writes generalizing store other with
  | nil =>
    obtain rfl := Option.some.inj happly
    exact ⟨store, rfl, h⟩
  | cons write rest ih =>
    rw [Conversation.applyAll] at happly
    split_ifs at happly with hfresh
    rw [Conversation.applyAll, if_pos (h.isFresh hfresh)]
    exact ih h.apply happly

end Keys

end FineractReports.Conversation
