import FineractReports.Conversation.Store
import FineractReports.Library.GroupedSums
import FineractReports.Management.KnowledgeInventory
import FineractReports.Management.Outbox

/-!
# The activity of the dashboard

The dashboard counts the jobs of a range of time twice: once for the whole range, and once for
each day that the range touches. The days of the second count are those of the first taken apart,
except that a job which was blocked more than once stands on one day only.
-/

namespace FineractReports.Management

open Conversation Workflow

/-- The rows that the dashboard counts: an event belongs to a job of the table or to none. -/
structure ActivityTables where
  jobs : List ChatJob
  events : List EventRow
  jobs_nodup : (jobs.map ChatJob.id).Nodup
  events_job : ∀ event ∈ events, ∀ id ∈ event.jobId, ∃ job ∈ jobs, job.id = id

structure DashboardJobSummary where
  created : ℕ
  completed : ℕ
  failed : ℕ
  blocked : ℕ
  awaitingClarification : ℕ
  active : ℕ
deriving DecidableEq

structure DashboardDailyActivity where
  date : String
  created : ℕ
  completed : ℕ
  failed : ℕ
  blocked : ℕ
deriving DecidableEq

/-- A time from one moment up to another; a missing time is in no range. -/
def within (since upTo : ℤ) (time : Option ℤ) : Bool :=
  time.any fun time => since ≤ time ∧ time < upTo

/-! ### The whole range -/

/-- The jobs with a blocked event in the range, each counted once. -/
def blockedJobs (events : List EventRow) (since upTo : ℤ) : List Uuid :=
  ((events.filter fun event => event.outcome = "blocked" ∧
    within since upTo (some event.occurredAt)).filterMap EventRow.jobId).dedup

/-- `blocked` is what the second query came to; its failure counts as none. -/
def jobSummary (tables : ActivityTables) (blocked : Except String ℕ) (since upTo : ℤ) :
    DashboardJobSummary where
  created := tables.jobs.countP fun job => within since upTo (some job.createdAt)
  completed := tables.jobs.countP fun job => within since upTo job.completedAt
  failed := tables.jobs.countP fun job => within since upTo job.failedAt
  blocked := blocked.toOption.getD 0
  awaitingClarification := tables.jobs.countP fun job => job.status = .waitingForUserInput
  active := tables.jobs.countP fun job => job.status ∈ [JobStatus.queued, .running]

/-! ### The days -/

/-- A day in microseconds. -/
def DAY : ℤ := 86400000000

/-- The start of the day of a moment, in UTC. -/
def dayStart (time : ℤ) : ℤ := time - time % DAY

/-- The days from that of the first moment to that of the last. -/
def days (since upTo : ℤ) : List ℤ :=
  let first := dayStart since
  let last := dayStart (upTo - 1)
  (List.range ((last - first) / DAY + 1).toNat).map fun (i : ℕ) => first + i * DAY

/-- One row for each job: the database is free to choose it, and keeps to its choice. -/
structure DistinctOn where
  choose : List EventRow → Option EventRow
  choose_mem : ∀ rows, ∀ event ∈ choose rows, event ∈ rows
  choose_isSome : ∀ rows, rows ≠ [] → (choose rows).isSome

/-- The blocked event that stands for a job. -/
def blockedEvent (distinct : DistinctOn) (events : List EventRow) (jobId : Uuid) :
    Option EventRow :=
  distinct.choose (events.filter fun event => event.outcome = "blocked" ∧ event.jobId = some jobId)

/-- `dateText` writes the date of a day. -/
def dailyActivity (distinct : DistinctOn) (dateText : ℤ → String) (tables : ActivityTables)
    (since upTo : ℤ) : List DashboardDailyActivity :=
  (days since upTo).map fun d =>
    { date := dateText d
      created := tables.jobs.countP fun job =>
        within d (d + DAY) (some job.createdAt) && within since upTo (some job.createdAt)
      completed := tables.jobs.countP fun job =>
        within d (d + DAY) job.completedAt && within since upTo job.completedAt
      failed := tables.jobs.countP fun job =>
        within d (d + DAY) job.failedAt && within since upTo job.failedAt
      blocked := tables.jobs.countP fun job =>
        let occurredAt := (blockedEvent distinct tables.events job.id).map EventRow.occurredAt
        within d (d + DAY) occurredAt && within since upTo occurredAt }

/-! ### Each moment has one day -/

section Days

variable {since upTo time d : ℤ}

theorem dayStart_mono {other : ℤ} (h : time ≤ other) : dayStart time ≤ dayStart other := by
  simp only [dayStart, DAY]
  omega

theorem dayStart_dvd : DAY ∣ dayStart time := Int.dvd_self_sub_emod

/-- A moment stands within a day exactly when the day is its own. -/
theorem dayStart_eq_iff (h : DAY ∣ d) : dayStart time = d ↔ d ≤ time ∧ time < d + DAY := by
  obtain ⟨n, rfl⟩ := h
  simp only [dayStart, DAY]
  omega

theorem mem_days : d ∈ days since upTo ↔
    DAY ∣ d ∧ dayStart since ≤ d ∧ d ≤ dayStart (upTo - 1) := by
  obtain ⟨first, hfirst⟩ : DAY ∣ dayStart since := dayStart_dvd
  obtain ⟨last, hlast⟩ : DAY ∣ dayStart (upTo - 1) := dayStart_dvd
  rw [days, List.mem_map]
  simp only [List.mem_range, hfirst, hlast, DAY]
  constructor
  · rintro ⟨i, hi, rfl⟩
    exact ⟨⟨first + i, by omega⟩, by omega, by omega⟩
  · rintro ⟨⟨n, rfl⟩, hle, hge⟩
    exact ⟨(n - first).toNat, by omega, by omega⟩

theorem days_nodup : (days since upTo).Nodup := by
  refine List.nodup_range.map fun i j hij => ?_
  simp only [DAY] at hij
  omega

/-- A moment of the range stands on one of its days. -/
theorem dayStart_mem_days (hsince : since ≤ time) (hupTo : time < upTo) :
    dayStart time ∈ days since upTo :=
  mem_days.mpr ⟨dayStart_dvd, dayStart_mono hsince, dayStart_mono (by omega)⟩

/-- The items of a range, counted day by day, are the items of the range. -/
theorem count_days {α : Type*} (time : α → Option ℤ) (items : List α) :
    ((days since upTo).map fun d => items.countP fun a =>
      within d (d + DAY) (time a) && within since upTo (time a)).sum =
      items.countP fun a => within since upTo (time a) := by
  let inRange := items.filter fun a => within since upTo (time a)
  have hday : ∀ a ∈ inRange, ∃ t, time a = some t ∧ since ≤ t ∧ t < upTo := by
    intro a ha
    have hrange : within since upTo (time a) = true := (List.mem_filter.mp ha).2
    cases htime : time a with
    | none =>
      rw [htime] at hrange
      cases hrange
    | some t =>
      rw [htime] at hrange
      exact ⟨t, rfl, by simpa [within] using hrange⟩
  have hcover : ∀ a ∈ inRange, dayStart ((time a).getD 0) ∈ days since upTo := by
    intro a ha
    obtain ⟨t, ht, hsince, hupTo⟩ := hday a ha
    rw [ht]
    exact dayStart_mem_days hsince hupTo
  have hgroup : ∀ d ∈ days since upTo, items.countP (fun a =>
      within d (d + DAY) (time a) && within since upTo (time a)) =
      (group (fun a => dayStart ((time a).getD 0)) inRange d).length := by
    intro d hd
    rw [group, ← List.countP_eq_length_filter, List.countP_filter]
    refine List.countP_congr fun a _ => ?_
    cases htime : time a with
    | none => simp [within]
    | some t => simp [within, dayStart_eq_iff (mem_days.mp hd).1]
  rw [List.map_congr_left hgroup, List.countP_eq_length_filter, sum_eq_total]
  simp only [length_eq_total]
  exact total_groups (fun _ => 1) days_nodup hcover

end Days

/-! ### The blocked jobs -/

section Blocked

variable {distinct : DistinctOn} {events : List EventRow} {since upTo : ℤ} {id : Uuid}

theorem mem_blockedJobs : id ∈ blockedJobs events since upTo ↔
    ∃ event ∈ events, event.outcome = "blocked" ∧
      within since upTo (some event.occurredAt) = true ∧ event.jobId = some id := by
  simp [blockedJobs, and_assoc]

/-- The event that stands for a job is one of its blocked events. -/
theorem blockedEvent_mem {event : EventRow} (h : blockedEvent distinct events id = some event) :
    event ∈ events ∧ event.outcome = "blocked" ∧ event.jobId = some id := by
  simpa using List.mem_filter.mp (distinct.choose_mem _ event h)

theorem exists_blockedEvent {event : EventRow} (hmem : event ∈ events)
    (hblocked : event.outcome = "blocked") (hjob : event.jobId = some id) :
    ∃ chosen, blockedEvent distinct events id = some chosen :=
  Option.isSome_iff_exists.mp <| distinct.choose_isSome _ <|
    List.ne_nil_of_mem (List.mem_filter.mpr ⟨hmem, by simp [hblocked, hjob]⟩)

/-- The jobs whose event stands in the range. -/
def shownBlocked (distinct : DistinctOn) (tables : ActivityTables) (since upTo : ℤ) : List Uuid :=
  (tables.jobs.filter fun job => within since upTo
    ((blockedEvent distinct tables.events job.id).map EventRow.occurredAt)).map ChatJob.id

variable {tables : ActivityTables}

theorem mem_shownBlocked : id ∈ shownBlocked distinct tables since upTo ↔
    (∃ job ∈ tables.jobs, job.id = id) ∧ ∃ event,
      blockedEvent distinct tables.events id = some event ∧
        within since upTo (some event.occurredAt) = true := by
  rw [shownBlocked, List.mem_map]
  constructor
  · rintro ⟨job, hjob, rfl⟩
    obtain ⟨hmem, hrange⟩ := List.mem_filter.mp hjob
    refine ⟨⟨job, hmem, rfl⟩, ?_⟩
    cases hevent : blockedEvent distinct tables.events job.id with
    | none =>
      rw [hevent] at hrange
      cases hrange
    | some event => exact ⟨event, rfl, by simpa [hevent] using hrange⟩
  · rintro ⟨⟨job, hjob, rfl⟩, event, hevent, hrange⟩
    exact ⟨job, List.mem_filter.mpr ⟨hjob, by simpa [hevent] using hrange⟩, rfl⟩

theorem shownBlocked_nodup : (shownBlocked distinct tables since upTo).Nodup :=
  tables.jobs_nodup.sublist (List.filter_sublist.map _)

theorem shownBlocked_subset :
    shownBlocked distinct tables since upTo ⊆ blockedJobs tables.events since upTo := by
  intro id hid
  obtain ⟨-, event, hevent, hrange⟩ := mem_shownBlocked.mp hid
  obtain ⟨hmem, hblocked, hjob⟩ := blockedEvent_mem hevent
  exact mem_blockedJobs.mpr ⟨event, hmem, hblocked, hrange, hjob⟩

/-- No job has blocked events on both sides of an end of the range. -/
def BlockedTogether (events : List EventRow) (since upTo : ℤ) : Prop :=
  ∀ event ∈ events, ∀ other ∈ events, event.outcome = "blocked" → other.outcome = "blocked" →
    ∀ id, event.jobId = some id → other.jobId = some id →
      within since upTo (some event.occurredAt) = within since upTo (some other.occurredAt)

theorem blockedJobs_subset (h : BlockedTogether tables.events since upTo) :
    blockedJobs tables.events since upTo ⊆ shownBlocked distinct tables since upTo := by
  intro id hid
  obtain ⟨event, hmem, hblocked, hrange, hjob⟩ := mem_blockedJobs.mp hid
  obtain ⟨chosen, hchosen⟩ : ∃ chosen, blockedEvent distinct tables.events id = some chosen :=
    exists_blockedEvent hmem hblocked hjob
  obtain ⟨hchosenMem, hchosenBlocked, hchosenJob⟩ := blockedEvent_mem hchosen
  refine mem_shownBlocked.mpr ⟨tables.events_job event hmem id hjob, chosen, hchosen, ?_⟩
  rw [← h event hmem chosen hchosenMem hblocked hchosenBlocked id hjob hchosenJob, hrange]

end Blocked

structure DashboardKnowledgeSummary where
  total : ℕ
  available : ℕ
  deferred : ℕ
  unavailable : ℕ
  domains : ℕ
deriving DecidableEq

/-- The counts of the first thousand capabilities, or of none when they cannot be listed. -/
def knowledgeSummary (catalog : KnowledgeCatalog) : DashboardKnowledgeSummary :=
  let items := match listKnowledge catalog ⟨none, none, none, none, some 1000⟩ with
    | .ok list => list.items
    | .error _ => []
  { total := items.length
    available := items.countP fun item => item.status = .available
    deferred := items.countP fun item => item.status = .deferred
    unavailable := items.countP fun item => item.status = .unavailable
    domains := (items.map KnowledgeItem.domainId).dedup.length }

theorem countP_status (items : List KnowledgeItem) :
    (items.countP fun item => item.status = .available) +
      (items.countP fun item => item.status = .deferred) +
      (items.countP fun item => item.status = .unavailable) = items.length := by
  induction items with
  | nil => rfl
  | cons item items ih =>
    rw [List.countP_cons, List.countP_cons, List.countP_cons, List.length_cons, ← ih]
    cases hstatus : item.status <;> simp <;> omega

/-- Every capability is counted under one status, as long as there are no more than a thousand. -/
theorem knowledgeSummary_total (catalog : KnowledgeCatalog) :
    (knowledgeSummary catalog).total = min 1000 catalog.capabilities.length ∧
      (knowledgeSummary catalog).available + (knowledgeSummary catalog).deferred +
        (knowledgeSummary catalog).unavailable = (knowledgeSummary catalog).total := by
  constructor
  · have hall : (catalog.capabilities.map inventoryItem).filter
        (fun item => matchesFilter item ⟨none, none, none, none, some 1000⟩) =
        catalog.capabilities.map inventoryItem :=
      List.filter_eq_self.mpr fun item _ => by simp [matchesFilter]
    have hlist : listKnowledge catalog ⟨none, none, none, none, some 1000⟩ =
        .ok ⟨(inventory catalog ⟨none, none, none, none, some 1000⟩).take 1000, _, none⟩ := rfl
    rw [knowledgeSummary, hlist, List.length_take, inventory, sortByKey_perm.length_eq, hall,
      List.length_map]
  · exact countP_status _

end FineractReports.Management
