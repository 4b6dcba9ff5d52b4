import Mathlib.Logic.Equiv.Nat
import FineractReports.Library.Tokens
import FineractReports.Management.Outbox

/-!
# Exactly once

A row that is locked is pending, and no two transactions hold the same row. So an event is
written only for a row that has none, together with the mark that it is published, and a
failure is counted only on a row that is still pending.
-/

namespace FineractReports.Management

section Invariant

variable {formats : Formats} {state after : OutboxSystem} {index : ℕ} {id : Uuid}
  {dispatcher next : Dispatcher} {pass : DispatchPass} {outbox : List OutboxRow}
  {enqueued : List (Uuid × ManagementAuditEvent)}

/-- The row is the one that was enqueued, but for the columns of its delivery. -/
def IsEnqueued (formats : Formats) (entry : Uuid × ManagementAuditEvent) (row : OutboxRow) :
    Prop :=
  row = { enqueue formats 0 entry.1 entry.2 with
    publishedAt := row.publishedAt
    nextAttemptAt := row.nextAttemptAt
    attemptCount := row.attemptCount
    lastErrorCode := row.lastErrorCode }

/-- The event row carries what was enqueued. -/
def Carries (formats : Formats) (entry : Uuid × ManagementAuditEvent) (event : EventRow) : Prop :=
  event = eventRow formats event.id entry.1 entry.2

structure TablesInv (formats : Formats) (state : OutboxSystem) : Prop where
  rows : List.Forall₂ (IsEnqueued formats) state.enqueued state.tables.outbox
  distinct : (state.enqueued.map Prod.fst).Nodup
  once : (state.tables.events.map EventRow.outboxId).Nodup
  published : ∀ row ∈ state.tables.outbox,
    (∃ event ∈ state.tables.events, event.outboxId = row.id) ↔ row.publishedAt ≠ none
  origin : ∀ event ∈ state.tables.events, ∃ entry ∈ state.enqueued, Carries formats entry event
  counted : ∀ row ∈ state.tables.outbox, row.attemptCount = state.failures.count row.id
  known : ∀ id ∈ state.failures, id ∈ state.enqueued.map Prod.fst

/-- A pending row of the table. -/
def IsPending (outbox : List OutboxRow) (id : Uuid) : Prop :=
  ∃ row ∈ outbox, row.id = id ∧ row.publishedAt = none

/-- The event to be committed for the row carries what was enqueued under its id. -/
def WillCarry (formats : Formats) (enqueued : List (Uuid × ManagementAuditEvent)) (id : Uuid)
    (written : Option EventRow) : Prop :=
  ∃ event entry, written = some event ∧ entry ∈ enqueued ∧ entry.1 = id ∧
    Carries formats entry event

/-- What a transaction that is open relies on. -/
def StageOk (formats : Formats) (outbox : List OutboxRow)
    (enqueued : List (Uuid × ManagementAuditEvent)) : DispatchStage → Prop
  | .ready | .began _ | .failed _ _ => True
  | .holding _ id payload => IsPending outbox id ∧
    ∃ entry ∈ enqueued, entry.1 = id ∧ payload = eventToValue formats entry.2
  | .inserted _ id written | .marked _ id written => IsPending outbox id ∧
    WillCarry formats enqueued id written

def DispatcherOk (formats : Formats) (outbox : List OutboxRow)
    (enqueued : List (Uuid × ManagementAuditEvent)) : Dispatcher → Prop
  | .waiting _ => True
  | .running pass => StageOk formats outbox enqueued pass.stage

structure OutboxInv (formats : Formats) (state : OutboxSystem) : Prop where
  tables : TablesInv formats state
  open_ : ∀ dispatcher ∈ state.dispatchers,
    DispatcherOk formats state.tables.outbox state.enqueued dispatcher
  locks : ∀ (i j : ℕ) (first second : Dispatcher) (id : Uuid), state.dispatchers[i]? = some first →
    state.dispatchers[j]? = some second → first.held = some id → second.held = some id → i = j

/-! ### Rows and stages -/

theorem isLocked_iff : state.isLocked id = true ↔
    ∃ dispatcher ∈ state.dispatchers, dispatcher.held = some id := by
  simp [OutboxSystem.isLocked]

/-- A transaction that holds a row keeps what it relies on when its row stays as it is. -/
theorem DispatcherOk.mono {outbox' : List OutboxRow}
    {enqueued' : List (Uuid × ManagementAuditEvent)}
    (h : DispatcherOk formats outbox enqueued dispatcher)
    (hpending : ∀ id, dispatcher.held = some id → IsPending outbox id → IsPending outbox' id)
    (henqueued : enqueued ⊆ enqueued') : DispatcherOk formats outbox' enqueued' dispatcher := by
  cases dispatcher with
  | waiting returned => trivial
  | running pass =>
    obtain ⟨remaining, published, stage⟩ := pass
    cases stage with
    | ready => trivial
    | began startedAt => trivial
    | failed id code => trivial
    | holding startedAt id payload =>
      obtain ⟨hrow, entry, hentry, hpayload⟩ := h
      exact ⟨hpending id rfl hrow, entry, henqueued hentry, hpayload⟩
    | inserted startedAt id written =>
      obtain ⟨hrow, event, entry, hwritten, hentry, hcarries⟩ := h
      exact ⟨hpending id rfl hrow, event, entry, hwritten, henqueued hentry, hcarries⟩
    | marked startedAt id written =>
      obtain ⟨hrow, event, entry, hwritten, hentry, hcarries⟩ := h
      exact ⟨hpending id rfl hrow, event, entry, hwritten, henqueued hentry, hcarries⟩

theorem TablesInv.ids (h : TablesInv formats state) :
    state.tables.outbox.map OutboxRow.id = state.enqueued.map Prod.fst := by
  have hrows := h.rows
  generalize state.tables.outbox = outbox at hrows
  generalize state.enqueued = enqueued at hrows
  induction hrows with
  | nil => rfl
  | cons hrow _ ih => rw [List.map_cons, List.map_cons, ih, hrow]; rfl

/-- The entry a row was enqueued with. -/
theorem TablesInv.exists_entry (h : TablesInv formats state) {row : OutboxRow}
    (hrow : row ∈ state.tables.outbox) :
    ∃ entry ∈ state.enqueued, IsEnqueued formats entry row := by
  have hrows := h.rows
  generalize state.tables.outbox = outbox at hrow hrows
  generalize state.enqueued = enqueued at hrows
  induction hrows with
  | nil => cases hrow
  | cons hhead _ ih =>
    rcases List.mem_cons.mp hrow with rfl | hrest
    · exact ⟨_, List.mem_cons_self, hhead⟩
    · obtain ⟨entry, hentry, hsame⟩ := ih hrest
      exact ⟨entry, List.mem_cons_of_mem _ hentry, hsame⟩

theorem TablesInv.entry_unique (h : TablesInv formats state)
    {entry other : Uuid × ManagementAuditEvent} (hentry : entry ∈ state.enqueued)
    (hother : other ∈ state.enqueued) (hid : entry.1 = other.1) : entry = other :=
  List.inj_on_of_nodup_map h.distinct hentry hother hid

/-- A pending row has no event. -/
theorem TablesInv.no_event (h : TablesInv formats state)
    (hpending : IsPending state.tables.outbox id) :
    ∀ event ∈ state.tables.events, event.outboxId ≠ id := by
  obtain ⟨row, hrow, rfl, hnone⟩ := hpending
  intro event hevent hid
  exact (h.published row hrow).mp ⟨event, hevent, hid⟩ hnone

/-! ### What a step keeps -/

theorem getElem?_setDispatcher {i : ℕ} {other : Dispatcher}
    (h : (state.setDispatcher index next).dispatchers[i]? = some other) :
    (i = index ∧ other = next) ∨ (i ≠ index ∧ state.dispatchers[i]? = some other) := by
  rw [OutboxSystem.setDispatcher, List.getElem?_set] at h
  split_ifs at h with hi hlt
  · exact Or.inl ⟨hi.symm, (Option.some.inj h).symm⟩
  · exact Or.inr ⟨Ne.symm hi, h⟩

/-- A dispatcher moves on without writing: it keeps its row, takes a free one or none. -/
theorem OutboxInv.moved (h : OutboxInv formats state)
    (hat : state.dispatchers[index]? = some dispatcher)
    (hheld : ∀ id, next.held = some id → dispatcher.held = some id ∨ state.isLocked id = false)
    (hok : DispatcherOk formats state.tables.outbox state.enqueued next) :
    OutboxInv formats (state.setDispatcher index next) := by
  have hfree : ∀ id i (other : Dispatcher), next.held = some id →
      state.dispatchers[i]? = some other → other.held = some id → i = index := by
    intro id i other hnext hother hlocked
    rcases hheld id hnext with hsame | hunlocked
    · exact h.locks i index other dispatcher id hother hat hlocked hsame
    · have hmem := List.mem_of_getElem? hother
      rw [isLocked_iff.mpr ⟨other, hmem, hlocked⟩] at hunlocked
      cases hunlocked
  refine ⟨⟨h.tables.rows, h.tables.distinct, h.tables.once, h.tables.published, h.tables.origin,
    h.tables.counted, h.tables.known⟩, ?_, ?_⟩
  · intro other hother
    rcases List.mem_or_eq_of_mem_set hother with hmem | rfl
    · exact h.open_ other hmem
    · exact hok
  · intro i j first second id hfirst hsecond hheldFirst hheldSecond
    rcases getElem?_setDispatcher hfirst with ⟨hi, hnewFirst⟩ | ⟨-, hold⟩
    · rcases getElem?_setDispatcher hsecond with ⟨hj, -⟩ | ⟨-, hold'⟩
      · rw [hi, hj]
      · rw [hi]
        exact (hfree id j second (hnewFirst ▸ hheldFirst) hold' hheldSecond).symm
    · rcases getElem?_setDispatcher hsecond with ⟨hj, hnewSecond⟩ | ⟨-, hold'⟩
      · rw [hj]
        exact hfree id i first (hnewSecond ▸ hheldSecond) hold hheldFirst
      · exact h.locks i j first second id hold hold' hheldFirst hheldSecond

/-- The rows of the outbox may change as long as no row that is locked does. -/
theorem OutboxInv.rewritten (h : OutboxInv formats state) (tables : OutboxTables)
    (failures : List Uuid)
    (htables : TablesInv formats { state with tables := tables, failures := failures })
    (hpending : ∀ dispatcher ∈ state.dispatchers, ∀ id, dispatcher.held = some id →
      IsPending state.tables.outbox id → IsPending tables.outbox id) :
    OutboxInv formats { state with tables := tables, failures := failures } := by
  refine ⟨htables, ?_, h.locks⟩
  intro dispatcher hdispatcher
  exact (h.open_ dispatcher hdispatcher).mono (hpending dispatcher hdispatcher) fun _ hmem => hmem

theorem mem_setRow {tables : OutboxTables} {change : OutboxRow → OutboxRow} {row : OutboxRow} :
    row ∈ (tables.setRow id change).outbox ↔
      ∃ old ∈ tables.outbox, row = if old.id = id then change old else old := by
  simp only [OutboxTables.setRow, List.mem_map]
  constructor
  · rintro ⟨old, hold, rfl⟩
    exact ⟨old, hold, rfl⟩
  · rintro ⟨old, hold, rfl⟩
    exact ⟨old, hold, rfl⟩

/-- A change of the row leaves every other row pending. -/
theorem IsPending.setRow {tables : OutboxTables} {change : OutboxRow → OutboxRow} {other : Uuid}
    (h : IsPending tables.outbox other) (hne : other ≠ id) :
    IsPending (tables.setRow id change).outbox other := by
  obtain ⟨row, hrow, rfl, hnone⟩ := h
  refine ⟨row, mem_setRow.mpr ⟨row, hrow, ?_⟩, rfl, hnone⟩
  rw [if_neg hne]

/-- A change of the delivery of a row leaves the rows as they were enqueued. -/
theorem rows_setRow {tables : OutboxTables} {change : OutboxRow → OutboxRow}
    (hchange : ∀ entry row, IsEnqueued formats entry row → IsEnqueued formats entry (change row))
    (h : List.Forall₂ (IsEnqueued formats) enqueued tables.outbox) :
    List.Forall₂ (IsEnqueued formats) enqueued (tables.setRow id change).outbox := by
  apply List.forall₂_map_right_iff.mpr
  apply h.imp
  intro entry row hrow
  split_ifs
  · exact hchange entry row hrow
  · exact hrow

theorem isEnqueued_markPublished {now : ℤ} (entry : Uuid × ManagementAuditEvent) (row : OutboxRow)
    (h : IsEnqueued formats entry row) : IsEnqueued formats entry (row.markPublished now) := by
  unfold IsEnqueued at h ⊢
  rw [h]
  rfl

theorem isEnqueued_recordFailure {now : ℤ} {code : FailureCode}
    (entry : Uuid × ManagementAuditEvent) (row : OutboxRow) (h : IsEnqueued formats entry row) :
    IsEnqueued formats entry (row.recordFailure now code) := by
  unfold IsEnqueued at h ⊢
  rw [h]
  rfl

/-- The commit of a dispatcher that marked its row: the event and the mark appear at once. -/
theorem OutboxInv.committed {startedAt : ℤ} {written : Option EventRow}
    (h : OutboxInv formats state)
    (hat : state.dispatchers[index]? = some (.running pass))
    (hstage : pass.stage = .marked startedAt id written) (hnext : next.held = none)
    (hok : DispatcherOk formats state.tables.outbox state.enqueued next) :
    OutboxInv formats { state.setDispatcher index next with
      tables := committed state.tables startedAt id written } := by
  have hdispatcher := h.open_ _ (List.mem_of_getElem? hat)
  simp only [DispatcherOk, hstage, StageOk] at hdispatcher
  obtain ⟨hpending, event, entry, rfl, hentry, rfl, hcarries⟩ := hdispatcher
  have hoff : event.outboxId = entry.1 := by rw [hcarries]; rfl
  have hmoved : OutboxInv formats (state.setDispatcher index next) :=
    h.moved hat (fun id hid => by rw [hnext] at hid; cases hid) hok
  have hnew := h.tables.no_event hpending
  have hcount := h.tables.counted
  apply hmoved.rewritten (FineractReports.Management.committed state.tables startedAt entry.1
    (some event)) state.failures
  · refine ⟨rows_setRow isEnqueued_markPublished h.tables.rows, h.tables.distinct, ?_, ?_, ?_, ?_,
      h.tables.known⟩
    · simp only [FineractReports.Management.committed, Option.toList_some, List.map_append,
        List.map_cons, List.map_nil]
      apply List.nodup_append'.mpr
      refine ⟨h.tables.once, List.nodup_singleton _, ?_⟩
      intro outboxId hold hsame
      obtain ⟨old, hmem, rfl⟩ := List.mem_map.mp hold
      exact hnew old hmem ((List.mem_singleton.mp hsame).trans hoff)
    · intro row hrow
      obtain ⟨old, hold, rfl⟩ := mem_setRow.mp hrow
      simp only [FineractReports.Management.committed, Option.toList_some, List.mem_append,
        List.mem_singleton]
      split_ifs with hid
      · simp only [OutboxRow.markPublished, ne_eq, reduceCtorEq, not_false_eq_true, iff_true]
        exact ⟨event, Or.inr rfl, hoff.trans hid.symm⟩
      · rw [← h.tables.published old hold]
        constructor
        · rintro ⟨other, hother | rfl, hsame⟩
          · exact ⟨other, hother, hsame⟩
          · exact absurd (hsame.symm.trans hoff) hid
        · rintro ⟨other, hother, hsame⟩
          exact ⟨other, Or.inl hother, hsame⟩
    · intro other hother
      rcases List.mem_append.mp hother with hold | hmine
      · exact h.tables.origin other hold
      · obtain rfl : other = event := by simpa using hmine
        exact ⟨entry, hentry, hcarries⟩
    · intro row hrow
      obtain ⟨old, hold, rfl⟩ := mem_setRow.mp hrow
      split_ifs
      · exact hcount old hold
      · exact hcount old hold
  · intro other hother id hheld hrow
    apply hrow.setRow
    rintro rfl
    -- The row of the commit is held by nobody else.
    obtain ⟨i, hi⟩ := List.mem_iff_getElem?.mp hother
    rcases getElem?_setDispatcher hi with ⟨-, rfl⟩ | ⟨hne, hi⟩
    · rw [hnext] at hheld
      cases hheld
    · apply hne
      exact h.locks i index other _ entry.1 hi hat hheld (by simp [Dispatcher.held, hstage,
        DispatchStage.held])

/-- A recorded failure counts on a pending row that nobody holds. -/
theorem OutboxInv.recorded {now : ℤ} {code : FailureCode} {row : OutboxRow}
    (h : OutboxInv formats state) (hfree : state.isLocked id = false)
    (hrow : state.tables.row? id = some row) :
    OutboxInv formats { state with
      tables := state.tables.setRow id (OutboxRow.recordFailure now code)
      failures := state.failures ++ [id] } := by
  have hmem : row ∈ state.tables.outbox := List.mem_of_find?_eq_some hrow
  have hid : row.id = id := by simpa using List.find?_some hrow
  apply h.rewritten (state.tables.setRow id (OutboxRow.recordFailure now code))
    (state.failures ++ [id])
  · refine ⟨rows_setRow isEnqueued_recordFailure h.tables.rows, h.tables.distinct, h.tables.once,
      ?_, h.tables.origin, ?_, ?_⟩
    · intro new hnew
      obtain ⟨old, hold, rfl⟩ := mem_setRow.mp hnew
      split_ifs
      · exact h.tables.published old hold
      · exact h.tables.published old hold
    · intro new hnew
      obtain ⟨old, hold, rfl⟩ := mem_setRow.mp hnew
      have hcount := h.tables.counted old hold
      rw [List.count_append]
      split_ifs with hsame
      · simp [OutboxRow.recordFailure, hcount, hsame]
      · simp [hcount, Ne.symm hsame]
    · intro other hother
      rcases List.mem_append.mp hother with hold | hnew
      · exact h.tables.known other hold
      · rw [List.mem_singleton.mp hnew, ← hid, ← h.tables.ids]
        exact List.mem_map_of_mem hmem
  · intro dispatcher hdispatcher other hheld hother
    apply hother.setRow
    rintro rfl
    rw [isLocked_iff.mpr ⟨dispatcher, hdispatcher, hheld⟩] at hfree
    cases hfree

/-- An event is enqueued under a new id. -/
theorem OutboxInv.extended {startedAt : ℤ} {event : ManagementAuditEvent}
    (h : OutboxInv formats state) (hnew : ∀ row ∈ state.tables.outbox, row.id ≠ id) :
    OutboxInv formats { state with
      tables.outbox := state.tables.outbox ++ [enqueue formats startedAt id event]
      enqueued := state.enqueued ++ [(id, event)] } := by
  have hfresh : id ∉ state.enqueued.map Prod.fst := by
    rw [← h.tables.ids]
    intro hmem
    obtain ⟨row, hrow, hid⟩ := List.mem_map.mp hmem
    exact hnew row hrow hid
  have hnone : ∀ event ∈ state.tables.events, event.outboxId ≠ id := by
    intro event hevent hid
    obtain ⟨entry, hentry, hcarries⟩ := h.tables.origin event hevent
    apply hfresh
    rw [← hid, hcarries]
    exact List.mem_map_of_mem hentry
  refine ⟨⟨?_, ?_, h.tables.once, ?_, ?_, ?_, ?_⟩, ?_, h.locks⟩
  · exact List.rel_append h.tables.rows (List.Forall₂.cons rfl .nil)
  · rw [List.map_append]
    apply List.nodup_append'.mpr
    refine ⟨h.tables.distinct, List.nodup_singleton _, ?_⟩
    intro other hother hsame
    obtain rfl : other = id := List.mem_singleton.mp hsame
    exact hfresh hother
  · intro row hrow
    rcases List.mem_append.mp hrow with hold | hmine
    · exact h.tables.published row hold
    · rw [List.mem_singleton.mp hmine]
      simpa [enqueue] using hnone
  · intro event hevent
    obtain ⟨entry, hentry, hcarries⟩ := h.tables.origin event hevent
    exact ⟨entry, List.mem_append_left _ hentry, hcarries⟩
  · intro row hrow
    rcases List.mem_append.mp hrow with hold | hmine
    · exact h.tables.counted row hold
    · rw [List.mem_singleton.mp hmine]
      exact (List.count_eq_zero.mpr fun hmem => hfresh (h.tables.known id hmem)).symm
  · intro other hother
    rw [List.map_append]
    exact List.mem_append_left _ (h.tables.known other hother)
  · intro dispatcher hdispatcher
    apply (h.open_ dispatcher hdispatcher).mono
    · rintro other - ⟨row, hrow, hid⟩
      exact ⟨row, List.mem_append_left _ hrow, hid⟩
    · exact List.subset_append_left _ _

/-- A dispatcher that lets its row go. -/
theorem OutboxInv.released (h : OutboxInv formats state)
    (hat : state.dispatchers[index]? = some dispatcher) (hnext : next.held = none)
    (hok : DispatcherOk formats state.tables.outbox state.enqueued next) :
    OutboxInv formats (state.setDispatcher index next) :=
  h.moved hat (fun id hid => by rw [hnext] at hid; cases hid) hok

theorem nextTurn_held {acknowledged : Bool} {remaining published : ℕ} :
    (nextTurn acknowledged remaining published).held = none := by
  cases acknowledged <;> rfl

theorem nextTurn_ok {acknowledged : Bool} {remaining published : ℕ} :
    DispatcherOk formats outbox enqueued (nextTurn acknowledged remaining published) := by
  cases acknowledged <;> trivial

theorem passStep_keeps {action : DispatchAction} (h : OutboxInv formats state)
    (hat : state.dispatchers[index]? = some (.running pass))
    (hstep : passStep formats state index pass action = some after) :
    OutboxInv formats after := by
  have hpass := h.open_ _ (List.mem_of_getElem? hat)
  obtain ⟨remaining, published, stage⟩ := pass
  have habort : OutboxInv formats (state.setDispatcher index (.waiting none)) :=
    h.released hat rfl trivial
  cases stage with
  | ready =>
    cases action with
    | begin =>
      cases remaining with
      | zero =>
        cases hstep
        exact h.released hat rfl trivial
      | succ remaining =>
        cases hstep
        exact h.released hat rfl trivial
    | abort =>
      cases hstep
      exact habort
    | _ => cases hstep
  | began startedAt =>
    cases action with
    | take id =>
      simp only [passStep, Option.map_eq_some_iff, Option.filter_eq_some_iff] at hstep
      obtain ⟨row, ⟨hfound, hfree⟩, rfl⟩ := hstep
      have hrow := List.mem_of_find?_eq_some hfound
      simp only [OutboxSystem.isFree, decide_eq_true_eq] at hfree
      obtain ⟨hnone, -, hunlocked⟩ := hfree
      apply h.moved hat
      · intro other hother
        cases hother
        exact Or.inr hunlocked
      · obtain ⟨entry, hentry, hsame⟩ := h.tables.exists_entry hrow
        refine ⟨⟨row, hrow, rfl, hnone⟩, entry, hentry, ?_, ?_⟩
        · rw [hsame]
          rfl
        · rw [hsame]
          rfl
    | takeNone =>
      simp only [passStep] at hstep
      split_ifs at hstep
      cases hstep
      exact h.released hat rfl trivial
    | abort =>
      cases hstep
      exact habort
    | _ => cases hstep
  | holding startedAt id payload =>
    obtain ⟨hpending, entry, hentry, rfl, rfl⟩ := hpass
    cases action with
    | insert eventId =>
      simp only [passStep, eventFromValue_toValue, Option.map_some] at hstep
      split_ifs at hstep
      cases hstep
      apply h.moved hat
      · intro other hother
        exact Or.inl hother
      · have hnone : ¬ state.tables.events.any (fun event => event.outboxId = entry.1) = true := by
          simpa using h.tables.no_event hpending
        refine ⟨hpending, eventRow formats eventId entry.1 entry.2, entry, ?_, hentry, rfl, rfl⟩
        rw [insertedEvent, if_neg hnone]
    | fail error =>
      simp only [passStep] at hstep
      split_ifs at hstep
      cases hstep
      exact h.released hat rfl trivial
    | abort =>
      cases hstep
      exact habort
    | _ => cases hstep
  | inserted startedAt id written =>
    cases action with
    | mark =>
      cases hstep
      exact h.moved hat (fun _ => Or.inl) hpass
    | fail error =>
      simp only [passStep] at hstep
      split_ifs at hstep
      cases hstep
      exact h.released hat rfl trivial
    | abort =>
      cases hstep
      exact habort
    | _ => cases hstep
  | marked startedAt id written =>
    cases action with
    | commit acknowledged =>
      cases hstep
      exact h.committed hat rfl nextTurn_held nextTurn_ok
    | abort =>
      cases hstep
      exact habort
    | _ => cases hstep
  | failed id code =>
    cases action with
    | record acknowledged =>
      simp only [passStep] at hstep
      split_ifs at hstep with hlocked
      have hnext : OutboxInv formats
          (state.setDispatcher index (nextTurn acknowledged remaining published)) :=
        h.released hat nextTurn_held nextTurn_ok
      split at hstep
      · rename_i row hrow
        split_ifs at hstep
        · cases hstep
          exact hnext
        · cases hstep
          exact (h.recorded (Bool.eq_false_iff.mpr hlocked) hrow).released hat nextTurn_held
            nextTurn_ok
      · cases hstep
        exact hnext
    | abort =>
      cases hstep
      exact habort
    | _ => cases hstep

theorem outboxStep_keeps {action : OutboxAction} (h : OutboxInv formats state)
    (hstep : outboxStep formats state action = some after) : OutboxInv formats after := by
  cases action with
  | tick elapsed =>
    cases hstep
    exact ⟨⟨h.tables.rows, h.tables.distinct, h.tables.once, h.tables.published, h.tables.origin,
      h.tables.counted, h.tables.known⟩, h.open_, h.locks⟩
  | enqueue id event age =>
    simp only [outboxStep] at hstep
    split_ifs at hstep with hknown
    cases hstep
    apply h.extended
    simpa using hknown
  | dispatch index action =>
    simp only [outboxStep] at hstep
    split at hstep
    · rename_i returned limit hat
      cases hstep
      exact h.released hat rfl trivial
    · rename_i pass hat
      exact passStep_keeps h hat hstep
    · cases hstep

theorem outboxInv_of_reachable (h : (outboxMachine formats).Reachable state) :
    OutboxInv formats state := by
  apply h.invariant
  · rintro start ⟨htables, henqueued, hfailures, hwaiting⟩
    refine ⟨⟨?_, ?_, ?_, ?_, ?_, ?_, ?_⟩, ?_, ?_⟩
    · rw [htables, henqueued]
      exact .nil
    · simp [henqueued]
    · simp [htables]
    · simp [htables]
    · simp [htables]
    · simp [htables]
    · simp [hfailures]
    · intro dispatcher hdispatcher
      rw [hwaiting dispatcher hdispatcher]
      trivial
    · intro i j first second id hfirst _ hheld
      rw [hwaiting first (List.mem_of_getElem? hfirst)] at hheld
      cases hheld
  · intro start action next hinv _ hstep
    exact outboxStep_keeps hinv hstep

/-- What the tables say in a state: nothing enqueued is lost, a row has an event when and only
when it is marked, and only one, and the event is the one that was enqueued. -/
structure ExactlyOnce (formats : Formats) (state : OutboxSystem) : Prop where
  rows : state.tables.outbox.map OutboxRow.id = state.enqueued.map Prod.fst
  distinct : (state.tables.outbox.map OutboxRow.id).Nodup
  origin : ∀ event ∈ state.tables.events, event.outboxId ∈ state.tables.outbox.map OutboxRow.id
  once : (state.tables.events.map EventRow.outboxId).Nodup
  published : ∀ row ∈ state.tables.outbox,
    (∃ event ∈ state.tables.events, event.outboxId = row.id) ↔ row.publishedAt ≠ none
  carried : ∀ event ∈ state.tables.events, ∀ entry ∈ state.enqueued, entry.1 = event.outboxId →
    Carries formats entry event
  columns : ∀ event ∈ state.tables.events, ∀ row ∈ state.tables.outbox, row.id = event.outboxId →
    event.aggregateType = row.aggregateType ∧ event.aggregateId = row.aggregateId ∧
      event.occurredAt = row.occurredAt
  counted : ∀ row ∈ state.tables.outbox, row.attemptCount = state.failures.count row.id

theorem OutboxInv.exactlyOnce (h : OutboxInv formats state) : ExactlyOnce formats state where
  rows := h.tables.ids
  distinct := h.tables.ids ▸ h.tables.distinct
  origin event hevent := by
    obtain ⟨entry, hentry, hcarries⟩ := h.tables.origin event hevent
    rw [h.tables.ids, hcarries]
    exact List.mem_map_of_mem hentry
  once := h.tables.once
  published := h.tables.published
  carried event hevent entry hentry hid := by
    obtain ⟨other, hother, hcarries⟩ := h.tables.origin event hevent
    have hsame : other.1 = event.outboxId := by rw [hcarries]; rfl
    rw [h.tables.entry_unique hentry hother (hid.trans hsame.symm)]
    exact hcarries
  columns event hevent row hrow hid := by
    obtain ⟨entry, hentry, hcarries⟩ := h.tables.origin event hevent
    obtain ⟨other, hother, henqueued⟩ := h.tables.exists_entry hrow
    have hrowId : row.id = other.1 := by rw [henqueued]; rfl
    have heventId : event.outboxId = entry.1 := by rw [hcarries]; rfl
    obtain rfl : entry = other :=
      h.tables.entry_unique hentry hother (heventId.symm.trans (hid.symm.trans hrowId))
    rw [hcarries, henqueued]
    exact ⟨rfl, rfl, rfl⟩
  counted := h.tables.counted

/-- What a transaction holds is pending. -/
theorem OutboxInv.held_pending (h : OutboxInv formats state)
    (hat : state.dispatchers[index]? = some dispatcher) (hheld : dispatcher.held = some id) :
    IsPending state.tables.outbox id := by
  have hok := h.open_ dispatcher (List.mem_of_getElem? hat)
  cases dispatcher with
  | waiting returned => cases hheld
  | running pass =>
    obtain ⟨remaining, published, stage⟩ := pass
    cases stage <;> cases hheld <;> exact hok.1

theorem fail_tables {error : PublishError}
    (h : outboxStep formats state (.dispatch index (.fail error)) = some after) :
    after.tables = state.tables := by
  simp only [outboxStep] at h
  split at h
  · contradiction
  · rename_i pass _
    obtain ⟨remaining, published, stage⟩ := pass
    cases stage <;> simp only [passStep, reduceCtorEq] at h
    all_goals
      split_ifs at h
      cases h
      rfl
  · cases h

/-- In every state any dispatchers reach, whatever fails, the events are delivered exactly
once; a publish that fails writes nothing and leaves its row pending, and every failure that
is recorded counts once. -/
theorem outbox_delivers_exactly_once (formats : Formats)
    (h : (outboxMachine formats).Reachable state) :
    ExactlyOnce formats state ∧
      ∀ index id error after, (state.dispatchers[index]?.bind Dispatcher.held) = some id →
        outboxStep formats state (.dispatch index (.fail error)) = some after →
          after.tables = state.tables ∧ IsPending after.tables.outbox id := by
  have hinv := outboxInv_of_reachable h
  refine ⟨hinv.exactlyOnce, ?_⟩
  intro index id error after hheld hstep
  obtain ⟨dispatcher, hat, hheld⟩ := Option.bind_eq_some_iff.mp hheld
  rw [fail_tables hstep]
  exact ⟨rfl, hinv.held_pending hat hheld⟩

end Invariant

namespace TwoDispatchers

def decimal : TextFormat ℕ where
  write n := toString n
  read text := Text.parseDigits text.toList
  read_write := Text.parseDigits_repr

def formats : Formats where
  uuid := decimal.withText 7 "00000000-0000-0000-0000-000000000007" (by decide)
  time := (decimal.map Equiv.intEquivNat.symm).withText 1784811600000000000
    "2026-07-23T13:00:00Z" (by decide)
  timestamptz nanoseconds := nanoseconds / 1000

def event : ManagementAuditEvent where
  aggregateType := .chatJob
  aggregateId := 7
  jobId := some 7
  sessionId := none
  actorUserId := none
  eventType := .chatJobCreated
  outcome := .success
  summary := .jobCreated
  sanitizedError := none
  occurredAt := 1784811600000000000

def start : OutboxSystem where
  now := 1784811600000000
  tables := ⟨[], []⟩
  dispatchers := [.waiting none, .waiting none]
  enqueued := []
  failures := []

/-- The second dispatcher publishes the row between the failure of the first and its record. -/
def actions : List OutboxAction :=
  [.enqueue 9 event 0, .dispatch 0 (.start 50), .dispatch 0 .begin, .dispatch 0 (.take 9),
    .dispatch 0 (.fail (.database none)), .dispatch 1 (.start 50), .dispatch 1 .begin,
    .dispatch 1 (.take 9), .dispatch 1 (.insert 11), .dispatch 1 .mark,
    .dispatch 1 (.commit true), .dispatch 0 (.record true)]

theorem outbox_delivers_exactly_once_between : ∃ state : OutboxSystem,
    (outboxMachine formats).Reachable state ∧
      state.tables.events.map EventRow.outboxId = [9] ∧ ExactlyOnce formats state := by
  have hstart : (outboxMachine formats).Reachable start :=
    .init ⟨rfl, rfl, rfl, by decide⟩
  have hrun : ((outboxMachine formats).run start actions).any
      (fun state => state.tables.events.map EventRow.outboxId = [9]) = true := by
    decide
  obtain ⟨state, hreached, htest⟩ := Machine.Reachable.exists_of_run hstart hrun
  exact ⟨state, hreached, by simpa using htest,
    (outbox_delivers_exactly_once formats hreached).1⟩

end TwoDispatchers

end FineractReports.Management
