import FineractReports.Management.AuditListing
import FineractReports.Management.ExactlyOnce

/-!
# Going through the audit events

Events are only ever added, each under an id of its own, and each can be read again. So a reader
who follows the cursors sees every event that was there at the first page, newest first and once,
while dispatchers go on publishing.
-/

namespace FineractReports.Management

/-! ### Reading an event again -/

/-- The type an event is shown with. -/
def AuditEventType.dto : AuditEventType → Dto.AuditEventType
  | chatJobCreated => .chatJobCreated
  | knowledgeRetrievalCompleted => .knowledgeRetrievalCompleted
  | contextAssembled => .contextAssembled
  | policyEvaluated => .policyEvaluated
  | executionAuthorized => .executionAuthorized
  | executionBlocked => .executionBlocked
  | executionCompleted => .executionCompleted
  | chatClarificationRequested => .chatClarificationRequested
  | chatClarificationReceived => .chatClarificationReceived
  | chatJobCompleted => .chatJobCompleted
  | chatJobFailed => .chatJobFailed
  | chatSessionArchived => .chatSessionArchived
  | chatSessionDeleted => .chatSessionDeleted
  | businessDateFallback => .businessDateFallbackUsed
  | executionResultTruncated => .executionResultTruncated
  | executionTimedOut => .executionTimedOut

@[simp] theorem parseEventType_asStr (kind : AuditEventType) :
    parseEventType kind.asStr = some kind.dto := by
  cases kind <;> decide

@[simp] theorem aggregateType_asStr (kind : AuditAggregateType) :
    aggregateType kind.asStr = some kind := AuditAggregateType.format.read_write kind

@[simp] theorem parseOutcome_asStr (outcome : AuditOutcome) :
    parseOutcome outcome.asStr = some outcome := AuditOutcome.format.read_write outcome

/-- An event as it is shown under an id. -/
def shownEvent (formats : Formats) (id : Uuid) (event : ManagementAuditEvent) :
    AuditEventResponse :=
  ⟨id, event.jobId, event.sessionId, event.aggregateType, event.eventType.dto, event.outcome,
    event.summary, event.sanitizedError, formats.timestamptz event.occurredAt⟩

theorem auditEventResponse_eventRow (formats : Formats) (id outboxId : Uuid)
    (event : ManagementAuditEvent) :
    auditEventResponse (eventRow formats id outboxId event) =
      some (shownEvent formats id event) := by
  obtain ⟨kind, aggregateId, jobId, sessionId, actor, eventType, outcome, summary, error, time⟩ :=
    event
  cases error with
  | none =>
    simp [auditEventResponse, eventRow, shownEvent, summaryFromValue_toValue, readSanitizedError]
  | some error =>
    simp [auditEventResponse, eventRow, shownEvent, summaryFromValue_toValue, readSanitizedError,
      errorFromValue_toValue]

/-! ### Reading a cursor again -/

section Cursors

variable {texts : CursorTexts} {cursor : Cursor}

theorem splitOnce_append {separator : Char} {front : String} (back : String)
    (h : separator ∉ front.toList) :
    splitOnce separator (front ++ String.singleton separator ++ back) = some (front, back) := by
  have hfront : ∀ c ∈ front.toList, decide (c ≠ separator) = true := by
    intro c hc
    simpa using fun heq : c = separator => h (heq ▸ hc)
  have hlist : (front ++ String.singleton separator ++ back).toList =
      front.toList ++ separator :: back.toList := by
    simp
  unfold splitOnce
  rw [hlist, List.dropWhile_append_of_pos hfront, List.takeWhile_append_of_pos hfront]
  simp

theorem decodeCursor_encodeCursor (h : FourDigitYear cursor.occurredAt) :
    decodeCursor texts (encodeCursor texts cursor) = .ok cursor := by
  have hsplit : splitOnce '|'
      (texts.toRfc3339 cursor.occurredAt ++ "|" ++ texts.uuid.write cursor.id) =
        some (texts.toRfc3339 cursor.occurredAt, texts.uuid.write cursor.id) :=
    splitOnce_append _ (texts.to_no_bar cursor.occurredAt)
  simp [decodeCursor, encodeCursor, hsplit, texts.parse_to _ h]

@[simp] theorem keyCursor_key (cursor : Cursor) : keyCursor cursor.key = cursor := rfl

@[simp] theorem key_keyCursor (key : FeedKey) : (keyCursor key).key = key := rfl

theorem feedKey_lt {row other : EventRow} : feedKey row < feedKey other ↔
    other.occurredAt < row.occurredAt ∨
      other.occurredAt = row.occurredAt ∧ other.id < row.id := by
  simp [feedKey, Cursor.key, EventRow.cursor, Prod.Lex.toLex_lt_toLex]

end Cursors

/-! ### Ids of events -/

section Ids

variable {formats : Formats} {state after : OutboxSystem} {index : ℕ} {pass : DispatchPass}
  {dispatcher next : Dispatcher}

/-- What a step does to the events: none is lost, and what a transaction holds is new or committed
by the step. -/
inductive EventEffect (state after : OutboxSystem) : Prop
  | still (hevents : after.tables.events = state.tables.events)
    (hsame : after.dispatchers = state.dispatchers)
  | moved (index : ℕ) (dispatcher next : Dispatcher)
    (hevents : after.tables.events = state.tables.events)
    (hat : state.dispatchers[index]? = some dispatcher)
    (hset : after.dispatchers = state.dispatchers.set index next)
    (hwritten : ∀ event ∈ next.written, dispatcher.written = some event ∨
      state.isTaken event.id = false)
  | committed (index : ℕ) (dispatcher next : Dispatcher)
    (hevents : after.tables.events = state.tables.events ++ dispatcher.written.toList)
    (hat : state.dispatchers[index]? = some dispatcher)
    (hset : after.dispatchers = state.dispatchers.set index next)
    (hwritten : next.written = none)

theorem EventEffect.released (hat : state.dispatchers[index]? = some dispatcher)
    (hnext : next.written = none) : EventEffect state (state.setDispatcher index next) :=
  .moved index dispatcher next rfl hat rfl fun event hevent => by rw [hnext] at hevent; cases hevent

theorem nextTurn_written {acknowledged : Bool} {remaining published : ℕ} :
    (nextTurn acknowledged remaining published).written = none := by
  cases acknowledged <;> rfl

theorem insertedEvent_id {tables : OutboxTables} {eventId outboxId : Uuid}
    {event : ManagementAuditEvent} {row : EventRow}
    (h : insertedEvent formats tables eventId outboxId event = some row) : row.id = eventId := by
  unfold insertedEvent at h
  split_ifs at h
  cases h
  rfl

theorem passStep_effect {action : DispatchAction}
    (hat : state.dispatchers[index]? = some (.running pass))
    (hstep : passStep formats state index pass action = some after) : EventEffect state after := by
  obtain ⟨remaining, published, stage⟩ := pass
  have habort : EventEffect state (state.setDispatcher index (.waiting none)) :=
    .released hat rfl
  cases stage with
  | ready =>
    cases action with
    | begin =>
      cases remaining with
      | zero =>
        cases hstep
        exact .released hat rfl
      | succ remaining =>
        cases hstep
        exact .released hat rfl
    | abort =>
      cases hstep
      exact habort
    | _ => cases hstep
  | began startedAt =>
    cases action with
    | take id =>
      simp only [passStep, Option.map_eq_some_iff] at hstep
      obtain ⟨row, -, rfl⟩ := hstep
      exact .released hat rfl
    | takeNone =>
      simp only [passStep] at hstep
      split_ifs at hstep
      cases hstep
      exact .released hat rfl
    | abort =>
      cases hstep
      exact habort
    | _ => cases hstep
  | holding startedAt id payload =>
    cases action with
    | insert eventId =>
      simp only [passStep] at hstep
      split_ifs at hstep with htaken
      obtain ⟨event, -, rfl⟩ := Option.map_eq_some_iff.mp hstep
      refine .moved index _ _ rfl hat rfl fun row hrow => Or.inr ?_
      rw [insertedEvent_id hrow]
      exact Bool.eq_false_iff.mpr fun h => htaken (Or.inr h)
    | fail error =>
      simp only [passStep] at hstep
      split_ifs at hstep
      cases hstep
      exact .released hat rfl
    | abort =>
      cases hstep
      exact habort
    | _ => cases hstep
  | inserted startedAt id written =>
    cases action with
    | mark =>
      cases hstep
      exact .moved index _ _ rfl hat rfl fun row hrow => Or.inl hrow
    | fail error =>
      simp only [passStep] at hstep
      split_ifs at hstep
      cases hstep
      exact .released hat rfl
    | abort =>
      cases hstep
      exact habort
    | _ => cases hstep
  | marked startedAt id written =>
    cases action with
    | commit acknowledged =>
      cases hstep
      exact .committed index _ _ rfl hat rfl nextTurn_written
    | abort =>
      cases hstep
      exact habort
    | _ => cases hstep
  | failed id code =>
    cases action with
    | record acknowledged =>
      simp only [passStep] at hstep
      split_ifs at hstep with hlocked
      split at hstep
      · split_ifs at hstep
        · cases hstep
          exact .released hat nextTurn_written
        · cases hstep
          exact .moved index _ _ rfl hat rfl fun row hrow => by
            rw [nextTurn_written] at hrow
            cases hrow
      · cases hstep
        exact .released hat nextTurn_written
    | abort =>
      cases hstep
      exact habort
    | _ => cases hstep

theorem outboxStep_effect {action : OutboxAction}
    (hstep : outboxStep formats state action = some after) : EventEffect state after := by
  cases action with
  | tick elapsed =>
    cases hstep
    exact .still rfl rfl
  | enqueue id event age =>
    simp only [outboxStep] at hstep
    split_ifs at hstep
    cases hstep
    exact .still rfl rfl
  | dispatch index action =>
    simp only [outboxStep] at hstep
    split at hstep
    · rename_i returned limit hat
      cases hstep
      exact .released hat rfl
    · rename_i pass hat
      exact passStep_effect hat hstep
    · cases hstep

/-- The events, committed or not, all have different ids. -/
structure EventIds (state : OutboxSystem) : Prop where
  committed : (state.tables.events.map EventRow.id).Nodup
  apart : ∀ dispatcher ∈ state.dispatchers, ∀ event ∈ dispatcher.written,
    event.id ∉ state.tables.events.map EventRow.id
  distinct : ∀ (i j : ℕ) (first second : Dispatcher) (event other : EventRow),
    state.dispatchers[i]? = some first → state.dispatchers[j]? = some second →
    first.written = some event → second.written = some other → event.id = other.id → i = j

theorem not_taken {eventId : Uuid} (h : state.isTaken eventId = false) :
    eventId ∉ state.tables.events.map EventRow.id ∧ ∀ dispatcher ∈ state.dispatchers,
      ∀ event ∈ dispatcher.written, event.id ≠ eventId := by
  simp only [OutboxSystem.isTaken, Bool.or_eq_false_iff, List.any_eq_false, decide_eq_true_eq,
    Option.any_eq_true, not_exists, not_and] at h
  refine ⟨fun hmem => ?_, fun dispatcher hdispatcher event hevent =>
    h.2 dispatcher hdispatcher event hevent⟩
  obtain ⟨event, hevent, hid⟩ := List.mem_map.mp hmem
  exact h.1 event hevent hid

/-- A dispatcher after the one at an index has been replaced. -/
theorem getElem?_set_cases {dispatchers : List Dispatcher} {i : ℕ} {other : Dispatcher}
    (h : (dispatchers.set index next)[i]? = some other) :
    (i = index ∧ other = next) ∨ (i ≠ index ∧ dispatchers[i]? = some other) := by
  by_cases hi : i = index
  · subst hi
    rw [List.getElem?_set_self'] at h
    obtain ⟨-, -, rfl⟩ := Option.map_eq_some_iff.mp h
    exact Or.inl ⟨rfl, rfl⟩
  · rw [List.getElem?_set_ne (Ne.symm hi)] at h
    exact Or.inr ⟨hi, h⟩

theorem EventEffect.keeps (h : EventEffect state after) (hinv : EventIds state) :
    EventIds after := by
  cases h with
  | still hevents hsame =>
    constructor
    · rw [hevents]
      exact hinv.committed
    · rw [hevents, hsame]
      exact hinv.apart
    · rw [hsame]
      exact hinv.distinct
  | moved index dispatcher next hevents hat hset hwritten =>
    have hmem := List.mem_of_getElem? hat
    constructor
    · rw [hevents]
      exact hinv.committed
    · rw [hevents, hset]
      intro other hother event hevent
      rcases List.mem_or_eq_of_mem_set hother with hold | rfl
      · exact hinv.apart other hold event hevent
      · rcases hwritten event hevent with hsame | hnew
        · exact hinv.apart dispatcher hmem event hsame
        · exact (not_taken hnew).1
    · rw [hset]
      intro i j first second event other hi hj hfirst hsecond hid
      rcases getElem?_set_cases hi with ⟨rfl, rfl⟩ | ⟨-, hfrom⟩
      · rcases getElem?_set_cases hj with ⟨rfl, -⟩ | ⟨-, hto⟩
        · rfl
        · rcases hwritten event hfirst with hsame | hnew
          · exact hinv.distinct _ _ _ _ _ _ hat hto hsame hsecond hid
          · exact absurd hid.symm ((not_taken hnew).2 _ (List.mem_of_getElem? hto) other hsecond)
      · rcases getElem?_set_cases hj with ⟨rfl, rfl⟩ | ⟨-, hto⟩
        · rcases hwritten other hsecond with hsame | hnew
          · exact hinv.distinct _ _ _ _ _ _ hfrom hat hfirst hsame hid
          · exact absurd hid ((not_taken hnew).2 _ (List.mem_of_getElem? hfrom) event hfirst)
        · exact hinv.distinct _ _ _ _ _ _ hfrom hto hfirst hsecond hid
  | committed index dispatcher next hevents hat hset hwritten =>
    have hmem := List.mem_of_getElem? hat
    constructor
    · rw [hevents, List.map_append]
      refine hinv.committed.append ?_ ?_
      · cases dispatcher.written <;> simp
      · intro id hold hnew
        obtain ⟨event, hevent, rfl⟩ := List.mem_map.mp hnew
        exact hinv.apart dispatcher hmem event (Option.mem_toList.mp hevent) hold
    · rw [hevents, hset, List.map_append]
      intro other hother event hevent hin
      obtain ⟨i, hi⟩ := List.mem_iff_getElem?.mp hother
      rcases getElem?_set_cases hi with ⟨-, rfl⟩ | ⟨hine, hi⟩
      · rw [hwritten] at hevent
        cases hevent
      · rcases List.mem_append.mp hin with hold | hnew
        · exact hinv.apart other (List.mem_of_getElem? hi) event hevent hold
        · obtain ⟨held, hheld, hid⟩ := List.mem_map.mp hnew
          exact hine (hinv.distinct _ _ _ _ _ _ hi hat hevent (Option.mem_toList.mp hheld)
            hid.symm)
    · rw [hset]
      intro i j first second event other hi hj hfirst hsecond hid
      rcases getElem?_set_cases hi with ⟨-, rfl⟩ | ⟨-, hi⟩
      · rw [hwritten] at hfirst
        cases hfirst
      · rcases getElem?_set_cases hj with ⟨-, rfl⟩ | ⟨-, hj⟩
        · rw [hwritten] at hsecond
          cases hsecond
        · exact hinv.distinct _ _ _ _ _ _ hi hj hfirst hsecond hid

theorem EventEffect.events_subset (h : EventEffect state after) :
    state.tables.events ⊆ after.tables.events := by
  cases h with
  | still hevents hsame => exact hevents ▸ List.Subset.refl _
  | moved index dispatcher next hevents hat hset hwritten => exact hevents ▸ List.Subset.refl _
  | committed index dispatcher next hevents hat hset hwritten =>
    rw [hevents]
    exact List.subset_append_left _ _

theorem reachable_eventIds (h : (outboxMachine formats).Reachable state) : EventIds state := by
  apply h.invariant
  · rintro start ⟨htables, -, -, hwaiting⟩
    have hnone : ∀ dispatcher ∈ start.dispatchers, dispatcher.written = none := by
      intro dispatcher hdispatcher
      rw [hwaiting dispatcher hdispatcher]
      rfl
    refine ⟨by simp [htables], fun dispatcher hdispatcher event hevent => ?_, ?_⟩
    · rw [hnone dispatcher hdispatcher] at hevent
      cases hevent
    · intro i j first second event other hi hj hfirst
      rw [hnone first (List.mem_of_getElem? hi)] at hfirst
      cases hfirst
  · intro start action next hinv _ hstep
    exact (outboxStep_effect hstep).keeps hinv

/-- No event is lost. -/
theorem events_of_run {actions : List OutboxAction}
    (h : (outboxMachine formats).run state actions = some after) :
    state.tables.events ⊆ after.tables.events :=
  Machine.run_keeps (m := outboxMachine formats)
    (P := fun current => state.tables.events ⊆ current.tables.events)
    (fun _ _ _ hsub hstep => List.Subset.trans hsub (outboxStep_effect hstep).events_subset)
    (List.Subset.refl _) h

end Ids

/-! ### One page -/

/-- A range of time within the years of four digits. -/
def AuditQuery.FourDigitYears (query : AuditQuery) : Prop :=
  -62167219200000000 ≤ query.fromTime ∧ query.toTime ≤ 253402300800000000

instance (query : AuditQuery) : Decidable query.FourDigitYears := by
  unfold AuditQuery.FourDigitYears; infer_instance

def AuditQuery.rows (query : AuditQuery) (events : List EventRow) : List EventRow :=
  events.filter fun row => query.Selects row

/-- The query for the page after a cursor. -/
def AuditQuery.page (query : AuditQuery) (cursor : Option String) (limit : Option ℕ) : AuditQuery :=
  { query with cursor := cursor, limit := limit }

/-- The text of the cursor for a key. -/
def cursorText (texts : CursorTexts) (key : FeedKey) : String := encodeCursor texts (keyCursor key)

section OnePage

variable {formats : Formats} {texts : CursorTexts} {query : AuditQuery} {state : OutboxSystem}
  {events : List EventRow} {row : EventRow} {cursor : Option String} {limit : Option ℕ}
  {after : Option FeedKey} {response : AuditListResponse}

theorem collectAll_okOr {α β ε : Type} {f : α → Option β} {e : ε} {items : List α} {out : List β} :
    collectAll items (fun item => (okOr (f item) e).map fun value => [value]) = .ok out ↔
      items.map f = out.map some := by
  induction items generalizing out with
  | nil =>
    rw [collectAll, Except.ok.injEq]
    cases out <;> simp
  | cons item rest ih =>
    rw [collectAll_cons]
    constructor
    · rintro ⟨first, others, hfirst, hothers, rfl⟩
      obtain ⟨value, hvalue, rfl⟩ := map_eq_ok_iff.mp hfirst
      rw [List.map_cons, ih.mp hothers, okOr_eq_ok.mp hvalue]
      rfl
    · intro h
      cases out with
      | nil => simp at h
      | cons value others =>
        obtain ⟨hvalue, hothers⟩ := List.cons.inj h
        exact ⟨[value], others, map_eq_ok_iff.mpr ⟨value, okOr_eq_ok.mpr hvalue, rfl⟩,
          ih.mpr hothers, rfl⟩

theorem mem_rows : row ∈ query.rows events ↔ row ∈ events ∧ query.Selects row := by
  simp [AuditQuery.rows]

theorem fourDigitYear_of_mem (hyears : query.FourDigitYears) (hrow : row ∈ query.rows events) :
    FourDigitYear row.occurredAt := by
  obtain ⟨hfrom, hto, -⟩ := (mem_rows.mp hrow).2
  exact ⟨hyears.1.trans hfrom, hto.trans_le hyears.2⟩

theorem rows_nodup (hids : (events.map EventRow.id).Nodup) :
    ((query.rows events).map feedKey).Nodup := by
  have hkept : ((query.rows events).map EventRow.id).Nodup :=
    hids.sublist (List.filter_sublist.map EventRow.id)
  refine List.Nodup.of_map (fun key => (keyCursor key).id) ?_
  rwa [List.map_map]

/-- The page of a cursor written before is that of its key. -/
theorem listAuditEvents_eq_ok (hafter : ∀ key ∈ after, FourDigitYear (keyCursor key).occurredAt)
    (hcursor : cursor = after.map (cursorText texts)) :
    listAuditEvents texts (query.page cursor limit) events = .ok response ↔
      (pageAfter feedKey (limit.getD 50) after (query.rows events)).items.map auditEventResponse =
          response.items.map some ∧
        response.nextCursor = (pageAfter feedKey (limit.getD 50) after (query.rows events)).next.map
          (cursorText texts) := by
  have hread : cursorKey texts (query.page cursor limit).cursor = .ok after := by
    subst hcursor
    cases after with
    | none => rfl
    | some key =>
      have hdecode : decodeCursor texts (encodeCursor texts (keyCursor key)) =
          .ok (keyCursor key) := decodeCursor_encodeCursor (hafter key rfl)
      simp [AuditQuery.page, cursorKey, cursorText, hdecode, Except.map]
  obtain ⟨items, nextCursor⟩ := response
  simp only [listAuditEvents, hread, bind_eq_ok_iff, Except.ok.injEq, exists_eq_left',
    collectAll_okOr, pure_eq_ok, AuditListResponse.mk.injEq]
  constructor
  · rintro ⟨found, hfound, rfl, rfl⟩
    exact ⟨hfound, rfl⟩
  · rintro ⟨hfound, rfl⟩
    exact ⟨items, hfound, rfl, rfl⟩

/-- A published event can be read. -/
theorem readable (h : (outboxMachine formats).Reachable state) (hrow : row ∈ state.tables.events) :
    ∃ entry ∈ state.enqueued,
      auditEventResponse row = some (shownEvent formats row.id entry.2) := by
  obtain ⟨entry, hentry, hcarries⟩ := (outboxInv_of_reachable h).tables.origin row hrow
  refine ⟨entry, hentry, ?_⟩
  rw [hcarries]
  exact auditEventResponse_eventRow formats row.id entry.1 entry.2

/-- A page can always be read, at the start or after a cursor of an earlier page. -/
theorem listAuditEvents_total (h : (outboxMachine formats).Reachable state)
    (hafter : ∀ key ∈ after, FourDigitYear (keyCursor key).occurredAt) :
    ∃ response, listAuditEvents texts (query.page (after.map (cursorText texts)) limit)
      state.tables.events = .ok response := by
  have hitems : ∀ rows : List EventRow, rows ⊆ state.tables.events →
      ∃ items : List AuditEventResponse, rows.map auditEventResponse = items.map some := by
    intro rows hrows
    induction rows with
    | nil => exact ⟨[], rfl⟩
    | cons row rest ih =>
      obtain ⟨hrow, hrest⟩ := List.cons_subset.mp hrows
      obtain ⟨items, hsame⟩ := ih hrest
      obtain ⟨entry, -, hshown⟩ := readable h hrow
      exact ⟨shownEvent formats row.id entry.2 :: items, by rw [List.map_cons, hshown, hsame]; rfl⟩
  obtain ⟨items, hsame⟩ := hitems
    (pageAfter feedKey (limit.getD 50) after (query.rows state.tables.events)).items
    fun row hrow => (mem_rows.mp (mem_pageAfter hrow).1).1
  exact ⟨⟨items, _⟩, (listAuditEvents_eq_ok hafter rfl).mpr ⟨hsame, rfl⟩⟩

end OnePage

/-! ### All the pages -/

/-- A reader who asks for page after page with the cursor of the page before, until there is none;
between two pages the dispatchers go on. -/
inductive AuditWalk (formats : Formats) (texts : CursorTexts) (query : AuditQuery) :
    Option String → OutboxSystem → OutboxSystem → List AuditEventResponse → Prop
  | last {cursor : Option String} {limit : Option ℕ} {state : OutboxSystem}
    {items : List AuditEventResponse} (hvalid : (query.page cursor limit).Validates)
    (h : listAuditEvents texts (query.page cursor limit) state.tables.events = .ok ⟨items, none⟩) :
    AuditWalk formats texts query cursor state state items
  | more {cursor : Option String} {limit : Option ℕ} {state later final : OutboxSystem}
    {items rest : List AuditEventResponse} {next : String} {actions : List OutboxAction}
    (hvalid : (query.page cursor limit).Validates)
    (h : listAuditEvents texts (query.page cursor limit) state.tables.events =
      .ok ⟨items, some next⟩)
    (hrun : (outboxMachine formats).run state actions = some later)
    (hrest : AuditWalk formats texts query (some next) later final rest) :
    AuditWalk formats texts query cursor state final (items ++ rest)

section AllPages

variable {formats : Formats} {texts : CursorTexts} {query : AuditQuery}
  {state final : OutboxSystem} {cursor : Option String} {after : Option FeedKey}
  {shown : List AuditEventResponse}

theorem pageSize_pos {limit : Option ℕ} (h : (query.page cursor limit).Validates) :
    0 < limit.getD 50 := by
  cases limit with
  | none => decide
  | some limit => exact (h.1 limit rfl).1

/-- What a reader was shown is a walk through the tables of the states it came by. -/
structure Visited (formats : Formats) (query : AuditQuery) (after : Option FeedKey)
    (state final : OutboxSystem) (shown : List AuditEventResponse)
    (visits : List (ℕ × List EventRow)) (rows : List EventRow) : Prop where
  walk : Walk feedKey after visits rows
  shown : rows.map auditEventResponse = shown.map some
  first : visits.head?.map Prod.snd = some (query.rows state.tables.events)
  grows : visits.Pairwise fun visit later => visit.2 ⊆ later.2
  later : ∀ visit ∈ visits, query.rows state.tables.events ⊆ visit.2
  distinct : ∀ visit ∈ visits, (visit.2.map feedKey).Nodup
  within : ∀ visit ∈ visits, visit.2 ⊆ query.rows final.tables.events
  final : (outboxMachine formats).Reachable final

theorem AuditWalk.visited (h : AuditWalk formats texts query cursor state final shown)
    (hreach : (outboxMachine formats).Reachable state) (hyears : query.FourDigitYears)
    (hafter : ∀ key ∈ after, FourDigitYear (keyCursor key).occurredAt)
    (hcursor : cursor = after.map (cursorText texts)) :
    ∃ visits rows, Visited formats query after state final shown visits rows := by
  induction h generalizing after with
  | @last cursor limit state items hvalid hlist =>
    obtain ⟨hsame, hnext⟩ := (listAuditEvents_eq_ok hafter hcursor).mp hlist
    have hids : ((query.rows state.tables.events).map feedKey).Nodup :=
      rows_nodup (reachable_eventIds hreach).committed
    refine ⟨[(limit.getD 50, query.rows state.tables.events)],
      (pageAfter feedKey (limit.getD 50) after (query.rows state.tables.events)).items,
      .last (pageSize_pos hvalid) (Option.map_eq_none_iff.mp hnext.symm), hsame, rfl,
      List.pairwise_singleton _ _, ?_, ?_, ?_, hreach⟩
    all_goals
      intro visit hvisit
      rw [List.mem_singleton.mp hvisit]
    · exact List.Subset.refl _
    · exact hids
    · exact List.Subset.refl _
  | @more cursor limit state later final items rest next actions hvalid hlist hrun hrest ih =>
    obtain ⟨hsame, hnext⟩ := (listAuditEvents_eq_ok hafter hcursor).mp hlist
    obtain ⟨key, hkey, rfl⟩ := Option.map_eq_some_iff.mp hnext.symm
    have hids : ((query.rows state.tables.events).map feedKey).Nodup :=
      rows_nodup (reachable_eventIds hreach).committed
    have hyear : ∀ bound ∈ some key, FourDigitYear (keyCursor bound).occurredAt := by
      intro bound hbound
      obtain rfl := Option.some.inj hbound
      obtain ⟨row, hrow, rfl⟩ := exists_of_pageAfter_next hkey
      exact fourDigitYear_of_mem hyears hrow
    obtain ⟨visits, rows, hrestVisited⟩ := ih (hreach.run hrun) hyear rfl
    have hgrown : query.rows state.tables.events ⊆ query.rows later.tables.events := by
      intro row hrow
      obtain ⟨hmem, hselects⟩ := mem_rows.mp hrow
      exact mem_rows.mpr ⟨events_of_run hrun hmem, hselects⟩
    have hlater : ∀ visit ∈ visits, query.rows state.tables.events ⊆ visit.2 :=
      fun visit hvisit => List.Subset.trans hgrown (hrestVisited.later visit hvisit)
    have hwithin : query.rows state.tables.events ⊆ query.rows final.tables.events := by
      obtain ⟨visit, hfirst, hrows⟩ := Option.map_eq_some_iff.mp hrestVisited.first
      have hvisit := List.mem_of_head? hfirst
      exact List.Subset.trans (hlater visit hvisit) (hrestVisited.within visit hvisit)
    refine ⟨(limit.getD 50, query.rows state.tables.events) :: visits, _,
      .more (pageSize_pos hvalid) hkey hrestVisited.walk, ?_, rfl,
      List.pairwise_cons.mpr ⟨hlater, hrestVisited.grows⟩, ?_, ?_, ?_, hrestVisited.final⟩
    · rw [List.map_append, List.map_append, hsame, hrestVisited.shown]
    all_goals
      intro visit hvisit
      rcases List.mem_cons.mp hvisit with rfl | hin
    · exact List.Subset.refl _
    · exact hlater visit hin
    · exact hids
    · exact hrestVisited.distinct visit hin
    · exact hwithin
    · exact hrestVisited.within visit hin

/-- The order of the list. -/
def Newer (item later : AuditEventResponse) : Prop :=
  later.occurredAt < item.occurredAt ∨
    later.occurredAt = item.occurredAt ∧ later.id < item.id

theorem response_key {row : EventRow} {item : AuditEventResponse}
    (h : auditEventResponse row = some item) :
    item.id = row.id ∧ item.occurredAt = row.occurredAt := by
  simp only [auditEventResponse, Option.bind_eq_bind, Option.bind_eq_some_iff, Option.pure_def,
    Option.some.injEq] at h
  obtain ⟨_, -, _, -, _, -, _, -, _, -, rfl⟩ := h
  exact ⟨rfl, rfl⟩

theorem shown_pairwise {rows : List EventRow}
    (hshown : rows.map auditEventResponse = shown.map some)
    (h : rows.Pairwise fun a b => feedKey a < feedKey b) : shown.Pairwise Newer := by
  have hrows : (rows.map auditEventResponse).Pairwise fun first second =>
      ∀ item later, first = some item → second = some later → Newer item later := by
    rw [List.pairwise_map]
    refine h.imp fun {row other} hlt item later hitem hlater => ?_
    obtain ⟨hid, htime⟩ := response_key hitem
    obtain ⟨hid', htime'⟩ := response_key hlater
    unfold Newer
    rw [hid, htime, hid', htime']
    exact feedKey_lt.mp hlt
  rw [hshown, List.pairwise_map] at hrows
  exact hrows.imp fun {item later} hpair => hpair item later rfl rfl

/-- Whatever is published between two pages: every page can be read, and a reader who has come to
the last page has been shown every event that was there at the first one, newest first and none
twice; and everything shown is a selected event as it was enqueued. -/
theorem audit_pages_show_every_event (hreach : (outboxMachine formats).Reachable state)
    (hyears : query.FourDigitYears)
    (hwalk : AuditWalk formats texts query none state final shown) :
    shown.Pairwise Newer ∧
      (∀ row ∈ state.tables.events, query.Selects row →
        ∃ item ∈ shown, auditEventResponse row = some item) ∧
      (∀ item ∈ shown, ∃ row ∈ final.tables.events, query.Selects row ∧
        ∃ entry ∈ final.enqueued, item = shownEvent formats row.id entry.2) ∧
      ∀ (limit : Option ℕ) (later : OutboxSystem), (outboxMachine formats).Reachable later →
        ∀ item ∈ shown, ∃ response, listAuditEvents texts
          (query.page (some (encodeCursor texts ⟨item.occurredAt, item.id⟩)) limit)
            later.tables.events = .ok response := by
  have hstart : ∀ key ∈ (none : Option FeedKey), FourDigitYear (keyCursor key).occurredAt :=
    fun key hkey => by cases hkey
  obtain ⟨visits, rows, hvisited⟩ := hwalk.visited hreach hyears hstart rfl
  have hrow : ∀ row ∈ rows, row ∈ query.rows final.tables.events := by
    intro row hmem
    obtain ⟨visit, hvisit, hin⟩ := hvisited.walk.origin hmem
    exact hvisited.within visit hvisit hin
  have hitem : ∀ item ∈ shown, ∃ row ∈ rows, auditEventResponse row = some item := by
    intro item hmem
    have hsome : some item ∈ rows.map auditEventResponse := by
      rw [hvisited.shown]
      exact List.mem_map_of_mem hmem
    obtain ⟨row, hin, hsame⟩ := List.mem_map.mp hsome
    exact ⟨row, hin, hsame⟩
  refine ⟨shown_pairwise hvisited.shown (hvisited.walk.pairwise hvisited.distinct).1, ?_, ?_, ?_⟩
  · intro row hmem hselects
    obtain ⟨visit, hfirst, hrows⟩ := Option.map_eq_some_iff.mp hvisited.first
    have hin : row ∈ rows := hvisited.walk.complete hvisited.distinct hvisited.grows hfirst
      (hrows ▸ mem_rows.mpr ⟨hmem, hselects⟩) (fun _ hkey => by cases hkey)
    have hsome := List.mem_map_of_mem (f := auditEventResponse) hin
    rw [hvisited.shown] at hsome
    obtain ⟨item, hshown, hsame⟩ := List.mem_map.mp hsome
    exact ⟨item, hshown, hsame.symm⟩
  · intro item hmem
    obtain ⟨row, hin, hsame⟩ := hitem item hmem
    obtain ⟨hevent, hselects⟩ := mem_rows.mp (hrow row hin)
    obtain ⟨entry, hentry, hshown⟩ := readable hvisited.final hevent
    exact ⟨row, hevent, hselects, entry, hentry, Option.some.inj (hsame.symm.trans hshown)⟩
  · intro limit later hlater item hmem
    obtain ⟨row, hin, hsame⟩ := hitem item hmem
    obtain ⟨hid, htime⟩ := response_key hsame
    have hyear := fourDigitYear_of_mem hyears (hrow row hin)
    have hbound : ∀ key ∈ some (feedKey row), FourDigitYear (keyCursor key).occurredAt := by
      intro key hkey
      obtain rfl := Option.some.inj hkey
      exact hyear
    rw [hid, htime]
    exact listAuditEvents_total hlater hbound

end AllPages

/-! Two events; a third one, older than the first page, is published before the second page. -/

namespace TwoPages

open TwoDispatchers

def eventAt (seconds : ℤ) : ManagementAuditEvent :=
  { event with occurredAt := 1784811600000000000 + seconds * 1000000000 }

/-- The dispatcher publishes a row under an id. -/
def publish (rowId eventId : Uuid) : List OutboxAction :=
  [.dispatch 0 (.start 1), .dispatch 0 .begin, .dispatch 0 (.take rowId),
    .dispatch 0 (.insert eventId), .dispatch 0 .mark, .dispatch 0 (.commit true),
    .dispatch 0 .begin]

def before : List OutboxAction :=
  [.enqueue 9 (eventAt 0) 0, .enqueue 10 (eventAt 2) 0] ++ publish 9 11 ++ publish 10 12

def between : List OutboxAction := .enqueue 13 (eventAt 1) 0 :: publish 13 14

def firstState : OutboxSystem := ((outboxMachine formats).run start before).getD start

def secondState : OutboxSystem := ((outboxMachine formats).run firstState between).getD start

/-- The time of the cursor as the calendar library writes it, any other time as a numeral. -/
def texts : CursorTexts where
  uuid := formats.uuid
  toRfc3339 instant :=
    if instant = 1784811602000000 then "2026-07-23T13:00:02+00:00"
    else toString (Equiv.intEquivNat instant)
  parseRfc3339 text :=
    if text = "2026-07-23T13:00:02+00:00" then some 1784811602000000
    else (Text.parseDigits text.toList).map Equiv.intEquivNat.symm
  parse_to instant _ := by
    by_cases hinstant : instant = 1784811602000000
    · simp [hinstant]
    · have hparse := Text.parseDigits_repr (Equiv.intEquivNat instant)
      have hunread : Text.parseDigits "2026-07-23T13:00:02+00:00".toList = none := by decide
      have hnot : toString (Equiv.intEquivNat instant) ≠ "2026-07-23T13:00:02+00:00" := by
        intro hsame
        rw [hsame, hunread] at hparse
        cases hparse
      rw [if_neg hinstant, if_neg hnot, hparse, Option.map_some, Equiv.symm_apply_apply]
  to_no_bar instant := by
    split_ifs
    · decide
    · exact fun hmem => absurd (Text.repr_isDigit hmem) (by decide)

def query : AuditQuery where
  fromTime := 1784811600000000
  toTime := 1784898000000000
  eventType := some .chatJobCreated
  outcome := none
  jobId := none
  sessionId := none
  cursor := none
  limit := none

def cursor : String := encodeCursor texts ⟨1784811602000000, 12⟩

theorem run_eq_getD {state : OutboxSystem} {actions : List OutboxAction}
    (h : ((outboxMachine formats).run state actions).isSome = true) :
    (outboxMachine formats).run state actions =
      some (((outboxMachine formats).run state actions).getD start) := by
  obtain ⟨after, hafter⟩ := Option.isSome_iff_exists.mp h
  rw [hafter]
  rfl

/-- The event published in between is shown in its place. -/
theorem shown_in_order : ∃ shown, AuditWalk formats texts query none firstState secondState shown ∧
    shown.map (·.id) = [12, 14, 11] ∧ shown.Pairwise Newer := by
  have hreach : (outboxMachine formats).Reachable start := .init ⟨rfl, rfl, rfl, by decide⟩
  have hfirst : (outboxMachine formats).Reachable firstState :=
    hreach.run (run_eq_getD (by decide +kernel))
  have hpage : listAuditEvents texts (query.page none (some 1)) firstState.tables.events =
      .ok ⟨[shownEvent formats 12 (eventAt 2)], some cursor⟩ := by decide +kernel
  have hlast : listAuditEvents texts (query.page (some cursor) none) secondState.tables.events =
      .ok ⟨[shownEvent formats 14 (eventAt 1), shownEvent formats 11 (eventAt 0)], none⟩ := by
    decide +kernel
  have hrun : (outboxMachine formats).run firstState between = some secondState :=
    run_eq_getD (by decide +kernel)
  have hwalk := AuditWalk.more (by decide) hpage hrun (.last (by decide) hlast)
  exact ⟨_, hwalk, rfl, (audit_pages_show_every_event hfirst (by decide) hwalk).1⟩

end TwoPages

end FineractReports.Management
