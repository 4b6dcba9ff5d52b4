import FineractReports.Assistant.Clarification
import FineractReports.Library.Transition

/-!
# The audit trail of a job

Requests and runs hand their audit events to one worker through a bounded queue and never wait
for it. The worker collects the events into batches and writes each batch in one transaction.
What does not fit into the queue, and a batch the database refuses, is reported and dropped.
-/

namespace FineractReports.Audit

def AUDIT_QUEUE_CAPACITY : ℕ := 1024
def AUDIT_BATCH_SIZE : ℕ := 50

structure AuditEvent where
  jobId : Uuid
  sessionId : Option Uuid
  userId : Uuid
  legacyApiKeyId : Option Uuid
  eventType : String
  stage : String
  layer : String
  blueprintStep : Option String
  status : String
  durationMs : Option ℤ
  inputSummaryJson : Json
  outputSummaryJson : Json
  decisionJson : Json
  flagsJson : Json
  errorJson : Option Json
deriving DecidableEq

def AuditEvent.new (userId jobId : Uuid) (stage layer status : String) : AuditEvent where
  jobId := jobId
  sessionId := none
  userId := userId
  legacyApiKeyId := none
  eventType := "pipeline"
  stage := stage
  layer := layer
  blueprintStep := none
  status := status
  durationMs := none
  inputSummaryJson := .obj []
  outputSummaryJson := .obj []
  decisionJson := .obj []
  flagsJson := .obj []
  errorJson := none

/-- A row of `chat_job_audit_events`. -/
structure AuditRow where
  id : Uuid
  event : AuditEvent
  createdAt : ℤ
deriving DecidableEq

/-- What the worker is doing. -/
inductive WorkerPhase where
  | selecting
  /-- The transaction of a batch is open; `final` is the last one before the worker ends. -/
  | inserting (events : List AuditEvent) (final : Bool)
  | stopped
deriving DecidableEq

/-- The warnings of the trail. -/
inductive Warning where
  | eventDropped (event : AuditEvent)
  | batchInsertFailed (events : List AuditEvent)
deriving DecidableEq

structure AuditTrail where
  /-- Some handle is left. -/
  handles : Bool
  queue : List AuditEvent
  batch : List AuditEvent
  phase : WorkerPhase
  rows : List AuditRow
  warnings : List Warning
deriving DecidableEq

def AuditTrail.spawned : AuditTrail where
  handles := true
  queue := []
  batch := []
  phase := .selecting
  rows := []
  warnings := []

inductive AuditAction where
  | record (event : AuditEvent)
  /-- The last handle is dropped. -/
  | close
  /-- `recv` answers, with an event or with the end of the queue. -/
  | receive
  | tick
  | inserted (ids : List Uuid) (now : ℤ)
  | insertFailed
deriving DecidableEq

namespace AuditTrail

/-- Sends without waiting for room. -/
def record (trail : AuditTrail) (event : AuditEvent) : AuditTrail :=
  if trail.phase ≠ .stopped ∧ trail.queue.length < AUDIT_QUEUE_CAPACITY then
    { trail with queue := trail.queue ++ [event] }
  else { trail with warnings := trail.warnings ++ [.eventDropped event] }

/-- Hands the batch to the repository, if there is one. -/
def flush (trail : AuditTrail) (final : Bool) : AuditTrail :=
  match trail.batch with
  | [] => { trail with phase := if final then .stopped else .selecting }
  | events => { trail with batch := [], phase := .inserting events final }

/-- The phase after a batch. -/
def afterBatch (final : Bool) : WorkerPhase := if final then .stopped else .selecting

end AuditTrail

/-- The effect of an action, when it can be taken. -/
def auditStep (trail : AuditTrail) : AuditAction → Option AuditTrail
  | .record event => if trail.handles then some (trail.record event) else none
  | .close => if trail.handles then some { trail with handles := false } else none
  | .receive =>
    if trail.phase ≠ .selecting then none
    else match trail.queue with
      | event :: rest =>
        let received := { trail with queue := rest, batch := trail.batch ++ [event] }
        some (if AUDIT_BATCH_SIZE ≤ received.batch.length then received.flush false else received)
      | [] => if trail.handles then none else some (trail.flush true)
  | .tick => if trail.phase = .selecting then some (trail.flush false) else none
  | .inserted ids now =>
    match trail.phase with
    | .inserting events final =>
      if ids.length = events.length ∧ (trail.rows.map AuditRow.id ++ ids).Nodup then
        some { trail with
          rows := trail.rows ++ (ids.zip events).map fun pair => ⟨pair.1, pair.2, now⟩
          phase := AuditTrail.afterBatch final }
      else none
    | _ => none
  | .insertFailed =>
    match trail.phase with
    | .inserting events final => some { trail with
        warnings := trail.warnings ++ [.batchInsertFailed events]
        phase := AuditTrail.afterBatch final }
    | _ => none

def auditMachine : Machine AuditTrail AuditAction where
  init trail := trail = .spawned
  step := auditStep

/-! ### Every event is accounted for -/

def WorkerPhase.events : WorkerPhase → List AuditEvent
  | .inserting events _ => events
  | _ => []

@[simp] theorem events_inserting (events : List AuditEvent) (final : Bool) :
    (WorkerPhase.inserting events final).events = events := rfl

@[simp] theorem events_afterBatch (final : Bool) : (AuditTrail.afterBatch final).events = [] := by
  cases final <;> rfl

namespace Warning

def dropped? : Warning → Option AuditEvent
  | eventDropped event => some event
  | batchInsertFailed _ => none

def failed? : Warning → Option (List AuditEvent)
  | eventDropped _ => none
  | batchInsertFailed events => some events

end Warning

def AuditAction.recorded? : AuditAction → Option AuditEvent
  | .record event => some event
  | _ => none

/-- The books of a trail. `calls` are the events handed over, each with whether it found room in
the queue; `batches` are those of the finished transactions, each with whether it was committed. -/
structure Ledger (trail : AuditTrail) (calls : List (AuditEvent × Bool))
    (batches : List (List AuditEvent × Bool)) : Prop where
  /-- What found room is in one place, in the order it was sent. -/
  sent : (calls.filter Prod.snd).map Prod.fst = (batches.map Prod.fst).flatten ++
    (trail.phase.events ++ (trail.batch ++ trail.queue))
  dropped : (calls.filter fun call => !call.2).map Prod.fst =
    trail.warnings.filterMap Warning.dropped?
  stored : trail.rows.map AuditRow.event = ((batches.filter Prod.snd).map Prod.fst).flatten
  failed : (batches.filter fun batch => !batch.2).map Prod.fst =
    trail.warnings.filterMap Warning.failed?
  sizes : ∀ batch ∈ batches, batch.1 ≠ [] ∧ batch.1.length ≤ AUDIT_BATCH_SIZE
  room : trail.queue.length ≤ AUDIT_QUEUE_CAPACITY
  ids : (trail.rows.map AuditRow.id).Nodup

/-- What the phases of the worker say about its batch and its queue. -/
structure Phased (trail : AuditTrail) : Prop where
  collecting : trail.batch.length < AUDIT_BATCH_SIZE
  inserting : ∀ events final, trail.phase = .inserting events final →
    events ≠ [] ∧ events.length ≤ AUDIT_BATCH_SIZE ∧ trail.batch = [] ∧
      (final = true → trail.handles = false ∧ trail.queue = [])
  /-- The worker ends with nothing left to write. -/
  ended : trail.phase = .stopped → trail.handles = false ∧ trail.queue = [] ∧ trail.batch = []

structure Accounts (trail : AuditTrail) (calls : List (AuditEvent × Bool))
    (batches : List (List AuditEvent × Bool)) : Prop extends
  Ledger trail calls batches, Phased trail

section Steps

variable {trail after : AuditTrail} {calls : List (AuditEvent × Bool)}
  {batches : List (List AuditEvent × Bool)} {event : AuditEvent} {events : List AuditEvent}
  {ids : List Uuid} {now : ℤ} {final : Bool}

theorem accounts_spawned : Accounts .spawned [] [] where
  sent := rfl
  dropped := rfl
  stored := rfl
  failed := rfl
  sizes := by simp
  room := by decide
  ids := List.nodup_nil
  collecting := by decide
  inserting := by simp [AuditTrail.spawned]
  ended := by simp [AuditTrail.spawned]

/-- As long as a handle is left the worker is not about to end. -/
theorem Phased.running (h : Phased trail) (hopen : trail.handles = true) :
    trail.phase ≠ .stopped ∧ ∀ events, trail.phase ≠ .inserting events true := by
  constructor
  · intro hstopped
    rw [(h.ended hstopped).1] at hopen
    cases hopen
  · intro events hphase
    rw [((h.inserting events true hphase).2.2.2 rfl).1] at hopen
    cases hopen

/-- An event is queued, or reported with the queue as it was. -/
theorem Accounts.record (h : Accounts trail calls batches) (hopen : trail.handles = true)
    (event : AuditEvent) :
    ∃ queued, Accounts (trail.record event) (calls ++ [(event, queued)]) batches := by
  obtain ⟨hrunning, hnotFinal⟩ := h.toPhased.running hopen
  unfold AuditTrail.record
  by_cases hroom : trail.queue.length < AUDIT_QUEUE_CAPACITY
  · rw [if_pos ⟨hrunning, hroom⟩]
    refine ⟨true, { h with
      sent := ?_, dropped := ?_, room := ?_, inserting := ?_, ended := ?_ }⟩
    · simp [h.sent]
    · simp [h.dropped]
    · simpa using hroom
    · intro events final hphase
      obtain ⟨hne, hsize, hbatch, -⟩ := h.inserting events final hphase
      refine ⟨hne, hsize, hbatch, fun hfinal => ?_⟩
      subst hfinal
      exact absurd hphase (hnotFinal events)
    · exact fun hstopped => absurd hstopped hrunning
  · rw [if_neg fun hboth => hroom hboth.2]
    refine ⟨false, { h with sent := ?_, dropped := ?_, failed := ?_ }⟩
    · simp [h.sent]
    · simp [h.dropped, Warning.dropped?]
    · simp [h.failed, Warning.failed?]

/-- A flush moves the batch into a transaction of its own. -/
theorem Ledger.flush (h : Ledger trail calls batches) (hphase : trail.phase = .selecting)
    (hsize : trail.batch.length ≤ AUDIT_BATCH_SIZE)
    (hfinal : final = true → trail.handles = false ∧ trail.queue = []) :
    Accounts (trail.flush final) calls batches := by
  have hsent := h.sent
  rw [hphase] at hsent
  unfold AuditTrail.flush
  split
  next hbatch =>
    rw [hbatch] at hsent
    cases final with
    | false => exact { h with
        sent := by simpa [WorkerPhase.events, hbatch] using hsent
        collecting := by simp [hbatch, AUDIT_BATCH_SIZE]
        inserting := by simp
        ended := by simp }
    | true => exact { h with
        sent := by simpa [WorkerPhase.events, hbatch] using hsent
        collecting := by simp [hbatch, AUDIT_BATCH_SIZE]
        inserting := by simp
        ended := fun _ => ⟨(hfinal rfl).1, (hfinal rfl).2, hbatch⟩ }
  next hbatch => exact { h with
    sent := by simpa [WorkerPhase.events] using hsent
    collecting := by simp [AUDIT_BATCH_SIZE]
    inserting := by
      intro events _ hsame
      obtain ⟨rfl, rfl⟩ := WorkerPhase.inserting.inj hsame
      exact ⟨hbatch, hsize, rfl, hfinal⟩
    ended := by simp }

/-- An event goes from the queue into the batch. -/
theorem Accounts.receive (h : Accounts trail calls batches)
    (hstep : auditStep trail .receive = some after) : Accounts after calls batches := by
  simp only [auditStep] at hstep
  by_cases hphase : trail.phase = .selecting
  swap
  · rw [if_pos hphase] at hstep
    cases hstep
  rw [if_neg (not_not.mpr hphase)] at hstep
  split at hstep
  next event rest hqueue =>
    obtain rfl := Option.some.inj hstep
    have hreceived : Ledger { trail with queue := rest, batch := trail.batch ++ [event] }
        calls batches := { h.toLedger with
      sent := by simp [h.sent, hqueue]
      room := by
        have hroom := h.room
        rw [hqueue, List.length_cons] at hroom
        exact Nat.le_of_succ_le hroom }
    have hcollecting := h.collecting
    split_ifs with hfull
    · exact hreceived.flush hphase (by simpa using hcollecting) (by simp)
    · exact { hreceived with
        collecting := Nat.lt_of_not_le hfull
        inserting := by simp [hphase]
        ended := by simp [hphase] }
  next hqueue =>
    split_ifs at hstep with hopen
    obtain rfl := Option.some.inj hstep
    exact h.toLedger.flush hphase h.collecting.le fun _ => ⟨by simpa using hopen, hqueue⟩

/-- The phase after a transaction. -/
theorem Phased.afterBatch (h : Phased trail) (hphase : trail.phase = .inserting events final)
    (hhandles : after.handles = trail.handles) (hqueue : after.queue = trail.queue)
    (hbatch : after.batch = trail.batch) (hafter : after.phase = AuditTrail.afterBatch final) :
    Phased after := by
  obtain ⟨-, -, hempty, hfinal⟩ := h.inserting events final hphase
  cases final with
  | false => exact ⟨hbatch ▸ h.collecting, by simp [hafter, AuditTrail.afterBatch],
      by simp [hafter, AuditTrail.afterBatch]⟩
  | true =>
    refine ⟨hbatch ▸ h.collecting, by simp [hafter, AuditTrail.afterBatch], fun _ => ?_⟩
    exact ⟨hhandles ▸ (hfinal rfl).1, hqueue ▸ (hfinal rfl).2, hbatch ▸ hempty⟩

/-- A batch is committed as a whole. -/
theorem Accounts.inserted (h : Accounts trail calls batches)
    (hstep : auditStep trail (.inserted ids now) = some after) :
    ∃ events, Accounts after calls (batches ++ [(events, true)]) := by
  simp only [auditStep] at hstep
  split at hstep
  next events final hphase =>
    split_ifs at hstep with hids
    obtain rfl := Option.some.inj hstep
    obtain ⟨hne, hsize, hempty, -⟩ := h.inserting events final hphase
    have hsent := h.sent
    rw [hphase] at hsent
    have hrows : ((ids.zip events).map fun pair => AuditRow.mk pair.1 pair.2 now).map
        AuditRow.event = events := by
      rw [List.map_map]
      exact List.map_snd_zip hids.1.ge
    have hnew : ((ids.zip events).map fun pair => AuditRow.mk pair.1 pair.2 now).map
        AuditRow.id = ids := by
      rw [List.map_map]
      exact List.map_fst_zip hids.1.le
    refine ⟨events, {
      toLedger := { h.toLedger with
        sent := ?_, stored := ?_, failed := ?_, sizes := ?_, ids := ?_ }
      toPhased := h.toPhased.afterBatch hphase rfl rfl rfl rfl }⟩
    · simpa using hsent
    · simp [h.stored, hrows]
    · simp [h.failed]
    · intro batch hmem
      rcases List.mem_append.mp hmem with hold | hlast
      · exact h.sizes batch hold
      · obtain rfl := List.mem_singleton.mp hlast
        exact ⟨hne, hsize⟩
    · rw [List.map_append, hnew]
      exact hids.2
  next => cases hstep

/-- A batch is lost as a whole, with a report of its events. -/
theorem Accounts.insertFailed (h : Accounts trail calls batches)
    (hstep : auditStep trail .insertFailed = some after) :
    ∃ events, Accounts after calls (batches ++ [(events, false)]) := by
  simp only [auditStep] at hstep
  split at hstep
  next events final hphase =>
    obtain rfl := Option.some.inj hstep
    obtain ⟨hne, hsize, hempty, -⟩ := h.inserting events final hphase
    have hsent := h.sent
    rw [hphase] at hsent
    refine ⟨events, {
      toLedger := { h.toLedger with
        sent := ?_, dropped := ?_, stored := ?_, failed := ?_, sizes := ?_ }
      toPhased := h.toPhased.afterBatch hphase rfl rfl rfl rfl }⟩
    · simpa using hsent
    · simp [h.dropped, Warning.dropped?]
    · simp [h.stored]
    · simp [h.failed, Warning.failed?]
    · intro batch hmem
      rcases List.mem_append.mp hmem with hold | hlast
      · exact h.sizes batch hold
      · obtain rfl := List.mem_singleton.mp hlast
        exact ⟨hne, hsize⟩
  next => cases hstep

/-- One step adds to the books what it handed over and the batch it finished. -/
theorem Accounts.step {action : AuditAction} (h : Accounts trail calls batches)
    (hstep : auditStep trail action = some after) :
    ∃ newCalls newBatches, newCalls.map Prod.fst = action.recorded?.toList ∧
      Accounts after (calls ++ newCalls) (batches ++ newBatches) := by
  have hsame : Accounts after calls batches →
      ∃ newCalls newBatches, newCalls.map Prod.fst = ([] : List AuditEvent) ∧
        Accounts after (calls ++ newCalls) (batches ++ newBatches) := by
    intro hafter
    exact ⟨[], [], rfl, by simpa using hafter⟩
  cases action with
  | record event =>
    simp only [auditStep] at hstep
    split_ifs at hstep with hopen
    obtain rfl := Option.some.inj hstep
    obtain ⟨queued, hqueued⟩ := h.record hopen event
    exact ⟨[(event, queued)], [], rfl, by simpa using hqueued⟩
  | close =>
    simp only [auditStep] at hstep
    split_ifs at hstep with hopen
    obtain rfl := Option.some.inj hstep
    obtain ⟨hrunning, hnotFinal⟩ := h.toPhased.running hopen
    refine hsame { h with inserting := ?_, ended := fun hstopped => absurd hstopped hrunning }
    intro events final hphase
    obtain ⟨hne, hsize, hbatch, hfinal⟩ := h.inserting events final hphase
    exact ⟨hne, hsize, hbatch, fun hlast => ⟨rfl, (hfinal hlast).2⟩⟩
  | receive => exact hsame (h.receive hstep)
  | tick =>
    simp only [auditStep] at hstep
    split_ifs at hstep with hphase
    obtain rfl := Option.some.inj hstep
    exact hsame (h.toLedger.flush hphase h.collecting.le (by simp))
  | inserted ids now =>
    obtain ⟨events, hafter⟩ := h.inserted hstep
    exact ⟨[], [(events, true)], rfl, by simpa using hafter⟩
  | insertFailed =>
    obtain ⟨events, hafter⟩ := h.insertFailed hstep
    exact ⟨[], [(events, false)], rfl, by simpa using hafter⟩

theorem Accounts.run {actions : List AuditAction} (h : Accounts trail calls batches)
    (hrun : auditMachine.run trail actions = some after) :
    ∃ newCalls newBatches, newCalls.map Prod.fst = actions.filterMap AuditAction.recorded? ∧
      Accounts after (calls ++ newCalls) (batches ++ newBatches) := by
  induction actions generalizing trail calls batches with
  | nil =>
    obtain rfl := Option.some.inj hrun
    exact ⟨[], [], rfl, by simpa using h⟩
  | cons action rest ih =>
    obtain ⟨next, hstep, hrest⟩ := Option.bind_eq_some_iff.mp hrun
    obtain ⟨firstCalls, firstBatches, hfirst, hnext⟩ := h.step hstep
    obtain ⟨laterCalls, laterBatches, hlater, hafter⟩ := ih hnext hrest
    refine ⟨firstCalls ++ laterCalls, firstBatches ++ laterBatches, ?_, by simpa using hafter⟩
    rw [List.map_append, hfirst, hlater, List.filterMap_cons]
    cases action.recorded? <;> rfl

end Steps

/-- In every run each event that is handed over is reported as dropped or is, in the order of
the calls, in a finished batch, in the open transaction, in the batch or in the queue. A finished
batch has at most `AUDIT_BATCH_SIZE` events and is stored or reported as a whole, and when the
worker has ended nothing is left in the batch or in the queue. -/
theorem every_event_accounted {actions : List AuditAction} {trail : AuditTrail}
    (hrun : auditMachine.run .spawned actions = some trail) :
    ∃ calls batches, calls.map Prod.fst = actions.filterMap AuditAction.recorded? ∧
      Accounts trail calls batches := by
  obtain ⟨calls, batches, hcalls, haccounts⟩ := accounts_spawned.run hrun
  exact ⟨calls, batches, hcalls, haccounts⟩

/-! Of three events two are stored and the last one is lost with its batch. -/

namespace LostBatch

def event (stage : String) : AuditEvent := .new 1 7 stage "service" "completed"

def actions : List AuditAction :=
  [.record (event "request_received"), .receive, .record (event "policy_evaluated"), .receive,
    .tick, .record (event "response_rendered"), .inserted [11, 12] 5, .close, .receive, .receive,
    .insertFailed]

def trail : AuditTrail where
  handles := false
  queue := []
  batch := []
  phase := .stopped
  rows := [⟨11, event "request_received", 5⟩, ⟨12, event "policy_evaluated", 5⟩]
  warnings := [.batchInsertFailed [event "response_rendered"]]

theorem accounted : ∃ calls batches,
    calls.map Prod.fst = actions.filterMap AuditAction.recorded? ∧ Accounts trail calls batches :=
  every_event_accounted (show auditMachine.run .spawned actions = some trail by decide +kernel)

end LostBatch

end FineractReports.Audit
