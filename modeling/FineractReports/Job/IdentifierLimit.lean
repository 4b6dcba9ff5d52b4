import FineractReports.Library.ExpiringCounter
import FineractReports.Library.Transition
import Mathlib.Data.Finset.Card
import Mathlib.Order.Interval.Finset.Nat

/-!
# The limit on identifier lookups

Each lookup of a user counts a key up, and the lookup that finds the key at one sets its expiry
with a second command. Any number of lookups run at once. A lookup that ends between its two
commands leaves a counter that never expires, and only such a lookup does.
-/

namespace FineractReports.Job

/-! ### The machine -/

def IDENTIFIER_LOOKUP_LIMIT : ℕ := 10

def IDENTIFIER_LOOKUP_WINDOW_SECONDS : ℕ := 60

/-- The store counts time in milliseconds. -/
def lookupWindow : ℕ := IDENTIFIER_LOOKUP_WINDOW_SECONDS * 1000

inductive LookupError where
  | unavailable
  | limited
deriving DecidableEq

def LookupError.message : LookupError → String
  | unavailable => "identifier_lookup_rate_limit_unavailable"
  | limited => "identifier_lookup_rate_limited"

/-- How far a call is. `counted` and `expired` are commands that the store has executed, with
the reply still on its way. -/
inductive LookupPhase where
  | idle
  | connected
  | counted (window attempts : ℕ)
  | expiring (window : ℕ)
  | expired (window : ℕ)
  | admitted (window attempts : ℕ)
  | refused (error : LookupError)
  | stopped
deriving DecidableEq

namespace LookupPhase

def isRunning : LookupPhase → Bool
  | connected | counted _ _ | expiring _ | expired _ => true
  | _ => false

/-- The call has created the counter and not yet set its expiry. -/
def isOpening : LookupPhase → Bool
  | counted _ attempts => attempts = 1
  | expiring _ => true
  | _ => false

/-- The counter a call was counted by, and its number there. -/
def ticket : LookupPhase → Option (ℕ × ℕ)
  | counted window attempts => some (window, attempts)
  | expiring window => some (window, 1)
  | expired window => some (window, 1)
  | admitted window attempts => some (window, attempts)
  | _ => none

end LookupPhase

/-- The key of one user, and the calls made for the user. `opened` is the number of counters
that have been created under the key. -/
structure LookupState where
  now : ℕ
  key : Option ExpiringCounter
  opened : ℕ
  calls : ℕ → LookupPhase

inductive LookupAction where
  | tick (milliseconds : ℕ)
  | connect (call : ℕ)
  | incr (call : ℕ)
  | receive (call : ℕ)
  | expire (call : ℕ)
  | fail (call : ℕ)
  | stop (call : ℕ)

namespace LookupState

def setCall (state : LookupState) (call : ℕ) (phase : LookupPhase) : LookupState :=
  { state with calls := Function.update state.calls call phase }

def live (state : LookupState) : Option ExpiringCounter :=
  ExpiringCounter.live state.now state.key

def initial : LookupState where
  now := 0
  key := none
  opened := 0
  calls _ := .idle

end LookupState

def checkAttempts (window attempts : ℕ) : LookupPhase :=
  if IDENTIFIER_LOOKUP_LIMIT < attempts then .refused .limited else .admitted window attempts

/-- Where a call goes on with the reply of its command. -/
def afterReply : LookupPhase → Option LookupPhase
  | .counted window attempts =>
    some (if attempts = 1 then .expiring window else checkAttempts window attempts)
  | .expired window => some (checkAttempts window 1)
  | _ => none

/-- The store executes the count of a call; the count is a 64-bit integer. -/
def countCall (state : LookupState) (call : ℕ) : Option LookupState :=
  let counter := ExpiringCounter.incr state.now state.key
  let window := if state.live = none then state.opened + 1 else state.opened
  if counter.count < 2 ^ 63 then
    some (({ state with key := some counter, opened := window } : LookupState).setCall call
      (.counted window counter.count))
  else none

/-- A command that fails may have been executed or not: the call fails before the command is
executed or before its reply is received. -/
def lookupStep (state : LookupState) : LookupAction → Option LookupState
  | .tick milliseconds => some { state with now := state.now + milliseconds }
  | .connect call => if state.calls call = .idle then some (state.setCall call .connected) else none
  | .incr call => if state.calls call = .connected then countCall state call else none
  | .receive call => (afterReply (state.calls call)).map (state.setCall call)
  | .expire call =>
    match state.calls call with
    | .expiring window =>
      some (({ state with
        key := ExpiringCounter.expire state.now lookupWindow state.key } : LookupState).setCall
          call (.expired window))
    | _ => none
  | .fail call =>
    if (state.calls call).isRunning = true then
      some (state.setCall call (.refused .unavailable))
    else none
  | .stop call =>
    if (state.calls call).isRunning = true then some (state.setCall call .stopped) else none

/-- `enforce_identifier_lookup_limit`, called any number of times for one user. -/
def enforceIdentifierLookupLimit : Machine LookupState LookupAction where
  init state := state = LookupState.initial
  step := lookupStep

/-! ### Recovery -/

/-- No call stands between its two commands. -/
def Settled (state : LookupState) : Prop :=
  ∀ call, (state.calls call).isOpening = false

/-- The steps of a call that nothing disturbs, made once the window has passed. -/
def laterLookup (call : ℕ) : List LookupAction :=
  [.tick (lookupWindow + 1), .connect call, .incr call, .receive call, .expire call, .receive call]

/-- A counter expires within the window, so that a call is admitted after it, and each counter
admits no more calls than the limit. -/
structure Recovers (state : LookupState) : Prop where
  expires : Settled state → ∀ counter ∈ state.live,
    ∃ deadline ∈ counter.expires, deadline ≤ state.now + lookupWindow
  readmits : Settled state → ∀ call, state.calls call = .idle →
    ∃ later, enforceIdentifierLookupLimit.run state (laterLookup call) = some later ∧
      ∃ window attempts, later.calls call = .admitted window attempts
  limit : ∀ (window : ℕ) (calls : Finset ℕ),
    (∀ call ∈ calls, ∃ attempts, state.calls call = .admitted window attempts) →
      calls.card ≤ IDENTIFIER_LOOKUP_LIMIT

/-- A call neither fails nor stops between its two commands. -/
def KeepsExpiry (state : LookupState) : LookupAction → Prop
  | .fail call | .stop call => (state.calls call).isOpening = false
  | _ => True

instance (state : LookupState) : (action : LookupAction) → Decidable (KeepsExpiry state action)
  | .fail call | .stop call => inferInstanceAs (Decidable ((state.calls call).isOpening = false))
  | .tick _ | .connect _ | .incr _ | .receive _ | .expire _ => .isTrue trivial

/-! ### What a step can do -/

/-- The effect of one step: the clock, a reply, the end of a call, or a command in the store. -/
inductive LookupEffect (state : LookupState) : LookupAction → LookupState → Prop
  | tick (milliseconds : ℕ) : LookupEffect state (.tick milliseconds)
      { state with now := state.now + milliseconds }
  | advance {action : LookupAction} {call : ℕ} {phase : LookupPhase}
      (hkeeps : KeepsExpiry state action)
      (hopening : phase.isOpening = (state.calls call).isOpening)
      (hticket : ∀ ticket ∈ phase.ticket, (state.calls call).ticket = some ticket)
      (hlimit : ∀ window attempts, phase = .admitted window attempts →
        attempts ≤ IDENTIFIER_LOOKUP_LIMIT) :
      LookupEffect state action (state.setCall call phase)
  | leave {action : LookupAction} {call : ℕ} {phase : LookupPhase}
      (hkeeps : KeepsExpiry state action ↔ (state.calls call).isOpening = false)
      (hticket : phase.ticket = none) :
      LookupEffect state action (state.setCall call phase)
  | count {call : ℕ} {counted : LookupState} (hcall : state.calls call = .connected)
      (hcount : countCall state call = some counted) : LookupEffect state (.incr call) counted
  | expire {call window : ℕ} (hcall : state.calls call = .expiring window) :
      LookupEffect state (.expire call) (({ state with
        key := ExpiringCounter.expire state.now lookupWindow state.key } : LookupState).setCall
          call (.expired window))

section Steps

variable {state after : LookupState} {action : LookupAction} {call other : ℕ}
  {phase : LookupPhase}

theorem calls_setCall : (state.setCall call phase).calls other =
    if other = call then phase else state.calls other :=
  Function.update_apply _ _ _ _

theorem calls_setCall_self : (state.setCall call phase).calls call = phase :=
  Function.update_self _ _ _

theorem ticket_setCall
    (hticket : ∀ ticket ∈ phase.ticket, (state.calls call).ticket = some ticket)
    {ticket : ℕ × ℕ} (h : ((state.setCall call phase).calls other).ticket = some ticket) :
    (state.calls other).ticket = some ticket := by
  rw [calls_setCall] at h
  split_ifs at h with heq
  · rw [heq]
    exact hticket ticket h
  · exact h

/-- A call that creates the counter is number one of it. -/
theorem LookupPhase.ticket_of_isOpening (h : phase.isOpening = true) :
    ∃ window, phase.ticket = some (window, 1) := by
  cases phase with
  | counted window attempts =>
    have hone : attempts = 1 := of_decide_eq_true h
    exact ⟨window, by rw [LookupPhase.ticket, hone]⟩
  | expiring window => exact ⟨window, rfl⟩
  | _ => exact absurd h Bool.false_ne_true

/-- A call without a number has no expiry to set. -/
theorem LookupPhase.isOpening_of_ticket (h : phase.ticket = none) : phase.isOpening = false := by
  by_contra hopening
  obtain ⟨window, hwindow⟩ :=
    LookupPhase.ticket_of_isOpening (Bool.eq_true_of_not_eq_false hopening)
  cases h.symm.trans hwindow

theorem checkAttempts_isOpening (window attempts : ℕ) :
    (checkAttempts window attempts).isOpening = false := by
  unfold checkAttempts
  split_ifs <;> rfl

theorem checkAttempts_ticket {window attempts : ℕ} {ticket : ℕ × ℕ}
    (h : ticket ∈ (checkAttempts window attempts).ticket) : (window, attempts) = ticket := by
  unfold checkAttempts at h
  split_ifs at h
  · exact absurd h (Option.not_mem_none _)
  · exact Option.some.inj h

theorem checkAttempts_admitted {window attempts counter number : ℕ}
    (h : checkAttempts window attempts = .admitted counter number) :
    number ≤ IDENTIFIER_LOOKUP_LIMIT := by
  unfold checkAttempts at h
  split_ifs at h with hlimit
  obtain ⟨-, rfl⟩ := LookupPhase.admitted.inj h
  exact Nat.not_lt.mp hlimit

/-- The reply moves a call on; the one that created the counter still has its expiry to set. -/
theorem afterReply_effect (h : afterReply (state.calls call) = some phase) :
    LookupEffect state (.receive call) (state.setCall call phase) := by
  cases hcall : state.calls call with
  | counted window attempts =>
    rw [hcall, afterReply] at h
    obtain rfl := Option.some.inj h
    by_cases hone : attempts = 1
    · rw [if_pos hone]
      refine .advance trivial ?_ ?_ fun _ _ hadmitted => LookupPhase.noConfusion hadmitted
      · rw [hcall, LookupPhase.isOpening, LookupPhase.isOpening, decide_eq_true hone]
      · intro ticket hticket
        rw [hcall, LookupPhase.ticket, hone]
        exact hticket
    · rw [if_neg hone]
      refine .advance trivial ?_ ?_ fun _ _ hadmitted => checkAttempts_admitted hadmitted
      · rw [checkAttempts_isOpening, hcall, LookupPhase.isOpening, decide_eq_false hone]
      · intro ticket hticket
        rw [hcall, LookupPhase.ticket, checkAttempts_ticket hticket]
  | expired window =>
    rw [hcall] at h
    obtain rfl := Option.some.inj h
    refine .advance trivial ?_ ?_ fun _ _ hadmitted => checkAttempts_admitted hadmitted
    · rw [checkAttempts_isOpening, hcall]
      rfl
    · intro ticket hticket
      rw [hcall, LookupPhase.ticket, checkAttempts_ticket hticket]
  | _ =>
    rw [hcall] at h
    cases h

theorem lookupStep_effect (h : lookupStep state action = some after) :
    LookupEffect state action after := by
  cases action with
  | tick milliseconds =>
    obtain rfl := Option.some.inj h
    exact .tick milliseconds
  | connect call =>
    rw [lookupStep] at h
    split_ifs at h with hcall
    obtain rfl := Option.some.inj h
    refine .advance trivial ?_ ?_ fun _ _ hadmitted => LookupPhase.noConfusion hadmitted
    · rw [hcall]
      rfl
    · exact fun ticket hticket => absurd hticket (Option.not_mem_none _)
  | incr call =>
    rw [lookupStep] at h
    split_ifs at h with hcall
    exact .count hcall h
  | receive call =>
    obtain ⟨phase, hphase, rfl⟩ := Option.map_eq_some_iff.mp h
    exact afterReply_effect hphase
  | expire call =>
    rw [lookupStep] at h
    split at h
    · rename_i window hcall
      obtain rfl := Option.some.inj h
      exact .expire hcall
    · cases h
  | fail call =>
    rw [lookupStep] at h
    split_ifs at h
    obtain rfl := Option.some.inj h
    exact .leave Iff.rfl rfl
  | stop call =>
    rw [lookupStep] at h
    split_ifs at h
    obtain rfl := Option.some.inj h
    exact .leave Iff.rfl rfl

end Steps

/-! ### What every run keeps -/

/-- The tickets of a state: each call has its own number of one counter, and the call that
created the counter has it without an expiry until it sets one. -/
structure Ticketed (state : LookupState) : Prop where
  opening : ∀ call, (state.calls call).isOpening = true →
    (state.calls call).ticket = some (state.opened, 1) ∧
      ∃ counter, state.key = some counter ∧ counter.expires = none
  bounded : ∀ call window attempts, (state.calls call).ticket = some (window, attempts) →
    window ≤ state.opened ∧ 1 ≤ attempts ∧
      (window = state.opened → ∃ counter, state.key = some counter ∧ attempts ≤ counter.count)
  distinct : ∀ call other ticket, (state.calls call).ticket = some ticket →
    (state.calls other).ticket = some ticket → call = other
  admitted : ∀ call window attempts, state.calls call = .admitted window attempts →
    attempts ≤ IDENTIFIER_LOOKUP_LIMIT
  counter : ∀ counter ∈ state.key, 1 ≤ counter.count ∧
    ∀ deadline ∈ counter.expires, deadline ≤ state.now + lookupWindow

theorem ticketed_initial : Ticketed LookupState.initial where
  opening _ h := absurd h Bool.false_ne_true
  bounded _ _ _ h := by cases h
  distinct _ _ _ h _ := by cases h
  admitted _ _ _ h := by cases h
  counter _ h := absurd h (Option.not_mem_none _)

namespace Ticketed

variable {state after : LookupState} {action : LookupAction} {call window : ℕ}
  {phase : LookupPhase}

theorem tick (h : Ticketed state) (milliseconds : ℕ) :
    Ticketed { state with now := state.now + milliseconds } where
  opening := h.opening
  bounded := h.bounded
  distinct := h.distinct
  admitted := h.admitted
  counter counter hcounter :=
    ⟨(h.counter counter hcounter).1, fun deadline hdeadline =>
      ((h.counter counter hcounter).2 deadline hdeadline).trans (by simp only; omega)⟩

/-- A call that keeps its ticket, or gives it up. -/
theorem setCall (h : Ticketed state)
    (hopening : phase.isOpening = true → (state.calls call).isOpening = true)
    (hticket : ∀ ticket ∈ phase.ticket, (state.calls call).ticket = some ticket)
    (hlimit : ∀ window attempts, phase = .admitted window attempts →
      attempts ≤ IDENTIFIER_LOOKUP_LIMIT) : Ticketed (state.setCall call phase) := by
  refine ⟨?_, fun other window attempts hother => h.bounded other window attempts
    (ticket_setCall hticket hother), fun first second ticket hfirst hsecond =>
    h.distinct first second ticket (ticket_setCall hticket hfirst)
      (ticket_setCall hticket hsecond), ?_, h.counter⟩
  · intro other hother
    rw [calls_setCall] at hother ⊢
    split_ifs at hother ⊢ with heq
    · obtain ⟨hfirst, hkey⟩ := h.opening call (hopening hother)
      obtain ⟨window, hwindow⟩ := LookupPhase.ticket_of_isOpening hother
      rw [hticket _ hwindow] at hfirst
      exact ⟨hwindow.trans hfirst, hkey⟩
    · exact h.opening other hother
  · intro other window attempts hother
    rw [calls_setCall] at hother
    split_ifs at hother with heq
    · exact hlimit window attempts hother
    · exact h.admitted other window attempts hother

/-- The number that the next count gives, and the counter it belongs to. -/
structure NextNumber (state : LookupState) (window : ℕ) (counter : ExpiringCounter) : Prop where
  later : state.opened ≤ window
  fresh : ∀ call attempts, (state.calls call).ticket = some (window, attempts) →
    attempts < counter.count
  opening : ∀ call, (state.calls call).isOpening = true →
    window = state.opened ∧ counter.expires = none
  first : counter.count = 1 → counter.expires = none
  counter : 1 ≤ counter.count ∧
    ∀ deadline ∈ counter.expires, deadline ≤ state.now + lookupWindow

theorem nextNumber_live (h : Ticketed state) {counter : ExpiringCounter}
    (hkey : state.key = some counter) :
    NextNumber state state.opened { counter with count := counter.count + 1 } where
  later := le_rfl
  fresh call attempts hticket := by
    obtain ⟨-, -, hcount⟩ := h.bounded call _ _ hticket
    obtain ⟨found, hfound, hle⟩ := hcount rfl
    obtain rfl := Option.some.inj (hkey.symm.trans hfound)
    exact Nat.lt_succ_of_le hle
  opening call hopening := by
    obtain ⟨-, found, hfound, hnone⟩ := h.opening call hopening
    obtain rfl := Option.some.inj (hkey.symm.trans hfound)
    exact ⟨rfl, hnone⟩
  first hone := by
    have hpositive := (h.counter counter hkey).1
    have hsucc : counter.count + 1 = 1 := hone
    omega
  counter := ⟨Nat.le_add_left _ _, (h.counter counter hkey).2⟩

/-- A counter that has expired had its expiry set, so no call has still to set it. -/
theorem settled_of_live_none (h : Ticketed state) (hlive : state.live = none) :
    Settled state := by
  intro call
  by_contra hopening
  obtain ⟨-, counter, hkey, hnone⟩ := h.opening call (Bool.eq_true_of_not_eq_false hopening)
  rw [LookupState.live, hkey, ExpiringCounter.live_of_expires_none hnone] at hlive
  cases hlive

theorem nextNumber_new (h : Ticketed state) (hlive : state.live = none) :
    NextNumber state (state.opened + 1) { count := 1, expires := none } where
  later := Nat.le_succ _
  fresh call attempts hticket := by
    obtain ⟨hwindow, -, -⟩ := h.bounded call _ _ hticket
    omega
  opening call hopening := by
    rw [h.settled_of_live_none hlive call] at hopening
    exact absurd hopening Bool.false_ne_true
  first _ := rfl
  counter := ⟨le_rfl, fun _ hdeadline => absurd hdeadline (Option.not_mem_none _)⟩

/-- A call gets a number of its own. -/
theorem setCounted (h : Ticketed state) {counter : ExpiringCounter}
    (hnext : NextNumber state window counter) :
    Ticketed (({ state with key := some counter, opened := window } : LookupState).setCall call
      (.counted window counter.count)) := by
  refine ⟨?_, ?_, ?_, ?_, ?_⟩
  · intro other hother
    rw [calls_setCall] at hother ⊢
    split_ifs at hother ⊢ with heq
    · have hone : counter.count = 1 := of_decide_eq_true hother
      exact ⟨by rw [hone]; rfl, counter, rfl, hnext.first hone⟩
    · obtain ⟨hwindow, hnone⟩ := hnext.opening other hother
      refine ⟨?_, counter, rfl, hnone⟩
      rw [(h.opening other hother).1, ← hwindow]
      rfl
  · intro other given attempts hother
    rw [calls_setCall] at hother
    split_ifs at hother with heq
    · obtain ⟨rfl, rfl⟩ := Prod.mk.inj (Option.some.inj hother)
      exact ⟨le_rfl, hnext.counter.1, fun _ => ⟨counter, rfl, le_rfl⟩⟩
    · obtain ⟨hgiven, hattempts, -⟩ := h.bounded other given attempts hother
      refine ⟨hgiven.trans hnext.later, hattempts, ?_⟩
      rintro rfl
      exact ⟨counter, rfl, (hnext.fresh other attempts hother).le⟩
  · intro first second ticket hfirst hsecond
    rw [calls_setCall] at hfirst hsecond
    split_ifs at hfirst hsecond with hcall hother hother
    · rw [hcall, hother]
    · exact absurd (hnext.fresh second _ (hsecond.trans hfirst.symm)) (lt_irrefl _)
    · exact absurd (hnext.fresh first _ (hfirst.trans hsecond.symm)) (lt_irrefl _)
    · exact h.distinct first second ticket hfirst hsecond
  · intro other given attempts hother
    rw [calls_setCall] at hother
    split_ifs at hother
    exact h.admitted other given attempts hother
  · intro found hfound
    obtain rfl := Option.some.inj hfound
    exact hnext.counter

/-- What the store has after a count. -/
theorem countCall_cases (h : Ticketed state) (hcount : countCall state call = some after) :
    ∃ window counter, NextNumber state window counter ∧
      after = ({ state with key := some counter, opened := window } : LookupState).setCall call
        (.counted window counter.count) ∧
      ((∃ found, state.key = some found ∧ found.expires = counter.expires ∧
          counter.count = found.count + 1) ∨ (state.live = none ∧ counter.count = 1)) := by
  unfold countCall at hcount
  dsimp only at hcount
  cases hlive : state.live with
  | none =>
    rw [if_pos hlive, ExpiringCounter.incr_of_none hlive] at hcount
    split_ifs at hcount
    exact ⟨_, _, h.nextNumber_new hlive, (Option.some.inj hcount).symm,
      .inr ⟨rfl, rfl⟩⟩
  | some found =>
    have hne : state.live ≠ none := by rw [hlive]; exact Option.some_ne_none _
    rw [if_neg hne, ExpiringCounter.incr_of_live hlive] at hcount
    split_ifs at hcount
    obtain ⟨hkey, -⟩ := ExpiringCounter.live_eq_some.mp hlive
    exact ⟨_, _, h.nextNumber_live hkey, (Option.some.inj hcount).symm,
      .inl ⟨found, hkey, rfl, rfl⟩⟩

/-- The call that created the counter finds it, and sets its expiry. -/
theorem expire_key (h : Ticketed state) (hcall : state.calls call = .expiring window) :
    window = state.opened ∧ ∃ counter, state.key = some counter ∧
      ExpiringCounter.expire state.now lookupWindow state.key =
        some { counter with expires := some (state.now + lookupWindow) } := by
  obtain ⟨hticket, counter, hkey, hnone⟩ := h.opening call (by rw [hcall]; rfl)
  rw [hcall, LookupPhase.ticket] at hticket
  refine ⟨(Prod.mk.inj (Option.some.inj hticket)).1, counter, hkey, ?_⟩
  rw [ExpiringCounter.expire, hkey, ExpiringCounter.live_of_expires_none hnone, Option.map_some]

/-- One call at a time creates a counter. -/
theorem opening_unique (h : Ticketed state) {other : ℕ}
    (hcall : (state.calls call).isOpening = true) (hother : (state.calls other).isOpening = true) :
    call = other :=
  h.distinct call other _ (h.opening call hcall).1 (h.opening other hother).1

theorem expire (h : Ticketed state) (hcall : state.calls call = .expiring window) :
    Ticketed (({ state with
      key := ExpiringCounter.expire state.now lookupWindow state.key } : LookupState).setCall
        call (.expired window)) := by
  have hopening : (state.calls call).isOpening = true := by rw [hcall]; rfl
  obtain ⟨rfl, counter, hkey, hexpire⟩ := h.expire_key hcall
  have hticket : ∀ ticket ∈ (LookupPhase.expired state.opened).ticket,
      (state.calls call).ticket = some ticket := by
    rw [hcall]
    exact fun _ hmem => hmem
  refine ⟨?_, ?_, fun first second ticket hfirst hsecond =>
    h.distinct first second ticket (ticket_setCall hticket hfirst)
      (ticket_setCall hticket hsecond), ?_, ?_⟩
  · intro other hother
    rw [calls_setCall] at hother
    split_ifs at hother with heq
    · exact absurd hother Bool.false_ne_true
    · exact absurd (h.opening_unique hother hopening) heq
  · intro other given attempts hother
    obtain ⟨hgiven, hattempts, hcount⟩ := h.bounded other given attempts
      (ticket_setCall hticket hother)
    refine ⟨hgiven, hattempts, fun heq => ?_⟩
    obtain ⟨found, hfound, hle⟩ := hcount heq
    obtain rfl := Option.some.inj (hkey.symm.trans hfound)
    exact ⟨_, hexpire, hle⟩
  · intro other given attempts hother
    rw [calls_setCall] at hother
    split_ifs at hother
    exact h.admitted other given attempts hother
  · intro found hfound
    obtain rfl := Option.some.inj (hexpire.symm.trans hfound)
    refine ⟨(h.counter counter hkey).1, fun deadline hdeadline => ?_⟩
    obtain rfl := Option.some.inj hdeadline
    exact le_rfl

/-- Every step keeps the tickets. -/
theorem step (h : Ticketed state) (hstep : lookupStep state action = some after) :
    Ticketed after := by
  cases lookupStep_effect hstep with
  | tick milliseconds => exact h.tick milliseconds
  | advance _ hopening hticket hlimit =>
    exact h.setCall (fun hphase => hopening ▸ hphase) hticket hlimit
  | leave _ hticket =>
    refine h.setCall (fun hphase => ?_) (fun ticket hmem => ?_) fun window attempts hadmitted => ?_
    · rw [LookupPhase.isOpening_of_ticket hticket] at hphase
      exact absurd hphase Bool.false_ne_true
    · cases hticket.symm.trans hmem
    · rw [hadmitted] at hticket
      cases hticket
  | count _ hcount =>
    obtain ⟨window, counter, hnext, rfl, -⟩ := h.countCall_cases hcount
    exact h.setCounted hnext
  | expire hcall => exact h.expire hcall

/-- The calls that one counter admits have different numbers up to the limit. -/
theorem card_admitted (h : Ticketed state) {calls : Finset ℕ}
    (hcalls : ∀ call ∈ calls, ∃ attempts, state.calls call = .admitted window attempts) :
    calls.card ≤ IDENTIFIER_LOOKUP_LIMIT := by
  have hticket : ∀ call ∈ calls, ∃ attempts, (state.calls call).ticket = some (window, attempts) ∧
      attempts ∈ Finset.Icc 1 IDENTIFIER_LOOKUP_LIMIT := by
    intro call hcall
    obtain ⟨attempts, hadmitted⟩ := hcalls call hcall
    have hgiven : (state.calls call).ticket = some (window, attempts) := by rw [hadmitted]; rfl
    exact ⟨attempts, hgiven, Finset.mem_Icc.mpr
      ⟨(h.bounded call window attempts hgiven).2.1, h.admitted call window attempts hadmitted⟩⟩
  choose! number hnumber using hticket
  have hmaps : Set.MapsTo number calls (Finset.Icc 1 IDENTIFIER_LOOKUP_LIMIT) :=
    fun call hcall => (hnumber call hcall).2
  have hinjective : Set.InjOn number calls := by
    intro first hfirst second hsecond heq
    refine h.distinct first second _ (hnumber first hfirst).1 ?_
    rw [heq]
    exact (hnumber second hsecond).1
  exact (Finset.card_le_card_of_injOn number hmaps hinjective).trans_eq
    (Nat.card_Icc 1 IDENTIFIER_LOOKUP_LIMIT)

end Ticketed

/-! ### Runs with and without a lost expiry -/

/-- A counter without an expiry has a call that will set one. -/
def Attended (state : LookupState) : Prop :=
  ∀ counter ∈ state.key, counter.expires = none → ∃ call, (state.calls call).isOpening = true

/-- A counter without an expiry, and no call to set one. -/
def Abandoned (state : LookupState) : Prop :=
  Settled state ∧ ∃ counter ∈ state.key, counter.expires = none

section Runs

variable {state after : LookupState} {action : LookupAction} {call : ℕ}

theorem settled_setCall {phase : LookupPhase} (h : Settled state)
    (hphase : phase.isOpening = false) : Settled (state.setCall call phase) := by
  intro other
  rw [calls_setCall]
  split_ifs
  · exact hphase
  · exact h other

theorem attended_step (h : Ticketed state) (hattended : Attended state)
    (hkeeps : KeepsExpiry state action) (hstep : lookupStep state action = some after) :
    Attended after := by
  cases lookupStep_effect hstep with
  | tick milliseconds => exact hattended
  | @advance _ call phase _ hopening _ _ =>
    intro counter hcounter hnone
    obtain ⟨other, hother⟩ := hattended counter hcounter hnone
    refine ⟨other, ?_⟩
    rw [calls_setCall]
    split_ifs with heq
    · rw [hopening, ← heq, hother]
    · exact hother
  | @leave _ call phase hleaves _ =>
    intro counter hcounter hnone
    obtain ⟨other, hother⟩ := hattended counter hcounter hnone
    refine ⟨other, ?_⟩
    rw [calls_setCall, if_neg, hother]
    rintro rfl
    exact absurd hother (by rw [hleaves.mp hkeeps]; exact Bool.false_ne_true)
  | @count call _ hcall hcount =>
    obtain ⟨window, counter, -, rfl, ⟨found, hfound, hexpires, -⟩ | ⟨-, hone⟩⟩ :=
      h.countCall_cases hcount
    · intro given hgiven hnone
      obtain rfl := Option.some.inj hgiven
      obtain ⟨other, hother⟩ := hattended found hfound (hexpires.trans hnone)
      refine ⟨other, ?_⟩
      rw [calls_setCall, if_neg]
      · exact hother
      · rintro rfl
        rw [hcall] at hother
        exact Bool.false_ne_true hother
    · intro given _ _
      refine ⟨call, ?_⟩
      rw [calls_setCall, if_pos rfl]
      exact decide_eq_true hone
  | expire hcall =>
    obtain ⟨-, counter, -, hexpire⟩ := h.expire_key hcall
    intro given hgiven hnone
    obtain rfl := Option.some.inj (hexpire.symm.trans hgiven)
    cases hnone

/-- A counter that nobody will let expire is found at any time. -/
theorem Abandoned.exists_live (h : Abandoned state) :
    ∃ counter ∈ state.live, counter.expires = none := by
  obtain ⟨-, counter, hkey, hnone⟩ := h
  refine ⟨counter, ?_, hnone⟩
  rw [LookupState.live, Option.mem_def.mp hkey]
  exact ExpiringCounter.live_of_expires_none hnone

theorem Abandoned.live_ne_none (h : Abandoned state) : state.live ≠ none := by
  obtain ⟨counter, hlive, -⟩ := h.exists_live
  rw [Option.mem_def.mp hlive]
  exact Option.some_ne_none _

theorem Settled.ne_expiring (h : Settled state) {window : ℕ} :
    state.calls call ≠ .expiring window := by
  intro hcall
  have hopening := h call
  rw [hcall] at hopening
  cases hopening

/-- Only a call that creates a counter sets an expiry, and none is created while one is there. -/
theorem abandoned_step (h : Ticketed state) (habandoned : Abandoned state)
    (hstep : lookupStep state action = some after) : Abandoned after := by
  have hlive := habandoned.live_ne_none
  obtain ⟨hsettled, counter, hkey, hnone⟩ := habandoned
  cases lookupStep_effect hstep with
  | tick milliseconds => exact ⟨hsettled, counter, hkey, hnone⟩
  | @advance _ call phase _ hopening _ _ =>
    exact ⟨settled_setCall hsettled (hopening.trans (hsettled call)), counter, hkey, hnone⟩
  | leave _ hticket =>
    exact ⟨settled_setCall hsettled (LookupPhase.isOpening_of_ticket hticket), counter, hkey, hnone⟩
  | count _ hcount =>
    obtain ⟨window, given, -, rfl, ⟨found, hfound, hexpires, hcount⟩ | ⟨hgone, -⟩⟩ :=
      h.countCall_cases hcount
    · obtain rfl := Option.some.inj (hkey.symm.trans hfound)
      have hpositive := (h.counter counter hkey).1
      refine ⟨settled_setCall hsettled ?_, given, rfl, hexpires.symm.trans hnone⟩
      rw [LookupPhase.isOpening, decide_eq_false_iff_not]
      omega
    · exact absurd hgone hlive
  | expire hcall => exact absurd hcall hsettled.ne_expiring

/-- A call that ends between its two commands leaves its counter to nobody. -/
theorem abandoned_of_leave (h : Ticketed state) (hlost : ¬ KeepsExpiry state action)
    (hstep : lookupStep state action = some after) : Abandoned after := by
  cases lookupStep_effect hstep with
  | @leave _ call phase hleaves hticket =>
    have hopening : (state.calls call).isOpening = true := by
      by_contra hclosed
      exact hlost (hleaves.mpr (Bool.eq_false_of_not_eq_true hclosed))
    refine ⟨fun other => ?_, (h.opening call hopening).2⟩
    rw [calls_setCall]
    split_ifs with heq
    · exact LookupPhase.isOpening_of_ticket hticket
    · by_contra hother
      exact heq (h.opening_unique (Bool.eq_true_of_not_eq_false hother) hopening)
  | advance hkeeps => exact absurd hkeeps hlost
  | tick | count | expire => exact absurd trivial hlost

/-- The undisturbed call creates a counter, since the one before has expired. -/
theorem laterLookup_admitted (hcall : state.calls call = .idle)
    (hexpires : ∀ counter ∈ state.key, ∃ deadline ∈ counter.expires,
      deadline ≤ state.now + lookupWindow) :
    ∃ later, enforceIdentifierLookupLimit.run state (laterLookup call) = some later ∧
      ∃ window attempts, later.calls call = .admitted window attempts := by
  have hlive : ExpiringCounter.live (state.now + (lookupWindow + 1)) state.key = none := by
    refine ExpiringCounter.live_of_past fun counter hcounter => ?_
    obtain ⟨deadline, hdeadline, hle⟩ := hexpires counter hcounter
    exact ⟨deadline, hdeadline, by omega⟩
  let waited : LookupState := { state with now := state.now + (lookupWindow + 1) }
  let connected := waited.setCall call .connected
  let counted := ({ connected with
    key := some { count := 1, expires := none }, opened := state.opened + 1 } :
      LookupState).setCall call (.counted (state.opened + 1) 1)
  let expiring := counted.setCall call (.expiring (state.opened + 1))
  let expired := ({ expiring with
    key := ExpiringCounter.expire expiring.now lookupWindow expiring.key } :
      LookupState).setCall call (.expired (state.opened + 1))
  have hconnect : lookupStep waited (.connect call) = some connected := by
    rw [lookupStep, if_pos]
    exact hcall
  have hincr : lookupStep connected (.incr call) = some counted := by
    rw [lookupStep, if_pos calls_setCall_self]
    have hnone : connected.live = none := hlive
    have hcounter : ExpiringCounter.incr connected.now connected.key =
        { count := 1, expires := none } := ExpiringCounter.incr_of_none hlive
    rw [countCall, if_pos hnone, hcounter]
    rfl
  have hfirst : lookupStep counted (.receive call) = some expiring := by
    rw [lookupStep, calls_setCall_self]
    rfl
  have hexpire : lookupStep expiring (.expire call) = some expired := by
    rw [lookupStep, calls_setCall_self]
  have hsecond : lookupStep expired (.receive call) =
      some (expired.setCall call (.admitted (state.opened + 1) 1)) := by
    rw [lookupStep, calls_setCall_self]
    rfl
  refine ⟨expired.setCall call (.admitted (state.opened + 1) 1), ?_, _, _, calls_setCall_self⟩
  have hrun : enforceIdentifierLookupLimit.run state (laterLookup call) =
      (lookupStep waited (.connect call)).bind fun connected =>
        (lookupStep connected (.incr call)).bind fun counted =>
          (lookupStep counted (.receive call)).bind fun expiring =>
            (lookupStep expiring (.expire call)).bind fun expired =>
              (lookupStep expired (.receive call)).bind some := rfl
  rw [hrun, hconnect, Option.bind_some, hincr, Option.bind_some, hfirst, Option.bind_some,
    hexpire, Option.bind_some, hsecond, Option.bind_some]

theorem recovers_of_attended (h : Ticketed state) (hattended : Attended state) :
    Recovers state := by
  have hexpires : Settled state → ∀ counter ∈ state.key, ∃ deadline ∈ counter.expires,
      deadline ≤ state.now + lookupWindow := by
    intro hsettled counter hcounter
    cases hnone : counter.expires with
    | none =>
      obtain ⟨call, hcall⟩ := hattended counter hcounter hnone
      exact absurd hcall (by rw [hsettled call]; exact Bool.false_ne_true)
    | some deadline =>
      exact ⟨deadline, rfl, (h.counter counter hcounter).2 deadline hnone⟩
  refine ⟨fun hsettled counter hcounter => ?_, fun hsettled call hcall =>
    laterLookup_admitted hcall (hexpires hsettled), fun window calls hcalls =>
    h.card_admitted hcalls⟩
  exact hexpires hsettled counter (ExpiringCounter.live_eq_some.mp hcounter).1

theorem not_recovers_of_abandoned (h : Abandoned state) : ¬ Recovers state := by
  obtain ⟨counter, hlive, hnone⟩ := h.exists_live
  intro hrecovers
  obtain ⟨deadline, hdeadline, -⟩ := hrecovers.expires h.1 counter hlive
  rw [hnone] at hdeadline
  exact Option.not_mem_none _ hdeadline

/-- A counter without an expiry is at the limit, and a call has no number up to it. -/
def ShutOut (call : ℕ) (state : LookupState) : Prop :=
  Ticketed state ∧ Abandoned state ∧
    (∀ counter ∈ state.key, IDENTIFIER_LOOKUP_LIMIT ≤ counter.count) ∧
    ∀ window attempts, (state.calls call).ticket = some (window, attempts) →
      IDENTIFIER_LOOKUP_LIMIT < attempts

theorem shutOut_step (h : ShutOut call state) (hstep : lookupStep state action = some after) :
    ShutOut call after := by
  obtain ⟨hticketed, habandoned, hfull, hnumber⟩ := h
  refine ⟨hticketed.step hstep, abandoned_step hticketed habandoned hstep, ?_⟩
  cases lookupStep_effect hstep with
  | tick milliseconds => exact ⟨hfull, hnumber⟩
  | advance _ _ hticket _ =>
    exact ⟨hfull, fun window attempts hgiven =>
      hnumber window attempts (ticket_setCall hticket hgiven)⟩
  | leave _ hticket =>
    refine ⟨hfull, fun window attempts hgiven => hnumber window attempts ?_⟩
    refine ticket_setCall (fun ticket hmem => ?_) hgiven
    rw [hticket] at hmem
    exact absurd hmem (Option.not_mem_none _)
  | count _ hcount =>
    obtain ⟨window, given, -, rfl, ⟨found, hfound, -, hcount⟩ | ⟨hlive, -⟩⟩ :=
      hticketed.countCall_cases hcount
    · have hpast : IDENTIFIER_LOOKUP_LIMIT < given.count := by
        rw [hcount]
        exact Nat.lt_succ_of_le (hfull found hfound)
      refine ⟨fun counter hcounter => ?_, fun other attempts hgiven => ?_⟩
      · obtain rfl := Option.some.inj hcounter
        exact hpast.le
      · rw [calls_setCall] at hgiven
        split_ifs at hgiven
        · obtain ⟨-, rfl⟩ := Prod.mk.inj (Option.some.inj hgiven)
          exact hpast
        · exact hnumber other attempts hgiven
    · exact absurd hlive habandoned.live_ne_none
  | expire hcall => exact absurd hcall habandoned.1.ne_expiring

/-- However long it waits, and whatever the others do: a call that comes to a full counter
without an expiry is not admitted. -/
theorem shutOut_run (h : ShutOut call state) {actions : List LookupAction}
    (hrun : enforceIdentifierLookupLimit.run state actions = some after) (window attempts : ℕ) :
    after.calls call ≠ .admitted window attempts := by
  intro hadmitted
  obtain ⟨hticketed, -, -, hnumber⟩ := @Machine.run_keeps _ _ enforceIdentifierLookupLimit
    (ShutOut call) (fun _ _ _ hs hstep => shutOut_step hs hstep) _ _ _ h hrun
  have hpast := hnumber window attempts (by rw [hadmitted]; rfl)
  exact absurd (hticketed.admitted call window attempts hadmitted) (Nat.not_le.mpr hpast)

end Runs

/-- After every run, the limit recovers exactly where no call of the run ended between its two
commands. -/
theorem enforceIdentifierLookupLimit_recovers_iff {actions : List LookupAction}
    {start state : LookupState} (hinit : enforceIdentifierLookupLimit.init start)
    (hrun : enforceIdentifierLookupLimit.run start actions = some state) :
    Recovers state ↔ enforceIdentifierLookupLimit.Along KeepsExpiry start actions := by
  have hstart : start = LookupState.initial := hinit
  have hticketed : Ticketed start := hstart ▸ ticketed_initial
  have hattended : Attended start := by
    rw [hstart]
    exact fun counter hcounter => absurd hcounter (Option.not_mem_none _)
  have hend := @Machine.run_kept_or_spoiled _ _ enforceIdentifierLookupLimit KeepsExpiry
    Ticketed Attended Abandoned (fun _ _ _ h hstep => h.step hstep)
    (fun _ _ _ h hgood hkeeps hstep => attended_step h hgood hkeeps hstep)
    (fun _ _ _ h hlost hstep => abandoned_of_leave h hlost hstep)
    (fun _ _ _ h hbad hstep => abandoned_step h hbad hstep) _ _ _ hticketed hattended hrun
  rcases hend with ⟨halong, hend, hgood⟩ | ⟨hnot, -, hbad⟩
  · exact iff_of_true (recovers_of_attended hend hgood) halong
  · exact iff_of_false (not_recovers_of_abandoned hbad) hnot

/-- A call that nothing disturbs sets the expiry of its counter. -/
theorem lookup_recovers : ∃ state, enforceIdentifierLookupLimit.run LookupState.initial
    [.connect 0, .incr 0, .receive 0, .expire 0, .receive 0] = some state ∧ Recovers state := by
  obtain ⟨state, hrun⟩ : ∃ state, enforceIdentifierLookupLimit.run LookupState.initial
    [.connect 0, .incr 0, .receive 0, .expire 0, .receive 0] = some state := ⟨_, rfl⟩
  have halong : enforceIdentifierLookupLimit.Along KeepsExpiry LookupState.initial
      [.connect 0, .incr 0, .receive 0, .expire 0, .receive 0] :=
    fun _ _ => ⟨trivial, fun _ _ => ⟨trivial, fun _ _ => ⟨trivial, fun _ _ => ⟨trivial,
      fun _ _ => ⟨trivial, trivial⟩⟩⟩⟩⟩
  exact ⟨state, hrun, (enforceIdentifierLookupLimit_recovers_iff rfl hrun).mpr halong⟩

/-- The process stops after the first count of a user, before it sets the expiry. -/
theorem lookup_stopped : ∃ state, enforceIdentifierLookupLimit.run LookupState.initial
    [.connect 0, .incr 0, .receive 0, .stop 0] = some state ∧ ¬ Recovers state := by
  refine ⟨_, rfl, not_recovers_of_abandoned ⟨fun call => ?_, _, rfl, rfl⟩⟩
  by_cases hfirst : call = 0
  · rw [hfirst]
    rfl
  · rw [calls_setCall, if_neg hfirst, calls_setCall, if_neg hfirst, calls_setCall, if_neg hfirst]
    exact congrArg LookupPhase.isOpening (calls_setCall.trans (if_neg hfirst))

end FineractReports.Job
