import Mathlib.Data.Nat.Notation
import Mathlib.Data.Option.Basic

/-!
# Counters that expire

A counter under a key of a store: counting creates it without an expiry, and the expiry is set by
a command of its own. A key that has expired is as good as none.
-/

namespace FineractReports

/-- A stored counter; without a deadline it is kept for good. -/
structure ExpiringCounter where
  count : ℕ
  expires : Option ℕ
deriving DecidableEq

namespace ExpiringCounter

def isLive (now : ℕ) (counter : ExpiringCounter) : Bool :=
  counter.expires.all fun deadline => now ≤ deadline

/-- What a reader finds under the key. -/
def live (now : ℕ) (key : Option ExpiringCounter) : Option ExpiringCounter :=
  key.filter (isLive now)

/-- Counting keeps the expiry of a counter that is there. -/
def incr (now : ℕ) (key : Option ExpiringCounter) : ExpiringCounter :=
  match live now key with
  | some counter => { counter with count := counter.count + 1 }
  | none => { count := 1, expires := none }

def expire (now ttl : ℕ) (key : Option ExpiringCounter) : Option ExpiringCounter :=
  (live now key).map fun counter => { counter with expires := some (now + ttl) }

section Lemmas

variable {now : ℕ} {key : Option ExpiringCounter} {counter : ExpiringCounter}

@[simp] theorem live_none : live now none = none := rfl

theorem live_eq_some : live now key = some counter ↔
    key = some counter ∧ ∀ deadline ∈ counter.expires, now ≤ deadline := by
  rw [live, Option.filter_eq_some_iff, isLive, Option.all_eq_true]
  simp

/-- A counter without a deadline is found at any time. -/
theorem live_of_expires_none (h : counter.expires = none) :
    live now (some counter) = some counter := by
  rw [live_eq_some, h]
  exact ⟨rfl, fun deadline hmem => absurd hmem (Option.not_mem_none _)⟩

/-- Once the deadline has passed nothing is found. -/
theorem live_of_past (h : ∀ counter ∈ key, ∃ deadline ∈ counter.expires, deadline < now) :
    live now key = none := by
  cases hlive : live now key with
  | none => rfl
  | some counter =>
    obtain ⟨rfl, hlater⟩ := live_eq_some.mp hlive
    obtain ⟨deadline, hdeadline, hpast⟩ := h counter rfl
    exact absurd (hlater deadline hdeadline) (Nat.not_le.mpr hpast)

theorem incr_of_live (h : live now key = some counter) :
    incr now key = { counter with count := counter.count + 1 } := by
  rw [incr, h]

theorem incr_of_none (h : live now key = none) :
    incr now key = { count := 1, expires := none } := by
  rw [incr, h]

end Lemmas

end ExpiringCounter

end FineractReports
