import Mathlib.Algebra.BigOperators.Group.List.Basic
import Mathlib.Algebra.Order.BigOperators.Group.List
import Mathlib.Tactic

/-!
# Retries against a deadline

A request is sent again after a failure that may pass, as long as attempts are left and the wait
before the next one ends in time. The waits before the last request fit into the time that was
given, so growing waits bound the number of requests by themselves.
-/

namespace FineractReports

variable {ε α : Type*}

/-- One attempt: what it came to, when its caller looks at it and how long it would wait then. -/
structure Attempt (ε α : Type*) where
  outcome : Except ε α
  checkedAt : ℕ
  wait : ℕ

structure Retried (ε α : Type*) where
  sends : ℕ
  result : Except ε α

/-- The loop from the given attempt on; the attempts count from zero. -/
def retryFrom (again : ε → Bool) (maxRetries deadline : ℕ) (attempts : ℕ → Attempt ε α)
    (attempt : ℕ) : Retried ε α :=
  match (attempts attempt).outcome with
  | .ok value => ⟨attempt + 1, .ok value⟩
  | .error error =>
    if again error ∧ attempt < maxRetries then
      if deadline < (attempts attempt).checkedAt + (attempts attempt).wait then
        ⟨attempt + 1, .error error⟩
      else retryFrom again maxRetries deadline attempts (attempt + 1)
    else ⟨attempt + 1, .error error⟩
termination_by maxRetries - attempt

/-- The time spent between the first requests. -/
def slept (attempts : ℕ → Attempt ε α) (retries : ℕ) : ℕ :=
  ((List.range retries).map fun i => (attempts i).wait).sum

/-- What a run of the loop is: its last attempt gives the result, and each one before it failed
in a way that may pass, with time left to wait. -/
structure Retried.Of (again : ε → Bool) (maxRetries deadline : ℕ) (attempts : ℕ → Attempt ε α)
    (first : ℕ) (retried : Retried ε α) : Prop where
  first_lt : first < retried.sends
  sends_le : first ≤ maxRetries → retried.sends ≤ maxRetries + 1
  before : ∀ i, first ≤ i → i + 1 < retried.sends → (attempts i).checkedAt + (attempts i).wait ≤
    deadline ∧ ∃ error, (attempts i).outcome = .error error ∧ again error
  result : retried.result = (attempts (retried.sends - 1)).outcome
  ended : ∀ error, retried.result = .error error → again error →
    maxRetries < retried.sends ∨
      deadline < (attempts (retried.sends - 1)).checkedAt + (attempts (retried.sends - 1)).wait

section Run

variable {again : ε → Bool} {maxRetries deadline : ℕ} {attempts : ℕ → Attempt ε α} {first : ℕ}

theorem retryFrom_of : (retryFrom again maxRetries deadline attempts first).Of again maxRetries
    deadline attempts first := by
  fun_induction retryFrom again maxRetries deadline attempts first with
  | case1 attempt value hok =>
    exact ⟨by simp, by simp, fun i hle hlt => by simp at hlt; omega, by simp [hok],
      fun error herror => by cases herror⟩
  | case2 attempt error herror hagain hlate =>
    exact ⟨by simp, by simp, fun i hle hlt => by simp at hlt; omega, by simp [herror],
      fun _ _ _ => .inr (by simpa using hlate)⟩
  | case3 attempt error herror hagain hlate ih =>
    refine ⟨by have := ih.first_lt; omega, fun _ => ih.sends_le hagain.2, fun i hle hlt => ?_,
      ih.result, ih.ended⟩
    rcases hle.eq_or_lt with rfl | hnext
    · exact ⟨not_lt.mp hlate, error, herror, hagain.1⟩
    · exact ih.before i hnext hlt
  | case4 attempt error herror hstop =>
    refine ⟨by simp, by simp, fun i hle hlt => by simp at hlt; omega, by simp [herror],
      fun other hother hagain => .inl ?_⟩
    obtain rfl : error = other := Except.error.inj hother
    have hmost : ¬ attempt < maxRetries := fun hlt => hstop ⟨hagain, hlt⟩
    simp only
    omega

end Run

/-! ### Time -/

section Time

variable {again : ε → Bool} {maxRetries deadline start : ℕ} {attempts : ℕ → Attempt ε α}
  {retried : Retried ε α}

/-- The clock of a caller that sleeps at least as long as it waits. -/
structure Clocked (start : ℕ) (attempts : ℕ → Attempt ε α) : Prop where
  starts : start ≤ (attempts 0).checkedAt
  sleeps : ∀ i, (attempts i).checkedAt + (attempts i).wait ≤ (attempts (i + 1)).checkedAt

theorem slept_succ (retries : ℕ) :
    slept attempts (retries + 1) = slept attempts retries + (attempts retries).wait := by
  simp [slept, List.range_succ]

theorem Clocked.slept_le (h : Clocked start attempts) (retries : ℕ) :
    start + slept attempts retries ≤ (attempts retries).checkedAt := by
  induction retries with
  | zero => simpa [slept] using h.starts
  | succ retries ih =>
    have hsleep := h.sleeps retries
    rw [slept_succ]
    omega

/-- The waits of a run fit into the time that was given for it. -/
theorem Retried.Of.slept_le (h : retried.Of again maxRetries deadline attempts 0)
    (hclock : Clocked start attempts) (hstart : start ≤ deadline) :
    start + slept attempts (retried.sends - 1) ≤ deadline := by
  rcases Nat.eq_zero_or_pos (retried.sends - 1) with hzero | hpos
  · simpa [hzero, slept] using hstart
  · obtain ⟨last, hlast⟩ : ∃ last, retried.sends - 1 = last + 1 :=
      ⟨retried.sends - 1 - 1, by omega⟩
    have hbefore := (h.before last last.zero_le (by omega)).1
    have hclocked := hclock.slept_le last
    rw [hlast, slept_succ]
    omega

theorem slept_mono {least : ℕ → ℕ} (h : ∀ i, least i ≤ (attempts i).wait) (retries : ℕ) :
    ((List.range retries).map least).sum ≤ slept attempts retries :=
  List.sum_le_sum fun i _ => h i

/-- Waits that grow leave room for so many retries only. -/
theorem Retried.Of.sends_le_of_waits (h : retried.Of again maxRetries deadline attempts 0)
    (hclock : Clocked start attempts) (hstart : start ≤ deadline) {least : ℕ → ℕ} {most : ℕ}
    (hleast : ∀ i, least i ≤ (attempts i).wait)
    (hmost : deadline < start + ((List.range (most + 1)).map least).sum) :
    retried.sends ≤ min maxRetries most + 1 := by
  have hsends := h.sends_le maxRetries.zero_le
  have hslept := h.slept_le hclock hstart
  have hwaits := slept_mono hleast (retried.sends - 1)
  have hroom : retried.sends - 1 ≤ most := by
    by_contra hmore
    have hsub : ((List.range (most + 1)).map least).Sublist
        ((List.range (retried.sends - 1)).map least) :=
      (List.range_sublist.mpr (by omega)).map _
    have hsum := hsub.sum_le_sum fun _ _ => Nat.zero_le _
    omega
  omega

end Time

end FineractReports
