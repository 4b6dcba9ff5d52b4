import Mathlib.Algebra.BigOperators.Group.List.Basic
import Mathlib.Algebra.GroupWithZero.Nat
import Mathlib.Tactic.SplitIfs

/-!
# Dropping the oldest items over a budget

The items are dropped from the front as long as a running total is over the limit. The total
counts every item that is still there, so what is kept is the longest end of the list that fits.
-/

namespace FineractReports.Budget

variable {α : Type*} (cost : α → ℕ) (limit : ℕ)

/-- The running total is taken down with each item, and not below zero. -/
def dropOldest : ℕ → List α → List α
  | _, [] => []
  | total, item :: rest =>
    if limit < total then dropOldest (total - cost item) rest else item :: rest

/-- What is kept fits, or is nothing, and with any item more it did not fit. -/
structure OldestDropped (fixed : ℕ) (items kept : List α) (dropped : ℕ) : Prop where
  kept_eq : kept = items.drop dropped
  fits : fixed + (kept.map cost).sum ≤ limit ∨ kept = []
  needed : ∀ fewer < dropped, limit < fixed + ((items.drop fewer).map cost).sum

theorem dropOldest_oldestDropped (fixed : ℕ) (items : List α) : ∃ dropped,
    OldestDropped cost limit fixed items
      (dropOldest cost limit (fixed + (items.map cost).sum) items) dropped := by
  induction items with
  | nil => exact ⟨0, rfl, .inr rfl, fun fewer h => absurd h (Nat.not_lt_zero _)⟩
  | cons item rest ih =>
    rw [dropOldest]
    split_ifs with hover
    · have htotal : fixed + ((item :: rest).map cost).sum - cost item =
          fixed + (rest.map cost).sum := by
        rw [List.map_cons, List.sum_cons]
        omega
      obtain ⟨dropped, hkept, hfits, hmore⟩ := ih
      rw [htotal]
      refine ⟨dropped + 1, hkept, hfits, ?_⟩
      intro fewer hfewer
      cases fewer with
      | zero => exact hover
      | succ fewer => exact hmore fewer (Nat.lt_of_succ_lt_succ hfewer)
    · exact ⟨0, rfl, .inl (Nat.not_lt.mp hover), fun fewer h => absurd h (Nat.not_lt_zero _)⟩

theorem dropOldest_suffix (total : ℕ) (items : List α) :
    dropOldest cost limit total items <:+ items := by
  induction items generalizing total with
  | nil => exact List.suffix_refl _
  | cons item rest ih =>
    rw [dropOldest]
    split_ifs
    · exact (ih _).trans (List.suffix_cons item rest)
    · exact List.suffix_refl _

end FineractReports.Budget
