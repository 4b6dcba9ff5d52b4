import Mathlib.Data.List.Sort
import Mathlib.Data.Prod.Lex

/-!
# Lists sorted and thinned by a key

Sorting by a key that no two elements share forgets the order of the list, and commutes
with filters. Keeping the first element of each key commutes with filters that look at
the key only.
-/

namespace FineractReports

variable {α κ : Type*}

section Sorted

variable [LinearOrder κ] (key : α → κ)

/-- The elements in the order of their keys; equal keys keep their order. -/
def sortByKey (items : List α) : List α := items.insertionSort fun a b => key a ≤ key b

variable {key} {items others : List α}

theorem sortByKey_perm : (sortByKey key items).Perm items := List.perm_insertionSort _ _

@[simp] theorem mem_sortByKey {a : α} : a ∈ sortByKey key items ↔ a ∈ items :=
  sortByKey_perm.mem_iff

theorem sortByKey_pairwise : (sortByKey key items).Pairwise fun a b => key a ≤ key b := by
  have : Std.Total fun a b => key a ≤ key b := ⟨fun a b => le_total _ _⟩
  have : IsTrans α fun a b => key a ≤ key b := ⟨fun a b c => le_trans⟩
  exact List.pairwise_insertionSort _ _

/-- Two sorted lists of the same elements are one when the elements have distinct keys. -/
theorem eq_of_perm_of_pairwise (hkeys : (items.map key).Nodup) (h : items.Perm others)
    (hitems : items.Pairwise fun a b => key a ≤ key b)
    (hothers : others.Pairwise fun a b => key a ≤ key b) : items = others := by
  apply List.Perm.eq_of_pairwise _ hitems hothers h
  intro a b ha hb hab hba
  exact List.inj_on_of_nodup_map hkeys ha (h.mem_iff.mpr hb) (le_antisymm hab hba)

theorem sortByKey_eq_of_perm (hkeys : (items.map key).Nodup) (h : items.Perm others) :
    sortByKey key items = sortByKey key others := by
  apply eq_of_perm_of_pairwise _ _ sortByKey_pairwise sortByKey_pairwise
  · exact (sortByKey_perm.map key).nodup_iff.mpr hkeys
  · exact (sortByKey_perm.trans h).trans sortByKey_perm.symm

theorem sortByKey_filter (hkeys : (items.map key).Nodup) (p : α → Bool) :
    sortByKey key (items.filter p) = (sortByKey key items).filter p := by
  apply eq_of_perm_of_pairwise _ _ sortByKey_pairwise
  · exact sortByKey_pairwise.filter p
  · apply (sortByKey_perm.map key).nodup_iff.mpr
    exact hkeys.sublist (List.filter_sublist.map key)
  · exact sortByKey_perm.trans (sortByKey_perm.filter p).symm

end Sorted

section Firsts

variable [DecidableEq κ] (key : α → κ)

/-- The first element of each key that is not in `seen`. -/
def firstsFrom (seen : List κ) : List α → List α
  | [] => []
  | a :: rest =>
    if key a ∈ seen then firstsFrom seen rest else a :: firstsFrom (key a :: seen) rest

/-- The first element of each key. -/
def firstsBy (items : List α) : List α := firstsFrom key [] items

variable {key} {items : List α} {seen others : List κ}

/-- Only the keys that occur matter. -/
theorem firstsFrom_congr (h : ∀ a ∈ items, key a ∈ seen ↔ key a ∈ others) :
    firstsFrom key seen items = firstsFrom key others items := by
  induction items generalizing seen others with
  | nil => rfl
  | cons a rest ih =>
    have hhead := h a List.mem_cons_self
    have hrest : ∀ b ∈ rest, key b ∈ seen ↔ key b ∈ others :=
      fun b hb => h b (List.mem_cons_of_mem _ hb)
    rw [firstsFrom, firstsFrom]
    by_cases hseen : key a ∈ seen
    · rw [if_pos hseen, if_pos (hhead.mp hseen)]
      exact ih hrest
    · rw [if_neg hseen, if_neg fun hmem => hseen (hhead.mpr hmem)]
      congr 1
      apply ih
      intro b hb
      rw [List.mem_cons, List.mem_cons, hrest b hb]

theorem mem_of_mem_firstsFrom {a : α} (h : a ∈ firstsFrom key seen items) : a ∈ items := by
  induction items generalizing seen with
  | nil => exact h
  | cons b rest ih =>
    rw [firstsFrom] at h
    split_ifs at h
    · exact List.mem_cons_of_mem _ (ih h)
    · rcases List.mem_cons.mp h with rfl | h
      · exact List.mem_cons_self
      · exact List.mem_cons_of_mem _ (ih h)

/-- A filter that looks at the key only can be applied before or after. -/
theorem firstsFrom_filter {p : α → Bool} (hp : ∀ a b, key a = key b → p a = p b) :
    firstsFrom key seen (items.filter p) = (firstsFrom key seen items).filter p := by
  induction items generalizing seen with
  | nil => rfl
  | cons a rest ih =>
    by_cases hpa : p a = true
    · rw [List.filter_cons_of_pos hpa, firstsFrom, firstsFrom]
      split_ifs
      · exact ih
      · rw [List.filter_cons_of_pos hpa, ih]
    · have hskip : firstsFrom key (key a :: seen) (rest.filter p) =
          firstsFrom key seen (rest.filter p) := by
        apply firstsFrom_congr
        intro b hb
        have hne : key b ≠ key a := fun hkey =>
          hpa ((hp b a hkey).symm.trans (List.mem_filter.mp hb).2)
        rw [List.mem_cons, or_iff_right hne]
      rw [List.filter_cons_of_neg hpa, firstsFrom]
      split_ifs
      · exact ih
      · rw [List.filter_cons_of_neg hpa, ← ih, hskip]

end Firsts

end FineractReports
