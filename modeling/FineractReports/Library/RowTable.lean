import Mathlib.Data.List.Basic

/-!
# Filtered tables

A read of rows that all pass a filter can be made of the filtered table. An update writes a row
over those with its key; where the rows of one key agree on a filter, it is an update of the
filtered table or does not show there.
-/

namespace FineractReports

section Reads

variable {α : Type*} {rows : List α} {p q : α → Bool}

theorem filter_filter_of_imp (h : ∀ row ∈ rows, q row = true → p row = true) :
    (rows.filter p).filter q = rows.filter q := by
  rw [List.filter_filter]
  exact List.filter_congr fun row hmem => Bool.and_eq_left_iff_imp.mpr (h row hmem)

theorem any_filter_of_imp (h : ∀ row ∈ rows, q row = true → p row = true) :
    (rows.filter p).any q = rows.any q := by
  rw [Bool.eq_iff_iff, List.any_eq_true, List.any_eq_true]
  constructor
  · rintro ⟨row, hmem, hq⟩
    exact ⟨row, (List.mem_filter.mp hmem).1, hq⟩
  · rintro ⟨row, hmem, hq⟩
    exact ⟨row, List.mem_filter.mpr ⟨hmem, h row hmem hq⟩, hq⟩

theorem find?_filter_of_imp (h : ∀ row ∈ rows, q row = true → p row = true) :
    (rows.filter p).find? q = rows.find? q := by
  rw [← List.head?_filter, ← List.head?_filter, filter_filter_of_imp h]

end Reads

section Updates

variable {α κ : Type*} [DecidableEq κ] (key : α → κ)

/-- The rows with the key of the given one are replaced by it. -/
def replaceRow (row : α) (rows : List α) : List α :=
  rows.map fun other => if key other = key row then row else other

variable {key} {row other : α} {rows : List α} {p : α → Bool}

@[simp] theorem replaceRow_nil : replaceRow key row [] = [] := rfl

theorem replaceRow_cons : replaceRow key row (other :: rows) =
    (if key other = key row then row else other) :: replaceRow key row rows := rfl

@[simp] theorem map_key_replaceRow : (replaceRow key row rows).map key = rows.map key := by
  rw [replaceRow, List.map_map]
  refine List.map_congr_left fun other _ => ?_
  by_cases h : key other = key row <;> simp [h]

theorem mem_replaceRow (h : other ∈ replaceRow key row rows) :
    other = row ∨ (other ∈ rows ∧ key other ≠ key row) := by
  obtain ⟨found, hfound, rfl⟩ := List.mem_map.mp h
  split_ifs with hkey
  · exact Or.inl rfl
  · exact Or.inr ⟨hfound, hkey⟩

theorem mem_replaceRow_of_ne (h : other ∈ rows) (hkey : key other ≠ key row) :
    other ∈ replaceRow key row rows :=
  List.mem_map.mpr ⟨other, h, if_neg hkey⟩

theorem mem_replaceRow_self (h : other ∈ rows) (hkey : key other = key row) :
    row ∈ replaceRow key row rows :=
  List.mem_map.mpr ⟨other, h, if_pos hkey⟩

/-- A key that no row has replaces nothing. -/
theorem replaceRow_eq_self (h : ∀ other ∈ rows, key other ≠ key row) :
    replaceRow key row rows = rows := by
  calc replaceRow key row rows = rows.map id :=
        List.map_congr_left fun other hmem => if_neg (h other hmem)
    _ = rows := List.map_id rows

/-- A filter on which the rows of the key agree with the new one commutes with the update. -/
theorem filter_replaceRow (h : ∀ other ∈ rows, key other = key row → p other = p row) :
    (replaceRow key row rows).filter p = replaceRow key row (rows.filter p) := by
  induction rows with
  | nil => rfl
  | cons other rest ih =>
    have hrest := ih fun row' hmem => h row' (List.mem_cons_of_mem _ hmem)
    rw [replaceRow_cons]
    by_cases hkey : key other = key row
    · have hsame := h other List.mem_cons_self hkey
      cases hp : p row <;> simp [hkey, hsame, hp, hrest, replaceRow_cons]
    · cases hp : p other <;> simp [hkey, hp, hrest, replaceRow_cons]

/-- An update of rows outside the filter does not show. -/
theorem filter_replaceRow_hidden (h : ∀ other ∈ rows, key other = key row → p other = p row)
    (hrow : p row = false) : (replaceRow key row rows).filter p = rows.filter p := by
  rw [filter_replaceRow h]
  apply replaceRow_eq_self
  intro other hmem hkey
  obtain ⟨hin, hp⟩ := List.mem_filter.mp hmem
  rw [h other hin hkey, hrow] at hp
  cases hp

end Updates

end FineractReports
