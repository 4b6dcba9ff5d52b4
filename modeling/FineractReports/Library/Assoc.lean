import Mathlib.Data.List.Basic
import Mathlib.Data.List.Dedup

/-!
# Finite maps as association lists

A map is a list of key and value pairs in insertion order; inserting an existing
key replaces its value in place, so a map built by `insert` has distinct keys.
-/

namespace FineractReports.Assoc

variable {κ α : Type*} [DecidableEq κ]

def get? (m : List (κ × α)) (k : κ) : Option α :=
  (m.find? fun e => e.1 = k).map Prod.snd

def insert (m : List (κ × α)) (k : κ) (a : α) : List (κ × α) :=
  match m with
  | [] => [(k, a)]
  | (k', a') :: rest => if k' = k then (k, a) :: rest else (k', a') :: insert rest k a

def erase (m : List (κ × α)) (k : κ) : List (κ × α) := m.filter fun e => e.1 ≠ k

def keys (m : List (κ × α)) : List κ := m.map Prod.fst

@[simp] theorem get?_nil (k : κ) : get? ([] : List (κ × α)) k = none := rfl

theorem get?_cons (k' : κ) (a : α) (m : List (κ × α)) (k : κ) :
    get? ((k', a) :: m) k = if k' = k then some a else get? m k := by
  by_cases h : k' = k <;> simp [get?, h]

@[simp] theorem get?_insert_self (m : List (κ × α)) (k : κ) (a : α) :
    get? (insert m k a) k = some a := by
  induction m with
  | nil => simp [insert, get?_cons]
  | cons e rest ih =>
    obtain ⟨k', a'⟩ := e
    by_cases h : k' = k <;> simp [insert, h, get?_cons, ih]

theorem get?_insert_of_ne (m : List (κ × α)) {k k' : κ} (a : α) (h : k ≠ k') :
    get? (insert m k a) k' = get? m k' := by
  induction m with
  | nil => simp [insert, get?_cons, h]
  | cons e rest ih =>
    obtain ⟨j, b⟩ := e
    by_cases hj : j = k
    · simp [insert, hj, get?_cons, h]
    · simp [insert, hj, get?_cons, ih]

theorem get?_insert (m : List (κ × α)) (k k' : κ) (a : α) :
    get? (insert m k a) k' = if k = k' then some a else get? m k' := by
  by_cases h : k = k'
  · subst h; simp
  · simp [get?_insert_of_ne m a h, h]

theorem get?_isSome_iff {m : List (κ × α)} {k : κ} :
    (get? m k).isSome = true ↔ k ∈ keys m := by
  simp [get?, keys, List.find?_isSome]

theorem get?_eq_none_iff {m : List (κ × α)} {k : κ} : get? m k = none ↔ k ∉ keys m := by
  rw [← get?_isSome_iff]
  cases get? m k <;> simp

theorem mem_of_get?_eq_some {m : List (κ × α)} {k : κ} {a : α} (h : get? m k = some a) :
    (k, a) ∈ m := by
  obtain ⟨e, he, rfl⟩ := Option.map_eq_some_iff.mp h
  have hk : e.1 = k := by simpa using List.find?_some he
  exact hk ▸ List.mem_of_find?_eq_some he

theorem mem_insert {m : List (κ × α)} {k : κ} {a : α} {e : κ × α} (h : e ∈ insert m k a) :
    e = (k, a) ∨ e ∈ m := by
  induction m with
  | nil => exact Or.inl (List.mem_singleton.mp h)
  | cons first rest ih =>
    obtain ⟨j, b⟩ := first
    unfold insert at h
    split_ifs at h with hj
    · exact (List.mem_cons.mp h).imp_right (List.mem_cons_of_mem _)
    · obtain rfl | hrest := List.mem_cons.mp h
      · exact Or.inr List.mem_cons_self
      · exact (ih hrest).imp_right (List.mem_cons_of_mem _)

theorem mem_keys_insert {m : List (κ × α)} {k k' : κ} {a : α} :
    k' ∈ keys (insert m k a) ↔ k' = k ∨ k' ∈ keys m := by
  rw [← get?_isSome_iff, ← get?_isSome_iff, get?_insert]
  by_cases h : k = k'
  · simp [h]
  · simp [h, Ne.symm h]

theorem get?_erase (m : List (κ × α)) (k k' : κ) :
    get? (erase m k) k' = if k = k' then none else get? m k' := by
  induction m with
  | nil => simp [erase]
  | cons e rest ih =>
    obtain ⟨j, b⟩ := e
    by_cases hj : j = k
    · simp only [erase, hj, ne_eq, not_true_eq_false, decide_false, Bool.false_eq_true,
        not_false_eq_true, List.filter_cons_of_neg, get?_cons]
      change get? (erase rest k) k' = _
      rw [ih]
      split_ifs <;> rfl
    · simp only [erase, ne_eq, hj, not_false_eq_true, decide_true, List.filter_cons_of_pos,
        get?_cons]
      change (if j = k' then some b else get? (erase rest k) k') = _
      rw [ih]
      by_cases hk : k = k'
      · have : j ≠ k' := fun h => hj (h.trans hk.symm)
        simp [hk, this]
      · simp [hk]

end FineractReports.Assoc
