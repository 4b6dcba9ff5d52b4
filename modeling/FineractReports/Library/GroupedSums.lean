import FineractReports.Library.DistinctKeys
import Mathlib.Algebra.Group.Basic
import Mathlib.Algebra.GroupWithZero.Nat

/-!
# Totals over groups

A total is a fold with an operation whose order does not matter: a sum, a count, or a sum of
values that may be missing. Items taken apart by a key have the same total whatever the key is.
-/

namespace FineractReports

variable {α κ M : Type*}

/-! ### Totals -/

section Total

variable (op : M → M → M) (e : M)

/-- What the items come to under an operation that starts from `e`. -/
def total (f : α → M) (items : List α) : M := items.foldr (fun a rest => op (f a) rest) e

@[simp] theorem total_nil (f : α → M) : total op e f [] = e := rfl

@[simp] theorem total_cons (f : α → M) (a : α) (items : List α) :
    total op e f (a :: items) = op (f a) (total op e f items) := rfl

theorem total_map {β : Type*} (f : β → M) (g : α → β) (items : List α) :
    total op e f (items.map g) = total op e (fun a => f (g a)) items := by
  induction items with
  | nil => rfl
  | cons a items ih => rw [List.map_cons, total_cons, total_cons, ih]

section Identity

variable [Std.LawfulIdentity op e]

theorem identity_op (a : M) : op e a = a := Std.LawfulLeftIdentity.left_id a

theorem op_identity (a : M) : op a e = a := Std.LawfulRightIdentity.right_id a

@[simp] theorem total_identity (items : List α) : total op e (fun _ => e) items = e := by
  induction items with
  | nil => rfl
  | cons a items ih => rw [total_cons, ih, identity_op op e]

theorem total_ite_of_notMem [DecidableEq κ] {keys : List κ} {k : κ} (h : k ∉ keys) (value : M) :
    total op e (fun k' => if k = k' then value else e) keys = e := by
  induction keys with
  | nil => rfl
  | cons first keys ih =>
    rw [List.mem_cons, not_or] at h
    rw [total_cons, if_neg h.1, ih h.2, identity_op op e]

/-- A total that only one element of a list without repetition adds to. -/
theorem total_ite [DecidableEq κ] {keys : List κ} (hkeys : keys.Nodup) {k : κ} (h : k ∈ keys)
    (value : M) : total op e (fun k' => if k = k' then value else e) keys = value := by
  induction keys with
  | nil => cases h
  | cons first keys ih =>
    obtain ⟨hfirst, hrest⟩ := List.nodup_cons.mp hkeys
    rw [total_cons]
    by_cases hk : k = first
    · rw [if_pos hk, total_ite_of_notMem op e (hk ▸ hfirst), op_identity op e]
    · have hmem : k ∈ keys := (List.mem_cons.mp h).resolve_left hk
      rw [if_neg hk, ih hrest hmem, identity_op op e]

end Identity

section Commutative

variable [Std.Associative op] [Std.Commutative op]

theorem op_op_op_comm (a b c d : M) : op (op a b) (op c d) = op (op a c) (op b d) := by
  have hassoc : ∀ x y z : M, op (op x y) z = op x (op y z) := Std.Associative.assoc
  have hcomm : op b c = op c b := Std.Commutative.comm b c
  rw [hassoc, ← hassoc b, hcomm, hassoc c, ← hassoc a]

/-- A total of pairwise results is the result of the two totals. -/
theorem total_op [Std.LawfulIdentity op e] (f g : α → M) (items : List α) :
    total op e (fun a => op (f a) (g a)) items = op (total op e f items) (total op e g items) := by
  induction items with
  | nil => exact (identity_op op e e).symm
  | cons a items ih =>
    rw [total_cons, total_cons, total_cons, ih]
    exact op_op_op_comm op _ _ _ _

end Commutative

end Total

/-! ### Groups -/

section Groups

variable [DecidableEq κ] (key : α → κ) {items : List α}

/-- The items of one key. -/
def group (items : List α) (k : κ) : List α := items.filter fun a => key a = k

variable {key}

theorem mem_group {a : α} {k : κ} : a ∈ group key items k ↔ a ∈ items ∧ key a = k := by
  simp [group]

variable {op : M → M → M} {e : M} [Std.Associative op] [Std.Commutative op]
  [Std.LawfulIdentity op e]

/-- Groups that cover the items come to the total of the items. -/
theorem total_groups (f : α → M) {keys : List κ} (hkeys : keys.Nodup)
    (hcover : ∀ a ∈ items, key a ∈ keys) :
    total op e (fun k => total op e f (group key items k)) keys = total op e f items := by
  induction items with
  | nil => exact total_identity op e keys
  | cons a rest ih =>
    obtain ⟨ha, hrest⟩ := List.forall_mem_cons.mp hcover
    have hsplit : (fun k => total op e f (group key (a :: rest) k)) = fun k =>
        op (if key a = k then f a else e) (total op e f (group key rest k)) := by
      funext k
      by_cases hk : key a = k
      · simp [group, hk]
      · simp [group, hk, identity_op op e]
    rw [hsplit, total_op, total_ite op e hkeys ha, ih hrest, total_cons]

end Groups

/-! ### The keys that occur -/

section GroupKeys

variable [LinearOrder κ] {key : α → κ} {items : List α}

/-- The keys that occur, in their order. -/
def groupKeys (key : α → κ) (items : List α) : List κ := sortDistinct id (items.map key)

theorem groupKeys_nodup : (groupKeys key items).Nodup := by
  have hkeys : ((sortDistinct id (items.map key)).map id).Nodup := sortDistinct_nodup
  rwa [List.map_id] at hkeys

theorem mem_groupKeys {k : κ} : k ∈ groupKeys key items ↔ ∃ a ∈ items, key a = k := by
  have hmem : k ∈ groupKeys key items ↔ k ∈ items.map key :=
    mem_sortDistinct fun _ _ _ _ h => h
  rw [hmem, List.mem_map]

end GroupKeys

/-! ### Sums, counts and sums of values that may be missing -/

section Sums

variable {items : List α}

theorem sum_eq_total (f : α → ℕ) : (items.map f).sum = total (· + ·) 0 f items := by
  induction items with
  | nil => rfl
  | cons a items ih => rw [List.map_cons, List.sum_cons, total_cons, ih]

theorem length_eq_total : items.length = total (· + ·) 0 (fun _ => 1) items := by
  induction items with
  | nil => rfl
  | cons a items ih => rw [List.length_cons, total_cons, ih, Nat.add_comm]

theorem countP_eq_total (p : α → Bool) :
    items.countP p = total (· + ·) 0 (fun a => if p a then 1 else 0) items := by
  induction items with
  | nil => rfl
  | cons a items ih => rw [List.countP_cons, total_cons, ih, Nat.add_comm]

variable [Add M]

/-- The sum of the values that are there, if any is. -/
def sumPresent (values : List (Option M)) : Option M := total (Option.merge (· + ·)) none id values

theorem sumPresent_eq_total (f : α → Option M) :
    sumPresent (items.map f) = total (Option.merge (· + ·)) none f items :=
  total_map _ _ _ _ _

/-- A sum is missing exactly when every value is. -/
theorem sumPresent_eq_none {values : List (Option M)} :
    sumPresent values = none ↔ ∀ value ∈ values, value = none := by
  induction values with
  | nil => simp [sumPresent]
  | cons value values ih =>
    rw [List.forall_mem_cons, ← ih, sumPresent, total_cons, Option.merge_eq_none_iff]
    rfl

end Sums

end FineractReports
