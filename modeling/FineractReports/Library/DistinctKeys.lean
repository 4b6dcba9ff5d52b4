import FineractReports.Library.KeyedLists
import Mathlib.Data.List.Destutter

/-!
# Lists with distinct keys

A list sorted by a key loses its repeated keys to one pass over neighbours; what is left
depends only on which elements occur when elements of one key are equal. Keeping the first
element of each key leaves a list with distinct keys, and changes no other list.
-/

namespace FineractReports

variable {α κ : Type*}

section Sorted

variable [LinearOrder κ] (key : α → κ)

/-- One element of each key, in the order of the keys. -/
def sortDistinct (items : List α) : List α :=
  (sortByKey key items).destutter fun a b => key a ≠ key b

variable {key} {items others : List α}

theorem sortDistinct_sublist : (sortDistinct key items).Sublist (sortByKey key items) :=
  List.destutter_sublist _ _

theorem mem_of_mem_sortDistinct {a : α} (h : a ∈ sortDistinct key items) : a ∈ items :=
  mem_sortByKey.mp (sortDistinct_sublist.subset h)

/-- Neighbours with distinct keys make a sorted list strictly sorted. -/
theorem pairwise_lt_of_isChain_ne (hle : items.Pairwise fun a b => key a ≤ key b)
    (hne : items.IsChain fun a b => key a ≠ key b) : items.Pairwise fun a b => key a < key b := by
  induction items with
  | nil => exact List.Pairwise.nil
  | cons a rest ih =>
    rw [List.pairwise_cons] at hle ⊢
    rw [List.isChain_cons] at hne
    refine ⟨fun b hb => ?_, ih hle.2 hne.2⟩
    cases rest with
    | nil => cases hb
    | cons c rest =>
      have hnext : key a < key c := lt_of_le_of_ne (hle.1 c List.mem_cons_self) (hne.1 c rfl)
      rcases List.mem_cons.mp hb with rfl | hlater
      · exact hnext
      · exact hnext.trans_le ((List.pairwise_cons.mp hle.2).1 b hlater)

theorem sortDistinct_pairwise :
    (sortDistinct key items).Pairwise fun a b => key a < key b :=
  pairwise_lt_of_isChain_ne (sortByKey_pairwise.sublist sortDistinct_sublist)
    (List.isChain_destutter _ _)

theorem sortDistinct_nodup : ((sortDistinct key items).map key).Nodup := by
  rw [List.Nodup, List.pairwise_map]
  exact sortDistinct_pairwise.imp fun hlt => ne_of_lt hlt

/-- The pass over neighbours loses no key. -/
theorem exists_mem_destutter' (first : α) : ∀ a ∈ first :: items,
    ∃ b ∈ items.destutter' (fun a b => key a ≠ key b) first, key b = key a := by
  induction items generalizing first with
  | nil =>
    intro a ha
    obtain rfl := List.mem_singleton.mp ha
    exact ⟨a, List.mem_destutter' _ _ _, rfl⟩
  | cons next rest ih =>
    intro a ha
    by_cases hkey : key first = key next
    · rw [List.destutter'_cons_neg _ (by simpa using hkey)]
      rcases List.mem_cons.mp ha with rfl | hrest
      · exact ih _ _ List.mem_cons_self
      · rcases List.mem_cons.mp hrest with rfl | hlater
        · obtain ⟨b, hb, hsame⟩ := ih first first List.mem_cons_self
          exact ⟨b, hb, hsame.trans hkey⟩
        · exact ih _ _ (List.mem_cons_of_mem _ hlater)
    · rw [List.destutter'_cons_pos _ hkey]
      rcases List.mem_cons.mp ha with rfl | hrest
      · exact ⟨a, List.mem_cons_self, rfl⟩
      · obtain ⟨b, hb, hsame⟩ := ih next a hrest
        exact ⟨b, List.mem_cons_of_mem _ hb, hsame⟩

theorem exists_mem_sortDistinct {a : α} (h : a ∈ items) :
    ∃ b ∈ sortDistinct key items, key b = key a := by
  have hsorted : a ∈ sortByKey key items := mem_sortByKey.mpr h
  unfold sortDistinct
  cases hitems : sortByKey key items with
  | nil =>
    rw [hitems] at hsorted
    cases hsorted
  | cons first rest =>
    rw [hitems] at hsorted
    exact exists_mem_destutter' first a hsorted

/-- Where elements of one key are equal, every element is kept. -/
theorem mem_sortDistinct (hkey : ∀ a ∈ items, ∀ b ∈ items, key a = key b → a = b) {a : α} :
    a ∈ sortDistinct key items ↔ a ∈ items := by
  refine ⟨mem_of_mem_sortDistinct, fun h => ?_⟩
  obtain ⟨b, hb, hsame⟩ : ∃ b ∈ sortDistinct key items, key b = key a := exists_mem_sortDistinct h
  rwa [← hkey b (mem_of_mem_sortDistinct hb) a h hsame]

/-- Order and repetition do not matter. -/
theorem sortDistinct_congr (hkey : ∀ a ∈ items, ∀ b ∈ items, key a = key b → a = b)
    (h : ∀ a, a ∈ items ↔ a ∈ others) : sortDistinct key items = sortDistinct key others := by
  have hother : ∀ a ∈ others, ∀ b ∈ others, key a = key b → a = b :=
    fun a ha b hb => hkey a ((h a).mpr ha) b ((h b).mpr hb)
  have hkeys : ((sortDistinct key items).map key).Nodup := sortDistinct_nodup
  apply eq_of_perm_of_pairwise hkeys
  · apply (List.perm_ext_iff_of_nodup (List.Nodup.of_map key sortDistinct_nodup)
      (List.Nodup.of_map key sortDistinct_nodup)).mpr
    intro a
    rw [mem_sortDistinct hkey, mem_sortDistinct hother, h a]
  · exact sortDistinct_pairwise.imp fun hlt => le_of_lt hlt
  · exact sortDistinct_pairwise.imp fun hlt => le_of_lt hlt

end Sorted

section Firsts

variable [DecidableEq κ] {key : α → κ} {items : List α} {seen : List κ}

theorem firstsFrom_sublist : (firstsFrom key seen items).Sublist items := by
  induction items generalizing seen with
  | nil => exact List.Sublist.refl _
  | cons a rest ih =>
    rw [firstsFrom]
    split_ifs
    · exact ih.cons a
    · exact ih.cons_cons a

theorem mem_keys_firstsFrom {k : κ} :
    k ∈ (firstsFrom key seen items).map key ↔ k ∈ items.map key ∧ k ∉ seen := by
  induction items generalizing seen with
  | nil => simp [firstsFrom]
  | cons a rest ih =>
    rw [firstsFrom]
    split_ifs with hseen
    · rw [ih, List.map_cons, List.mem_cons]
      grind
    · rw [List.map_cons, List.mem_cons, ih, List.map_cons, List.mem_cons, List.mem_cons]
      grind

/-- The keys that are kept are the first occurrences among the keys. -/
theorem map_firstsFrom : (firstsFrom key seen items).map key =
    firstsFrom id seen (items.map key) := by
  induction items generalizing seen with
  | nil => rfl
  | cons a rest ih =>
    rw [List.map_cons, firstsFrom, firstsFrom, id_eq]
    split_ifs
    · exact ih
    · rw [List.map_cons, ih]

theorem firstsFrom_nodup : ((firstsFrom key seen items).map key).Nodup := by
  induction items generalizing seen with
  | nil => exact List.nodup_nil
  | cons a rest ih =>
    rw [firstsFrom]
    split_ifs
    · exact ih
    · rw [List.map_cons, List.nodup_cons]
      refine ⟨fun hmem => ?_, ih⟩
      exact (mem_keys_firstsFrom.mp hmem).2 List.mem_cons_self

theorem firstsFrom_eq_self (hkeys : (items.map key).Nodup)
    (hseen : ∀ a ∈ items, key a ∉ seen) : firstsFrom key seen items = items := by
  induction items generalizing seen with
  | nil => rfl
  | cons a rest ih =>
    rw [List.map_cons, List.nodup_cons] at hkeys
    rw [firstsFrom, if_neg (hseen a List.mem_cons_self)]
    congr 1
    apply ih hkeys.2
    intro b hb hmem
    rcases List.mem_cons.mp hmem with hsame | hin
    · exact hkeys.1 (List.mem_map.mpr ⟨b, hb, hsame⟩)
    · exact hseen b (List.mem_cons_of_mem _ hb) hin

theorem firstsBy_nodup : ((firstsBy key items).map key).Nodup := firstsFrom_nodup

theorem firstsBy_eq_self (h : (items.map key).Nodup) : firstsBy key items = items :=
  firstsFrom_eq_self h fun _ _ => List.not_mem_nil

theorem mem_firstsFrom {a : α} : a ∈ firstsFrom key seen items ↔
    key a ∉ seen ∧ items.find? (fun b => key b = key a) = some a := by
  induction items generalizing seen with
  | nil => simp [firstsFrom]
  | cons b rest ih =>
    rw [firstsFrom, List.find?_cons]
    by_cases hkey : key b = key a
    · simp only [hkey, decide_true, Option.some.injEq]
      split_ifs with hseen
      · rw [ih]
        simp [hseen]
      · rw [List.mem_cons, ih]
        constructor
        · rintro (rfl | ⟨hnot, -⟩)
          · exact ⟨hseen, rfl⟩
          · exact absurd List.mem_cons_self hnot
        · rintro ⟨-, rfl⟩
          exact Or.inl rfl
    · have hne : a ≠ b := fun hab => hkey (hab ▸ rfl)
      simp only [hkey, decide_false]
      split_ifs with hseen
      · exact ih
      · rw [List.mem_cons, or_iff_right hne, ih, List.mem_cons, or_iff_right (Ne.symm hkey)]

/-- An element that is the first one of its key. -/
theorem mem_firstsBy {a : α} :
    a ∈ firstsBy key items ↔ items.find? (fun b => key b = key a) = some a := by
  rw [firstsBy, mem_firstsFrom, and_iff_right List.not_mem_nil]

/-- With distinct keys, one element has the key of an element. -/
theorem filter_key_eq {a : α} (h : (items.map key).Nodup) (ha : a ∈ items) :
    (items.filter fun b => key b = key a) = [a] := by
  induction items with
  | nil => cases ha
  | cons first rest ih =>
    rw [List.map_cons, List.nodup_cons] at h
    rcases List.mem_cons.mp ha with rfl | hrest
    · rw [List.filter_cons_of_pos (by simp)]
      congr 1
      apply List.filter_eq_nil_iff.mpr
      intro b hb hkey
      exact h.1 (List.mem_map.mpr ⟨b, hb, of_decide_eq_true hkey⟩)
    · have hne : key first ≠ key a := fun hkey => h.1 (hkey ▸ List.mem_map_of_mem hrest)
      rw [List.filter_cons_of_neg (by simpa using hne)]
      exact ih h.2 hrest

/-- Only distinct keys leave the length as it is. -/
theorem length_firstsBy_eq_iff :
    (firstsBy key items).length = items.length ↔ (items.map key).Nodup := by
  constructor
  · intro hlength
    rw [← firstsFrom_sublist.eq_of_length hlength]
    exact firstsBy_nodup
  · intro h
    rw [firstsBy_eq_self h]

end Firsts

end FineractReports
