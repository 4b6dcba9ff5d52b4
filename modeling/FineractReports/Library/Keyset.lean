import FineractReports.Library.KeyedLists
import Mathlib.Data.List.Nodup
import Mathlib.Data.Finset.Card

/-!
# Pages after a key

A reader goes through a table page by page, in the order of a key that no two rows share. Each
page holds the first rows beyond the last key of the page before it; a page that is not the last
one names its own last key. The table may grow between two pages.
-/

namespace FineractReports

variable {α κ : Type*} [LinearOrder κ]

/-- A key beyond the one the page before ended with; the first page begins anywhere. -/
def Beyond (after : Option κ) (k : κ) : Prop := ∀ c ∈ after, c < k

instance (after : Option κ) (k : κ) : Decidable (Beyond after k) := by
  unfold Beyond; infer_instance

structure Page (α κ : Type*) where
  items : List α
  next : Option κ

/-- The rows beyond a key, in order. -/
def rowsBeyond (key : α → κ) (after : Option κ) (rows : List α) : List α :=
  sortByKey key (rows.filter fun row => Beyond after (key row))

/-- One row more than the page holds is read, which tells whether there is another page. -/
def pageAfter (key : α → κ) (limit : ℕ) (after : Option κ) (rows : List α) : Page α κ :=
  let fetched := (rowsBeyond key after rows).take (limit + 1)
  ⟨fetched.take limit,
    if limit < fetched.length then (fetched.take limit).getLast?.map key else none⟩

section Pages

variable {key : α → κ} {limit : ℕ} {after : Option κ} {rows : List α} {row : α} {c k : κ}

theorem Beyond.trans (h : Beyond after c) (hlt : c < k) : Beyond after k :=
  fun bound hbound => (h bound hbound).trans hlt

@[simp] theorem mem_rowsBeyond :
    row ∈ rowsBeyond key after rows ↔ row ∈ rows ∧ Beyond after (key row) := by
  simp [rowsBeyond]

theorem rowsBeyond_pairwise (hkeys : (rows.map key).Nodup) :
    (rowsBeyond key after rows).Pairwise fun a b => key a < key b := by
  have hkept : ((rowsBeyond key after rows).map key).Nodup :=
    (sortByKey_perm.map key).nodup_iff.mpr (hkeys.sublist (List.filter_sublist.map key))
  rw [List.Nodup, List.pairwise_map] at hkept
  exact sortByKey_pairwise.imp₂ (fun _ _ hle hne => lt_of_le_of_ne hle hne) hkept

theorem pageAfter_items :
    (pageAfter key limit after rows).items = (rowsBeyond key after rows).take limit := by
  simp [pageAfter, List.take_take]

theorem mem_pageAfter (h : row ∈ (pageAfter key limit after rows).items) :
    row ∈ rows ∧ Beyond after (key row) := by
  rw [pageAfter_items] at h
  exact mem_rowsBeyond.mp (List.mem_of_mem_take h)

theorem pageAfter_pairwise (hkeys : (rows.map key).Nodup) :
    (pageAfter key limit after rows).items.Pairwise fun a b => key a < key b := by
  rw [pageAfter_items]
  exact (rowsBeyond_pairwise hkeys).sublist (List.take_sublist _ _)

theorem pageAfter_next : (pageAfter key limit after rows).next =
    if limit < (rowsBeyond key after rows).length then
      ((rowsBeyond key after rows).take limit).getLast?.map key else none := by
  have hmore : limit < ((rowsBeyond key after rows).take (limit + 1)).length ↔
      limit < (rowsBeyond key after rows).length := by
    rw [List.length_take]
    omega
  simp only [pageAfter, hmore, List.take_take, Nat.min_eq_left (Nat.le_succ limit)]

/-- The key a page names is that of a row. -/
theorem exists_of_pageAfter_next (h : (pageAfter key limit after rows).next = some c) :
    ∃ row ∈ rows, key row = c := by
  rw [pageAfter_next] at h
  split_ifs at h
  obtain ⟨row, hrow, hkey⟩ := Option.map_eq_some_iff.mp h
  have hmem := List.mem_of_mem_take (List.mem_of_getLast? hrow)
  exact ⟨row, (mem_rowsBeyond.mp hmem).1, hkey⟩

/-- The last page holds every row that is left. -/
theorem pageAfter_last (hpos : 0 < limit) (h : (pageAfter key limit after rows).next = none)
    (hmem : row ∈ rows) (hbeyond : Beyond after (key row)) :
    row ∈ (pageAfter key limit after rows).items := by
  rw [pageAfter_items]
  rw [pageAfter_next] at h
  split_ifs at h with hmore
  · have hnonempty : (rowsBeyond key after rows).take limit ≠ [] := by
      rw [← List.length_pos_iff_ne_nil, List.length_take]
      omega
    rw [List.getLast?_eq_some_getLast hnonempty] at h
    cases h
  · rw [List.take_of_length_le (Nat.le_of_not_lt hmore)]
    exact mem_rowsBeyond.mpr ⟨hmem, hbeyond⟩

/-- Any other page is full, ends with the key it names, and holds every row up to it. -/
theorem pageAfter_more (hkeys : (rows.map key).Nodup)
    (h : (pageAfter key limit after rows).next = some c) :
    Beyond after c ∧ (pageAfter key limit after rows).items.length = limit ∧
      (∀ row ∈ (pageAfter key limit after rows).items, key row ≤ c) ∧
      ∀ row ∈ rows, Beyond after (key row) → key row ≤ c →
        row ∈ (pageAfter key limit after rows).items := by
  rw [pageAfter_next] at h
  rw [pageAfter_items]
  split_ifs at h with hmore
  obtain ⟨final, hlast, rfl⟩ := Option.map_eq_some_iff.mp h
  have hfinal : final ∈ (rowsBeyond key after rows).take limit := List.mem_of_getLast? hlast
  have hsorted : (rowsBeyond key after rows).Pairwise fun a b => key a < key b :=
    rowsBeyond_pairwise hkeys
  have hsplit := List.take_append_drop limit (rowsBeyond key after rows)
  refine ⟨(mem_rowsBeyond.mp (List.mem_of_mem_take hfinal)).2, ?_, ?_, ?_⟩
  · rw [List.length_take]
    omega
  · intro row hrow
    obtain ⟨front, hfront⟩ := List.getLast?_eq_some_iff.mp hlast
    have hpage := hsorted.sublist (List.take_sublist limit _)
    rw [hfront] at hpage hrow
    rcases List.mem_append.mp hrow with hearlier | hsame
    · exact ((List.pairwise_append.mp hpage).2.2 row hearlier final
        (List.mem_singleton_self final)).le
    · rw [List.mem_singleton.mp hsame]
  · intro row hmem hbeyond hle
    have hrow : row ∈ rowsBeyond key after rows := mem_rowsBeyond.mpr ⟨hmem, hbeyond⟩
    rw [← hsplit] at hrow hsorted
    rcases List.mem_append.mp hrow with hin | hout
    · exact hin
    · have hlt := (List.pairwise_append.mp hsorted).2.2 final hfinal row hout
      exact absurd hle (not_le.mpr hlt)

end Pages

/-! ### Going through the pages -/

/-- The rows shown, page after page, until a page names no key. A visit has the limit the reader
asks for and the rows the table has by then. -/
inductive Walk (key : α → κ) : Option κ → List (ℕ × List α) → List α → Prop
  | last {after : Option κ} {limit : ℕ} {rows : List α} (hpos : 0 < limit)
    (h : (pageAfter key limit after rows).next = none) :
    Walk key after [(limit, rows)] (pageAfter key limit after rows).items
  | more {after : Option κ} {limit : ℕ} {rows : List α} {c : κ} {visits : List (ℕ × List α)}
    {shown : List α} (hpos : 0 < limit) (h : (pageAfter key limit after rows).next = some c)
    (hrest : Walk key (some c) visits shown) :
    Walk key after ((limit, rows) :: visits) ((pageAfter key limit after rows).items ++ shown)

namespace Walk

variable {key : α → κ} {after : Option κ} {visits : List (ℕ × List α)} {shown : List α}

/-- Everything shown was in the table when it was shown. -/
theorem origin (h : Walk key after visits shown) {row : α} (hrow : row ∈ shown) :
    ∃ visit ∈ visits, row ∈ visit.2 := by
  induction h with
  | last hpos hnext => exact ⟨_, List.mem_singleton_self _, (mem_pageAfter hrow).1⟩
  | more hpos hnext hrest ih =>
    rcases List.mem_append.mp hrow with hhere | hlater
    · exact ⟨_, List.mem_cons_self, (mem_pageAfter hhere).1⟩
    · obtain ⟨visit, hvisit, hmem⟩ := ih hlater
      exact ⟨visit, List.mem_cons_of_mem _ hvisit, hmem⟩

/-- The rows are shown in the order of their keys, none of them twice. -/
theorem pairwise (h : Walk key after visits shown)
    (hkeys : ∀ visit ∈ visits, (visit.2.map key).Nodup) :
    shown.Pairwise (fun a b => key a < key b) ∧ ∀ row ∈ shown, Beyond after (key row) := by
  induction h with
  | last hpos hnext =>
    exact ⟨pageAfter_pairwise (hkeys _ (List.mem_singleton_self _)),
      fun row hrow => (mem_pageAfter hrow).2⟩
  | more hpos hnext hrest ih =>
    have hhere := hkeys _ List.mem_cons_self
    obtain ⟨hsorted, hbeyond⟩ := ih fun visit hvisit => hkeys visit (List.mem_cons_of_mem _ hvisit)
    obtain ⟨hafter, -, hupto, -⟩ := pageAfter_more hhere hnext
    refine ⟨List.pairwise_append.mpr ⟨pageAfter_pairwise hhere, hsorted, ?_⟩, ?_⟩
    · intro a ha b hb
      exact (hupto a ha).trans_lt (hbeyond b hb _ rfl)
    · intro row hrow
      rcases List.mem_append.mp hrow with hin | hlater
      · exact (mem_pageAfter hin).2
      · exact hafter.trans (hbeyond row hlater _ rfl)

/-- In a table that loses no row, all that was there at the first page is shown. -/
theorem complete (h : Walk key after visits shown)
    (hkeys : ∀ visit ∈ visits, (visit.2.map key).Nodup)
    (hgrows : visits.Pairwise fun visit later => visit.2 ⊆ later.2) {visit : ℕ × List α}
    (hfirst : visits.head? = some visit) {row : α} (hrow : row ∈ visit.2)
    (hbeyond : Beyond after (key row)) : row ∈ shown := by
  induction h generalizing visit with
  | last hpos hnext =>
    obtain rfl := Option.some.inj hfirst
    exact pageAfter_last hpos hnext hrow hbeyond
  | @more after limit rows c visits shown hpos hnext hrest ih =>
    obtain rfl := Option.some.inj hfirst
    obtain ⟨-, -, -, hupto⟩ := pageAfter_more (hkeys _ List.mem_cons_self) hnext
    obtain ⟨hkept, hgrows⟩ := List.pairwise_cons.mp hgrows
    by_cases hle : key row ≤ c
    · exact List.mem_append_left _ (hupto row hrow hbeyond hle)
    · cases hvisits : visits.head? with
      | none =>
        rw [List.head?_eq_none_iff] at hvisits
        rw [hvisits] at hrest
        cases hrest
      | some later =>
        apply List.mem_append_right
        apply ih (fun visit hvisit => hkeys visit (List.mem_cons_of_mem _ hvisit)) hgrows hvisits
        · exact hkept later (List.mem_of_head? hvisits) hrow
        · intro bound hbound
          obtain rfl := Option.some.inj hbound
          exact not_le.mp hle

/-- In a table that stays as it is, exactly the rows beyond the key are shown. -/
theorem eq_rowsBeyond {rows : List α} (h : Walk key after visits shown)
    (hkeys : (rows.map key).Nodup) (hsame : ∀ visit ∈ visits, visit.2 = rows) :
    shown = rowsBeyond key after rows := by
  have hdistinct : ∀ visit ∈ visits, (visit.2.map key).Nodup := by
    intro visit hvisit
    rw [hsame visit hvisit]
    exact hkeys
  have hgrows : visits.Pairwise fun visit later => visit.2 ⊆ later.2 := by
    refine List.pairwise_of_forall_mem_list fun visit hvisit later hlater => ?_
    rw [hsame visit hvisit, hsame later hlater]
    exact List.Subset.refl _
  obtain ⟨hsorted, hbeyond⟩ := h.pairwise hdistinct
  have hrows : (rowsBeyond key after rows).Pairwise fun a b => key a < key b :=
    rowsBeyond_pairwise hkeys
  have hmem : ∀ row, row ∈ shown ↔ row ∈ rowsBeyond key after rows := by
    intro row
    rw [mem_rowsBeyond]
    constructor
    · intro hrow
      obtain ⟨visit, hvisit, hin⟩ := h.origin hrow
      exact ⟨hsame visit hvisit ▸ hin, hbeyond row hrow⟩
    · rintro ⟨hin, hafter⟩
      obtain ⟨visit, hfirst⟩ : ∃ visit, visits.head? = some visit := by
        cases h with
        | last hpos hnext => exact ⟨_, rfl⟩
        | more hpos hnext hrest => exact ⟨_, rfl⟩
      have hvisit := hsame visit (List.mem_of_head? hfirst)
      exact h.complete hdistinct hgrows hfirst (hvisit ▸ hin) hafter
  have hnodup : ∀ {items : List α}, items.Pairwise (fun a b => key a < key b) → items.Nodup :=
    fun hitems => hitems.imp fun {a b} hlt heq => absurd (heq ▸ hlt) (lt_irrefl _)
  refine List.Perm.eq_of_pairwise ?_ hsorted hrows ?_
  · exact fun a b _ _ hab hba => absurd (hab.trans hba) (lt_irrefl _)
  · exact (List.perm_ext_iff_of_nodup (hnodup hsorted) (hnodup hrows)).mpr hmem

end Walk

section Ends

variable {key : α → κ} {rows : List α} {after : Option κ} {limit : ℕ}

/-- After the row at an index come those behind it. -/
theorem rowsBeyond_getElem (hkeys : (rows.map key).Nodup) {index : ℕ} {row : α}
    (h : (rowsBeyond key none rows)[index]? = some row) :
    rowsBeyond key (some (key row)) rows = (rowsBeyond key none rows).drop (index + 1) := by
  have hall : rowsBeyond key none rows = sortByKey key rows := by simp [rowsBeyond, Beyond]
  have hsorted : (rowsBeyond key none rows).Pairwise fun a b => key a < key b :=
    rowsBeyond_pairwise hkeys
  rw [hall] at h hsorted
  rw [hall, rowsBeyond, sortByKey_filter hkeys]
  obtain ⟨hlt, hrow⟩ := List.getElem?_eq_some_iff.mp h
  have hsplit := List.take_append_drop (index + 1) (sortByKey key rows)
  have hbefore : ∀ other ∈ (sortByKey key rows).take (index + 1),
      ¬ decide (Beyond (some (key row)) (key other)) = true := by
    intro other hother
    obtain ⟨i, hi, hat⟩ := List.mem_take_iff_getElem.mp hother
    have hle : key other ≤ key row := by
      rcases Nat.lt_or_eq_of_le (Nat.le_of_lt_succ (lt_of_lt_of_le hi (Nat.min_le_left _ _))) with
        hbelow | heq
      · rw [← hat, ← hrow]
        exact (List.pairwise_iff_getElem.mp hsorted i index _ hlt hbelow).le
      · subst heq
        rw [← hat, hrow]
    simpa [Beyond] using hle
  have hbehind : ∀ other ∈ (sortByKey key rows).drop (index + 1),
      decide (Beyond (some (key row)) (key other)) = true := by
    intro other hother
    obtain ⟨i, hi, hat⟩ := List.mem_drop_iff_getElem.mp hother
    rw [← hat, ← hrow]
    have hafter := List.pairwise_iff_getElem.mp hsorted index (index + 1 + i) hlt (by omega)
    simpa [Beyond] using hafter (by omega)
  conv_lhs => rw [← hsplit]
  rw [List.filter_append, List.filter_eq_nil_iff.mpr hbefore, List.filter_eq_self.mpr hbehind,
    List.nil_append]

/-- The rows beyond a later key. -/
theorem rowsBeyond_filter (hkeys : (rows.map key).Nodup) {c : κ} (h : Beyond after c) :
    rowsBeyond key (some c) rows =
      (rowsBeyond key after rows).filter fun row => Beyond (some c) (key row) := by
  unfold rowsBeyond
  rw [← sortByKey_filter (hkeys.sublist (List.filter_sublist.map key)), List.filter_filter]
  congr 1
  apply List.filter_congr
  intro row _
  by_cases hrow : Beyond (some c) (key row)
  · simp [hrow, h.trans (hrow c rfl)]
  · simp [hrow]

/-- A table that stays as it is has a last page. -/
theorem exists_walk (hkeys : (rows.map key).Nodup) (hpos : 0 < limit) (after : Option κ) :
    ∃ visits shown, Walk key after visits shown ∧ ∀ visit ∈ visits, visit = (limit, rows) := by
  induction hlength : (rowsBeyond key after rows).length using Nat.strong_induction_on
    generalizing after with
  | _ length ih =>
    cases hnext : (pageAfter key limit after rows).next with
    | none => exact ⟨_, _, .last hpos hnext, by simp⟩
    | some c =>
      have hshorter : (rowsBeyond key (some c) rows).length < length := by
        obtain ⟨hafter, hfull, hupto, -⟩ := pageAfter_more hkeys hnext
        obtain ⟨row, hrow⟩ := List.exists_mem_of_length_pos (hfull.symm ▸ hpos)
        rw [rowsBeyond_filter hkeys hafter, ← hlength]
        refine List.length_filter_lt_length_iff_exists.mpr ⟨row, ?_, ?_⟩
        · exact mem_rowsBeyond.mpr (mem_pageAfter hrow)
        · simpa [Beyond] using hupto row hrow
      obtain ⟨visits, shown, hwalk, hsame⟩ := ih _ hshorter (some c) rfl
      exact ⟨_, _, .more hpos hnext hwalk, by simpa using hsame⟩

end Ends

end FineractReports
