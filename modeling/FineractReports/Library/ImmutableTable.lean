import Mathlib.Data.List.Forall2
import Mathlib.Data.List.Pairwise

/-!
# Tables written once

A table with unique keys whose rows are never updated. A value is inserted unless its row
shares a unique key with a stored one, and then read back by its keys: the call succeeds when
what is read is the value. Which of several rows a query without an order returns is a choice
of the database.
-/

namespace FineractReports

/-- How the values of a table are prepared, written, checked and read back. -/
structure ImmutableTable (ρ α ε : Type*) where
  prepare : α → Except ε α
  encode : α → ρ
  read : ρ → Except ε α
  same : α → α → Bool
  /-- The rows share a unique key. -/
  clashes : ρ → ρ → Bool
  /-- The rows the value is read back from. -/
  selects : α → ρ → Bool
  check : ρ → Bool
  rejected : ε
  missing : ε
  conflict : ε
  clashes_self : ∀ r, clashes r r = true
  clashes_symm : ∀ r s, clashes r s = true → clashes s r = true
  selects_eq : ∀ v r, selects v r = clashes (encode v) r
  /-- A row that reads as the value has the unique keys of the value. -/
  same_clashes : ∀ r v stored, read r = .ok stored → same stored v = true →
    ∀ s, clashes (encode v) s = clashes r s
  same_check : ∀ r v stored, read r = .ok stored → same stored v = true → check r = true →
    check (encode v) = true

namespace ImmutableTable

variable {ρ α ε : Type*} (T : ImmutableTable ρ α ε)

/-- Reads the value back from one of the rows that are selected. -/
def reread (choice : ℕ) (table : List ρ) (value : α) : Except ε α :=
  let matching := table.filter (T.selects value)
  match matching[choice % matching.length]? with
  | none => .error T.missing
  | some row =>
    match T.read row with
    | .error e => .error e
    | .ok stored => if T.same stored value then .ok stored else .error T.conflict

/-- Inserts the value unless a unique key is taken, and reads it back. -/
def insert (references : ρ → Bool) (choice : ℕ) (table : List ρ) (value : α) :
    List ρ × Except ε α :=
  match T.prepare value with
  | .error e => (table, .error e)
  | .ok value =>
    if T.check (T.encode value) = false then (table, .error T.rejected)
    else if table.any (T.clashes (T.encode value)) then (table, T.reread choice table value)
    else if references (T.encode value) = false then (table, .error T.rejected)
    else (table ++ [T.encode value], T.reread choice (table ++ [T.encode value]) value)

/-- Inserts the values in order and stops at the first that fails. -/
def insertAll (references : ρ → Bool) (choices : ℕ → ℕ) (table : List ρ) :
    List α → List ρ × Except ε (List α)
  | [] => (table, .ok [])
  | value :: rest =>
    match T.insert references (choices 0) table value with
    | (after, .error e) => (after, .error e)
    | (after, .ok stored) =>
      match insertAll references (fun i => choices (i + 1)) after rest with
      | (final, .error e) => (final, .error e)
      | (final, .ok others) => (final, .ok (stored :: others))

/-- No two rows share a unique key and every row passes its checks. -/
structure Sound (table : List ρ) : Prop where
  unique : table.Pairwise fun a b => T.clashes a b = false
  checked : ∀ row ∈ table, T.check row = true

/-- The table holds the value; it reads as `stored`. -/
def Holds (table : List ρ) (value stored : α) : Prop :=
  ∃ prepared, T.prepare value = .ok prepared ∧
    ∃ row ∈ table, T.read row = .ok stored ∧ T.same stored prepared = true

/-- A stored row shares a unique key with the value and is not the value. -/
def Disagrees (table : List ρ) (value : α) : Prop :=
  ∃ prepared, T.prepare value = .ok prepared ∧ ∃ row ∈ table,
    T.clashes (T.encode prepared) row = true ∧
      ∀ stored, T.read row = .ok stored → T.same stored prepared = false

/-- The value is what is read from its row. -/
def ReadsBack (value : α) : Prop :=
  ∀ prepared, T.prepare value = .ok prepared → T.check (T.encode prepared) = true →
    ∃ stored, T.read (T.encode prepared) = .ok stored ∧ T.same stored prepared = true

variable {T} {references : ρ → Bool} {choice : ℕ} {choices : ℕ → ℕ} {table after : List ρ}
  {value stored : α} {values storeds : List α} {e : ε}

theorem sound_nil : T.Sound [] := ⟨.nil, fun _ h => nomatch h⟩

theorem Sound.eq_of_clashes (h : T.Sound table) {a b : ρ} (ha : a ∈ table) (hb : b ∈ table)
    (hclash : T.clashes a b = true) : a = b := by
  by_contra hne
  have hsymm : ∀ r s, T.clashes r s = false → T.clashes s r = false := by
    intro r s hrs
    rw [Bool.eq_false_iff] at hrs ⊢
    exact fun hsr => hrs (T.clashes_symm s r hsr)
  have : Std.Symm fun a b => T.clashes a b = false := ⟨hsymm⟩
  have hfree := h.unique.forall ha hb hne
  rw [hclash] at hfree
  cases hfree

/-- What is read back comes from a row that is selected. -/
theorem reread_cases (h : T.reread choice table value = .ok stored) :
    ∃ row ∈ table, T.clashes (T.encode value) row = true ∧ T.read row = .ok stored ∧
      T.same stored value = true := by
  unfold reread at h
  simp only at h
  split at h
  · cases h
  · rename_i row hrow
    have hmem := List.mem_filter.mp (List.mem_of_getElem? hrow)
    rw [T.selects_eq] at hmem
    split at h
    · cases h
    · rename_i read hread
      split_ifs at h with hsame
      cases h
      exact ⟨row, hmem.1, hmem.2, hread, hsame⟩

/-- A value the table holds is read back, whatever row the database chooses. -/
theorem Sound.reread_eq (h : T.Sound table) {row : ρ} (hrow : row ∈ table)
    (hread : T.read row = .ok stored) (hsame : T.same stored value = true) :
    T.reread choice table value = .ok stored := by
  have hclash := T.same_clashes row value stored hread hsame
  have hmatching : ∀ other ∈ table.filter (T.selects value), other = row := by
    intro other hother
    obtain ⟨hmem, hselected⟩ := List.mem_filter.mp hother
    rw [T.selects_eq, hclash] at hselected
    exact (h.eq_of_clashes hrow hmem hselected).symm
  have hself : row ∈ table.filter (T.selects value) := by
    apply List.mem_filter.mpr
    rw [T.selects_eq, hclash, T.clashes_self]
    exact ⟨hrow, rfl⟩
  have hlt : choice % (table.filter (T.selects value)).length <
      (table.filter (T.selects value)).length :=
    Nat.mod_lt _ (List.length_pos_of_mem hself)
  have hchosen := hmatching _ (List.getElem_mem hlt)
  unfold reread
  simp only [List.getElem?_eq_getElem hlt, hchosen, hread, hsame, if_true]

theorem insert_extends (T : ImmutableTable ρ α ε) (references : ρ → Bool) (choice : ℕ)
    (table : List ρ) (value : α) : table <+: (T.insert references choice table value).1 := by
  unfold insert
  split
  · exact List.prefix_refl _
  · split_ifs
    · exact List.prefix_refl _
    · exact List.prefix_refl _
    · exact List.prefix_refl _
    · exact List.prefix_append _ _

theorem Sound.insert (h : T.Sound table) (references : ρ → Bool) (choice : ℕ) (value : α) :
    T.Sound (T.insert references choice table value).1 := by
  unfold ImmutableTable.insert
  split
  · exact h
  · rename_i prepared _
    split_ifs with hcheck hclash href
    · exact h
    · exact h
    · exact h
    · simp only [List.any_eq_true, not_exists, not_and, Bool.not_eq_true] at hclash
      refine ⟨?_, ?_⟩
      · apply List.pairwise_append.mpr
        refine ⟨h.unique, List.pairwise_singleton _ _, ?_⟩
        intro a ha b hb
        rw [List.mem_singleton.mp hb, Bool.eq_false_iff]
        intro hclash'
        have hfree := hclash a ha
        rw [T.clashes_symm _ _ hclash'] at hfree
        cases hfree
      · intro row hrow
        rcases List.mem_append.mp hrow with hold | hnew
        · exact h.checked row hold
        · rw [List.mem_singleton.mp hnew]
          simpa using hcheck

theorem Holds.mono (h : T.Holds table value stored) (hbegins : table <+: after) :
    T.Holds after value stored := by
  obtain ⟨prepared, hprepared, row, hrow, hread⟩ := h
  exact ⟨prepared, hprepared, row, hbegins.subset hrow, hread⟩

theorem Disagrees.mono (h : T.Disagrees table value) (hbegins : table <+: after) :
    T.Disagrees after value := by
  obtain ⟨prepared, hprepared, row, hrow, hclash⟩ := h
  exact ⟨prepared, hprepared, row, hbegins.subset hrow, hclash⟩

/-- A call that succeeds leaves the value in the table. -/
theorem holds_of_insert (h : (T.insert references choice table value).2 = .ok stored) :
    T.Holds (T.insert references choice table value).1 value stored := by
  unfold insert at h ⊢
  cases hprepared : T.prepare value with
  | error e => simp [hprepared] at h
  | ok prepared =>
    simp only [hprepared] at h ⊢
    split_ifs at h ⊢
    · obtain ⟨row, hrow, -, hread⟩ := reread_cases h
      exact ⟨prepared, hprepared, row, hrow, hread⟩
    · obtain ⟨row, hrow, -, hread⟩ := reread_cases h
      exact ⟨prepared, hprepared, row, hrow, hread⟩

/-- A value the table holds is inserted again without effect. -/
theorem Sound.insert_holds (h : T.Sound table) (hholds : T.Holds table value stored) :
    T.insert references choice table value = (table, .ok stored) := by
  obtain ⟨prepared, hprepared, row, hrow, hread, hsame⟩ := hholds
  have hcheck := T.same_check row prepared stored hread hsame (h.checked row hrow)
  have hclash : table.any (T.clashes (T.encode prepared)) = true := by
    apply List.any_eq_true.mpr
    refine ⟨row, hrow, ?_⟩
    rw [T.same_clashes row prepared stored hread hsame, T.clashes_self]
  unfold ImmutableTable.insert
  simp only [hprepared, hcheck, hclash, if_true, Bool.true_eq_false, if_false]
  rw [h.reread_eq hrow hread hsame]

theorem Sound.insert_disagrees (h : T.Sound table) (hdisagrees : T.Disagrees table value) :
    ∃ e, (T.insert references choice table value).2 = .error e := by
  obtain ⟨prepared, hprepared, row, hrow, hclash, hother⟩ := hdisagrees
  cases hresult : (T.insert references choice table value).2 with
  | error e => exact ⟨e, rfl⟩
  | ok stored =>
    obtain ⟨again, hagain, found, hfound, hread, hsame⟩ := holds_of_insert hresult
    obtain rfl : prepared = again := Except.ok.inj (hprepared.symm.trans hagain)
    have hkept := insert_extends T references choice table value
    -- The row that was read has the keys of the value, so it is the row that clashes.
    have hsameRow : found = row := by
      apply (h.insert references choice value).eq_of_clashes hfound (hkept.subset hrow)
      rw [← T.same_clashes found prepared stored hread hsame, hclash]
    rw [hother stored (hsameRow ▸ hread)] at hsame
    cases hsame

theorem Sound.not_disagrees (h : T.Sound table) (hholds : T.Holds table value stored) :
    ¬ T.Disagrees table value := by
  intro hdisagrees
  have hfails : ∃ e, (T.insert (fun _ => true) 0 table value).2 = .error e :=
    h.insert_disagrees hdisagrees
  rw [h.insert_holds hholds] at hfails
  obtain ⟨e, herror⟩ := hfails
  cases herror

/-- A call that fails wrote nothing, when values are read back as they are. -/
theorem Sound.insert_error (h : T.Sound table) (hback : T.ReadsBack value)
    (herror : (T.insert references choice table value).2 = .error e) :
    (T.insert references choice table value).1 = table := by
  have hsound := h.insert references choice value
  unfold ImmutableTable.insert at herror hsound ⊢
  cases hprepared : T.prepare value with
  | error e => rfl
  | ok prepared =>
    simp only [hprepared] at herror hsound ⊢
    split_ifs at herror hsound ⊢ with hcheck hclash href
    · rfl
    · rfl
    · rfl
    · obtain ⟨stored, hread, hsame⟩ := hback prepared hprepared (by simpa using hcheck)
      rw [hsound.reread_eq (by simp) hread hsame] at herror
      cases herror

/-! ### Several values -/

theorem insertAll_prefix (T : ImmutableTable ρ α ε) (references : ρ → Bool) (choices : ℕ → ℕ)
    (table : List ρ) (values : List α) :
    table <+: (T.insertAll references choices table values).1 := by
  induction values generalizing table choices with
  | nil => exact List.prefix_refl _
  | cons value rest ih =>
    have hfirst := insert_extends T references (choices 0) table value
    rw [insertAll]
    rcases hinsert : T.insert references (choices 0) table value with ⟨after, e | stored⟩
    · rw [hinsert] at hfirst
      exact hfirst
    · rw [hinsert] at hfirst
      have hrest := ih (fun i => choices (i + 1)) after
      rcases hall : T.insertAll references (fun i => choices (i + 1)) after rest with
        ⟨final, e | others⟩
      · simp only [hall] at hrest ⊢
        exact hfirst.trans hrest
      · simp only [hall] at hrest ⊢
        exact hfirst.trans hrest

theorem Sound.insertAll (h : T.Sound table) (references : ρ → Bool) (choices : ℕ → ℕ)
    (values : List α) : T.Sound (T.insertAll references choices table values).1 := by
  induction values generalizing table choices with
  | nil => exact h
  | cons value rest ih =>
    have hfirst := h.insert references (choices 0) value
    rw [ImmutableTable.insertAll]
    rcases hinsert : T.insert references (choices 0) table value with ⟨after, e | stored⟩
    · rw [hinsert] at hfirst
      exact hfirst
    · rw [hinsert] at hfirst
      have hrest := ih hfirst fun i => choices (i + 1)
      rcases hall : T.insertAll references (fun i => choices (i + 1)) after rest with
        ⟨final, e | others⟩
      · simp only [hall] at hrest ⊢
        exact hrest
      · simp only [hall] at hrest ⊢
        exact hrest

/-- Values that were inserted are held. -/
theorem holds_of_insertAll (h : (T.insertAll references choices table values).2 = .ok storeds) :
    List.Forall₂ (T.Holds (T.insertAll references choices table values).1) values storeds := by
  induction values generalizing table choices storeds with
  | nil =>
    rw [insertAll, Except.ok.injEq] at h
    subst h
    exact .nil
  | cons value rest ih =>
    rw [insertAll] at h ⊢
    rcases hinsert : T.insert references (choices 0) table value with ⟨after, e | stored⟩
    · simp [hinsert] at h
    · have hbegins := insertAll_prefix T references (fun i => choices (i + 1)) after rest
      rcases hall : T.insertAll references (fun i => choices (i + 1)) after rest with
        ⟨final, e | others⟩
      · simp [hinsert, hall] at h
      · simp only [hinsert, hall, Except.ok.injEq] at h ⊢
        subst h
        have hfirst : (T.insert references (choices 0) table value).2 = .ok stored →
            T.Holds (T.insert references (choices 0) table value).1 value stored :=
          holds_of_insert
        have hothers : (T.insertAll references (fun i => choices (i + 1)) after rest).2 =
            .ok others → List.Forall₂ (T.Holds (T.insertAll references
              (fun i => choices (i + 1)) after rest).1) rest others := ih
        rw [hinsert] at hfirst
        rw [hall] at hothers hbegins
        exact .cons ((hfirst rfl).mono hbegins) (hothers rfl)

theorem Sound.insertAll_holds (h : T.Sound table)
    (hholds : List.Forall₂ (T.Holds table) values storeds) :
    T.insertAll references choices table values = (table, .ok storeds) := by
  induction hholds generalizing choices with
  | nil => rfl
  | cons hfirst _ ih => simp only [ImmutableTable.insertAll, h.insert_holds hfirst, ih]

end ImmutableTable

end FineractReports
