import FineractReports.Library.Text

/-!
# Lower case of Unicode text

A text is lowered character by character, by the tables of Unicode. Only the capital sigma looks
at what stands around it. ASCII characters have their ASCII lower case, and no other character
is lowered to a digit, so the numbers of a text are those of the lowered text.
-/

namespace FineractReports

structure UnicodeCase where
  lower : Char → List Char
  endsWord : (before after : List Char) → Bool
  lower_ascii : ∀ c, c.toNat < 128 → lower c = [c.toLower]
  lower_other : ∀ c, 128 ≤ c.toNat → lower c ≠ [] ∧ ∀ d ∈ lower c, d.isDigit = false

namespace UnicodeCase

variable (tables : UnicodeCase)

def lowerChar (before : List Char) (c : Char) (after : List Char) : List Char :=
  if c = 'Σ' then [if tables.endsWord before after then 'ς' else 'σ'] else tables.lower c

/-- `before` has been lowered already. -/
def lowerFrom (before : List Char) : List Char → List Char
  | [] => []
  | c :: after => tables.lowerChar before c after ++ lowerFrom (before ++ [c]) after

/-- The lower case of a part of a text, between the text before it and the text after it. -/
def lowerPart (before : List Char) : (part after : List Char) → List Char
  | [], _ => []
  | c :: part, after =>
    tables.lowerChar before c (part ++ after) ++ lowerPart (before ++ [c]) part after

/-- `str::to_lowercase` -/
def toLowercase (text : String) : String := String.ofList (tables.lowerFrom [] text.toList)

theorem isDigit_toLower (c : Char) : c.toLower.isDigit = c.isDigit := by
  unfold Char.toLower
  split_ifs with hupper
  · obtain ⟨hlow, hhigh⟩ := hupper
    simp only [Char.isDigit]
    grind [UInt32.le_iff_toNat_le, UInt32.toNat_add]
  · rfl

theorem toLower_of_isDigit {c : Char} (h : c.isDigit = true) : c.toLower = c := by
  unfold Char.toLower
  split_ifs with hupper
  · simp only [Char.isDigit] at h
    grind [UInt32.le_iff_toNat_le]
  · rfl

theorem isDigit_ascii {c : Char} (h : c.isDigit = true) : c.toNat < 128 := by
  simp only [Char.isDigit, Char.toNat] at h ⊢
  grind [UInt32.le_iff_toNat_le]

/-- The tables of the ASCII characters alone. -/
def ascii : UnicodeCase where
  lower c := [c.toLower]
  endsWord _ _ := false
  lower_ascii _ _ := rfl
  lower_other c hc := by
    refine ⟨List.cons_ne_nil _ _, fun d hd => ?_⟩
    rw [List.mem_singleton.mp hd, isDigit_toLower, ← Bool.not_eq_true]
    intro hdigit
    exact absurd (isDigit_ascii hdigit) (by omega)

variable {tables} {before part after : List Char}

theorem lowerFrom_append (part after : List Char) : tables.lowerFrom before (part ++ after) =
    tables.lowerPart before part after ++ tables.lowerFrom (before ++ part) after := by
  induction part generalizing before with
  | nil => simp [lowerPart]
  | cons c part ih =>
    rw [List.cons_append, lowerFrom, lowerPart, ih]
    simp

theorem lowerPart_append (front back after : List Char) :
    tables.lowerPart before (front ++ back) after =
      tables.lowerPart before front (back ++ after) ++
        tables.lowerPart (before ++ front) back after := by
  induction front generalizing before with
  | nil => simp [lowerPart]
  | cons c front ih =>
    rw [List.cons_append, lowerPart, lowerPart, ih]
    simp

theorem lowerChar_ascii {c : Char} (hc : c.toNat < 128) :
    tables.lowerChar before c after = [c.toLower] := by
  have hsigma : c ≠ 'Σ' := by
    rintro rfl
    exact absurd hc (by decide)
  rw [lowerChar, if_neg hsigma, tables.lower_ascii c hc]

theorem lowerPart_ascii (hpart : ∀ c ∈ part, c.toNat < 128) :
    tables.lowerPart before part after = part.map Char.toLower := by
  induction part generalizing before with
  | nil => rfl
  | cons c part ih =>
    obtain ⟨hc, hrest⟩ := List.forall_mem_cons.mp hpart
    rw [lowerPart, ih hrest, lowerChar_ascii hc]
    simp

/-- An ASCII part is lowered on its own. -/
theorem lowerFrom_ascii (hpart : ∀ c ∈ part, c.toNat < 128) :
    tables.lowerFrom before (part ++ after) =
      part.map Char.toLower ++ tables.lowerFrom (before ++ part) after := by
  rw [lowerFrom_append, lowerPart_ascii hpart]

theorem toLowercase_ascii {text : String} (h : ∀ c ∈ text.toList, c.toNat < 128) :
    tables.toLowercase text = Text.asciiLower text := by
  have hlower := @lowerFrom_ascii tables [] text.toList [] h
  rw [List.append_nil] at hlower
  rw [toLowercase, hlower, Text.asciiLower, lowerFrom, List.append_nil]

/-- An ASCII part of a text stays a part of it. -/
theorem infix_toLowercase {text : String} (htext : text.toList = before ++ part ++ after)
    (hpart : ∀ c ∈ part, c.toNat < 128) :
    part.map Char.toLower <:+: (tables.toLowercase text).toList := by
  rw [toLowercase, String.toList_ofList, htext, List.append_assoc, lowerFrom_append,
    lowerFrom_ascii hpart]
  exact ⟨tables.lowerPart [] before (part ++ after), _, List.append_assoc _ _ _⟩

/-! ### Digits -/

theorem lowerChar_ne_nil (c : Char) : tables.lowerChar before c after ≠ [] := by
  by_cases hascii : c.toNat < 128
  · rw [lowerChar_ascii hascii]
    exact List.cons_ne_nil _ _
  · rw [lowerChar]
    split
    · exact List.cons_ne_nil _ _
    · exact (tables.lower_other c (by omega)).1

/-- A digit of the lowered text comes from that digit. -/
theorem lowerChar_digit {c d : Char} (hd : d.isDigit = true)
    (hmem : d ∈ tables.lowerChar before c after) : c = d := by
  by_cases hascii : c.toNat < 128
  · rw [lowerChar_ascii hascii, List.mem_singleton] at hmem
    subst hmem
    rw [isDigit_toLower] at hd
    exact (toLower_of_isDigit hd).symm
  · rw [lowerChar] at hmem
    split_ifs at hmem with hsigma hends
    · rw [List.mem_singleton.mp hmem] at hd
      exact absurd hd (by decide)
    · rw [List.mem_singleton.mp hmem] at hd
      exact absurd hd (by decide)
    · rw [(tables.lower_other c (by omega)).2 d hmem] at hd
      cases hd

theorem lowerPart_digits (hpart : ∀ c ∈ part, c.isDigit = true) :
    tables.lowerPart before part after = part := by
  rw [lowerPart_ascii fun c hc => isDigit_ascii (hpart c hc),
    List.map_congr_left fun c hc => toLower_of_isDigit (hpart c hc), List.map_id']

variable {text front digits back : List Char}

/-- Digits that begin the lowered text begin the text. -/
theorem exists_digits_append (hdigits : ∀ c ∈ digits, c.isDigit = true)
    (h : tables.lowerFrom before text = digits ++ back) :
    ∃ rest, text = digits ++ rest ∧ back = tables.lowerFrom (before ++ digits) rest := by
  induction digits generalizing before text with
  | nil => exact ⟨text, rfl, by rw [List.append_nil]; exact h.symm⟩
  | cons d digits ih =>
    obtain ⟨hd, hrest⟩ := List.forall_mem_cons.mp hdigits
    cases text with
    | nil => simp [lowerFrom] at h
    | cons c text =>
      rw [lowerFrom] at h
      obtain ⟨e, lowered, hlowered⟩ :=
        List.exists_cons_of_ne_nil (@lowerChar_ne_nil tables before text c)
      have hmem : d ∈ tables.lowerChar before c text := by
        rw [hlowered, List.cons_append] at h
        rw [hlowered, ← (List.cons.inj h).1]
        exact List.mem_cons_self
      obtain rfl := lowerChar_digit hd hmem
      rw [lowerChar_ascii (isDigit_ascii hd), toLower_of_isDigit hd] at h
      obtain ⟨rest, rfl, hback⟩ := ih hrest (List.cons.inj h).2
      exact ⟨rest, rfl, by simpa using hback⟩

/-- Digits of the lowered text stand in the text, between what the rest was lowered from. -/
theorem exists_digits (hne : digits ≠ []) (hdigits : ∀ c ∈ digits, c.isDigit = true)
    (h : tables.lowerFrom before text = front ++ digits ++ back) :
    ∃ first last, text = first ++ digits ++ last ∧
      front = tables.lowerPart before first (digits ++ last) ∧
      back = tables.lowerFrom (before ++ first ++ digits) last := by
  induction text generalizing before front with
  | nil => simp [lowerFrom, hne] at h
  | cons c text ih =>
    have hstart : front = [] → ∃ first last, c :: text = first ++ digits ++ last ∧
        front = tables.lowerPart before first (digits ++ last) ∧
        back = tables.lowerFrom (before ++ first ++ digits) last := by
      rintro rfl
      obtain ⟨rest, htext, hback⟩ := exists_digits_append hdigits h
      exact ⟨[], rest, htext, rfl, by simpa using hback⟩
    rw [lowerFrom, List.append_assoc] at h
    rcases List.append_eq_append_iff.mp h with ⟨gap, rfl, hgap⟩ | ⟨gap, hchar, hgap⟩
    · rw [← List.append_assoc] at hgap
      obtain ⟨first, last, rfl, rfl, hback⟩ := ih hgap
      refine ⟨c :: first, last, rfl, ?_, by simpa using hback⟩
      rw [lowerPart, List.append_assoc]
    · -- the digits begin within the lower case of `c`, which is then a digit itself
      cases gap with
      | nil =>
        obtain ⟨first, last, htext, hfront, hback⟩ := @ih (before ++ [c]) [] hgap.symm
        refine ⟨c :: first, last, by rw [htext]; rfl, ?_, by simpa using hback⟩
        rw [lowerPart, ← hfront, List.append_nil, ← List.append_assoc, ← htext, hchar,
          List.append_nil]
      | cons e gap =>
        obtain ⟨d, others, rfl⟩ := List.exists_cons_of_ne_nil hne
        obtain rfl : d = e := (List.cons.inj hgap).1
        have hd := hdigits d List.mem_cons_self
        obtain rfl : c = d := lowerChar_digit hd (by rw [hchar]; simp)
        rw [lowerChar_ascii (isDigit_ascii hd)] at hchar
        apply hstart
        cases front with
        | nil => rfl
        | cons other front => simp at hchar

end UnicodeCase

end FineractReports
