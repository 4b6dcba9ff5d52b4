import FineractReports.Library.Checks
import FineractReports.Library.Text

/-!
# Byte offsets

Positions of a text counted in the bytes of its encoding, as `str` counts them. A slice is
defined where its offset is the boundary of a character. The matches of a pattern are found
from left to right, each after the end of the one before.
-/

namespace FineractReports.Utf8

def byteLength (text : List Char) : ℕ := (text.map Char.utf8Size).sum

/-- `text[offset..]` -/
def sliceFrom : List Char → ℕ → Option (List Char)
  | text, 0 => some text
  | [], _ + 1 => none
  | c :: rest, offset + 1 =>
    if c.utf8Size ≤ offset + 1 then sliceFrom rest (offset + 1 - c.utf8Size) else none

/-- `text[..offset]` -/
def sliceTo : List Char → ℕ → Option (List Char)
  | _, 0 => some []
  | [], _ + 1 => none
  | c :: rest, offset + 1 =>
    if c.utf8Size ≤ offset + 1 then (sliceTo rest (offset + 1 - c.utf8Size)).map (c :: ·) else none

@[simp] theorem byteLength_nil : byteLength [] = 0 := rfl

@[simp] theorem byteLength_cons (c : Char) (text : List Char) :
    byteLength (c :: text) = c.utf8Size + byteLength text := rfl

theorem byteLength_append (front back : List Char) :
    byteLength (front ++ back) = byteLength front + byteLength back := by
  simp [byteLength]

theorem byteLength_take_add (text : List Char) (index count : ℕ) :
    byteLength (text.take index) + byteLength ((text.drop index).take count) =
      byteLength (text.take (index + count)) := by
  rw [← byteLength_append, ← List.take_add]

theorem sliceFrom_zero (text : List Char) : sliceFrom text 0 = some text := by
  cases text <;> rfl

theorem sliceTo_zero (text : List Char) : sliceTo text 0 = some [] := by
  cases text <;> rfl

theorem sliceFrom_utf8Size_add (c : Char) (rest : List Char) (offset : ℕ) :
    sliceFrom (c :: rest) (c.utf8Size + offset) = sliceFrom rest offset := by
  have hpos := c.utf8Size_pos
  obtain ⟨total, htotal⟩ : ∃ total, c.utf8Size + offset = total + 1 :=
    ⟨c.utf8Size + offset - 1, by omega⟩
  rw [htotal, sliceFrom, if_pos (by omega)]
  congr 1
  omega

theorem sliceTo_utf8Size_add (c : Char) (rest : List Char) (offset : ℕ) :
    sliceTo (c :: rest) (c.utf8Size + offset) = (sliceTo rest offset).map (c :: ·) := by
  have hpos := c.utf8Size_pos
  obtain ⟨total, htotal⟩ : ∃ total, c.utf8Size + offset = total + 1 :=
    ⟨c.utf8Size + offset - 1, by omega⟩
  rw [htotal, sliceTo, if_pos (by omega)]
  congr 2
  omega

/-- The bytes of the first characters end at a boundary. -/
theorem sliceFrom_take (text : List Char) (index : ℕ) :
    sliceFrom text (byteLength (text.take index)) = some (text.drop index) := by
  induction text generalizing index with
  | nil => simp [sliceFrom_zero]
  | cons c rest ih =>
    cases index with
    | zero => exact sliceFrom_zero _
    | succ index => simpa [sliceFrom_utf8Size_add] using ih index

theorem sliceTo_take (text : List Char) (index : ℕ) :
    sliceTo text (byteLength (text.take index)) = some (text.take index) := by
  induction text generalizing index with
  | nil => simp [sliceTo_zero]
  | cons c rest ih =>
    cases index with
    | zero => exact sliceTo_zero _
    | succ index => simpa [sliceTo_utf8Size_add] using ih index

theorem byteLength_take_eq_zero {text : List Char} {index : ℕ} :
    byteLength (text.take index) = 0 ↔ text.take index = [] := by
  constructor
  · intro h
    cases htake : text.take index with
    | nil => rfl
    | cons c rest =>
      rw [htake, byteLength_cons] at h
      have hpos := c.utf8Size_pos
      omega
  · intro h
    rw [h, byteLength_nil]

theorem byteLength_take_eq {text : List Char} {index : ℕ} :
    byteLength (text.take index) = byteLength text ↔ text.drop index = [] := by
  have hall := byteLength_append (text.take index) (text.drop index)
  rw [List.take_append_drop] at hall
  constructor
  · intro h
    cases hdrop : text.drop index with
    | nil => rfl
    | cons c rest =>
      rw [hdrop, byteLength_cons] at hall
      have hpos := c.utf8Size_pos
      omega
  · intro h
    rw [h, byteLength_nil, Nat.add_zero] at hall
    exact hall.symm

theorem byteLength_eq_zero {text : List Char} : byteLength text = 0 ↔ text = [] := by
  cases text with
  | nil => simp
  | cons c rest =>
    have hpos := c.utf8Size_pos
    rw [byteLength_cons]
    simp only [reduceCtorEq, iff_false]
    omega

/-- What ends no later is the beginning of the other. -/
theorem exists_append_of_byteLength_le {front back before after : List Char}
    (h : front ++ back = before ++ after) (hle : byteLength front ≤ byteLength before) :
    ∃ gap, before = front ++ gap := by
  rcases List.append_eq_append_iff.mp h with ⟨gap, hgap, -⟩ | ⟨gap, rfl, -⟩
  · exact ⟨gap, hgap⟩
  · rw [byteLength_append] at hle
    obtain rfl := byteLength_eq_zero.mp (by omega : byteLength gap = 0)
    exact ⟨[], by simp⟩

theorem sliceFrom_append (front back : List Char) :
    sliceFrom (front ++ back) (byteLength front) = some back := by
  have hslice := sliceFrom_take (front ++ back) front.length
  rwa [List.take_left, List.drop_left] at hslice

theorem sliceTo_append (front back : List Char) :
    sliceTo (front ++ back) (byteLength front) = some front := by
  have hslice := sliceTo_take (front ++ back) front.length
  rwa [List.take_left] at hslice

/-! ### ASCII case -/

theorem utf8Size_toLower (c : Char) : c.toLower.utf8Size = c.utf8Size := by
  unfold Char.toLower
  split_ifs with hupper
  · obtain ⟨hlow, hhigh⟩ := hupper
    have hsmall : c.utf8Size = 1 := by
      rw [Char.utf8Size_eq_one_iff]
      grind [UInt32.le_iff_toNat_le]
    rw [hsmall, Char.utf8Size_eq_one_iff]
    grind [UInt32.le_iff_toNat_le, UInt32.toNat_add]
  · rfl

theorem isAlphanum_toLower (c : Char) : c.toLower.isAlphanum = c.isAlphanum := by
  unfold Char.toLower
  split_ifs with hupper
  · obtain ⟨hlow, hhigh⟩ := hupper
    simp only [Char.isAlphanum, Text.isAlpha_eq, Text.isUpper_eq, Text.isLower_eq, Char.isDigit]
    grind [UInt32.le_iff_toNat_le, UInt32.toNat_add]
  · rfl

theorem byteLength_map_toLower (text : List Char) :
    byteLength (text.map Char.toLower) = byteLength text := by
  induction text with
  | nil => rfl
  | cons c rest ih => rw [List.map_cons, byteLength_cons, byteLength_cons, utf8Size_toLower, ih]

/-! ### Matches of a pattern -/

/-- The offsets of the matches of a nonempty pattern; `skip` characters of the last match
are still to be passed over. -/
def matchIndices (pattern : List Char) : (skip offset : ℕ) → List Char → List ℕ
  | _, _, [] => []
  | skip + 1, offset, c :: rest => matchIndices pattern skip (offset + c.utf8Size) rest
  | 0, offset, c :: rest =>
    if pattern.isPrefixOf (c :: rest) = true then
      offset :: matchIndices pattern (pattern.length - 1) (offset + c.utf8Size) rest
    else matchIndices pattern 0 (offset + c.utf8Size) rest

/-- The first element that passes a test. -/
def firstWhere {ε α : Type} (items : List α) (test : α → Except ε Bool) : Except ε (Option α) :=
  match items with
  | [] => .ok none
  | item :: rest => do
    let passes ← test item
    if passes = true then pure (some item) else firstWhere rest test

def MatchesAt (pattern text : List Char) (index : ℕ) : Prop := pattern <+: text.drop index

theorem MatchesAt.le_length {pattern text : List Char} {index : ℕ} (hpattern : pattern ≠ [])
    (h : MatchesAt pattern text index) : index + pattern.length ≤ text.length := by
  have hle := List.IsPrefix.length_le h
  rw [List.length_drop] at hle
  have hpos := List.length_pos_of_ne_nil hpattern
  omega

/-- Of two matches that overlap, the second begins with an end of the pattern. -/
theorem MatchesAt.overlap {pattern text : List Char} {low gap : ℕ}
    (hlow : MatchesAt pattern text low) (hhigh : MatchesAt pattern text (low + gap)) :
    pattern.drop gap <+: pattern := by
  have hdrop := List.IsPrefix.drop hlow gap
  rw [List.drop_drop] at hdrop
  exact List.prefix_of_prefix_length_le hdrop hhigh (by simp)

theorem MatchesAt.getElem? {pattern text : List Char} {index offset : ℕ}
    (h : MatchesAt pattern text index) (hoffset : offset < pattern.length) :
    text[index + offset]? = pattern[offset]? := by
  obtain ⟨rest, hrest⟩ := h
  rw [← List.getElem?_drop, ← hrest, List.getElem?_append_left hoffset]

/-- No index from `low` to below `high` has a match that is wanted. -/
def NoneWanted (pattern text : List Char) (wanted : ℕ → Bool) (low high : ℕ) : Prop :=
  ∀ index, low ≤ index → index < high → MatchesAt pattern text index → wanted index = false

section Search

variable {ε : Type} {pattern text : List Char} {wanted : ℕ → Bool} {test : ℕ → Except ε Bool}

theorem NoneWanted.succ {low high : ℕ}
    (hlow : MatchesAt pattern text low → wanted low = false)
    (h : NoneWanted pattern text wanted (low + 1) high) :
    NoneWanted pattern text wanted low high := by
  intro index hge hlt hmatch
  rcases Nat.eq_or_lt_of_le hge with rfl | hgt
  · exact hlow hmatch
  · exact h index hgt hlt hmatch

/-- The search from an index on: the first wanted match or none, where no wanted match
begins inside another match. -/
theorem firstWhere_from (hpattern : pattern ≠ [])
    (htest : ∀ index, MatchesAt pattern text index →
      test (byteLength (text.take index)) = .ok (wanted index))
    (hinside : ∀ low, MatchesAt pattern text low →
      NoneWanted pattern text wanted (low + 1) (low + pattern.length))
    (done rest : List Char) (skip : ℕ) (htext : text = done ++ rest)
    (hskip : NoneWanted pattern text wanted done.length (done.length + skip)) :
    (firstWhere (matchIndices pattern skip (byteLength done) rest) test = .ok none ∧
      ∀ high, NoneWanted pattern text wanted done.length high) ∨
    ∃ index, firstWhere (matchIndices pattern skip (byteLength done) rest) test =
        .ok (some (byteLength (text.take index))) ∧ done.length ≤ index ∧
      MatchesAt pattern text index ∧ wanted index = true ∧
      NoneWanted pattern text wanted done.length index := by
  induction rest generalizing done skip with
  | nil =>
    refine Or.inl ⟨by cases skip <;> rfl, fun high index hge _ hmatch => ?_⟩
    have hdrop : text.drop index = [] := by
      rw [htext, List.append_nil]
      exact List.drop_of_length_le hge
    rw [MatchesAt, hdrop, List.prefix_nil] at hmatch
    exact absurd hmatch hpattern
  | cons c rest ih =>
    have hhere : MatchesAt pattern text done.length ↔ pattern.isPrefixOf (c :: rest) = true := by
      rw [MatchesAt, htext, List.drop_left, List.isPrefixOf_iff_prefix]
    have hdone : text = (done ++ [c]) ++ rest := by simp [htext]
    have hlength : (done ++ [c]).length = done.length + 1 := by simp
    have hoffset : byteLength (done ++ [c]) = byteLength done + c.utf8Size := by
      simp [byteLength_append]
    have htake : text.take done.length = done := by rw [htext, List.take_left]
    -- the search goes on behind `c`, where `c` begins no wanted match
    have hnext : ∀ (later : ℕ), (MatchesAt pattern text done.length → wanted done.length = false) →
        NoneWanted pattern text wanted (done.length + 1) (done.length + 1 + later) →
        (firstWhere (matchIndices pattern later (byteLength done + c.utf8Size) rest) test =
            .ok none ∧ ∀ high, NoneWanted pattern text wanted done.length high) ∨
        ∃ index, firstWhere (matchIndices pattern later (byteLength done + c.utf8Size) rest) test =
            .ok (some (byteLength (text.take index))) ∧ done.length ≤ index ∧
          MatchesAt pattern text index ∧ wanted index = true ∧
          NoneWanted pattern text wanted done.length index := by
      intro later hfirst hlater
      rw [← hlength] at hlater
      have hrest := ih (done ++ [c]) later hdone hlater
      rw [hlength, hoffset] at hrest
      rcases hrest with ⟨hnone, hall⟩ | ⟨index, hfound, hge, hmatch, hwanted, hall⟩
      · exact Or.inl ⟨hnone, fun high => (hall high).succ hfirst⟩
      · exact Or.inr ⟨index, hfound, by omega, hmatch, hwanted, hall.succ hfirst⟩
    cases skip with
    | succ skip =>
      rw [matchIndices]
      apply hnext skip
      · exact fun hmatch => hskip _ le_rfl (by omega) hmatch
      · intro index hge hlt
        exact hskip index (by omega) (by omega)
    | zero =>
      rw [matchIndices]
      by_cases hbegins : pattern.isPrefixOf (c :: rest) = true
      · have hmatch := hhere.mpr hbegins
        have htested := htest _ hmatch
        rw [htake] at htested
        rw [if_pos hbegins, firstWhere, htested]
        cases hwanted : wanted done.length with
        | true => exact Or.inr ⟨done.length, by rw [htake]; rfl, le_rfl, hmatch, hwanted,
            fun index hge hlt => absurd hge (by omega)⟩
        | false =>
          apply hnext
          · exact fun _ => hwanted
          · intro index hge hlt
            have hpos := List.length_pos_of_ne_nil hpattern
            exact hinside _ hmatch index hge (by omega)
      · rw [if_neg hbegins]
        apply hnext 0
        · exact fun hmatch => absurd (hhere.mp hmatch) hbegins
        · exact fun index hge hlt => absurd hge (by omega)

/-- The first wanted match of a text. -/
theorem firstWhere_matchIndices (hpattern : pattern ≠ [])
    (htest : ∀ index, MatchesAt pattern text index →
      test (byteLength (text.take index)) = .ok (wanted index))
    (hinside : ∀ low, MatchesAt pattern text low →
      NoneWanted pattern text wanted (low + 1) (low + pattern.length)) :
    (firstWhere (matchIndices pattern 0 0 text) test = .ok none ∧
      ∀ index, MatchesAt pattern text index → wanted index = false) ∨
    ∃ index, firstWhere (matchIndices pattern 0 0 text) test =
        .ok (some (byteLength (text.take index))) ∧
      MatchesAt pattern text index ∧ wanted index = true ∧
      ∀ earlier < index, MatchesAt pattern text earlier → wanted earlier = false := by
  rcases firstWhere_from hpattern htest hinside [] text 0 rfl
      (fun index hge hlt => absurd hge (by omega)) with
    ⟨hnone, hall⟩ | ⟨index, hfound, -, hmatch, hwanted, hall⟩
  · exact Or.inl ⟨hnone, fun index => hall (index + 1) index (Nat.zero_le _) (Nat.lt_succ_self _)⟩
  · exact Or.inr ⟨index, hfound, hmatch, hwanted, fun earlier => hall earlier (Nat.zero_le _)⟩

end Search

end FineractReports.Utf8
