import FineractReports.Assistant.IdentifierSpans

/-!
# A number taken out of a message

What a marker labels in a message whose number is covered by a placeholder: what it labelled
before that number, and what it labels in the rest. Nothing is labelled across the
placeholder, and the message and the result settle where the number stood.
-/

namespace FineractReports.IdentifierIntake

open Utf8

/-! ### Characters of a marker -/

section Letters

theorem isAlpha_toLower (c : Char) : c.toLower.isAlpha = c.isAlpha := by
  unfold Char.toLower
  split_ifs with hupper
  · obtain ⟨hlow, hhigh⟩ := hupper
    simp only [Text.isAlpha_eq, Text.isUpper_eq, Text.isLower_eq]
    grind [UInt32.le_iff_toNat_le, UInt32.toNat_add]
  · rfl

theorem eq_space_of_toLower {c : Char} (h : c.toLower = ' ') : c = ' ' := by
  have halpha := isAlpha_toLower c
  rw [h] at halpha
  unfold Char.toLower at h
  split_ifs at h with hupper
  · simp only [Text.isAlpha_eq, Text.isUpper_eq, Text.isLower_eq] at halpha
    grind
  · exact h

/-- A letter ends what is read as a number. -/
theorem not_number_of_isAlpha {c : Char} (h : c.isAlpha = true) :
    isSeparator c = false ∧ isRunChar c = false := by
  have hwhite : isAsciiWhitespace c = false := by
    rw [Bool.eq_false_iff]
    intro hmem
    simp only [isAsciiWhitespace, decide_eq_true_eq, List.mem_cons, List.not_mem_nil,
      or_false] at hmem
    rcases hmem with rfl | rfl | rfl | rfl | rfl <;> exact absurd h (by decide)
  have hdigit : c.isDigit = false := by
    simp only [Text.isAlpha_eq, Text.isUpper_eq, Text.isLower_eq, Char.isDigit] at h ⊢
    grind [UInt32.le_iff_toNat_le]
  have hplain : ∀ d : Char, d.isAlpha = false → c ≠ d := by
    rintro d hd rfl
    rw [h] at hd
    cases hd
  constructor
  · simp [isSeparator, hwhite, hplain ':' (by decide), hplain '#' (by decide)]
  · simp [isRunChar, hwhite, hdigit, hplain '-' (by decide)]

variable {words text : List Char} {index position : ℕ}

theorem char_of_match (hwords : MarkerWords words)
    (h : MatchesAt words (text.map Char.toLower) index) (hlow : index ≤ position)
    (hhigh : position < index + words.length) :
    ∃ c, text[position]? = some c ∧ (c.isAlpha = true ∨ c = ' ') := by
  have hoffset : position - index < words.length := by omega
  have hchar := h.getElem? hoffset
  have hplace : index + (position - index) = position := by omega
  rw [hplace, List.getElem?_map, List.getElem?_eq_getElem hoffset] at hchar
  obtain ⟨c, hc, hlower⟩ := Option.map_eq_some_iff.mp hchar
  refine ⟨c, hc, ?_⟩
  rcases hwords.chars _ (List.getElem_mem _) with halpha | hspace
  · rw [← hlower, isAlpha_toLower] at halpha
    exact Or.inl halpha
  · exact Or.inr (eq_space_of_toLower (hlower.trans hspace))

theorem last_of_match (hwords : MarkerWords words)
    (h : MatchesAt words (text.map Char.toLower) index) :
    ∃ c, text[index + words.length - 1]? = some c ∧ c.isAlpha = true := by
  have hpos := List.length_pos_of_ne_nil hwords.ne_nil
  have hoffset : words.length - 1 < words.length := by omega
  have hchar := h.getElem? hoffset
  have hlast := hwords.last
  have hplace : index + (words.length - 1) = index + words.length - 1 := by omega
  rw [List.getLast?_eq_getElem?, ← hchar, List.getElem?_map, hplace] at hlast
  cases hfound : text[index + words.length - 1]? with
  | none =>
    rw [hfound] at hlast
    cases hlast
  | some c =>
    rw [hfound, Option.map_some, Option.any_some, isAlpha_toLower] at hlast
    exact ⟨c, rfl, hlast⟩

theorem space_of_match (hwords : MarkerWords words)
    (h : MatchesAt words (text.map Char.toLower) index) :
    ∃ position, index ≤ position ∧ position < index + words.length ∧
      text[position]? = some ' ' := by
  obtain ⟨offset, hoffset, hspace⟩ := List.getElem_of_mem hwords.space
  have hchar := h.getElem? hoffset
  rw [List.getElem?_map, List.getElem?_eq_getElem hoffset, hspace] at hchar
  obtain ⟨c, hc, hlower⟩ := Option.map_eq_some_iff.mp hchar
  rw [eq_space_of_toLower hlower] at hc
  exact ⟨index + offset, by omega, by omega, hc⟩

end Letters

/-! ### Occurrences in two texts -/

section Transport

variable {words text other : List Char} {index shifted : ℕ}

/-- An occurrence in another text that has the same characters there. -/
theorem BoundedAt.transport (h : BoundedAt words text index)
    (hsame : ∀ offset < words.length, text[index + offset]? = other[shifted + offset]?)
    (hbefore : index = 0 ∨ endsWord text[index - 1]? = true →
      shifted = 0 ∨ endsWord other[shifted - 1]? = true)
    (hafter : endsWord text[index + words.length]? = true →
      endsWord other[shifted + words.length]? = true) : BoundedAt words other shifted where
  matched := by
    apply List.prefix_iff_getElem?.mpr
    intro offset hoffset
    have hchar := h.matched.getElem? hoffset
    rw [List.getElem?_map, hsame offset hoffset, ← List.getElem?_map] at hchar
    rw [List.getElem?_drop, hchar, List.getElem?_eq_getElem hoffset]
  before := hbefore h.before
  after := hafter h.after

/-- What is read behind a position is settled by the characters up to a letter. -/
theorem hasIdentifier_congr {start letter : ℕ} {c : Char} (hstart : start ≤ letter)
    (hsame : ∀ position ≤ letter, text[position]? = other[position]?)
    (hc : text[letter]? = some c) (halpha : c.isAlpha = true) :
    HasIdentifier (text.drop start) ↔ HasIdentifier (other.drop start) := by
  obtain ⟨hseparator, hrun⟩ := not_number_of_isAlpha halpha
  have hsplit : ∀ part : List Char, part[letter]? = some c → numberRun (part.drop start) =
      numberRun ((part.drop start).take (letter - start)) := by
    intro part hpart
    obtain ⟨hlt, hget⟩ := List.getElem?_eq_some_iff.mp hpart
    have hparts : part.drop start = (part.drop start).take (letter - start) ++
        c :: part.drop (letter + 1) := by
      conv_lhs => rw [← List.take_append_drop (letter - start) (part.drop start)]
      rw [List.drop_drop, show start + (letter - start) = letter by omega,
        List.drop_eq_getElem_cons hlt, hget]
    conv_lhs => rw [hparts]
    exact numberRun_append hseparator hrun _ _
  have hfront : (text.drop start).take (letter - start) =
      (other.drop start).take (letter - start) := by
    apply List.ext_getElem?
    intro offset
    by_cases hoffset : offset < letter - start
    · rw [List.getElem?_take_of_lt hoffset, List.getElem?_take_of_lt hoffset, List.getElem?_drop,
        List.getElem?_drop, hsame _ (by omega)]
    · rw [List.getElem?_take_eq_none (by omega), List.getElem?_take_eq_none (by omega)]
  unfold HasIdentifier digitsAfter
  rw [hsplit text hc, hfront, ← hsplit other (by rw [← hsame letter le_rfl, hc])]

end Transport

/-! ### A message with a number taken out -/

/-- A text around a number: the words before it end at `place`, and only separators stand
between. -/
structure Cut (text : List Char) (place : ℕ) (pre span post : List Char) : Prop where
  parts : text = pre ++ span ++ post
  place_le : place ≤ pre.length
  separators : ∀ c ∈ pre.drop place, isSeparator c = true
  letter : 0 < place ∧ ∃ c, text[place - 1]? = some c ∧ c.isAlpha = true
  run : ∀ c ∈ span, isRunChar c = true
  digit : ∃ c, span.getLast? = some c ∧ c.isDigit = true

/-- What stands for the number: no letter or digit at its ends, and no space in it. -/
structure Placeholder (text : List Char) : Prop where
  first : text[0]? = some '['
  last : text.getLast? = some ']'
  space : ' ' ∉ text

theorem placeholder {marker : Marker} (h : marker ∈ markers) :
    Placeholder marker.placeholder.toList where
  first := by
    revert marker
    decide
  last := by
    revert marker
    decide
  space := by
    revert marker
    decide

/-- The cut at an identifier. -/
theorem cut_of_labels {words text : List Char} {index : ℕ} (hwords : MarkerWords words)
    (h : Labels words text index) :
    Cut text (index + words.length)
      (text.take (index + words.length +
        ((text.drop (index + words.length)).takeWhile isSeparator).length))
      (spanAfter (text.drop (index + words.length)))
      (restAfter (text.drop (index + words.length))) := by
  set place := index + words.length with hplace
  set suffix := text.drop place with hsuffix
  have hpos := List.length_pos_of_ne_nil hwords.ne_nil
  have hle := h.bounded.matched.le_length hwords.ne_nil
  rw [List.length_map] at hle
  have hlead : suffix.takeWhile isSeparator = suffix.take
      (suffix.takeWhile isSeparator).length :=
    List.prefix_iff_eq_take.mp (List.takeWhile_prefix _)
  have hpre : text.take (place + (suffix.takeWhile isSeparator).length) =
      text.take place ++ suffix.takeWhile isSeparator := by
    rw [List.take_add, ← hsuffix, ← hlead]
  have htake : (text.take place).length = place := by
    rw [List.length_take]
    omega
  rw [hpre]
  constructor
  · rw [List.append_assoc, List.append_assoc, ← List.append_assoc (suffix.takeWhile isSeparator),
      separators_span_rest, hsuffix, List.take_append_drop]
  · rw [List.length_append, htake]
    omega
  · have hdrop : (text.take place ++ suffix.takeWhile isSeparator).drop place =
        suffix.takeWhile isSeparator := by
      conv_lhs => rw [← htake]
      rw [htake, List.drop_left' htake]
    rw [hdrop]
    exact fun c hc => List.mem_takeWhile_imp hc
  · exact ⟨by omega, last_of_match hwords h.bounded.matched⟩
  · intro c hc
    exact List.mem_takeWhile_imp ((List.rdropWhile_prefix _ _).subset hc)
  · have hdigits : (spanAfter suffix).filter Char.isDigit ≠ [] := by
      rw [filter_spanAfter]
      intro hnil
      have hfour : 4 ≤ (digitsAfter suffix).length := h.identifier
      rw [hnil] at hfour
      exact absurd hfour (by decide)
    have hspan : spanAfter suffix ≠ [] := by
      intro hnil
      rw [hnil] at hdigits
      exact hdigits rfl
    refine ⟨(spanAfter suffix).getLast hspan, List.getLast?_eq_getLast_of_ne_nil hspan, ?_⟩
    have hlast := List.rdropWhile_last_not (fun c : Char => !c.isDigit) (numberRun suffix) hspan
    rw [Bool.not_eq_true, Bool.not_eq_false'] at hlast
    exact hlast

section Cuts

variable {words text pre span post cover : List Char} {place index : ℕ}

/-- No letter stands among the separators behind a place. -/
theorem not_isAlpha_of_separators {position : ℕ} {c : Char}
    (hseparators : ∀ c ∈ pre.drop place, isSeparator c = true) (hle : place ≤ position)
    (hc : pre[position]? = some c) : ¬ c.isAlpha = true := by
  intro halpha
  have hmem : c ∈ pre.drop place := by
    apply List.mem_iff_getElem?.mpr
    refine ⟨position - place, ?_⟩
    rw [List.getElem?_drop, ← hc]
    congr 1
    omega
  have hseparator := (not_number_of_isAlpha halpha).1
  rw [hseparators c hmem] at hseparator
  cases hseparator

/-- An occurrence ends at the words before the number, before them, or in the rest. -/
theorem Cut.occurrence (hcut : Cut text place pre span post) (hwords : MarkerWords words)
    (h : BoundedAt words text index) : index + words.length ≤ place ∨
      pre.length + span.length ≤ index := by
  by_contra hnot
  rw [not_or, not_le, not_le] at hnot
  obtain ⟨hpast, hfront⟩ := hnot
  obtain ⟨c, hc, halpha⟩ := last_of_match hwords h.matched
  have hrun := (not_number_of_isAlpha halpha).2
  rw [hcut.parts] at hc
  by_cases hlead : index + words.length - 1 < pre.length
  · rw [List.append_assoc, List.getElem?_append_left hlead] at hc
    exact not_isAlpha_of_separators hcut.separators (by omega) hc halpha
  · by_cases hinside : index + words.length - 1 < pre.length + span.length
    · rw [List.append_assoc, List.getElem?_append_right (by omega),
        List.getElem?_append_left (by omega)] at hc
      rw [hcut.run c (List.mem_of_getElem? hc)] at hrun
      cases hrun
    -- it would have the last digit of the number in it
    · obtain ⟨d, hd, hdigit⟩ := hcut.digit
      have hne : span ≠ [] := by
        rintro rfl
        cases hd
      have hpos := List.length_pos_of_ne_nil hne
      have hlow : index ≤ pre.length + span.length - 1 := by omega
      obtain ⟨e, he, hletter⟩ := char_of_match hwords h.matched hlow (by omega)
      rw [hcut.parts, List.append_assoc, List.getElem?_append_right (by omega),
        List.getElem?_append_left (by omega)] at he
      rw [List.getLast?_eq_getElem?] at hd
      have hsame : pre.length + span.length - 1 - pre.length = span.length - 1 := by omega
      rw [hsame, hd] at he
      cases he
      rcases hletter with halpha | rfl
      · have hrunning := (not_number_of_isAlpha halpha).2
        simp [isRunChar, hdigit] at hrunning
      · exact absurd hdigit (by decide)

/-- No occurrence lies across what stands for the number or in it. -/
theorem Cut.occurrence_covered (hcut : Cut text place pre span post) (hcover : Placeholder cover)
    (hwords : MarkerWords words) (h : BoundedAt words (pre ++ cover ++ post) index) :
    index + words.length ≤ place ∨ pre.length + cover.length ≤ index := by
  by_contra hnot
  rw [not_or, not_le, not_le] at hnot
  obtain ⟨hpast, hfront⟩ := hnot
  have hpos := List.length_pos_of_ne_nil hwords.ne_nil
  have hopening : 0 < cover.length := (List.getElem?_eq_some_iff.mp hcover.first).1
  have hcovered : ∀ position, pre.length ≤ position → position < pre.length + cover.length →
      (pre ++ cover ++ post)[position]? = cover[position - pre.length]? := by
    intro position hlow hhigh
    rw [List.append_assoc, List.getElem?_append_right hlow, List.getElem?_append_left (by omega)]
  have hbracket : ∀ c : Char, c ∈ ['[', ']'] → ¬ (c.isAlpha = true ∨ c = ' ') := by
    intro c hc
    rw [List.mem_pair] at hc
    rcases hc with rfl | rfl
    · decide
    · decide
  by_cases hlead : index + words.length ≤ pre.length
  · obtain ⟨c, hc, halpha⟩ := last_of_match hwords h.matched
    rw [List.append_assoc, List.getElem?_append_left (by omega)] at hc
    exact not_isAlpha_of_separators hcut.separators (by omega) hc halpha
  · by_cases hopen : index ≤ pre.length
    · obtain ⟨c, hc, hletter⟩ := char_of_match hwords h.matched hopen (by omega)
      rw [hcovered _ le_rfl (by omega), Nat.sub_self, hcover.first] at hc
      cases hc
      exact hbracket _ (by decide) hletter
    · by_cases hclose : pre.length + cover.length < index + words.length + 1
      · have hin : pre.length + cover.length - 1 < index + words.length := by omega
        obtain ⟨c, hc, hletter⟩ := char_of_match hwords h.matched (by omega) hin
        have hlast := hcover.last
        have hsame : pre.length + cover.length - 1 - pre.length = cover.length - 1 := by omega
        rw [hcovered _ (by omega) (by omega), hsame, ← List.getLast?_eq_getElem?, hlast] at hc
        cases hc
        exact hbracket _ (by decide) hletter
      · obtain ⟨position, hlow, hhigh, hspace⟩ := space_of_match hwords h.matched
        rw [hcovered _ (by omega) (by omega)] at hspace
        exact hcover.space (List.mem_of_getElem? hspace)

end Cuts

/-! ### Labels of parts -/

section Parts

variable {words text other front post : List Char} {index : ℕ}

/-- Behind some front a marker labels what it labels in the rest. -/
theorem Labels.drop_front (h : Labels words (front ++ post) index)
    (hindex : front.length ≤ index) : Labels words post (index - front.length) := by
  have hget : ∀ position, front.length ≤ position →
      (front ++ post)[position]? = post[position - front.length]? := by
    intro position hposition
    rw [List.getElem?_append_right hposition]
  have hstart : (front ++ post).drop (index + words.length) =
      post.drop (index - front.length + words.length) := by
    rw [List.drop_append, List.drop_of_length_le (by omega), List.nil_append]
    congr 1
    omega
  have hidentifier := h.identifier
  rw [hstart] at hidentifier
  refine ⟨h.bounded.transport ?_ ?_ ?_, hidentifier⟩
  · intro offset hoffset
    rw [hget _ (by omega)]
    congr 1
    omega
  · intro hbefore
    by_cases hfirst : index = front.length
    · exact Or.inl (by omega)
    · rw [hget _ (by omega)] at hbefore
      have hplace : index - 1 - front.length = index - front.length - 1 := by omega
      rw [hplace] at hbefore
      exact Or.inr (hbefore.resolve_left (by omega))
  · intro hafter
    rw [hget _ (by omega)] at hafter
    have hplace : index + words.length - front.length =
        index - front.length + words.length := by omega
    rwa [hplace] at hafter

/-- And the other way, when the front ends no word. -/
theorem Labels.append_front (h : Labels words post index)
    (hend : endsWord front.getLast? = true) :
    Labels words (front ++ post) (front.length + index) := by
  have hget : ∀ position, (front ++ post)[front.length + position]? = post[position]? := by
    intro position
    rw [List.getElem?_append_right (by omega), Nat.add_sub_cancel_left]
  have hidentifier := h.identifier
  refine ⟨h.bounded.transport ?_ ?_ ?_, ?_⟩
  · intro offset hoffset
    rw [Nat.add_assoc, hget]
  · intro hbefore
    by_cases hempty : front.length + index = 0
    · exact Or.inl hempty
    · right
      by_cases hfirst : index = 0
      · rw [hfirst, Nat.add_zero, List.getElem?_append_left (by omega),
          ← List.getLast?_eq_getElem?]
        exact hend
      · have hplace : front.length + index - 1 = front.length + (index - 1) := by omega
        rw [hplace, hget]
        exact hbefore.resolve_left hfirst
  · rw [Nat.add_assoc, hget]
    exact id
  · rw [Nat.add_assoc, List.drop_append, List.drop_of_length_le (by omega), List.nil_append,
      Nat.add_sub_cancel_left]
    exact hidentifier

/-- In front of a letter that stands in both texts. -/
theorem Labels.of_front {letter : ℕ} {c : Char} (h : Labels words text index)
    (hsame : ∀ position ≤ letter, text[position]? = other[position]?)
    (hc : text[letter]? = some c) (halpha : c.isAlpha = true)
    (hindex : index + words.length ≤ letter) : Labels words other index := by
  refine ⟨h.bounded.transport ?_ ?_ ?_,
    (hasIdentifier_congr hindex hsame hc halpha).mp h.identifier⟩
  · intro offset hoffset
    exact hsame _ (by omega)
  · rw [hsame (index - 1) (by omega)]
    exact id
  · rw [hsame _ hindex]
    exact id

end Parts

/-! ### What is left labelled -/

def Labelled (text : List Char) : Prop :=
  ∃ marker ∈ markers, ∃ index, Labels marker.words.toList text index

section Covered

variable {words text pre span post cover : List Char} {place index : ℕ}

theorem Cut.pre_lt (hcut : Cut text place pre span post) {position : ℕ}
    (h : position ≤ place - 1) : text[position]? = (pre ++ cover ++ post)[position]? := by
  have hplace := hcut.place_le
  have hpos := hcut.letter.1
  rw [hcut.parts, List.append_assoc, List.append_assoc, List.getElem?_append_left (by omega),
    List.getElem?_append_left (by omega)]

/-- At the number itself the covered text labels nothing. -/
theorem Cut.not_identifier (hcut : Cut text place pre span post) (hcover : Placeholder cover) :
    ¬ HasIdentifier ((pre ++ cover ++ post).drop place) := by
  obtain ⟨rest, hrest⟩ : ∃ rest, cover = '[' :: rest := by
    cases hcase : cover with
    | nil =>
      have hfirst := hcover.first
      rw [hcase] at hfirst
      cases hfirst
    | cons c rest =>
      have hfirst := hcover.first
      rw [hcase] at hfirst
      cases hfirst
      exact ⟨rest, rfl⟩
  have hdrop : (pre ++ cover ++ post).drop place = pre.drop place ++ '[' :: (rest ++ post) := by
    rw [List.append_assoc, List.drop_append_of_le_length hcut.place_le, hrest, List.cons_append]
  have hnone : numberRun (pre.drop place) = [] := by
    unfold numberRun
    rw [List.dropWhile_eq_nil_iff.mpr hcut.separators, List.takeWhile_nil]
  rw [hdrop]
  unfold HasIdentifier digitsAfter
  rw [numberRun_append (by decide) (by decide), hnone]
  decide

/-- The covered text is labelled before the number or in the rest. -/
theorem Cut.labelled_iff (hcut : Cut text place pre span post) (hcover : Placeholder cover) :
    Labelled (pre ++ cover ++ post) ↔
      (∃ marker ∈ markers, ∃ index, Labels marker.words.toList text index ∧
        index + marker.words.toList.length < place) ∨ Labelled post := by
  obtain ⟨hpos, c, hc, halpha⟩ := hcut.letter
  have hend : endsWord (pre ++ cover).getLast? = true := by
    rw [List.getLast?_append, hcover.last]
    rfl
  constructor
  · rintro ⟨marker, hmarker, index, hlabels⟩
    have hwords := markerWords hmarker
    rcases hcut.occurrence_covered hcover hwords hlabels.bounded with hfront | hback
    · rcases Nat.lt_or_eq_of_le hfront with hlt | heq
      · left
        refine ⟨marker, hmarker, index, ?_, hlt⟩
        exact hlabels.of_front (fun position hposition => (hcut.pre_lt hposition).symm)
          ((hcut.pre_lt le_rfl).symm.trans hc) halpha (by omega)
      · have hidentifier := hlabels.identifier
        rw [heq] at hidentifier
        exact absurd hidentifier (hcut.not_identifier hcover)
    · rw [← List.length_append] at hback
      exact Or.inr ⟨marker, hmarker, _, hlabels.drop_front hback⟩
  · rintro (⟨marker, hmarker, index, hlabels, hlt⟩ | ⟨marker, hmarker, index, hlabels⟩)
    · exact ⟨marker, hmarker, index,
        hlabels.of_front (fun position => hcut.pre_lt) hc halpha (by omega)⟩
    · exact ⟨marker, hmarker, _, hlabels.append_front hend⟩

end Covered

/-! ### The marker before a number -/

/-- Only separators stand between the words and the end of `pre`. -/
def EndsBefore (words text pre : List Char) : Prop :=
  ∃ index, BoundedAt words text index ∧ index + words.length ≤ pre.length ∧
    ∀ c ∈ pre.drop (index + words.length), isSeparator c = true

def accountNumber : List Char := "account number".toList

def loanAccountNumber : List Char := "loan account number".toList

section Ends

variable {words others text pre span post cover : List Char} {place index shifted : ℕ}

theorem Cut.endsBefore_iff (hcut : Cut text place pre span post) (hwords : MarkerWords words) :
    EndsBefore words text pre ↔
      ∃ index, BoundedAt words text index ∧ index + words.length = place := by
  constructor
  · rintro ⟨index, hbounded, hle, hseparators⟩
    refine ⟨index, hbounded, ?_⟩
    have hpos := List.length_pos_of_ne_nil hwords.ne_nil
    have hfront : index + words.length ≤ place := by
      rcases hcut.occurrence hwords hbounded with hfront | hback
      · exact hfront
      · omega
    by_contra hne
    obtain ⟨hplace, c, hc, halpha⟩ := hcut.letter
    have hpre := hcut.place_le
    rw [hcut.parts, List.append_assoc, List.getElem?_append_left (by omega)] at hc
    exact not_isAlpha_of_separators hseparators (by omega) hc halpha
  · rintro ⟨index, hbounded, rfl⟩
    exact ⟨index, hbounded, hcut.place_le, hcut.separators⟩

/-- Of two markers that end together the shorter is the end of the longer. -/
theorem suffix_of_ends (h : BoundedAt words text index) (hother : BoundedAt others text shifted)
    (hends : index + words.length = shifted + others.length)
    (hle : words.length ≤ others.length) : words <:+ others := by
  have hdrop := List.IsPrefix.drop hother.matched (others.length - words.length)
  rw [List.drop_drop] at hdrop
  have hplace : shifted + (others.length - words.length) = index := by omega
  rw [hplace] at hdrop
  have hsame : others.drop (others.length - words.length) = words := by
    apply List.IsPrefix.eq_of_length
    · exact List.prefix_of_prefix_length_le hdrop h.matched (by rw [List.length_drop]; omega)
    · rw [List.length_drop]
      omega
  rw [← hsame]
  exact List.drop_suffix _ _

/-- A loan account number has an account number at its end. -/
theorem accountNumber_of_loan (h : BoundedAt loanAccountNumber text index) :
    BoundedAt accountNumber text (index + 5) where
  matched := by
    have hdrop := List.IsPrefix.drop h.matched 5
    rw [List.drop_drop] at hdrop
    have hsame : loanAccountNumber.drop 5 = accountNumber := by decide
    rwa [hsame] at hdrop
  before := by
    have hoffset : 4 < loanAccountNumber.length := by decide
    have hchar := h.matched.getElem? hoffset
    have hspace : loanAccountNumber[4]? = some ' ' := by decide
    rw [hspace, List.getElem?_map] at hchar
    obtain ⟨c, hc, hlower⟩ := Option.map_eq_some_iff.mp hchar
    rw [eq_space_of_toLower hlower] at hc
    have hplace : index + 5 - 1 = index + 4 := by omega
    rw [hplace, hc]
    exact Or.inr (by decide)
  after := by
    have hafter := h.after
    have hlength : index + 5 + accountNumber.length = index + loanAccountNumber.length := by
      rw [Nat.add_assoc]
      rfl
    rwa [hlength]

/-- What covers a number of a text, and the result, settle where it stood. -/
theorem Cut.pre_unique {pre' span' post' : List Char} (hcut : Cut text place pre span post)
    (hcover : Placeholder cover) (hparts : text = pre' ++ span' ++ post')
    (hresult : pre ++ cover ++ post = pre' ++ cover ++ post') : pre' = pre := by
  obtain ⟨d, hd, hdigit⟩ := hcut.digit
  have hspan : 0 < span.length := by
    apply List.length_pos_of_ne_nil
    rintro rfl
    cases hd
  have hopening : 0 < cover.length := (List.getElem?_eq_some_iff.mp hcover.first).1
  have htext : pre ++ span ++ post = pre' ++ span' ++ post' := by rw [← hcut.parts, hparts]
  have hcounts := congrArg List.length hresult
  have hlengths := congrArg List.length htext
  simp only [List.length_append] at hcounts hlengths
  rcases Nat.lt_trichotomy pre.length pre'.length with hlt | heq | hgt
  -- a longer front has the first character of the number and of its cover
  · have hcovered := congrArg (fun part : List Char => part[pre.length]?) hresult
    have hnumber := congrArg (fun part : List Char => part[pre.length]?) htext
    simp only [List.append_assoc] at hcovered hnumber
    rw [List.getElem?_append_right le_rfl, List.getElem?_append_left (by omega),
      List.getElem?_append_left hlt, Nat.sub_self] at hcovered hnumber
    rw [hcover.first] at hcovered
    rw [← hcovered] at hnumber
    have hrun := hcut.run _ (List.mem_of_getElem? hnumber)
    exact absurd hrun (by decide)
  · rw [List.append_assoc, List.append_assoc] at htext
    exact (List.append_inj htext heq).1.symm
  -- a longer rest has their last characters
  · have hcovered := congrArg
      (fun part : List Char => part[pre.length + cover.length - 1]?) hresult
    have hnumber := congrArg (fun part : List Char => part[pre.length + span.length - 1]?) htext
    rw [List.getElem?_append_left (by rw [List.length_append]; omega),
      List.getElem?_append_right (by omega),
      List.getElem?_append_right (by rw [List.length_append]; omega),
      List.length_append] at hcovered hnumber
    have hcoverPlace : pre.length + cover.length - 1 - pre.length = cover.length - 1 := by omega
    have hspanPlace : pre.length + span.length - 1 - pre.length = span.length - 1 := by omega
    have hsame : pre.length + cover.length - 1 - (pre'.length + cover.length) =
        pre.length + span.length - 1 - (pre'.length + span'.length) := by omega
    rw [hcoverPlace, ← List.getLast?_eq_getElem?, hcover.last, hsame] at hcovered
    rw [hspanPlace, ← List.getLast?_eq_getElem?, hd, ← hcovered] at hnumber
    cases hnumber
    exact absurd hdigit (by decide)

end Ends

end FineractReports.IdentifierIntake
