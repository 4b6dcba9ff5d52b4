import FineractReports.Assistant.IdentifierIntake
import Mathlib.Data.List.DropRight

/-!
# Labelled identifiers

Where a message labels an identifier, in its characters: the words of a marker with no letter
or digit around them, and a number behind them. The intake never leaves the boundaries of
characters, and of every marker it sees the first occurrence.
-/

namespace FineractReports.IdentifierIntake

open Utf8

/-! ### Numbers -/

def isRunChar (c : Char) : Bool := c.isDigit || c = '-' || isAsciiWhitespace c

/-- The run of digits, hyphens and whitespace behind the separators. -/
def numberRun (text : List Char) : List Char := (text.dropWhile isSeparator).takeWhile isRunChar

def digitsAfter (text : List Char) : List Char := (numberRun text).filter Char.isDigit

/-- The run up to its last digit. -/
def spanAfter (text : List Char) : List Char := (numberRun text).rdropWhile fun c => !c.isDigit

def restAfter (text : List Char) : List Char :=
  (text.dropWhile isSeparator).drop (spanAfter text).length

def HasIdentifier (text : List Char) : Prop := 4 ≤ (digitsAfter text).length

instance (text : List Char) : Decidable (HasIdentifier text) := by
  unfold HasIdentifier; infer_instance

theorem rdropWhile_cons {α : Type} (p : α → Bool) (a : α) (rest : List α) :
    (a :: rest).rdropWhile p =
      if rest.rdropWhile p = [] ∧ p a = true then [] else a :: rest.rdropWhile p := by
  unfold List.rdropWhile
  rw [List.reverse_cons, List.dropWhile_append]
  cases hrest : rest.reverse.dropWhile p with
  | nil => by_cases ha : p a = true <;> simp [ha]
  | cons b others => simp

theorem spanAfter_begins (text : List Char) : spanAfter text <+: text.dropWhile isSeparator :=
  (List.rdropWhile_prefix _ _).trans (List.takeWhile_prefix _)

/-- A text is its separators, the span and the rest. -/
theorem separators_span_rest (text : List Char) :
    text.takeWhile isSeparator ++ spanAfter text ++ restAfter text = text := by
  obtain ⟨rest, hrest⟩ := spanAfter_begins text
  unfold restAfter
  conv_rhs => rw [← List.takeWhile_append_dropWhile (p := isSeparator) (l := text)]
  rw [List.append_assoc]
  congr 1
  conv_rhs => rw [← hrest]
  rw [← hrest, List.drop_left]

theorem filter_spanAfter (text : List Char) :
    (spanAfter text).filter Char.isDigit = digitsAfter text := by
  have hsplit := List.rdropWhile_append_rtakeWhile (p := fun c : Char => !c.isDigit)
    (l := numberRun text)
  have hnone : ((numberRun text).rtakeWhile fun c => !c.isDigit).filter Char.isDigit = [] := by
    rw [List.filter_eq_nil_iff]
    intro c hc
    simpa using List.mem_rtakeWhile_imp hc
  have hfilter := congrArg (List.filter Char.isDigit) hsplit
  rwa [List.filter_append, hnone, List.append_nil] at hfilter

/-- A character that ends a number ends what is read of a text. -/
theorem numberRun_append {c : Char} (hseparator : isSeparator c = false)
    (hrun : isRunChar c = false) (front back : List Char) :
    numberRun (front ++ c :: back) = numberRun front := by
  have htake : ∀ items : List Char,
      (items ++ c :: back).takeWhile isRunChar = items.takeWhile isRunChar := by
    intro items
    induction items with
    | nil => simp [hrun]
    | cons d rest ih => by_cases hd : isRunChar d = true <;> simp [hd, ih]
  unfold numberRun
  rw [List.dropWhile_append]
  split_ifs with hempty
  · rw [List.isEmpty_iff] at hempty
    rw [hempty, List.dropWhile_cons_of_neg (by simp [hseparator]),
      List.takeWhile_cons_of_neg (by simp [hrun]), List.takeWhile_nil]
  · exact htake _

/-! ### The scan of a number -/

theorem scanDigits_eq (position : ℕ) (normalized : List Char) (stop : ℕ) (text : List Char) :
    scanDigits position normalized stop text =
      (normalized ++ (text.takeWhile isRunChar).filter Char.isDigit,
        if (text.takeWhile isRunChar).filter Char.isDigit = [] then stop
        else position +
          byteLength ((text.takeWhile isRunChar).rdropWhile fun c => !c.isDigit)) := by
  induction text generalizing position normalized stop with
  | nil => simp [scanDigits]
  | cons c rest ih =>
    rw [scanDigits]
    have hspan : ((rest.takeWhile isRunChar).rdropWhile fun c => !c.isDigit) = [] ↔
        (rest.takeWhile isRunChar).filter Char.isDigit = [] := by
      rw [List.rdropWhile_eq_nil_iff, List.filter_eq_nil_iff]
      simp
    by_cases hdigit : c.isDigit = true
    · have hrun : isRunChar c = true := by simp [isRunChar, hdigit]
      have hkept : (c :: rest.takeWhile isRunChar).rdropWhile (fun c => !c.isDigit) =
          c :: (rest.takeWhile isRunChar).rdropWhile fun c => !c.isDigit := by
        rw [rdropWhile_cons, if_neg (by simp [hdigit])]
      rw [if_pos hdigit, ih, List.takeWhile_cons_of_pos hrun, hkept,
        List.filter_cons_of_pos hdigit, if_neg (List.cons_ne_nil _ _)]
      by_cases hnone : (rest.takeWhile isRunChar).filter Char.isDigit = []
      · simp [hnone, hspan.mpr hnone]
      · simp [hnone, Nat.add_assoc]
    · rw [if_neg hdigit]
      by_cases hother : c = '-' ∨ isAsciiWhitespace c = true
      · have hrun : isRunChar c = true := by simpa [isRunChar, hdigit] using hother
        rw [if_pos hother, ih, List.takeWhile_cons_of_pos hrun, rdropWhile_cons,
          List.filter_cons_of_neg hdigit]
        by_cases hnone : (rest.takeWhile isRunChar).filter Char.isDigit = []
        · simp [hnone]
        · have hsome := mt hspan.mp hnone
          simp [hnone, hsome, Nat.add_assoc]
      · have hrun : isRunChar c ≠ true := by simpa [isRunChar, hdigit] using hother
        rw [if_neg hother, List.takeWhile_cons_of_neg hrun]
        simp

theorem byteLength_digits {digits : List Char} (h : ∀ c ∈ digits, c.isDigit = true) :
    byteLength digits = digits.length := by
  induction digits with
  | nil => rfl
  | cons c rest ih =>
    have hc := h c List.mem_cons_self
    have hsize : c.utf8Size = 1 := by
      rw [Char.utf8Size_eq_one_iff]
      simp only [Char.isDigit, Bool.and_eq_true, decide_eq_true_eq] at hc
      grind [UInt32.le_iff_toNat_le]
    rw [byteLength_cons, hsize, ih fun d hd => h d (List.mem_cons_of_mem _ hd), List.length_cons,
      Nat.add_comm]

/-- Behind the first characters of a message the scan finds the identifier, if there is one. -/
theorem identifierSpan_take (message : List Char) (index : ℕ) :
    identifierSpan message (byteLength (message.take index)) =
      if HasIdentifier (message.drop index) then
        some (byteLength (message.take
            (index + ((message.drop index).takeWhile isSeparator).length)),
          byteLength (message.take
            (index + ((message.drop index).takeWhile isSeparator).length +
              (spanAfter (message.drop index)).length)),
          digitsAfter (message.drop index))
      else none := by
  set suffix := message.drop index with hsuffix
  set lead := (suffix.takeWhile isSeparator).length with hlead
  have hleading : suffix.takeWhile isSeparator = suffix.take lead :=
    List.prefix_iff_eq_take.mp (List.takeWhile_prefix _)
  have hcandidate : message.drop (index + lead) = suffix.dropWhile isSeparator := by
    rw [← List.drop_drop, ← hsuffix]
    conv_lhs => rw [← List.takeWhile_append_dropWhile (p := isSeparator) (l := suffix)]
    rw [hlead, List.drop_left]
  have hspan : spanAfter suffix =
      (message.drop (index + lead)).take (spanAfter suffix).length := by
    rw [hcandidate]
    exact List.prefix_iff_eq_take.mp (spanAfter_begins suffix)
  have hstart : byteLength (message.take index) + byteLength (suffix.takeWhile isSeparator) =
      byteLength (message.take (index + lead)) := by
    rw [hleading, hsuffix, byteLength_take_add]
  have hstop : byteLength (message.take (index + lead)) + byteLength (spanAfter suffix) =
      byteLength (message.take (index + lead + (spanAfter suffix).length)) := by
    rw [← byteLength_take_add message (index + lead), ← hspan]
  have hdigits : byteLength (digitsAfter suffix) = (digitsAfter suffix).length :=
    byteLength_digits fun c hc => (List.mem_filter.mp hc).2
  unfold identifierSpan
  rw [sliceFrom_take, Option.bind_eq_bind, Option.bind_some, ← hsuffix]
  dsimp only
  rw [hstart, sliceFrom_take, Option.bind_some, hcandidate, scanDigits_eq, List.nil_append]
  have hall : (suffix.dropWhile isSeparator).takeWhile isRunChar = numberRun suffix := rfl
  have hfilter : (numberRun suffix).filter Char.isDigit = digitsAfter suffix := rfl
  have hcut : ((numberRun suffix).rdropWhile fun c => !c.isDigit) = spanAfter suffix := rfl
  rw [hall, hfilter, hcut]
  dsimp only
  rw [hdigits]
  by_cases hshort : (digitsAfter suffix).length < 4
  · have hnone : ¬ HasIdentifier suffix := not_le.mpr hshort
    rw [if_pos hshort, if_neg hnone]
  · have hfound : HasIdentifier suffix := not_lt.mp hshort
    have hsome : digitsAfter suffix ≠ [] := by
      intro hnil
      rw [hnil] at hshort
      exact hshort (by decide)
    rw [if_neg hshort, if_pos hfound, if_neg hsome, hstop]

/-! ### Markers -/

def endsWord (c : Option Char) : Bool := c.all fun c => !c.isAlphanum

/-- The words of a marker in a text, with no letter or digit around them. -/
structure BoundedAt (words text : List Char) (index : ℕ) : Prop where
  matched : MatchesAt words (text.map Char.toLower) index
  before : index = 0 ∨ endsWord text[index - 1]? = true
  after : endsWord text[index + words.length]? = true

instance (words text : List Char) (index : ℕ) : Decidable (BoundedAt words text index) :=
  decidable_of_iff (words <+: (text.map Char.toLower).drop index ∧
      (index = 0 ∨ endsWord text[index - 1]? = true) ∧
        endsWord text[index + words.length]? = true)
    ⟨fun h => ⟨h.1, h.2.1, h.2.2⟩, fun h => ⟨h.matched, h.before, h.after⟩⟩

/-- The words label an identifier. -/
structure Labels (words text : List Char) (index : ℕ) : Prop where
  bounded : BoundedAt words text index
  identifier : HasIdentifier (text.drop (index + words.length))

/-- They do so where they occur first. -/
structure FirstLabels (words text : List Char) (index : ℕ) : Prop where
  labels : Labels words text index
  first : ∀ earlier < index, ¬ BoundedAt words text earlier

/-- The words of a marker. Where they overlap themselves, they do so inside a word. -/
structure MarkerWords (words : List Char) : Prop where
  chars : ∀ c ∈ words, c.isAlpha = true ∨ c = ' '
  last : (words.getLast?.any Char.isAlpha) = true
  space : ' ' ∈ words
  overlap : ∀ gap < words.length, 0 < gap → words.drop gap <+: words →
    (words[gap - 1]?.any Char.isAlphanum) = true

theorem MarkerWords.ne_nil {words : List Char} (h : MarkerWords words) : words ≠ [] := by
  rintro rfl
  cases h.space

theorem markerWords {marker : Marker} (h : marker ∈ markers) :
    MarkerWords marker.words.toList where
  chars := by
    have hall : ∀ marker ∈ markers,
        marker.words.toList.all (fun c => c.isAlpha || c = ' ') = true := by decide
    simpa using hall marker h
  last := by
    revert marker
    decide
  space := by
    revert marker
    decide
  overlap := by
    revert marker
    decide

/-- What the search tests of a match in the lowered text. -/
def boundedMatch (text : List Char) (length index : ℕ) : Bool :=
  (index = 0 || wordEnds (text.take index).getLast?) &&
    (index + length = text.length || wordEnds (text.drop (index + length)).head?)

section Search

variable {words text : List Char} {index : ℕ}

theorem isBounded_take (hwords : words ≠ []) (h : MatchesAt words text index) :
    isBounded text (byteLength words) (byteLength (text.take index)) =
      .ok (boundedMatch text words.length index) := by
  have hle := h.le_length hwords
  have hpos := List.length_pos_of_ne_nil hwords
  have hself : (text.drop index).take words.length = words :=
    (List.prefix_iff_eq_take.mp h).symm
  have hstop : byteLength (text.take index) + byteLength words =
      byteLength (text.take (index + words.length)) := by
    rw [← byteLength_take_add, hself]
  have hzero : byteLength (text.take index) = 0 ↔ index = 0 := by
    rw [byteLength_take_eq_zero, List.take_eq_nil_iff]
    constructor
    · rintro (hindex | rfl)
      · exact hindex
      · rw [List.length_nil] at hle
        omega
    · exact Or.inl
  have hend : byteLength (text.take (index + words.length)) = byteLength text ↔
      index + words.length = text.length := by
    rw [byteLength_take_eq, List.drop_eq_nil_iff]
    omega
  simp only [isBounded, boundedMatch, hstop, hzero, hend, sliceTo_take, sliceFrom_take, slice,
    okOr]
  by_cases hfirst : index = 0
  · by_cases hlast : index + words.length = text.length
    · simp only [if_pos hfirst, if_pos hlast, decide_eq_true hfirst, decide_eq_true hlast]
      rfl
    · simp only [if_pos hfirst, if_neg hlast, decide_eq_true hfirst, decide_eq_false hlast]
      rfl
  · by_cases hlast : index + words.length = text.length
    · simp only [if_neg hfirst, if_pos hlast, decide_eq_false hfirst, decide_eq_true hlast]
      rfl
    · simp only [if_neg hfirst, if_neg hlast, decide_eq_false hfirst, decide_eq_false hlast]
      rfl

theorem boundedMatch_iff (hwords : words ≠ []) (h : MatchesAt words (text.map Char.toLower) index) :
    boundedMatch (text.map Char.toLower) words.length index = true ↔
      BoundedAt words text index := by
  have hle := h.le_length hwords
  have hpos := List.length_pos_of_ne_nil hwords
  rw [List.length_map] at hle
  have hlower : ∀ c : Option Char, endsWord (c.map Char.toLower) = endsWord c := by
    intro c
    cases c with
    | none => rfl
    | some c => simp [endsWord, isAlphanum_toLower]
  have hsome : ∀ c : Option Char, c ≠ none → wordEnds c = endsWord c := by
    intro c hc
    cases c with
    | none => exact absurd rfl hc
    | some c => rfl
  have hbefore : index ≠ 0 →
      wordEnds ((text.map Char.toLower).take index).getLast? = endsWord text[index - 1]? := by
    intro hindex
    have hlast : ((text.map Char.toLower).take index).getLast? =
        text[index - 1]?.map Char.toLower := by
      rw [List.getLast?_eq_getElem?, List.length_take, List.length_map,
        List.getElem?_take_of_lt (by omega), List.getElem?_map, min_eq_left (by omega)]
    rw [hlast, hsome _ (by simp; omega), hlower]
  have hafter : index + words.length ≠ text.length →
      wordEnds ((text.map Char.toLower).drop (index + words.length)).head? =
        endsWord text[index + words.length]? := by
    intro hindex
    rw [List.head?_drop, List.getElem?_map, hsome _ (by simp; omega), hlower]
  unfold boundedMatch
  rw [List.length_map]
  constructor
  · intro hbounded
    simp only [Bool.and_eq_true, Bool.or_eq_true, decide_eq_true_eq] at hbounded
    refine ⟨h, ?_, ?_⟩
    · by_cases hindex : index = 0
      · exact Or.inl hindex
      · rw [hbefore hindex] at hbounded
        exact hbounded.1
    · by_cases hindex : index + words.length = text.length
      · rw [hindex, List.getElem?_eq_none le_rfl]
        rfl
      · rw [hafter hindex] at hbounded
        exact hbounded.2.resolve_left hindex
  · intro hbounded
    simp only [Bool.and_eq_true, Bool.or_eq_true, decide_eq_true_eq]
    constructor
    · by_cases hindex : index = 0
      · exact Or.inl hindex
      · rw [hbefore hindex]
        exact hbounded.before
    · by_cases hindex : index + words.length = text.length
      · exact Or.inl hindex
      · rw [hafter hindex]
        exact Or.inr hbounded.after

/-- The words occur inside no other occurrence of themselves. -/
theorem noneWanted_inside (hwords : MarkerWords words)
    (h : MatchesAt words (text.map Char.toLower) index) :
    NoneWanted words (text.map Char.toLower)
      (boundedMatch (text.map Char.toLower) words.length) (index + 1)
      (index + words.length) := by
  intro other hge hlt hmatch
  obtain ⟨gap, rfl⟩ : ∃ gap, other = index + gap := ⟨other - index, by omega⟩
  have hoverlap := hwords.overlap gap (by omega) (by omega) (h.overlap hmatch)
  have hinside : gap - 1 < words.length := by omega
  have hchar := h.getElem? hinside
  rw [Bool.eq_false_iff]
  intro hbounded
  have hbefore := ((boundedMatch_iff hwords.ne_nil hmatch).mp hbounded).before
  rw [List.getElem?_map] at hchar
  have hplace : index + gap - 1 = index + (gap - 1) := by omega
  rw [hplace] at hbefore
  cases hfound : text[index + (gap - 1)]? with
  | none =>
    rw [hfound] at hchar
    rw [← hchar] at hoverlap
    cases hoverlap
  | some c =>
    rw [hfound] at hchar hbefore
    rw [← hchar] at hoverlap
    have hend := hbefore.resolve_left (by omega)
    simp only [Option.map_some, Option.any_some, isAlphanum_toLower] at hoverlap
    simp [endsWord, hoverlap] at hend

theorem findMarker_spec (hwords : MarkerWords words) :
    (findMarker (text.map Char.toLower) words = .ok none ∧ ∀ index, ¬ BoundedAt words text index) ∨
    ∃ index, findMarker (text.map Char.toLower) words =
        .ok (some (byteLength (text.take index))) ∧ BoundedAt words text index ∧
      ∀ earlier < index, ¬ BoundedAt words text earlier := by
  have hsame : ∀ index, byteLength ((text.map Char.toLower).take index) =
      byteLength (text.take index) := by
    intro index
    rw [← List.map_take, byteLength_map_toLower]
  rcases firstWhere_matchIndices hwords.ne_nil (fun index => isBounded_take hwords.ne_nil)
      (fun low => noneWanted_inside hwords) with ⟨hnone, hall⟩ | ⟨index, hfound,
      hmatch, hhere, hall⟩
  · refine Or.inl ⟨hnone, fun index hbounded => ?_⟩
    have hfalse := hall index hbounded.matched
    rw [(boundedMatch_iff hwords.ne_nil hbounded.matched).mpr hbounded] at hfalse
    cases hfalse
  · rw [hsame] at hfound
    refine Or.inr ⟨index, hfound, (boundedMatch_iff hwords.ne_nil hmatch).mp hhere, ?_⟩
    intro earlier hlt hbounded
    have hfalse := hall earlier hlt hbounded.matched
    rw [(boundedMatch_iff hwords.ne_nil hbounded.matched).mpr hbounded] at hfalse
    cases hfalse

end Search

/-! ### The intake -/

/-- The message with the identifier at a place taken out. -/
def redaction (text : List Char) (marker : Marker) (place : ℕ) : IdentifierIntake where
  semanticMessage := String.ofList (text.take
    (place + ((text.drop place).takeWhile isSeparator).length) ++ marker.placeholder.toList ++
      restAfter (text.drop place))
  sensitiveIdentifier := some ⟨marker.kind, String.ofList (digitsAfter (text.drop place))⟩

theorem drop_restAfter (text : List Char) (place : ℕ) :
    text.drop (place + ((text.drop place).takeWhile isSeparator).length +
      (spanAfter (text.drop place)).length) = restAfter (text.drop place) := by
  have hdrop : ((text.drop place).takeWhile isSeparator ++ spanAfter (text.drop place) ++
      restAfter (text.drop place)).drop ((text.drop place).takeWhile isSeparator ++
        spanAfter (text.drop place)).length = restAfter (text.drop place) := List.drop_left
  rw [separators_span_rest, List.length_append] at hdrop
  rw [Nat.add_assoc, ← List.drop_drop]
  exact hdrop

section Intake

variable {text : List Char} {marker : Marker} {rest : List Marker}

theorem byteLength_marker {words : List Char} {index : ℕ}
    (h : MatchesAt words (text.map Char.toLower) index) :
    byteLength (text.take index) + byteLength words =
      byteLength (text.take (index + words.length)) := by
  have hself : ((text.map Char.toLower).drop index).take words.length = words :=
    (List.prefix_iff_eq_take.mp h).symm
  have hlower : words = ((text.drop index).take words.length).map Char.toLower := by
    rw [List.map_take, List.map_drop, hself]
  conv_lhs => rw [hlower]
  rw [byteLength_map_toLower, byteLength_take_add]

theorem intakeBy_cons_none
    (h : (findMarker (text.map Char.toLower) marker.words.toList = .ok none) ∨
      ∃ index, findMarker (text.map Char.toLower) marker.words.toList =
          .ok (some (byteLength (text.take index))) ∧
        MatchesAt marker.words.toList (text.map Char.toLower) index ∧
        ¬ HasIdentifier (text.drop (index + marker.words.toList.length))) :
    intakeBy text (marker :: rest) = intakeBy text rest := by
  rcases h with hnone | ⟨index, hfind, hmatch, hidentifier⟩
  · rw [intakeBy, hnone]
    rfl
  · rw [intakeBy, hfind]
    simp only [bind, Except.bind, Option.bind]
    rw [byteLength_marker hmatch, identifierSpan_take, if_neg hidentifier]

theorem intakeBy_cons_some {index : ℕ}
    (hfind : findMarker (text.map Char.toLower) marker.words.toList =
      .ok (some (byteLength (text.take index))))
    (hmatch : MatchesAt marker.words.toList (text.map Char.toLower) index)
    (hidentifier : HasIdentifier (text.drop (index + marker.words.toList.length))) :
    intakeBy text (marker :: rest) =
      .ok (redaction text marker (index + marker.words.toList.length)) := by
  rw [intakeBy, hfind]
  simp only [bind, Except.bind, Option.bind]
  rw [byteLength_marker hmatch, identifierSpan_take, if_pos hidentifier]
  simp only [slice, sliceTo_take, sliceFrom_take, drop_restAfter]
  rfl

/-- The first marker in the list whose first occurrence labels an identifier is taken. -/
theorem intakeBy_spec (text : List Char) (list : List Marker)
    (hwords : ∀ marker ∈ list, MarkerWords marker.words.toList) :
    (intakeBy text list = .ok ⟨String.ofList text, none⟩ ∧
      ∀ marker ∈ list, ∀ index, ¬ FirstLabels marker.words.toList text index) ∨
    ∃ front marker back index, list = front ++ marker :: back ∧
      (∀ other ∈ front, ∀ earlier, ¬ FirstLabels other.words.toList text earlier) ∧
      FirstLabels marker.words.toList text index ∧
      intakeBy text list = .ok (redaction text marker (index + marker.words.toList.length)) := by
  induction list with
  | nil => exact Or.inl ⟨rfl, by simp⟩
  | cons marker rest ih =>
    have hrest := ih fun other hother => hwords other (List.mem_cons_of_mem _ hother)
    -- the loop goes on where the marker's first occurrence labels nothing
    have hnext : (∀ index, ¬ FirstLabels marker.words.toList text index) →
        intakeBy text (marker :: rest) = intakeBy text rest →
        (intakeBy text (marker :: rest) = .ok ⟨String.ofList text, none⟩ ∧
          ∀ other ∈ marker :: rest, ∀ index, ¬ FirstLabels other.words.toList text index) ∨
        ∃ front taken back index, marker :: rest = front ++ taken :: back ∧
          (∀ other ∈ front, ∀ earlier, ¬ FirstLabels other.words.toList text earlier) ∧
          FirstLabels taken.words.toList text index ∧
          intakeBy text (marker :: rest) =
            .ok (redaction text taken (index + taken.words.toList.length)) := by
      intro hnone hsame
      rw [hsame]
      rcases hrest with ⟨hok, hall⟩ | ⟨front, taken, back, index, rfl, hfront, hfirst, hok⟩
      · exact Or.inl ⟨hok, List.forall_mem_cons.mpr ⟨hnone, hall⟩⟩
      · exact Or.inr ⟨marker :: front, taken, back, index, rfl,
          List.forall_mem_cons.mpr ⟨hnone, hfront⟩, hfirst, hok⟩
    have hwordsMarker := hwords marker List.mem_cons_self
    rcases @findMarker_spec _ text hwordsMarker with
      ⟨hfind, hnever⟩ | ⟨index, hfind, hbounded, hearlier⟩
    · exact hnext (fun index hfirst => hnever index hfirst.labels.bounded)
        (intakeBy_cons_none (Or.inl hfind))
    · by_cases hidentifier : HasIdentifier (text.drop (index + marker.words.toList.length))
      · exact Or.inr ⟨[], marker, rest, index, rfl, by simp, ⟨⟨hbounded, hidentifier⟩, hearlier⟩,
          intakeBy_cons_some hfind hbounded.matched hidentifier⟩
      · apply hnext
        · intro other hfirst
          have hsame : other = index := by
            rcases Nat.lt_trichotomy other index with hlt | heq | hgt
            · exact absurd hfirst.labels.bounded (hearlier other hlt)
            · exact heq
            · exact absurd hbounded (hfirst.first index hgt)
          rw [hsame] at hfirst
          exact hidentifier hfirst.labels.identifier
        · exact intakeBy_cons_none (Or.inr ⟨index, hfind, hbounded.matched, hidentifier⟩)

end Intake

end FineractReports.IdentifierIntake
