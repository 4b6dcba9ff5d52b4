import FineractReports.Assistant.NamedEntities
import FineractReports.Library.Stretch
import FineractReports.Library.UnicodeCase
import FineractReports.Library.Utf8

/-!
# The amount of a transaction in a message

The amount is read from the first digit behind the first anchor, as far as there are digits and
dots. Whether those are a decimal number is decided much later, where the filter is checked. So
the reader keeps what the filter refuses: a dot that ends the sentence, or one for the thousands.
-/

namespace FineractReports.Extraction

open FineractReports.Stretch

/-! ### Amounts that the filter takes -/

def isAmountChar (c : Char) : Bool :=
  c.isDigit || c = '.'

/-- The digits and dots from the first digit behind the first anchor. -/
def amountStretch (message : String) : Option (List Char) := do
  let lower := message.toList.map Char.toLower
  let after ← (AMOUNT_ANCHORS.filterMap (endOfFirst lower)).min?
  pure (firstStretch Char.isDigit isAmountChar (message.toList.drop after))

section Decimals

-- The decimal type of the filter: whether it can be parsed from a text.
variable (isDecimal : String → Bool)

/-- Up to 28 digits are within the decimal type whatever they are, with one dot at most among
them. What the type does with more digits depends on their value. -/
def ReadsDecimals : Prop :=
  ∀ digits : List Char, (∃ c ∈ digits.head?, c.isDigit = true) →
    (∀ c ∈ digits, isAmountChar c = true) → digits.countP Char.isDigit ≤ 28 →
    (isDecimal (String.ofList digits) = true ↔ digits.count '.' ≤ 1)

/-- An amount is a decimal number, and a number of the message behind one of the anchors. -/
structure WellFormedAmount (message value : String) : Prop where
  decimal : isDecimal value = true
  token : ∃ before after, message.toList = before ++ value.toList ++ after ∧
    IsStretch Char.isDigit isAmountChar before value.toList after ∧
    ∃ anchor ∈ AMOUNT_ANCHORS, anchor.toList <:+: before.map Char.toLower

/-- The stretch has no dot, so nothing is read, or one dot between at most 28 digits, or the
decimal type has room for the digits it has. -/
def FitsDecimal (stretch : List Char) : Prop :=
  '.' ∉ stretch ∨ (stretch.count '.' = 1 ∧ stretch.countP Char.isDigit ≤ 28) ∨
    (28 < stretch.countP Char.isDigit ∧ isDecimal (String.ofList stretch) = true)

end Decimals

/-! ### What is read -/

section Amount

variable {isDecimal : String → Bool} {message : String} {stretch : List Char}

theorem extractTransactionAmount_eq (message : String) : extractTransactionAmount message =
    ((amountStretch message).filter fun stretch => '.' ∈ stretch).map String.ofList := by
  unfold extractTransactionAmount amountStretch
  dsimp only
  cases (AMOUNT_ANCHORS.filterMap (endOfFirst (message.toList.map Char.toLower))).min? with
  | none => rfl
  | some after =>
    have hchars : (fun c : Char => c.isDigit || decide (c = '.')) = isAmountChar := rfl
    rw [hchars]
    simp only [Option.bind_eq_bind, Option.bind_some, Option.pure_def, Option.filter_some,
      firstStretch, decide_eq_true_eq]
    by_cases hrest : (message.toList.drop after).dropWhile (fun c => !c.isDigit) = []
    · rw [if_pos hrest, hrest]
      rfl
    · rw [if_neg hrest]
      split_ifs <;> rfl

/-- An anchor is directly before the place where the reading starts. -/
theorem amountStretch_anchor (h : amountStretch message = some stretch) :
    ∃ after, stretch = firstStretch Char.isDigit isAmountChar (message.toList.drop after) ∧
      ∃ anchor ∈ AMOUNT_ANCHORS,
        anchor.toList <:+ (message.toList.take after).map Char.toLower := by
  unfold amountStretch at h
  simp only [Option.bind_eq_bind, Option.bind_eq_some_iff] at h
  obtain ⟨after, hafter, hread⟩ := h
  refine ⟨after, (Option.some.inj hread).symm, ?_⟩
  obtain ⟨anchor, hanchor, hend⟩ := List.mem_filterMap.mp (List.min?_mem hafter)
  obtain ⟨rest, hrest, hlength⟩ := Option.map_eq_some_iff.mp hend
  obtain ⟨front, hfront⟩ := afterFirst_split hrest
  refine ⟨anchor, hanchor, front, ?_⟩
  rw [← hlength, List.map_take, hfront, @List.length_append _ _ rest, Nat.add_sub_cancel,
    List.take_left]

theorem anchors_letters : ∀ anchor ∈ AMOUNT_ANCHORS, anchor.toList ≠ [] ∧
    ∀ d ∈ anchor.toList, d.isAlphanum = true ∧ d.isDigit = false := by
  have hall : (AMOUNT_ANCHORS.all fun anchor => !anchor.toList.isEmpty &&
      anchor.toList.all fun d => d.isAlphanum && !d.isDigit) = true := by decide
  simpa only [List.all_eq_true, Bool.and_eq_true, Bool.not_eq_true', List.isEmpty_eq_false_iff]
    using hall

/-- No digit and no dot is the last letter of an anchor. -/
theorem isAmountChar_of_anchor {anchor : String} (hanchor : anchor ∈ AMOUNT_ANCHORS)
    {front : List Char} (h : anchor.toList <:+ front.map Char.toLower) :
    ∀ c ∈ front.getLast?, isAmountChar c = false := by
  intro c hc
  obtain ⟨hne, hletters⟩ := anchors_letters anchor hanchor
  have hlast : (front.map Char.toLower).getLast? = some c.toLower := by
    rw [List.getLast?_map, Option.mem_def.mp hc, Option.map_some]
  obtain ⟨before, hbefore⟩ := h
  rw [← hbefore, List.getLast?_append_of_ne_nil _ hne] at hlast
  obtain ⟨halphanum, hdigit⟩ := hletters _ (List.mem_of_getLast? hlast)
  rw [Utf8.isAlphanum_toLower] at halphanum
  rw [UnicodeCase.isDigit_toLower] at hdigit
  rw [isAmountChar, hdigit, Bool.false_or, decide_eq_false_iff_not]
  rintro rfl
  exact absurd halphanum (by decide)

theorem isAmountChar_of_isDigit (c : Char) (h : c.isDigit = true) : isAmountChar c = true := by
  rw [isAmountChar, h, Bool.true_or]

/-- What is read is a number of the message behind an anchor. -/
theorem amountStretch_isStretch (h : amountStretch message = some stretch) (hne : stretch ≠ []) :
    ∃ before after, message.toList = before ++ stretch ++ after ∧
      IsStretch Char.isDigit isAmountChar before stretch after ∧
      ∃ anchor ∈ AMOUNT_ANCHORS, anchor.toList <:+: before.map Char.toLower := by
  obtain ⟨after, rfl, anchor, hanchor, hbehind⟩ := amountStretch_anchor h
  refine ⟨_, _, ?_, isStretch_firstStretch isAmountChar_of_isDigit
    (isAmountChar_of_anchor hanchor hbehind) hne, anchor, hanchor, ?_⟩
  · rw [List.append_assoc (message.toList.take after), List.append_assoc,
      ← firstStretch_split, List.take_append_drop]
  · rw [List.map_append]
    exact hbehind.isInfix.trans (List.prefix_append _ _).isInfix

/-- Up to 28 digits, the decimal type takes a stretch that has one dot. -/
theorem isDecimal_iff_fitsDecimal (hdecimal : ReadsDecimals isDecimal)
    (h : amountStretch message = some stretch) (hdot : '.' ∈ stretch) :
    isDecimal (String.ofList stretch) = true ↔ FitsDecimal isDecimal stretch := by
  obtain ⟨before, after, -, hstretch, -⟩ := amountStretch_isStretch h (List.ne_nil_of_mem hdot)
  have hpositive : 0 < stretch.count '.' := List.count_pos_iff.mpr hdot
  rcases Nat.lt_or_ge 28 (stretch.countP Char.isDigit) with hmany | hfew
  · constructor
    · intro haccepts
      exact .inr (.inr ⟨hmany, haccepts⟩)
    · rintro (hnone | ⟨-, hfew⟩ | ⟨-, haccepts⟩)
      · exact absurd hdot hnone
      · exact absurd hmany (Nat.not_lt.mpr hfew)
      · exact haccepts
  · rw [hdecimal stretch hstretch.starts hstretch.members hfew]
    constructor
    · intro hone
      exact .inr (.inl ⟨by omega, hfew⟩)
    · rintro (hnone | ⟨hone, -⟩ | ⟨hmany, -⟩)
      · exact absurd hdot hnone
      · exact hone.le
      · exact absurd hmany (Nat.not_lt.mpr hfew)

/-- What the message gives is a decimal number of the message exactly where the digits and dots
behind the anchor fit the decimal type. -/
theorem extractTransactionAmount_wellFormed_iff (isDecimal : String → Bool)
    (hdecimal : ReadsDecimals isDecimal) (message : String) :
    (∀ value, extractTransactionAmount message = some value →
        WellFormedAmount isDecimal message value) ↔
      ∀ stretch, amountStretch message = some stretch → FitsDecimal isDecimal stretch := by
  rw [extractTransactionAmount_eq]
  constructor
  · intro h stretch hstretch
    by_cases hdot : '.' ∈ stretch
    · have hvalue := h (String.ofList stretch) (by rw [hstretch, Option.filter_some]; simp [hdot])
      exact (isDecimal_iff_fitsDecimal hdecimal hstretch hdot).mp hvalue.decimal
    · exact .inl hdot
  · intro h value hvalue
    obtain ⟨stretch, hstretch, rfl⟩ := Option.map_eq_some_iff.mp hvalue
    obtain ⟨hstretch, hdot⟩ := Option.filter_eq_some_iff.mp hstretch
    have hdot : '.' ∈ stretch := of_decide_eq_true hdot
    refine ⟨(isDecimal_iff_fitsDecimal hdecimal hstretch hdot).mpr (h stretch hstretch), ?_⟩
    rw [String.toList_ofList]
    exact amountStretch_isStretch hstretch (List.ne_nil_of_mem hdot)

end Amount

/-! ### A dot at the end of the sentence -/

/-- Digits with one dot at most. -/
def plainDecimal (text : String) : Bool :=
  decide (text.toList.any Char.isDigit = true ∧ text.toList.all isAmountChar = true ∧
    text.toList.count '.' ≤ 1)

theorem plainDecimal_readsDecimals : ReadsDecimals plainDecimal := by
  rintro digits ⟨c, hc, hdigit⟩ hall -
  have hany : digits.any Char.isDigit = true :=
    List.any_eq_true.mpr ⟨c, List.mem_of_head? hc, hdigit⟩
  rw [plainDecimal, String.toList_ofList, decide_eq_true_iff]
  exact ⟨fun h => h.2.2, fun h => ⟨hany, List.all_eq_true.mpr hall, h⟩⟩

/-- The quoted amount is read whole. -/
theorem latest_amount_wellFormed : WellFormedAmount plainDecimal
    "with latest transaction amount 0.130000 on Current Account USD" "0.130000" :=
  (extractTransactionAmount_wellFormed_iff plainDecimal plainDecimal_readsDecimals _).mpr
    (fun stretch h => .inr (.inl (by
      obtain rfl : "0.130000".toList = stretch := Option.some.inj (Eq.trans (by decide +kernel) h)
      decide))) _ (by decide +kernel)

/-- The dot that ends the sentence is read with the amount, and no decimal number has two. -/
theorem sentence_end_malformed :
    extractTransactionAmount "Show transactions with amount 12.50." = some "12.50." ∧
      ¬ WellFormedAmount plainDecimal "Show transactions with amount 12.50." "12.50." := by
  refine ⟨by decide +kernel, fun h => ?_⟩
  exact absurd h.decimal (by decide)

end FineractReports.Extraction
