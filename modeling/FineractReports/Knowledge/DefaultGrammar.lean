import FineractReports.Knowledge.DefaultEvaluation
import FineractReports.Library.Assoc
import FineractReports.Library.Tokens
import FineractReports.Library.Utf8

/-!
# The grammar of default expressions

The parser of a policy's default against the whitelist it implements. It cuts the unit of a
duration off as the last byte, and reads the number as `u16` does, with a sign. The text of a
duration therefore must not end with a character of several bytes. `parseDate` stands for the
date parser of the calendar library; `none` is a panic.
-/

namespace FineractReports.DefaultExpr

open Text Utf8

/-! ### The parser -/

/-- The expressions without an operand. -/
def keywords : List (String × DefaultExpr) :=
  [("business_today", .businessToday), ("wall_today", .wallToday), ("unbounded", .unbounded),
    ("authorized_scope", .authorizedScope),
    ("start_of_month(business_today)", .startOfMonthBusinessToday),
    ("end_of_month(business_today)", .endOfMonthBusinessToday)]

def MINUS : String := "business_today - "

/-- `parse::<u16>`: decimal digits behind an optional plus sign. -/
def parseU16 (text : List Char) : Option ℕ :=
  let digits :=
    match text with
    | '+' :: digits => digits
    | digits => digits
  (parseDigits digits).filter fun n => decide (n < 2 ^ 16)

/-- The number is everything but the last byte. -/
def parseDuration (input : String) (rest : List Char) (unit : Char) :
    Option (Except String DefaultExpr) :=
  (sliceTo rest (byteLength rest - 1)).map fun number => do
    let number ← okOr (parseU16 number) ("invalid duration in `" ++ input ++ "`")
    match unit with
    | 'd' => .ok (.businessTodayMinusDays number)
    | 'm' => .ok (.businessTodayMinusMonths number)
    | 'y' => .ok (.businessTodayMinusYears number)
    | _ => .error ("unknown duration unit in `" ++ input ++ "`")

section Parse

variable (parseDate : String → Option NaiveDate)

def parseLiteral (input trimmed : String) : Except String DefaultExpr :=
  match parseDate trimmed, parseI64 trimmed with
  | some date, _ => .ok (.literalDate date)
  | none, some value => .ok (.literalInt value)
  | none, none => .error ("`" ++ input ++ "` is not an allowed default expression")

def parse (input : String) : Option (Except String DefaultExpr) :=
  let trimmed := trim input
  match Assoc.get? keywords trimmed with
  | some expr => some (.ok expr)
  | none =>
    match (stripPrefix trimmed MINUS).bind fun rest =>
      rest.toList.getLast?.map fun unit => (rest.toList, unit) with
    | some (rest, unit) => parseDuration input rest unit
    | none => some (parseLiteral parseDate input trimmed)

end Parse

/-! ### The grammar -/

/-- The digits of a `u16` and a unit. -/
def IsDuration (text : List Char) : Prop :=
  ∃ digits unit n, text = digits ++ [unit] ∧ parseDigits digits = some n ∧ n < 2 ^ 16 ∧
    unit ∈ ['d', 'm', 'y']

def IsIsoDate (text : String) : Prop := ∃ date : NaiveDate, date.IsRepresentable ∧
  text = date.display

/-- The texts of the whitelist. -/
inductive Allowed : String → Prop
  | keyword {text : String} (h : text ∈ ["business_today", "wall_today", "unbounded",
      "authorized_scope", "start_of_month(business_today)", "end_of_month(business_today)"]) :
      Allowed text
  | duration {text : String} (h : IsDuration text.toList) : Allowed (MINUS ++ text)
  | date {text : String} (h : IsIsoDate text) : Allowed text
  | integer {text : String} (h : (parseI64 text).isSome = true) : Allowed text

/-- The longest duration in days stays within the calendar's range. -/
structure NearPresent (ctx : EvaluationContext) : Prop where
  today : ctx.businessToday.IsRepresentable
  past : (ctx.businessToday.addDays (-65535)).IsRepresentable

/-- Parsing returns, accepts the whitelist and nothing else, and what it accepts has a value. -/
structure ParsesTotally (parseDate : String → Option NaiveDate) (input : String) : Prop where
  returns : (parse parseDate input).isSome = true
  accepts : (∃ expr, parse parseDate input = some (.ok expr)) ↔ Allowed (trim input)
  evaluates : ∀ expr, parse parseDate input = some (.ok expr) → ∀ ctx, NearPresent ctx →
    (expr.evaluateChecked ctx).isSome = true

/-- A duration ends with a character of one byte and has no sign, and of the texts that are left
to the date parser it reads the ISO dates. -/
structure ReadAsMeant (parseDate : String → Option NaiveDate) (text : String) : Prop where
  cut : ∀ rest, text = MINUS ++ rest → ∀ unit ∈ rest.toList.getLast?, unit.utf8Size = 1
  unsigned : ∀ rest, text = MINUS ++ rest → ∀ digits, rest.toList = '+' :: digits →
    ¬ IsDuration digits
  dates : Assoc.get? keywords text = none → stripPrefix text MINUS = none →
    parseI64 text = none → ((parseDate text).isSome = true ↔ IsIsoDate text)

/-! ### Durations -/

section Duration

variable {front : List Char} {unit : Char} {input : String}

/-- Everything but the last byte is a slice when the last character has one byte. -/
theorem sliceTo_last (front : List Char) (unit : Char) :
    sliceTo (front ++ [unit]) (byteLength (front ++ [unit]) - 1) =
      if unit.utf8Size = 1 then some front else none := by
  have hpos := unit.utf8Size_pos
  have hlength : byteLength (front ++ [unit]) - 1 = byteLength front + (unit.utf8Size - 1) := by
    rw [byteLength_append, byteLength_cons, byteLength_nil]
    omega
  rw [hlength]
  clear hlength
  induction front with
  | nil =>
    rw [byteLength_nil, Nat.zero_add, List.nil_append]
    by_cases hone : unit.utf8Size = 1
    · rw [hone, if_pos rfl, Nat.sub_self, sliceTo_zero]
    · obtain ⟨offset, hoffset⟩ : ∃ offset, unit.utf8Size - 1 = offset + 1 :=
        ⟨unit.utf8Size - 2, by omega⟩
      rw [if_neg hone, hoffset, sliceTo, if_neg (by omega)]
  | cons c front ih =>
    rw [byteLength_cons, Nat.add_assoc, List.cons_append, sliceTo_utf8Size_add, ih]
    split_ifs <;> rfl

theorem parseDigits_sign (digits : List Char) : parseDigits ('+' :: digits) = none := by
  unfold parseDigits
  apply if_neg
  simp [show Char.isDigit '+' = false by decide]

theorem parseU16_eq_some {n : ℕ} : parseU16 front = some n ↔
    n < 2 ^ 16 ∧ (parseDigits front = some n ∨
      ∃ digits, front = '+' :: digits ∧ parseDigits digits = some n) := by
  unfold parseU16
  rw [Option.filter_eq_some_iff, decide_eq_true_eq, and_comm]
  apply and_congr_right
  intro _
  split
  · rename_i digits
    simp [parseDigits_sign]
  · rename_i hsign
    constructor
    · exact Or.inl
    · rintro (hdigits | ⟨digits, rfl, -⟩)
      · exact hdigits
      · exact absurd rfl (hsign digits)

/-- A duration is accepted with a sign or without. -/
theorem parseDuration_accepts (hunit : unit.utf8Size = 1) :
    (∃ expr, parseDuration input (front ++ [unit]) unit = some (.ok expr)) ↔
      unit ∈ ['d', 'm', 'y'] ∧ ∃ n, parseU16 front = some n := by
  unfold parseDuration
  rw [sliceTo_last, if_pos hunit, Option.map_some]
  cases hnumber : parseU16 front with
  | none => simp [bind_eq_ok_iff, okOr_eq_ok]
  | some n =>
    simp only [Option.some.injEq, bind_eq_ok_iff, okOr_eq_ok, exists_eq_left', exists_eq',
      and_true, List.mem_cons, List.not_mem_nil, or_false]
    split <;> simp_all

theorem isDuration_append : IsDuration (front ++ [unit]) ↔
    unit ∈ ['d', 'm', 'y'] ∧ ∃ n, parseDigits front = some n ∧ n < 2 ^ 16 := by
  constructor
  · rintro ⟨digits, last, n, hsplit, hdigits, hbound, hlast⟩
    obtain ⟨rfl, hunit⟩ := List.append_inj' hsplit rfl
    obtain rfl := List.singleton_inj.mp hunit
    exact ⟨hlast, n, hdigits, hbound⟩
  · rintro ⟨hunit, n, hdigits, hbound⟩
    exact ⟨front, unit, n, rfl, hdigits, hbound, hunit⟩

/-- A number of the grammar has no sign. -/
theorem not_isDuration_sign (digits : List Char) : ¬ IsDuration ('+' :: digits) := by
  rintro ⟨number, unit, n, hsplit, hnumber, -⟩
  cases number with
  | nil => simp [parseDigits] at hnumber
  | cons first number =>
    obtain ⟨rfl, -⟩ := List.cons.inj hsplit
    rw [parseDigits_sign] at hnumber
    cases hnumber

/-- What the parser accepts for a duration: one of the grammar, or one behind a plus sign. -/
theorem parseDuration_accepts_iff (hunit : unit.utf8Size = 1) :
    (∃ expr, parseDuration input (front ++ [unit]) unit = some (.ok expr)) ↔
      IsDuration (front ++ [unit]) ∨
        ∃ digits, front ++ [unit] = '+' :: digits ∧ IsDuration digits := by
  rw [parseDuration_accepts hunit, isDuration_append]
  constructor
  · rintro ⟨hmem, n, hnumber⟩
    obtain ⟨hbound, hdigits | ⟨digits, rfl, hdigits⟩⟩ := parseU16_eq_some.mp hnumber
    · exact Or.inl ⟨hmem, n, hdigits, hbound⟩
    · exact Or.inr ⟨digits ++ [unit], rfl, isDuration_append.mpr ⟨hmem, n, hdigits, hbound⟩⟩
  · rintro (⟨hmem, n, hdigits, hbound⟩ | ⟨digits, hsign, hduration⟩)
    · exact ⟨hmem, n, parseU16_eq_some.mpr ⟨hbound, Or.inl hdigits⟩⟩
    · obtain ⟨number, last, n, rfl, hdigits, hbound, hlast⟩ := hduration
      obtain ⟨hfront, hlastUnit⟩ :=
        @List.append_inj' _ front [unit] ('+' :: number) [last] hsign rfl
      obtain rfl := List.singleton_inj.mp hlastUnit
      exact ⟨hlast, n, parseU16_eq_some.mpr ⟨hbound, Or.inr ⟨number, hfront, hdigits⟩⟩⟩

end Duration

/-! ### The other forms -/

section Forms

variable {text rest : String} {c : Char}

theorem mem_display {date : NaiveDate} (h : c ∈ date.display.toList) :
    c.isDigit = true ∨ c = '-' ∨ c = '+' := by
  have hpadded : ∀ width n, c ∈ (NaiveDate.padded width n).toList → c.isDigit = true := by
    intro width n hc
    rw [NaiveDate.padded, String.toList_ofList, List.leftpad, List.mem_append] at hc
    cases hc with
    | inl hzero =>
      rw [List.eq_of_mem_replicate hzero]
      rfl
    | inr hdigit => exact repr_isDigit hdigit
  have hdash : c ∈ "-".toList → c = '-' := fun hc => by simpa using hc
  simp only [NaiveDate.display, String.toList_append, List.mem_append] at h
  obtain (((hyear | hc) | hc) | hc) | hc := h
  · split_ifs at hyear with hfour hsign
    · exact Or.inl (hpadded _ _ hyear)
    · rw [String.toList_append, List.mem_append] at hyear
      exact hyear.elim (fun hc => Or.inr (Or.inl (hdash hc))) fun hc => Or.inl (hpadded _ _ hc)
    · rw [String.toList_append, List.mem_append] at hyear
      exact hyear.elim (fun hc => Or.inr (Or.inr (by simpa using hc))) fun hc =>
        Or.inl (hpadded _ _ hc)
  · exact Or.inr (Or.inl (hdash hc))
  · exact Or.inl (hpadded _ _ hc)
  · exact Or.inr (Or.inl (hdash hc))
  · exact Or.inl (hpadded _ _ hc)

theorem keywords_eq_none : Assoc.get? keywords text = none ↔
    text ∉ ["business_today", "wall_today", "unbounded", "authorized_scope",
      "start_of_month(business_today)", "end_of_month(business_today)"] :=
  Assoc.get?_eq_none_iff

/-- Behind the prefix of a duration only durations are allowed. -/
theorem allowed_append : Allowed (MINUS ++ rest) ↔ IsDuration rest.toList := by
  constructor
  · intro h
    generalize htext : MINUS ++ rest = text at h
    have hchars : text.toList = MINUS.toList ++ rest.toList := by
      rw [← htext, String.toList_append]
    cases h with
    | keyword hmem =>
      have hnone : ∀ keyword ∈ ["business_today", "wall_today", "unbounded", "authorized_scope",
          "start_of_month(business_today)", "end_of_month(business_today)"],
          MINUS.toList.isPrefixOf keyword.toList = false := by
        decide
      have hminus := hnone text hmem
      rw [hchars, List.isPrefixOf_iff_prefix.mpr (List.prefix_append _ _)] at hminus
      cases hminus
    | @duration duration hduration =>
      have hrest : rest.toList = duration.toList := by
        rw [String.toList_append] at hchars
        exact (List.append_cancel_left hchars).symm
      rwa [hrest]
    | date hdate =>
      obtain ⟨date, -, rfl⟩ := hdate
      have hb : 'b' ∈ date.display.toList := by
        rw [hchars]
        exact List.mem_append_left _ (by decide)
      exact absurd (mem_display hb) (by decide)
    | integer hinteger =>
      have hnone : parseI64 text = none := by
        unfold parseI64
        rw [hchars]
        rfl
      rw [hnone] at hinteger
      cases hinteger
  · exact .duration

/-- A trimmed text does not end with the blank of the prefix. -/
theorem getLast?_trim (h : (trim text).toList.getLast? = some c) : isWhitespace c = false := by
  rw [trim, String.toList_ofList, trimChars, List.getLast?_reverse] at h
  have hnot := List.head?_dropWhile_not isWhitespace (text.toList.dropWhile isWhitespace).reverse
  rw [h] at hnot
  simpa using hnot

theorem trim_eq_append (h : trim text = MINUS ++ rest) :
    ∃ front unit, rest.toList = front ++ [unit] := by
  cases hrest : rest.toList using List.reverseRecOn with
  | nil =>
    have hblank : (trim text).toList.getLast? = some ' ' := by
      rw [h, String.toList_append, hrest]
      rfl
    exact absurd (getLast?_trim hblank) (by decide)
  | append_singleton front unit => exact ⟨front, unit, rfl⟩

end Forms

/-! ### Evaluation near the present -/

section Evaluation

variable {ctx : EvaluationContext} {expr : DefaultExpr}

/-- A number of days is a `u16`. -/
def Bounded : DefaultExpr → Prop
  | businessTodayMinusDays days => days < 2 ^ 16
  | _ => True

theorem addDays_isRepresentable (h : NearPresent ctx) {days : ℕ} (hdays : days < 2 ^ 16) :
    (ctx.businessToday.addDays (-days)).IsRepresentable := by
  apply NaiveDate.IsRepresentable.between h.past h.today
  · rw [NaiveDate.dayNumber_addDays, NaiveDate.dayNumber_addDays]
    omega
  · rw [NaiveDate.dayNumber_addDays]
    omega

/-- The day before the next month is not before today, or else it is yesterday. -/
theorem endOfMonthChecked_isSome (h : NearPresent ctx) :
    (endOfMonthChecked ctx.businessToday).isSome = true := by
  unfold endOfMonthChecked
  have hmonth : (startOfMonthChecked ctx.businessToday).day = 1 := by
    rw [startOfMonthChecked_eq h.today]
  cases hnext : (startOfMonthChecked ctx.businessToday).checkedAddMonths 1 with
  | none =>
    have hyesterday : (ctx.businessToday.addDays (-1)).IsRepresentable := by
      simpa using @addDays_isRepresentable ctx h 1 (by decide)
    rw [Option.getD_none, NaiveDate.checkedAddDays_eq hyesterday]
    rfl
  | some next =>
    obtain ⟨hshifted, hrepresentable⟩ := Option.filter_eq_some_iff.mp hnext
    obtain rfl := Option.some.inj hshifted
    have hfirst : ((startOfMonthChecked ctx.businessToday).addMonths 1).dayNumber =
        NaiveDate.firstDay ctx.businessToday.year (ctx.businessToday.month + 1) := by
      rw [addMonths_one_number hmonth, startOfMonthChecked_eq h.today]
    have hbefore := NaiveDate.dayNumber_lt_month ctx.businessToday
    rw [Option.getD_some, NaiveDate.checkedAddDays_eq]
    · rfl
    · apply NaiveDate.IsRepresentable.between h.today (of_decide_eq_true hrepresentable)
      · rw [NaiveDate.dayNumber_addDays, hfirst]
        omega
      · rw [NaiveDate.dayNumber_addDays]
        omega

theorem evaluateChecked_isSome (h : NearPresent ctx) (hexpr : expr.Bounded) :
    (expr.evaluateChecked ctx).isSome = true := by
  cases expr with
  | businessTodayMinusDays days =>
    rw [evaluateChecked, NaiveDate.checkedAddDays_eq (addDays_isRepresentable h hexpr)]
    rfl
  | endOfMonthBusinessToday =>
    rw [evaluateChecked, Option.isSome_map]
    exact endOfMonthChecked_isSome h
  | _ => rfl

end Evaluation

/-! ### The parser against the grammar -/

section Parser

variable {parseDate : String → Option NaiveDate} {input rest : String} {expr : DefaultExpr}

theorem parse_keyword (h : Assoc.get? keywords (trim input) = some expr) :
    parse parseDate input = some (.ok expr) := by
  unfold parse
  simp only [h]

theorem keywords_append : Assoc.get? keywords (MINUS ++ rest) = none := by
  rw [keywords_eq_none]
  intro hmem
  have hnone : ∀ keyword ∈ ["business_today", "wall_today", "unbounded", "authorized_scope",
      "start_of_month(business_today)", "end_of_month(business_today)"],
      stripPrefix keyword MINUS = none := by
    decide
  have hstrip : stripPrefix (MINUS ++ rest) MINUS = some rest := stripPrefix_eq_some.mpr rfl
  rw [hnone _ hmem] at hstrip
  cases hstrip

theorem parse_duration {front : List Char} {unit : Char} (h : trim input = MINUS ++ rest)
    (hrest : rest.toList = front ++ [unit]) :
    parse parseDate input = parseDuration input (front ++ [unit]) unit := by
  unfold parse
  simp only [h, keywords_append, stripPrefix_eq_some.mpr rfl, Option.bind_some, hrest,
    List.getLast?_concat, Option.map_some]

theorem parse_literal (hkeyword : Assoc.get? keywords (trim input) = none)
    (hminus : stripPrefix (trim input) MINUS = none) :
    parse parseDate input = some (parseLiteral parseDate input (trim input)) := by
  unfold parse
  simp only [hkeyword, hminus, Option.bind_none]

theorem parseLiteral_accepts {text : String} :
    (∃ expr, parseLiteral parseDate input text = .ok expr) ↔
      (parseDate text).isSome = true ∨ (parseI64 text).isSome = true := by
  unfold parseLiteral
  split <;> simp_all

/-- How a text is read: as a keyword, as a duration or as a literal. -/
theorem trim_cases (input : String) :
    (∃ expr, Assoc.get? keywords (trim input) = some expr) ∨
      (∃ rest front unit, trim input = MINUS ++ rest ∧ rest.toList = front ++ [unit]) ∨
      (Assoc.get? keywords (trim input) = none ∧ stripPrefix (trim input) MINUS = none) := by
  cases hkeyword : Assoc.get? keywords (trim input) with
  | some expr => exact Or.inl ⟨expr, rfl⟩
  | none =>
    cases hminus : stripPrefix (trim input) MINUS with
    | none => exact Or.inr (Or.inr ⟨rfl, rfl⟩)
    | some rest =>
      have htext := stripPrefix_eq_some.mp hminus
      obtain ⟨front, unit, hrest⟩ := trim_eq_append htext
      exact Or.inr (Or.inl ⟨rest, front, unit, htext, hrest⟩)

theorem parseDuration_bounded {front : List Char} {unit : Char}
    (h : parseDuration input front unit = some (.ok expr)) : expr.Bounded := by
  unfold parseDuration at h
  obtain ⟨number, -, h⟩ := Option.map_eq_some_iff.mp h
  simp only [bind_eq_ok_iff, okOr_eq_ok] at h
  obtain ⟨n, hnumber, h⟩ := h
  have hbound := (parseU16_eq_some.mp hnumber).1
  split at h
  · obtain rfl := Except.ok.inj h
    exact hbound
  · obtain rfl := Except.ok.inj h
    trivial
  · obtain rfl := Except.ok.inj h
    trivial
  · cases h

theorem parse_bounded (h : parse parseDate input = some (.ok expr)) : expr.Bounded := by
  obtain ⟨keyword, hkeyword⟩ | ⟨rest, front, unit, htext, hrest⟩ | ⟨hkeyword, hminus⟩ :=
    trim_cases input
  · rw [parse_keyword hkeyword] at h
    obtain rfl := Except.ok.inj (Option.some.inj h)
    have hall : ∀ entry ∈ keywords, entry.2.Bounded := by
      simp [keywords, Bounded]
    exact hall _ (Assoc.mem_of_get?_eq_some hkeyword)
  · rw [parse_duration htext hrest] at h
    exact parseDuration_bounded h
  · rw [parse_literal hkeyword hminus] at h
    have hliteral := Option.some.inj h
    unfold parseLiteral at hliteral
    split at hliteral
    · obtain rfl := Except.ok.inj hliteral
      trivial
    · obtain rfl := Except.ok.inj hliteral
      trivial
    · cases hliteral

/-- A text that is neither a keyword nor behind the prefix is allowed as a date or an integer. -/
theorem allowed_literal {text : String} (hkeyword : Assoc.get? keywords text = none)
    (hminus : stripPrefix text MINUS = none) :
    Allowed text ↔ IsIsoDate text ∨ (parseI64 text).isSome = true := by
  constructor
  · intro h
    cases h with
    | keyword hmem => exact absurd hmem (keywords_eq_none.mp hkeyword)
    | duration hduration =>
      rw [stripPrefix_eq_some.mpr rfl] at hminus
      cases hminus
    | date hdate => exact Or.inl hdate
    | integer hinteger => exact Or.inr hinteger
  · rintro (hdate | hinteger)
    · exact .date hdate
    · exact .integer hinteger

theorem parse_evaluates (h : parse parseDate input = some (.ok expr)) (ctx : EvaluationContext)
    (hctx : NearPresent ctx) : (expr.evaluateChecked ctx).isSome = true :=
  evaluateChecked_isSome hctx (parse_bounded h)

theorem parsesTotally_keyword (hkeyword : Assoc.get? keywords (trim input) = some expr) :
    ParsesTotally parseDate input ∧ ReadAsMeant parseDate (trim input) := by
  have hparse : parse parseDate input = some (.ok expr) := parse_keyword hkeyword
  have hplain : ∀ rest, trim input ≠ MINUS ++ rest := by
    intro rest hrest
    rw [hrest, keywords_append] at hkeyword
    cases hkeyword
  have hallowed : Allowed (trim input) := by
    by_contra hnot
    have hnone := keywords_eq_none.mpr fun hmem => hnot (.keyword hmem)
    rw [hkeyword] at hnone
    cases hnone
  constructor
  · exact ⟨by rw [hparse]; rfl, ⟨fun _ => hallowed, fun _ => ⟨expr, hparse⟩⟩,
      fun other hother => parse_evaluates hother⟩
  · refine ⟨fun rest hrest => absurd hrest (hplain rest),
      fun rest hrest => absurd hrest (hplain rest), fun hnone => ?_⟩
    rw [hkeyword] at hnone
    cases hnone

theorem parsesTotally_duration {front : List Char} {unit : Char}
    (htext : trim input = MINUS ++ rest) (hrest : rest.toList = front ++ [unit]) :
    ParsesTotally parseDate input ↔ ReadAsMeant parseDate (trim input) := by
  have hparse : parse parseDate input = parseDuration input (front ++ [unit]) unit :=
    parse_duration htext hrest
  have hsame : ∀ other, trim input = MINUS ++ other → other.toList = front ++ [unit] := by
    intro other hother
    have hstrip : stripPrefix (MINUS ++ rest) MINUS = some other :=
      stripPrefix_eq_some.mpr (htext.symm.trans hother)
    rw [stripPrefix_eq_some.mpr rfl] at hstrip
    rw [← hrest, Option.some.inj hstrip]
  have hreturns : (parse parseDate input).isSome = true ↔ unit.utf8Size = 1 := by
    rw [hparse, parseDuration, Option.isSome_map, sliceTo_last]
    split_ifs with hone <;> simp [hone]
  have hallowed : Allowed (trim input) ↔ IsDuration (front ++ [unit]) := by
    rw [htext, allowed_append, hrest]
  constructor
  · intro h
    have hunit := hreturns.mp h.returns
    refine ⟨?_, ?_, ?_⟩
    · intro other hother last hlast
      rw [hsame other hother, List.getLast?_concat] at hlast
      rwa [← Option.some.inj hlast]
    · intro other hother digits hdigits hduration
      have hsign : front ++ [unit] = '+' :: digits := (hsame other hother).symm.trans hdigits
      have haccepted : ∃ expr, parse parseDate input = some (.ok expr) := by
        rw [hparse, parseDuration_accepts_iff hunit]
        exact Or.inr ⟨digits, hsign, hduration⟩
      exact not_isDuration_sign digits (hsign ▸ hallowed.mp (h.accepts.mp haccepted))
    · intro _ hnone
      rw [htext, stripPrefix_eq_some.mpr rfl] at hnone
      cases hnone
  · intro h
    have hunit : unit.utf8Size = 1 := h.cut rest htext unit (by rw [hrest]; simp)
    refine ⟨hreturns.mpr hunit, ?_, fun other hother => parse_evaluates hother⟩
    rw [hparse, parseDuration_accepts_iff hunit, hallowed]
    apply or_iff_left
    rintro ⟨digits, hsign, hduration⟩
    exact h.unsigned rest htext digits (hrest.trans hsign) hduration

theorem parsesTotally_literal (hkeyword : Assoc.get? keywords (trim input) = none)
    (hminus : stripPrefix (trim input) MINUS = none) :
    ParsesTotally parseDate input ↔ ReadAsMeant parseDate (trim input) := by
  have hparse : parse parseDate input = some (parseLiteral parseDate input (trim input)) :=
    parse_literal hkeyword hminus
  have hplain : ∀ rest, trim input ≠ MINUS ++ rest := by
    intro rest hrest
    rw [hrest, stripPrefix_eq_some.mpr rfl] at hminus
    cases hminus
  have haccepts : (∃ expr, parse parseDate input = some (.ok expr)) ↔
      (parseDate (trim input)).isSome = true ∨ (parseI64 (trim input)).isSome = true := by
    rw [hparse, ← @parseLiteral_accepts parseDate input]
    simp only [Option.some.injEq]
  constructor
  · intro h
    refine ⟨fun rest hrest => absurd hrest (hplain rest),
      fun rest hrest => absurd hrest (hplain rest), fun _ _ hinteger => ?_⟩
    have hagrees := h.accepts
    rw [haccepts, allowed_literal hkeyword hminus, hinteger] at hagrees
    simpa using hagrees
  · intro h
    refine ⟨by rw [hparse]; rfl, ?_, fun other hother => parse_evaluates hother⟩
    rw [haccepts, allowed_literal hkeyword hminus]
    cases hinteger : parseI64 (trim input) with
    | none => rw [h.dates hkeyword hminus hinteger]
    | some value => simp

end Parser

/-- Exactly the texts read as they are meant are parsed totally. -/
theorem parsesTotally_iff (parseDate : String → Option NaiveDate) (input : String) :
    ParsesTotally parseDate input ↔ ReadAsMeant parseDate (trim input) := by
  obtain ⟨expr, hkeyword⟩ | ⟨rest, front, unit, htext, hrest⟩ | ⟨hkeyword, hminus⟩ :=
    trim_cases input
  · obtain ⟨htotal, hmeant⟩ := @parsesTotally_keyword parseDate input expr hkeyword
    exact iff_of_true htotal hmeant
  · exact parsesTotally_duration htext hrest
  · exact parsesTotally_literal hkeyword hminus

/-- The last character of the text has two bytes; no date is read. -/
theorem accented_unit_panics : parse (fun _ => none) "business_today - 3é" = none ∧
    ¬ ParsesTotally (fun _ => none) "business_today - 3é" := by
  have hpanics : parse (fun _ => none) "business_today - 3é" = none := by
    decide +kernel
  refine ⟨hpanics, fun h => ?_⟩
  have hreturns := h.returns
  rw [hpanics] at hreturns
  cases hreturns

end FineractReports.DefaultExpr
