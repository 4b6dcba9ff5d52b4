import FineractReports.Assistant.CanonicalFacts
import FineractReports.Assistant.MessageTokens
import FineractReports.Library.DayNumber

/-!
# Temporal expressions

The period a message states: recognisers run in a fixed order over the tokens of the
lowercased message, and the first that applies decides. `parseDate` stands for the date
parser of the calendar library; `none` is a panic.
-/

namespace FineractReports.Extraction

structure TemporalProvenance where
  rule : String
  phraseSpan : ℕ × ℕ
  referenceInstant : ℤ
  timezone : String
deriving DecidableEq, Repr

structure ResolvedTemporal where
  fromDate : NaiveDate
  toDate : NaiveDate
  provenance : TemporalProvenance
deriving DecidableEq

/-- What a recogniser does: it lets the next one try, it returns, or it panics. -/
inductive Flow where
  | next
  | done (outcome : Except TemporalError (Option ResolvedTemporal))
  | panic

/-- The first recogniser that does not pass on decides. -/
def firstOf : List Flow → Flow
  | [] => .next
  | .next :: rest => firstOf rest
  | flow :: _ => flow

def Flow.invalid (code message : String) : Flow := .done (.error ⟨code, message⟩)

/-- Goes on with a value whose absence is a panic. -/
def Flow.expect {α : Type} : Option α → (α → Flow) → Flow
  | none, _ => .panic
  | some value, f => f value

/-- The runs of `count` neighbours, from the left. -/
def windows {α : Type} (count : ℕ) : List α → List (List α)
  | [] => []
  | item :: rest =>
    if count ≤ (item :: rest).length then (item :: rest).take count :: windows count rest else []

inductive RelativeRule where
  | today | yesterday | thisWeek | lastWeek | thisMonth | lastMonth | thisQuarter | lastQuarter
  | thisYear | lastYear
deriving DecidableEq, Repr

def RelativeRule.asStr : RelativeRule → String
  | today => "today"
  | yesterday => "yesterday"
  | thisWeek => "this_week"
  | lastWeek => "last_week"
  | thisMonth => "this_month"
  | lastMonth => "last_month"
  | thisQuarter => "this_quarter"
  | lastQuarter => "last_quarter"
  | thisYear => "this_year"
  | lastYear => "last_year"

def RELATIVE : List (List String × RelativeRule) :=
  [(["today"], .today), (["hari", "ini"], .today), (["yesterday"], .yesterday),
    (["kemarin"], .yesterday), (["this", "week"], .thisWeek), (["minggu", "ini"], .thisWeek),
    (["last", "week"], .lastWeek), (["minggu", "lalu"], .lastWeek), (["this", "month"], .thisMonth),
    (["bulan", "ini"], .thisMonth), (["last", "month"], .lastMonth),
    (["bulan", "lalu"], .lastMonth), (["this", "quarter"], .thisQuarter),
    (["kuartal", "ini"], .thisQuarter), (["last", "quarter"], .lastQuarter),
    (["kuartal", "lalu"], .lastQuarter), (["this", "year"], .thisYear),
    (["tahun", "ini"], .thisYear), (["last", "year"], .lastYear), (["tahun", "lalu"], .lastYear)]

section RelativeRange

def nextMonth (date : NaiveDate) : Option NaiveDate :=
  if date.month = 12 then NaiveDate.fromYmdOpt (date.year + 1) 1 1
  else NaiveDate.fromYmdOpt date.year (date.month + 1) 1

def weekRange (today : NaiveDate) (back : ℤ) : Option (NaiveDate × NaiveDate) := do
  let monday ← today.checkedAddDays (-today.weekday)
  let start ← monday.checkedAddDays (-back)
  let stop ← start.checkedAddDays 6
  pure (start, stop)

/-- From the first of a quarter of a year to the day before the next one; quarters count
from 0. -/
def quarterRange (year : ℤ) (quarter : ℕ) : Option (NaiveDate × NaiveDate) := do
  let start ← NaiveDate.fromYmdOpt year (quarter * 3 + 1) 1
  let next ←
    if quarter = 3 then NaiveDate.fromYmdOpt (year + 1) 1 1
    else NaiveDate.fromYmdOpt year ((quarter + 1) * 3 + 1) 1
  let stop ← next.checkedAddDays (-1)
  pure (start, stop)

def yearRange (first next : ℤ) : Option (NaiveDate × NaiveDate) := do
  let start ← NaiveDate.fromYmdOpt first 1 1
  let after ← NaiveDate.fromYmdOpt next 1 1
  let stop ← after.checkedAddDays (-1)
  pure (start, stop)

def relativeRange (today : NaiveDate) : RelativeRule → Option (NaiveDate × NaiveDate)
  | .today => some (today, today)
  | .yesterday => do
    let day ← today.checkedAddDays (-1)
    pure (day, day)
  | .thisWeek => weekRange today 0
  | .lastWeek => weekRange today 7
  | .thisMonth => do
    let start ← NaiveDate.fromYmdOpt today.year today.month 1
    let next ← nextMonth today
    let stop ← next.checkedAddDays (-1)
    pure (start, stop)
  | .lastMonth => do
    let first ← NaiveDate.fromYmdOpt today.year today.month 1
    let stop ← first.checkedAddDays (-1)
    let start ← NaiveDate.fromYmdOpt stop.year stop.month 1
    pure (start, stop)
  | .thisQuarter => quarterRange today.year ((today.month - 1) / 3)
  | .lastQuarter =>
    let quarter := (today.month - 1) / 3
    if quarter = 0 then quarterRange (today.year - 1) 3 else quarterRange today.year (quarter - 1)
  | .thisYear => yearRange today.year (today.year + 1)
  | .lastYear => yearRange (today.year - 1) today.year

end RelativeRange

section Words

def MONTHS : List (String × String) :=
  [("january", "januari"), ("february", "februari"), ("march", "maret"), ("april", "april"),
    ("may", "mei"), ("june", "juni"), ("july", "juli"), ("august", "agustus"),
    ("september", "september"), ("october", "oktober"), ("november", "november"),
    ("december", "desember")]

def monthNumber (word : String) : Option ℕ :=
  (MONTHS.findIdx? fun names => names.1 = word ∨ names.2 = word).map (· + 1)

/-- Four digits. -/
def parseYear (word : String) : Option ℤ :=
  if word.toList.length = 4 then (Text.parseDigits word.toList).map fun n => (n : ℤ) else none

/-- A month with its year, if one is stated, and the index after them. -/
def monthExpr (tokens : List Token) (index : ℕ) : Option (ℕ × Option ℤ × ℕ) := do
  let first ← tokens[index]?
  let month ← monthNumber first.text
  let year := (tokens[index + 1]?).bind fun token => parseYear token.text
  pure (month, year, index + if year.isSome then 2 else 1)

def monthStart (year : ℤ) (month : ℕ) : Option NaiveDate := NaiveDate.fromYmdOpt year month 1

/-- The day before the first of the next month. -/
def monthEnd (year : ℤ) (month : ℕ) : Option NaiveDate :=
  (if month = 12 then NaiveDate.fromYmdOpt (year + 1) 1 1
    else NaiveDate.fromYmdOpt year (month + 1) 1).bind fun next => next.checkedAddDays (-1)

def looksLikeIsoDate (word : String) : Bool :=
  match word.toList with
  | [y₁, y₂, y₃, y₄, '-', m₁, m₂, '-', d₁, d₂] =>
    [y₁, y₂, y₃, y₄, m₁, m₂, d₁, d₂].all Char.isDigit
  | _ => false

def isLeadIn (word : String) : Bool := word = "from" ∨ word = "dari"

def isLink (word : String) : Bool := word = "to" ∨ word = "sampai"

def VAGUE_WORDS : List String :=
  ["today", "yesterday", "week", "month", "quarter", "year", "kemarin", "tahun", "hari", "minggu",
    "bulan", "kuartal"]

end Words

section Recognisers

variable (parseDate : String → Option NaiveDate) (referenceInstant : ℤ) (today : NaiveDate)
  (maxRangeDays : ℤ)

def finish (fromDate toDate : NaiveDate) (rule : String) (span : ℕ × ℕ) : Flow :=
  if toDate.before fromDate then
    .invalid "temporal_range_reversed" "The start date must not be after the end date."
  else if maxRangeDays ≤ 0 ∨ toDate.dayNumber - fromDate.dayNumber + 1 > maxRangeDays then
    .invalid "temporal_range_too_large" "The date range exceeds the capability limit."
  else
    .done (.ok (some ⟨fromDate, toDate, ⟨rule, span, referenceInstant, "Asia/Jakarta"⟩⟩))

def invalidDate : Flow :=
  .invalid "temporal_invalid_date" "Use a valid Gregorian date in YYYY-MM-DD format."

/-- Goes on with the date a word spells. -/
def withDate (word : String) (f : NaiveDate → Flow) : Flow :=
  match parseDate word with
  | none => invalidDate
  | some date => f date

/-- "from January to September 2026", read at one token. -/
def monthRangeAt (tokens : List Token) (start : ℕ) : Flow :=
  .expect tokens[start]? fun lead =>
    if isLeadIn lead.text = false then .next
    else
      match monthExpr tokens (start + 1) with
      | none => .next
      | some (fromMonth, fromYear, afterFrom) =>
        if (tokens[afterFrom]?).any (fun token => isLink token.text) = false then .next
        else
          match monthExpr tokens (afterFrom + 1) with
          | none => .next
          | some (toMonth, toYear, stop) =>
            -- a year stated on one side is the year of both
            let stated := (fromYear.or toYear).getD today.year
            match monthStart (fromYear.getD stated) fromMonth,
              monthEnd (toYear.getD stated) toMonth with
            | some fromDate, some toDate =>
              .expect tokens[stop - 1]? fun last =>
                finish referenceInstant maxRangeDays fromDate toDate "inclusive_month_range"
                  (lead.start, last.stop)
            | _, _ => invalidDate

/-- "from DATE to DATE". -/
def explicitRange : List Token → Flow
  | [lead, first, link, last] =>
    if (lead.text = "from" ∧ link.text = "to") ∨ (lead.text = "dari" ∧ link.text = "sampai") then
      withDate parseDate first.text fun fromDate =>
        withDate parseDate last.text fun toDate =>
          finish referenceInstant maxRangeDays fromDate toDate "inclusive_explicit_range"
            (lead.start, last.stop)
    else .next
  | _ => .next

/-- "DATE to DATE". -/
def bareRange : List Token → Flow
  | [first, link, last] =>
    if isLink link.text = true ∧ looksLikeIsoDate first.text = true ∧
        looksLikeIsoDate last.text = true then
      withDate parseDate first.text fun fromDate =>
        withDate parseDate last.text fun toDate =>
          finish referenceInstant maxRangeDays fromDate toDate "inclusive_explicit_range"
            (first.start, last.stop)
    else .next
  | _ => .next

def relativePhrase (tokens : List Token) (phrase : List String × RelativeRule) : Flow :=
  match (windows phrase.1.length tokens).find? fun window => window.map (·.text) = phrase.1 with
  | none => .next
  | some window =>
    .expect (relativeRange today phrase.2) fun range =>
      .expect window.head? fun first =>
        .expect window.getLast? fun last =>
          finish referenceInstant maxRangeDays range.1 range.2 phrase.2.asStr
            (first.start, last.stop)

/-- "last N days", "N hari terakhir". -/
def lastDays : List Token → Flow
  | [first, second, third] =>
    let english := first.text = "last" ∧ third.text = "days"
    let indonesian := (Text.parseI64 first.text).isSome = true ∧ second.text = "hari" ∧
      third.text = "terakhir"
    if ¬ english ∧ ¬ indonesian then .next
    else
      match Text.parseI64 (if english then second.text else first.text) with
      | none => .invalid "temporal_invalid_count" "The day count must be a positive integer."
      | some days =>
        if days ≤ 0 ∨ days > maxRangeDays then
          .invalid "temporal_invalid_count"
            "The day count must be positive and within the capability limit."
        else
          .expect (today.checkedAddDays (-(days - 1))) fun fromDate =>
            finish referenceInstant maxRangeDays fromDate today "last_n_days_inclusive"
              (first.start, third.stop)
  | _ => .next

/-- The dates of the message that no range took. -/
def singleDate (tokens : List Token) : Flow :=
  match tokens.filter fun token => looksLikeIsoDate token.text with
  | [] => .next
  | [token] =>
    if (tokens.takeWhile fun other => other.text ≠ token.text).any
        (fun other => other.text ∈ ["from", "dari", "since"]) = true then
      .invalid "temporal_missing_to_date"
        "missing parameter to_date: provide an inclusive from..to range."
    else
      withDate parseDate token.text fun date =>
        finish referenceInstant maxRangeDays date date "iso_single_date"
          (token.start, token.stop)
  | _ => .invalid "temporal_ambiguous"
      "Use an inclusive 'from DATE to DATE' or 'dari DATE sampai DATE' range."

def malformedDate (tokens : List Token) : Flow :=
  if tokens.any (fun token => token.text.toList.count '-' = 2 ∧
      token.text.toList.all (fun c => c.isDigit || c = '-') = true) = true then invalidDate
  else .next

def vagueExpression (tokens : List Token) : Flow :=
  if tokens.any (fun token => token.text ∈ VAGUE_WORDS) = true then
    .invalid "temporal_ambiguous" "The date expression is ambiguous or unsupported."
  else .next

def recognisers (tokens : List Token) : List Flow :=
  (List.range tokens.length).map (monthRangeAt referenceInstant today maxRangeDays tokens) ++
    (windows 4 tokens).map (explicitRange parseDate referenceInstant maxRangeDays) ++
    (windows 3 tokens).map (bareRange parseDate referenceInstant maxRangeDays) ++
    RELATIVE.map (relativePhrase referenceInstant today maxRangeDays tokens) ++
    (windows 3 tokens).map (lastDays referenceInstant today maxRangeDays) ++
    [singleDate parseDate referenceInstant maxRangeDays tokens, malformedDate tokens,
      vagueExpression tokens]

def resolveTokens (tokens : List Token) :
    Option (Except TemporalError (Option ResolvedTemporal)) :=
  match firstOf (recognisers parseDate referenceInstant today maxRangeDays tokens) with
  | .next => some (.ok none)
  | .done outcome => some outcome
  | .panic => none

def resolveTemporal (message : String) : Option (Except TemporalError (Option ResolvedTemporal)) :=
  resolveTokens parseDate referenceInstant today maxRangeDays
    (tokensWithSpans (Text.asciiLower message))

end Recognisers

end FineractReports.Extraction
