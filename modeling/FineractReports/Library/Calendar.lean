import Mathlib.Tactic

/-!
# The proleptic Gregorian calendar

Dates carry the proof that the day exists in its month. Months are shifted with the
day clipped to the month's last; day numbers count the days since year 0.
-/

namespace FineractReports

def isLeapYear (year : ℤ) : Bool :=
  year % 4 = 0 ∧ (year % 100 ≠ 0 ∨ year % 400 = 0)

def daysInMonth (year : ℤ) (month : ℕ) : ℕ :=
  if month = 2 then (if isLeapYear year then 29 else 28)
  else if month = 4 ∨ month = 6 ∨ month = 9 ∨ month = 11 then 30
  else 31

/-- A calendar date; the day exists in the month. -/
structure NaiveDate where
  year : ℤ
  month : ℕ
  day : ℕ
  valid : 1 ≤ month ∧ month ≤ 12 ∧ 1 ≤ day ∧ day ≤ daysInMonth year month
deriving DecidableEq

namespace NaiveDate

def fromYmd? (year : ℤ) (month day : ℕ) : Option NaiveDate :=
  if h : 1 ≤ month ∧ month ≤ 12 ∧ 1 ≤ day ∧ day ≤ daysInMonth year month then
    some ⟨year, month, day, h⟩
  else none

theorem daysInMonth_pos (year : ℤ) (month : ℕ) : 1 ≤ daysInMonth year month := by
  unfold daysInMonth
  split_ifs <;> omega

/-- Months since January of year 0. -/
def monthNumber (date : NaiveDate) : ℤ := 12 * date.year + (date.month - 1)

/-- A day of a numbered month, clipped to the month. -/
def ofMonthNumber (months : ℤ) (day : ℕ) (h : 1 ≤ day) : NaiveDate where
  year := months / 12
  month := (months % 12).toNat + 1
  day := min day (daysInMonth (months / 12) ((months % 12).toNat + 1))
  valid := by
    have hpos := daysInMonth_pos (months / 12) ((months % 12).toNat + 1)
    refine ⟨?_, ?_, ?_, ?_⟩ <;> omega

def addMonths (date : NaiveDate) (months : ℤ) : NaiveDate :=
  ofMonthNumber (date.monthNumber + months) date.day date.valid.2.2.1

def startOfMonth (date : NaiveDate) : NaiveDate :=
  ofMonthNumber date.monthNumber 1 le_rfl

/-- The day before. -/
def pred (date : NaiveDate) : NaiveDate :=
  if h : 1 < date.day then
    { date with
      day := date.day - 1
      valid := by
        obtain ⟨hlow, hhigh, -, hlast⟩ := date.valid
        refine ⟨hlow, hhigh, ?_, ?_⟩ <;> omega }
  else ofMonthNumber (date.monthNumber - 1) 31 (by decide)

def subDays (date : NaiveDate) : ℕ → NaiveDate
  | 0 => date
  | days + 1 => (subDays date days).pred

/-- Days since the first day of year 0. -/
def dayNumber (date : NaiveDate) : ℤ :=
  let before := date.year - 1
  365 * date.year + (before / 4 - before / 100 + before / 400 + 1) +
    ((List.range (date.month - 1)).map fun month => (daysInMonth date.year (month + 1) : ℤ)).sum +
    (date.day - 1)

/-- Calendar order. -/
def before (a b : NaiveDate) : Prop :=
  a.year < b.year ∨ (a.year = b.year ∧ (a.month < b.month ∨ (a.month = b.month ∧ a.day < b.day)))

instance : DecidableRel before := fun a b => by
  unfold before
  infer_instance

def padded (width : ℕ) (n : ℕ) : String :=
  String.ofList (List.leftpad width '0' (toString n).toList)

/-- ISO 8601; years outside 0 to 9999 carry their sign. -/
def display (date : NaiveDate) : String :=
  let year :=
    if 0 ≤ date.year ∧ date.year ≤ 9999 then padded 4 date.year.natAbs
    else (if date.year < 0 then "-" else "+") ++ padded 4 date.year.natAbs
  year ++ "-" ++ padded 2 date.month ++ "-" ++ padded 2 date.day

end NaiveDate

end FineractReports
