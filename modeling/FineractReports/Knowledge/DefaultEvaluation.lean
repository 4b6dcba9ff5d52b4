import FineractReports.Knowledge.ParameterPolicy
import FineractReports.Library.DayNumber

/-!
# Evaluation of default expressions within the calendar's range

The dates of the calendar library end at its last year. `evaluateChecked` is the evaluation
with that range: a shift that leaves it falls back to the date it started from where the
source does, and `none` is a panic. Away from the ends it is the plain evaluation.
-/

namespace FineractReports

def NaiveDate.checkedAddMonths (date : NaiveDate) (months : ℤ) : Option NaiveDate :=
  some (date.addMonths months) |>.filter fun shifted => decide shifted.IsRepresentable

def subtractMonths (date : NaiveDate) (months : ℕ) : NaiveDate :=
  (date.checkedAddMonths (-months)).getD date

def startOfMonthChecked (date : NaiveDate) : NaiveDate :=
  (NaiveDate.fromYmdOpt date.year date.month 1).getD date

def endOfMonthChecked (date : NaiveDate) : Option NaiveDate :=
  (((startOfMonthChecked date).checkedAddMonths 1).getD date).checkedAddDays (-1)

def DefaultExpr.evaluateChecked (ctx : EvaluationContext) : DefaultExpr → Option ResolvedValue
  | businessToday => some (.date ctx.businessToday)
  | wallToday => some (.date ctx.wallToday)
  | businessTodayMinusDays days => (ctx.businessToday.checkedAddDays (-days)).map .date
  | businessTodayMinusMonths months => some (.date (subtractMonths ctx.businessToday months))
  | businessTodayMinusYears years => some (.date (subtractMonths ctx.businessToday (years * 12)))
  | startOfMonthBusinessToday => some (.date (startOfMonthChecked ctx.businessToday))
  | endOfMonthBusinessToday => (endOfMonthChecked ctx.businessToday).map .date
  | unbounded => some .unbounded
  | authorizedScope => some (.integerArray ctx.authorizedOfficeIds)
  | literalInt value => some (.integer value)
  | literalDate date => some (.date date)

section Months

variable {date : NaiveDate}

theorem startOfMonthChecked_eq (h : date.IsRepresentable) :
    startOfMonthChecked date = ⟨date.year, date.month, 1, date.valid.1, date.valid.2.1, le_rfl,
      NaiveDate.daysInMonth_pos date.year date.month⟩ := by
  rw [startOfMonthChecked, NaiveDate.fromYmdOpt_first h.1 h.2 date.valid.1 date.valid.2.1]
  rfl

theorem startOfMonthChecked_number (h : date.IsRepresentable) :
    (startOfMonthChecked date).dayNumber = NaiveDate.firstDay date.year date.month := by
  rw [startOfMonthChecked_eq h, NaiveDate.dayNumber_eq]
  simp

/-- A month later the first of a month is the first of the next one. -/
theorem addMonths_one_number (hday : date.day = 1) :
    (date.addMonths 1).dayNumber = NaiveDate.firstDay date.year (date.month + 1) := by
  have hfirst : date.addMonths 1 = NaiveDate.ofMonthNumber (date.monthNumber + 1) 1 le_rfl := by
    simp only [NaiveDate.addMonths, hday]
  rw [hfirst, NaiveDate.dayNumber_ofMonthNumber, NaiveDate.firstDay_ofMonthNumber_succ]

theorem checkedAddMonths_eq {months : ℤ} (h : (date.addMonths months).IsRepresentable) :
    date.checkedAddMonths months = some (date.addMonths months) := by
  simp [NaiveDate.checkedAddMonths, h]

theorem startOfMonth_number (date : NaiveDate) :
    date.startOfMonth.dayNumber = NaiveDate.firstDay date.year date.month := by
  obtain ⟨hlow, hhigh, -⟩ := date.valid
  have hyear : date.monthNumber / 12 = date.year := by
    rw [NaiveDate.monthNumber]
    omega
  have hmonth : (date.monthNumber % 12).toNat + 1 = date.month := by
    rw [NaiveDate.monthNumber]
    omega
  rw [NaiveDate.startOfMonth, NaiveDate.dayNumber_ofMonthNumber, hyear, hmonth]

theorem startOfMonthChecked_eq_startOfMonth (h : date.IsRepresentable) :
    startOfMonthChecked date = date.startOfMonth := by
  rw [← NaiveDate.dayNumber_inj, startOfMonthChecked_number h, startOfMonth_number]

theorem subDays_number (date : NaiveDate) (days : ℕ) :
    (date.subDays days).dayNumber = date.dayNumber - days := by
  induction days with
  | zero => simp [NaiveDate.subDays]
  | succ days ih =>
    rw [NaiveDate.subDays, NaiveDate.dayNumber_pred, ih]
    omega

theorem checkedAddDays_of_number {shifted : NaiveDate} {days : ℤ}
    (hnumber : shifted.dayNumber = date.dayNumber + days) (h : shifted.IsRepresentable) :
    date.checkedAddDays days = some shifted := by
  have hsame : date.addDays days = shifted := by
    rw [← NaiveDate.dayNumber_inj, NaiveDate.dayNumber_addDays, hnumber]
  rw [NaiveDate.checkedAddDays_eq (hsame ▸ h), hsame]

/-- Where every date that comes up is representable, the plain evaluation is the checked
one. -/
theorem evaluateChecked_eq {ctx : EvaluationContext} {expr : DefaultExpr}
    (htoday : ctx.businessToday.IsRepresentable)
    (hnext : (ctx.businessToday.startOfMonth.addMonths 1).IsRepresentable)
    (hvalue : ∀ date, expr.evaluate ctx = .date date → date.IsRepresentable) :
    expr.evaluateChecked ctx = some (expr.evaluate ctx) := by
  cases expr with
  | businessTodayMinusDays days =>
    have hnumber := subDays_number ctx.businessToday days
    rw [DefaultExpr.evaluateChecked, checkedAddDays_of_number (by omega) (hvalue _ rfl)]
    rfl
  | businessTodayMinusMonths months =>
    rw [DefaultExpr.evaluateChecked, subtractMonths, checkedAddMonths_eq (hvalue _ rfl)]
    rfl
  | businessTodayMinusYears years =>
    have hmonths : -((years * 12 : ℕ) : ℤ) = -(12 * years) := by
      push_cast
      ring
    rw [DefaultExpr.evaluateChecked, subtractMonths, hmonths, checkedAddMonths_eq (hvalue _ rfl)]
    rfl
  | startOfMonthBusinessToday =>
    rw [DefaultExpr.evaluateChecked, startOfMonthChecked_eq_startOfMonth htoday]
    rfl
  | endOfMonthBusinessToday =>
    have hstop : (endOfMonth ctx.businessToday).dayNumber =
        (ctx.businessToday.startOfMonth.addMonths 1).dayNumber + -1 :=
      NaiveDate.dayNumber_pred _
    rw [DefaultExpr.evaluateChecked, endOfMonthChecked,
      startOfMonthChecked_eq_startOfMonth htoday, checkedAddMonths_eq hnext, Option.getD_some,
      checkedAddDays_of_number hstop (hvalue _ rfl)]
    rfl
  | _ => rfl

end Months

end FineractReports
