import FineractReports.Assistant.Temporal
import FineractReports.Knowledge.DefaultEvaluation

/-!
# Calendar periods

The period a relative phrase names is the calendar unit it says: the unit that contains the
business date, or the one that ends the day before. The three ways the source finds the ends
of a month agree.
-/

namespace FineractReports.Extraction

inductive CalendarUnit where
  | day | week | month | quarter | year
deriving DecidableEq, Repr

/-- Both dates lie in one unit; weeks begin on Monday. -/
def SameUnit : CalendarUnit → NaiveDate → NaiveDate → Prop
  | .day, a, b => a = b
  | .week, a, b => a.dayNumber - a.weekday = b.dayNumber - b.weekday
  | .month, a, b => a.year = b.year ∧ a.month = b.month
  | .quarter, a, b => a.year = b.year ∧ (a.month - 1) / 3 = (b.month - 1) / 3
  | .year, a, b => a.year = b.year

def CalendarUnit.thisRule : CalendarUnit → RelativeRule
  | day => .today
  | week => .thisWeek
  | month => .thisMonth
  | quarter => .thisQuarter
  | year => .thisYear

def CalendarUnit.lastRule : CalendarUnit → RelativeRule
  | day => .yesterday
  | week => .lastWeek
  | month => .lastMonth
  | quarter => .lastQuarter
  | year => .lastYear

/-- The dates of the range are those in one unit with a date. -/
def IsUnitOf (unit : CalendarUnit) (range : NaiveDate × NaiveDate) (inside : NaiveDate) : Prop :=
  ∀ date : NaiveDate, (¬ date.before range.1 ∧ ¬ range.2.before date) ↔ SameUnit unit date inside

/-- The years before and after that of the date are in the calendar's range. -/
def NeighboursRepresentable (today : NaiveDate) : Prop :=
  NaiveDate.MIN_YEAR ≤ today.year - 1 ∧ today.year + 1 ≤ NaiveDate.MAX_YEAR

instance (today : NaiveDate) : Decidable (NeighboursRepresentable today) := by
  unfold NeighboursRepresentable
  infer_instance

/-- From the first day of one month to the last day of another one of the year. -/
def SpansMonths (year : ℤ) (low high : ℕ) (range : NaiveDate × NaiveDate) : Prop :=
  range.1.dayNumber = NaiveDate.firstDay year low ∧
    range.2.dayNumber + 1 = NaiveDate.firstDay year (high + 1)

section Units

variable {year : ℤ} {low high : ℕ} {range : NaiveDate × NaiveDate} {inside : NaiveDate}

theorem not_before_iff {a b : NaiveDate} : ¬ a.before b ↔ b.dayNumber ≤ a.dayNumber := by
  rw [NaiveDate.before_iff]
  omega

theorem SpansMonths.mem_iff (h : SpansMonths year low high range) (hlow : 1 ≤ low)
    (hhigh : high ≤ 12) (date : NaiveDate) :
    (¬ date.before range.1 ∧ ¬ range.2.before date) ↔
      date.year = year ∧ low ≤ date.month ∧ date.month ≤ high := by
  obtain ⟨hfirst, hlast⟩ := h
  rw [NaiveDate.month_between_iff hlow hhigh, not_before_iff, not_before_iff, hfirst]
  omega

theorem SpansMonths.stop_mem (h : SpansMonths year low high range) (hlow : 1 ≤ low)
    (hle : low ≤ high) (hhigh : high ≤ 12) :
    range.2.year = year ∧ low ≤ range.2.month ∧ range.2.month ≤ high := by
  rw [← h.mem_iff hlow hhigh, not_before_iff, not_before_iff]
  obtain ⟨hfirst, hlast⟩ := h
  have hmono := NaiveDate.firstDay_mono year hlow hle
  have hpos := NaiveDate.daysInMonth_pos year high
  rw [NaiveDate.firstDay_succ year (hlow.trans hle)] at hlast
  omega

theorem SpansMonths.isMonth (h : SpansMonths year low low range) (hlow : 1 ≤ low) (hhigh : low ≤ 12)
    (hyear : inside.year = year) (hmonth : inside.month = low) : IsUnitOf .month range inside := by
  intro date
  rw [h.mem_iff hlow hhigh]
  simp only [SameUnit, hyear, hmonth]
  omega

theorem SpansMonths.isQuarter {quarter : ℕ}
    (h : SpansMonths year (quarter * 3 + 1) (quarter * 3 + 3) range) (hquarter : quarter ≤ 3)
    (hyear : inside.year = year) (hmonth : (inside.month - 1) / 3 = quarter) :
    IsUnitOf .quarter range inside := by
  intro date
  rw [h.mem_iff (by omega) (by omega)]
  have hpos := date.valid.1
  simp only [SameUnit, hyear, hmonth]
  omega

theorem SpansMonths.isYear (h : SpansMonths year 1 12 range) (hyear : inside.year = year) :
    IsUnitOf .year range inside := by
  intro date
  rw [h.mem_iff le_rfl le_rfl]
  obtain ⟨hlow, hhigh, -⟩ := date.valid
  simp only [SameUnit, hyear]
  tauto

end Units

section Ranges

variable {today : NaiveDate}

theorem NeighboursRepresentable.representable (h : NeighboursRepresentable today) :
    today.IsRepresentable := by
  obtain ⟨hlow, hhigh⟩ := h
  constructor <;> omega

/-- Every day of the three years is representable. -/
theorem NeighboursRepresentable.near (h : NeighboursRepresentable today) {date : NaiveDate}
    (hlow : NaiveDate.firstDay (today.year - 1) 1 ≤ date.dayNumber)
    (hhigh : date.dayNumber < NaiveDate.firstDay (today.year + 2) 1) : date.IsRepresentable := by
  obtain ⟨hmin, hmax⟩ := h
  rw [NaiveDate.isRepresentable_iff]
  have hfirst := NaiveDate.firstDay_year_mono hmin
  have hlast := @NaiveDate.firstDay_year_mono (today.year + 2) (NaiveDate.MAX_YEAR + 1) (by omega)
  omega

/-- The three years around a date, by the numbers of their first days. -/
theorem year_bounds (today : NaiveDate) :
    NaiveDate.firstDay (today.year - 1) 1 + 365 ≤ NaiveDate.firstDay today.year 1 ∧
      NaiveDate.firstDay today.year 1 ≤ today.dayNumber ∧
      today.dayNumber < NaiveDate.firstDay (today.year + 1) 1 ∧
      NaiveDate.firstDay (today.year + 1) 1 + 365 ≤ NaiveDate.firstDay (today.year + 2) 1 := by
  have hbefore := NaiveDate.firstDay_add_year (today.year - 1)
  have hafter := NaiveDate.firstDay_add_year (today.year + 1)
  rw [Int.sub_add_cancel] at hbefore
  rw [show today.year + 1 + 1 = today.year + 2 by ring] at hafter
  exact ⟨hbefore, today.year_le_dayNumber, today.dayNumber_lt_year, hafter⟩

/-- A shift by up to two weeks, the length of any step below. -/
theorem NeighboursRepresentable.shift (h : NeighboursRepresentable today) {date : NaiveDate}
    {days : ℤ} (hlow : NaiveDate.firstDay (today.year - 1) 1 ≤ date.dayNumber + days)
    (hhigh : date.dayNumber + days < NaiveDate.firstDay (today.year + 2) 1) :
    date.checkedAddDays days = some (date.addDays days) := by
  apply NaiveDate.checkedAddDays_eq
  apply h.near
  · rwa [NaiveDate.dayNumber_addDays]
  · rwa [NaiveDate.dayNumber_addDays]

/-- The first of a month, with its number. -/
theorem fromYmdOpt_number {year : ℤ} {month : ℕ} (hlow : NaiveDate.MIN_YEAR ≤ year)
    (hhigh : year ≤ NaiveDate.MAX_YEAR) (hmonth : 1 ≤ month) (htwelve : month ≤ 12) :
    ∃ first, NaiveDate.fromYmdOpt year month 1 = some first ∧ first.year = year ∧
      first.month = month ∧ first.dayNumber = NaiveDate.firstDay year month := by
  refine ⟨_, NaiveDate.fromYmdOpt_first hlow hhigh hmonth htwelve, rfl, rfl, ?_⟩
  rw [NaiveDate.dayNumber_eq]
  simp

/-- The ends of some months of a year, as the source finds them: the first day of the first
one, and the day before the first day after the last one. -/
theorem spansMonths_ends {year : ℤ} {low high : ℕ} (hmin : NaiveDate.MIN_YEAR ≤ year)
    (hmax : year + 1 ≤ NaiveDate.MAX_YEAR) (hlow : 1 ≤ low) (hle : low ≤ high) (hhigh : high ≤ 12) :
    ∃ start next stop, NaiveDate.fromYmdOpt year low 1 = some start ∧
      (if high = 12 then NaiveDate.fromYmdOpt (year + 1) 1 1
        else NaiveDate.fromYmdOpt year (high + 1) 1) = some next ∧
      next.checkedAddDays (-1) = some stop ∧ SpansMonths year low high (start, stop) := by
  obtain ⟨start, hstart, -, -, hfirst⟩ :=
    fromYmdOpt_number hmin (by omega : year ≤ _) hlow (hle.trans hhigh)
  have hnext : ∃ next, (if high = 12 then NaiveDate.fromYmdOpt (year + 1) 1 1
      else NaiveDate.fromYmdOpt year (high + 1) 1) = some next ∧
        next.dayNumber = NaiveDate.firstDay year (high + 1) := by
    split_ifs with hdecember
    · obtain ⟨next, hnext, -, -, hnumber⟩ :=
        fromYmdOpt_number (by omega : _ ≤ year + 1) hmax le_rfl (by omega)
      refine ⟨next, hnext, ?_⟩
      rw [hnumber, NaiveDate.firstDay_next_year, hdecember]
    · obtain ⟨next, hnext, -, -, hnumber⟩ :=
        fromYmdOpt_number hmin (by omega : year ≤ _) (by omega : 1 ≤ high + 1) (by omega)
      exact ⟨next, hnext, hnumber⟩
  obtain ⟨next, hnext, hlast⟩ := hnext
  have hspan : SpansMonths year low high (start, next.addDays (-1)) := by
    refine ⟨hfirst, ?_⟩
    rw [NaiveDate.dayNumber_addDays, hlast]
    ring
  have hyear : (next.addDays (-1)).year = year := (hspan.stop_mem hlow hle hhigh).1
  have hstop : next.checkedAddDays (-1) = some (next.addDays (-1)) := by
    apply NaiveDate.checkedAddDays_eq
    rw [NaiveDate.IsRepresentable, hyear]
    omega
  exact ⟨start, next, next.addDays (-1), hstart, hnext, hstop, hspan⟩

theorem quarterRange_spans {year : ℤ} {quarter : ℕ} (hmin : NaiveDate.MIN_YEAR ≤ year)
    (hmax : year + 1 ≤ NaiveDate.MAX_YEAR) (hquarter : quarter ≤ 3) :
    ∃ range, quarterRange year quarter = some range ∧
      SpansMonths year (quarter * 3 + 1) (quarter * 3 + 3) range := by
  obtain ⟨start, next, stop, hstart, hnext, hstop, hspan⟩ := spansMonths_ends hmin hmax
    (by omega : 1 ≤ quarter * 3 + 1) (by omega : _ ≤ quarter * 3 + 3) (by omega)
  have htwelve : quarter * 3 + 3 = 12 ↔ quarter = 3 := by omega
  have hafter : (quarter + 1) * 3 + 1 = quarter * 3 + 3 + 1 := by ring
  simp only [htwelve] at hnext
  refine ⟨(start, stop), ?_, hspan⟩
  simp only [quarterRange, hstart, hafter, Option.bind_eq_bind, Option.bind_some, Option.pure_def]
  split_ifs at hnext ⊢ with hlast
  · simp only [hnext, hstop, Option.bind_some]
  · simp only [hnext, hstop, Option.bind_some]

theorem yearRange_spans {year : ℤ} (hmin : NaiveDate.MIN_YEAR ≤ year)
    (hmax : year + 1 ≤ NaiveDate.MAX_YEAR) :
    ∃ range, yearRange year (year + 1) = some range ∧ SpansMonths year 1 12 range := by
  obtain ⟨start, next, stop, hstart, hnext, hstop, hspan⟩ :=
    spansMonths_ends hmin hmax le_rfl (by omega : 1 ≤ 12) le_rfl
  rw [if_pos rfl] at hnext
  refine ⟨(start, stop), ?_, hspan⟩
  simp only [yearRange, hstart, hnext, hstop, Option.bind_eq_bind, Option.bind_some,
    Option.pure_def]

theorem thisMonth_spans (h : NeighboursRepresentable today) :
    ∃ range, relativeRange today .thisMonth = some range ∧
      SpansMonths today.year today.month today.month range ∧
      monthStart today.year today.month = some range.1 ∧
      monthEnd today.year today.month = some range.2 := by
  obtain ⟨hmin, hmax⟩ := h
  obtain ⟨hlow, hhigh, -⟩ := today.valid
  obtain ⟨start, next, stop, hstart, hnext, hstop, hspan⟩ :=
    spansMonths_ends (by omega) hmax hlow le_rfl hhigh
  refine ⟨(start, stop), ?_, hspan, hstart, ?_⟩
  · simp only [relativeRange, nextMonth, hstart, hnext, hstop, Option.bind_eq_bind,
      Option.bind_some, Option.pure_def]
  · simp only [monthEnd, hnext, hstop, Option.bind_some]

/-- The month before that of the date. -/
theorem lastMonth_spans (h : NeighboursRepresentable today) :
    ∃ range, relativeRange today .lastMonth = some range ∧
      range.2.dayNumber + 1 = NaiveDate.firstDay today.year today.month ∧
      SpansMonths range.2.year range.2.month range.2.month range := by
  obtain ⟨hmin, hmax⟩ := h
  obtain ⟨hlow, hhigh, -⟩ := today.valid
  obtain ⟨first, hfirst, -, -, hnumber⟩ :=
    fromYmdOpt_number (by omega : _ ≤ today.year) (by omega) hlow hhigh
  have hbefore : ∃ year month, NaiveDate.MIN_YEAR ≤ year ∧ year + 1 ≤ NaiveDate.MAX_YEAR ∧
      1 ≤ month ∧ month ≤ 12 ∧
      NaiveDate.firstDay year (month + 1) = NaiveDate.firstDay today.year today.month := by
    by_cases hjanuary : today.month = 1
    · refine ⟨today.year - 1, 12, hmin, by omega, by omega, le_rfl, ?_⟩
      rw [← NaiveDate.firstDay_next_year, Int.sub_add_cancel, hjanuary]
    · refine ⟨today.year, today.month - 1, by omega, hmax, by omega, by omega, ?_⟩
      rw [Nat.sub_add_cancel hlow]
  obtain ⟨year, month, hyearMin, hyearMax, hmonth, htwelve, hafter⟩ := hbefore
  obtain ⟨start, hstart, -, -, hstartNumber⟩ :=
    fromYmdOpt_number hyearMin (by omega : year ≤ _) hmonth htwelve
  have hspan : SpansMonths year month month (start, first.addDays (-1)) := by
    refine ⟨hstartNumber, ?_⟩
    rw [NaiveDate.dayNumber_addDays, hnumber, hafter]
    ring
  have hstopMonth := hspan.stop_mem hmonth le_rfl htwelve
  have hyear : (first.addDays (-1)).year = year := hstopMonth.1
  have hsame : (first.addDays (-1)).month = month := le_antisymm hstopMonth.2.2 hstopMonth.2.1
  have hstop : first.checkedAddDays (-1) = some (first.addDays (-1)) := by
    apply NaiveDate.checkedAddDays_eq
    rw [NaiveDate.IsRepresentable, hyear]
    omega
  refine ⟨(start, first.addDays (-1)), ?_, ?_, ?_⟩
  · simp only [relativeRange, hfirst, hstop, hyear, hsame, hstart, Option.bind_eq_bind,
      Option.bind_some, Option.pure_def]
  · rw [NaiveDate.dayNumber_addDays, hnumber]
    ring
  · rw [hyear, hsame]
    exact hspan

/-- The quarter before that of the date. -/
theorem lastQuarter_spans (h : NeighboursRepresentable today) :
    ∃ range year quarter, relativeRange today .lastQuarter = some range ∧ quarter ≤ 3 ∧
      SpansMonths year (quarter * 3 + 1) (quarter * 3 + 3) range ∧
      range.2.dayNumber + 1 =
        NaiveDate.firstDay today.year ((today.month - 1) / 3 * 3 + 1) := by
  obtain ⟨hmin, hmax⟩ := h
  have htwelve := today.valid.2.1
  by_cases hfirst : (today.month - 1) / 3 = 0
  · obtain ⟨range, hrange, hspan⟩ := quarterRange_spans hmin (by omega) (by omega : 3 ≤ 3)
    refine ⟨range, today.year - 1, 3, ?_, le_rfl, hspan, ?_⟩
    · simp only [relativeRange, if_pos hfirst, hrange]
    · rw [hspan.2, hfirst, ← NaiveDate.firstDay_next_year, Int.sub_add_cancel]
  · obtain ⟨range, hrange, hspan⟩ :=
      quarterRange_spans (by omega) hmax (by omega : (today.month - 1) / 3 - 1 ≤ 3)
    refine ⟨range, today.year, (today.month - 1) / 3 - 1, ?_, by omega, hspan, ?_⟩
    · simp only [relativeRange, if_neg hfirst, hrange]
    · rw [hspan.2]
      congr 1
      omega

/-- A week back from the Monday of a date's week. -/
theorem weekRange_eq (h : NeighboursRepresentable today) {back : ℤ} (hback : 0 ≤ back)
    (hweek : back ≤ 7) : ∃ range, weekRange today back = some range ∧
      range.1.dayNumber = today.dayNumber - today.weekday - back ∧
      range.2.dayNumber = today.dayNumber - today.weekday - back + 6 := by
  obtain ⟨hbefore, hstart, hstop, hafter⟩ := year_bounds today
  have hlow : 0 ≤ today.weekday := by
    unfold NaiveDate.weekday
    omega
  have hhigh : today.weekday ≤ 6 := by
    unfold NaiveDate.weekday
    omega
  have hmonday := h.shift (by omega : _ ≤ today.dayNumber + -today.weekday) (by omega)
  have hmondayNumber := today.dayNumber_addDays (-today.weekday)
  have hfirst := h.shift (by omega : _ ≤ (today.addDays (-today.weekday)).dayNumber + -back)
    (by omega)
  have hfirstNumber := (today.addDays (-today.weekday)).dayNumber_addDays (-back)
  have hlast := h.shift
    (by omega : _ ≤ ((today.addDays (-today.weekday)).addDays (-back)).dayNumber + 6) (by omega)
  have hlastNumber := ((today.addDays (-today.weekday)).addDays (-back)).dayNumber_addDays 6
  refine ⟨((today.addDays (-today.weekday)).addDays (-back),
    ((today.addDays (-today.weekday)).addDays (-back)).addDays 6), ?_, ?_, ?_⟩
  · simp only [weekRange, hmonday, hfirst, hlast, Option.bind_eq_bind, Option.bind_some,
      Option.pure_def]
  · rw [hfirstNumber, hmondayNumber]
    ring
  · rw [hlastNumber, hfirstNumber, hmondayNumber]
    ring

theorem week_isUnitOf {range : NaiveDate × NaiveDate} {inside : NaiveDate}
    (hfirst : range.1.dayNumber = inside.dayNumber - inside.weekday)
    (hlast : range.2.dayNumber = inside.dayNumber - inside.weekday + 6) :
    IsUnitOf .week range inside := by
  intro date
  rw [not_before_iff, not_before_iff, hfirst, hlast]
  simp only [SameUnit, NaiveDate.weekday]
  omega

/-- The phrases of a unit: the unit that contains the business date, and the one that ends
the day before it begins. -/
theorem unit_ranges (unit : CalendarUnit) (h : NeighboursRepresentable today) :
    ∃ this last, relativeRange today unit.thisRule = some this ∧
      relativeRange today unit.lastRule = some last ∧ IsUnitOf unit this today ∧
      last.2.succ = this.1 ∧ IsUnitOf unit last last.2 := by
  simp only [← NaiveDate.dayNumber_inj, NaiveDate.dayNumber_succ]
  have hmin := h.1
  have hmax := h.2
  obtain ⟨hlow, hhigh, -⟩ := today.valid
  cases unit with
  | day =>
    obtain ⟨hbefore, hstart, hstop, hafter⟩ := year_bounds today
    have hone : ∀ date : NaiveDate, IsUnitOf .day (date, date) date := by
      intro date other
      rw [not_before_iff, not_before_iff, SameUnit, ← NaiveDate.dayNumber_inj]
      dsimp only
      omega
    have hshift := h.shift (by omega : _ ≤ today.dayNumber + -1) (by omega)
    refine ⟨(today, today), (today.addDays (-1), today.addDays (-1)), rfl, ?_, hone _, ?_, hone _⟩
    · simp only [CalendarUnit.lastRule, relativeRange, hshift, Option.bind_eq_bind,
        Option.bind_some, Option.pure_def]
    · rw [NaiveDate.dayNumber_addDays]
      ring
  | week =>
    obtain ⟨this, hthis, hfirst, hlast⟩ := weekRange_eq h le_rfl (by omega)
    obtain ⟨last, hlastRange, hlastFirst, hlastStop⟩ := weekRange_eq h
      (by omega : (0 : ℤ) ≤ 7) le_rfl
    refine ⟨this, last, hthis, hlastRange, week_isUnitOf (by omega) (by omega), by omega, ?_⟩
    apply week_isUnitOf
    · rw [hlastFirst]
      simp only [NaiveDate.weekday, hlastStop]
      omega
    · simp only [NaiveDate.weekday, hlastStop]
      omega
  | month =>
    obtain ⟨this, hthis, hspan, -⟩ := thisMonth_spans h
    obtain ⟨last, hlast, hnumber, hlastSpan⟩ := lastMonth_spans h
    obtain ⟨hmonth, htwelve, -⟩ := last.2.valid
    exact ⟨this, last, hthis, hlast, hspan.isMonth hlow hhigh rfl rfl, hnumber.trans hspan.1.symm,
      hlastSpan.isMonth hmonth htwelve rfl rfl⟩
  | quarter =>
    obtain ⟨this, hthis, hspan⟩ :=
      quarterRange_spans (by omega) hmax (by omega : (today.month - 1) / 3 ≤ 3)
    obtain ⟨last, year, quarter, hlast, hquarter, hlastSpan, hnumber⟩ := lastQuarter_spans h
    obtain ⟨hyear, hge, hle⟩ := hlastSpan.stop_mem (by omega) (by omega) (by omega)
    exact ⟨this, last, hthis, hlast, hspan.isQuarter (by omega) rfl rfl,
      hnumber.trans hspan.1.symm, hlastSpan.isQuarter hquarter hyear (by omega)⟩
  | year =>
    obtain ⟨this, hthis, hspan⟩ := yearRange_spans (by omega) hmax
    obtain ⟨last, hlast, hlastSpan⟩ := yearRange_spans hmin (by omega)
    rw [Int.sub_add_cancel] at hlast
    have hnumber : last.2.dayNumber + 1 = this.1.dayNumber := by
      rw [hlastSpan.2, hspan.1, ← NaiveDate.firstDay_next_year, Int.sub_add_cancel]
    have hyear := (hlastSpan.stop_mem le_rfl (by omega) le_rfl).1
    exact ⟨this, last, hthis, hlast, hspan.isYear rfl, hnumber, hlastSpan.isYear hyear⟩

theorem startOfMonth_agrees (h : NeighboursRepresentable today) :
    monthStart today.year today.month = some (startOfMonthChecked today) := by
  have hrange := h.representable
  rw [monthStart, startOfMonthChecked_eq hrange,
    NaiveDate.fromYmdOpt_first hrange.1 hrange.2 today.valid.1 today.valid.2.1]

theorem endOfMonth_agrees (h : NeighboursRepresentable today) :
    monthEnd today.year today.month = endOfMonthChecked today := by
  obtain ⟨range, -, hspan, -, hstop⟩ := thisMonth_spans h
  have hrange := h.representable
  obtain ⟨hlow, hhigh, -⟩ := today.valid
  obtain ⟨hbefore, hstart, hyear, hafter⟩ := year_bounds today
  have hfirst : (startOfMonthChecked today).day = 1 := by
    rw [startOfMonthChecked_eq hrange]
  have hyearMonth : (startOfMonthChecked today).year = today.year ∧
      (startOfMonthChecked today).month = today.month := by
    rw [startOfMonthChecked_eq hrange]
    exact ⟨rfl, rfl⟩
  have hnext := addMonths_one_number hfirst
  rw [hyearMonth.1, hyearMonth.2] at hnext
  have hlow' := NaiveDate.firstDay_mono today.year le_rfl (by omega : 1 ≤ today.month + 1)
  have hhigh' := @NaiveDate.firstDay_mono today.year (today.month + 1) 13 (by omega) (by omega)
  rw [← NaiveDate.firstDay_next_year] at hhigh'
  have hmonths : (startOfMonthChecked today).checkedAddMonths 1 =
      some ((startOfMonthChecked today).addMonths 1) := by
    apply checkedAddMonths_eq
    apply h.near <;> omega
  have hshift := @NeighboursRepresentable.shift today h
    ((startOfMonthChecked today).addMonths 1) (-1) (by omega) (by omega)
  have hsame : ((startOfMonthChecked today).addMonths 1).addDays (-1) = range.2 := by
    rw [← NaiveDate.dayNumber_inj, NaiveDate.dayNumber_addDays, hnext, ← hspan.2]
    ring
  rw [hstop, endOfMonthChecked, hmonths, Option.getD_some, hshift, hsame]

end Ranges

/-- For every business date whose neighbouring years are in range: each relative phrase names
exactly the unit it says, and the three ways to the ends of the month agree. -/
theorem calendar_periods (unit : CalendarUnit) (today : NaiveDate)
    (h : NeighboursRepresentable today) :
    (∃ this last, relativeRange today unit.thisRule = some this ∧
      relativeRange today unit.lastRule = some last ∧ IsUnitOf unit this today ∧
      last.2.succ = this.1 ∧ IsUnitOf unit last last.2) ∧
    ∃ start stop, monthStart today.year today.month = some start ∧
      monthEnd today.year today.month = some stop ∧
      relativeRange today .thisMonth = some (start, stop) ∧
      ∀ ctx : EvaluationContext, ctx.businessToday = today →
        DefaultExpr.startOfMonthBusinessToday.evaluateChecked ctx = some (.date start) ∧
        DefaultExpr.endOfMonthBusinessToday.evaluateChecked ctx = some (.date stop) := by
  refine ⟨unit_ranges unit h, ?_⟩
  obtain ⟨range, hrange, -, hstart, hstop⟩ := thisMonth_spans h
  refine ⟨range.1, range.2, hstart, hstop, hrange, ?_⟩
  rintro ctx rfl
  rw [startOfMonth_agrees h] at hstart
  rw [endOfMonth_agrees h] at hstop
  have hfirst := Option.some.inj hstart
  simp only [DefaultExpr.evaluateChecked, hfirst, hstop, Option.map_some, and_self]

def leapFebruary : NaiveDate := ⟨2024, 2, 29, by decide⟩

theorem calendar_periods_leapFebruary :
    NeighboursRepresentable leapFebruary ∧
      ∃ this last, relativeRange leapFebruary .thisQuarter = some this ∧
        relativeRange leapFebruary .lastQuarter = some last ∧
        IsUnitOf .quarter this leapFebruary ∧ last.2.succ = this.1 ∧
        IsUnitOf .quarter last last.2 :=
  ⟨by decide, (calendar_periods .quarter leapFebruary (by decide)).1⟩

end FineractReports.Extraction
