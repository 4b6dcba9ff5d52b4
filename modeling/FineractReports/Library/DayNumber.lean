import FineractReports.Library.Calendar

/-!
# Day numbers

Day numbers count the days one by one: the next date has the next number, the order of
dates is the order of their numbers, and a date is shifted by shifting its number. Weeks,
months, quarters and years are unions of days.
-/

namespace FineractReports.NaiveDate

/-- The number of the first day of a month; month 13 is the January after. -/
def firstDay (year : ℤ) (month : ℕ) : ℤ :=
  365 * year + ((year - 1) / 4 - (year - 1) / 100 + (year - 1) / 400 + 1) +
    ((List.range (month - 1)).map fun m => (daysInMonth year (m + 1) : ℤ)).sum

theorem dayNumber_eq (date : NaiveDate) :
    date.dayNumber = firstDay date.year date.month + (date.day - 1) := rfl

theorem firstDay_succ (year : ℤ) {month : ℕ} (h : 1 ≤ month) :
    firstDay year (month + 1) = firstDay year month + daysInMonth year month := by
  obtain ⟨m, rfl⟩ := Nat.exists_eq_add_of_le' h
  simp only [firstDay, Nat.add_sub_cancel, List.range_succ, List.map_append, List.sum_append,
    List.map_singleton, List.sum_singleton]
  omega

/-- The length of a year, month by month. -/
theorem firstDay_thirteen (year : ℤ) :
    firstDay year 13 = firstDay year 1 + 365 + (if isLeapYear year = true then 1 else 0) := by
  by_cases h : isLeapYear year = true
  · simp [firstDay, List.range_succ, daysInMonth, h]
    omega
  · simp [firstDay, List.range_succ, daysInMonth, h]

theorem firstDay_next_year (year : ℤ) : firstDay (year + 1) 1 = firstDay year 13 := by
  rw [firstDay_thirteen]
  simp only [firstDay, Nat.sub_self, List.range_zero, List.map_nil, List.sum_nil]
  by_cases h : isLeapYear year = true
  · rw [if_pos h]
    simp only [isLeapYear, decide_eq_true_eq] at h
    omega
  · rw [if_neg h]
    simp only [isLeapYear, decide_eq_true_eq] at h
    omega

theorem firstDay_mono (year : ℤ) {a b : ℕ} (ha : 1 ≤ a) (hab : a ≤ b) :
    firstDay year a ≤ firstDay year b := by
  induction b, hab using Nat.le_induction with
  | base => exact le_rfl
  | succ b hb ih =>
    rw [firstDay_succ year (ha.trans hb)]
    omega

theorem firstDay_year_mono {a b : ℤ} (h : a ≤ b) : firstDay a 1 ≤ firstDay b 1 := by
  simp only [firstDay, Nat.sub_self, List.range_zero, List.map_nil, List.sum_nil]
  omega

theorem dayNumber_lt_month (date : NaiveDate) :
    date.dayNumber < firstDay date.year (date.month + 1) := by
  obtain ⟨hmonth, -, -, hday⟩ := date.valid
  rw [firstDay_succ _ hmonth, dayNumber_eq]
  omega

theorem firstDay_le_dayNumber (date : NaiveDate) :
    firstDay date.year date.month ≤ date.dayNumber := by
  have hday := date.valid.2.2.1
  rw [dayNumber_eq]
  omega

theorem dayNumber_lt_year (date : NaiveDate) : date.dayNumber < firstDay (date.year + 1) 1 := by
  have hmonth := date.valid.2.1
  have hlast := firstDay_mono date.year (a := date.month + 1) (by omega) (b := 13) (by omega)
  have hlt := date.dayNumber_lt_month
  rw [firstDay_next_year]
  omega

theorem year_le_dayNumber (date : NaiveDate) : firstDay date.year 1 ≤ date.dayNumber :=
  (firstDay_mono _ le_rfl date.valid.1).trans date.firstDay_le_dayNumber

section Order

variable {a b : NaiveDate}

theorem dayNumber_lt (h : a.before b) : a.dayNumber < b.dayNumber := by
  rcases h with hyear | ⟨hyear, hmonth | ⟨hmonth, hday⟩⟩
  · have hnext := firstDay_year_mono (a := a.year + 1) (b := b.year) (by omega)
    have hlow := b.year_le_dayNumber
    have hhigh := a.dayNumber_lt_year
    omega
  · have hnext := firstDay_mono a.year (a := a.month + 1) (by omega) (b := b.month) hmonth
    have hlow := b.firstDay_le_dayNumber
    have hhigh := a.dayNumber_lt_month
    rw [← hyear] at hlow
    omega
  · rw [dayNumber_eq, dayNumber_eq, hyear, hmonth]
    omega

theorem before_trichotomy (a b : NaiveDate) : a.before b ∨ a = b ∨ b.before a := by
  cases a with
  | mk year month day valid =>
    cases b with
    | mk year' month' day' valid' =>
      simp only [before, NaiveDate.mk.injEq]
      omega

theorem before_iff : a.before b ↔ a.dayNumber < b.dayNumber := by
  constructor
  · exact dayNumber_lt
  · intro h
    rcases before_trichotomy a b with hab | rfl | hba
    · exact hab
    · omega
    · have hlt := dayNumber_lt hba
      omega

theorem dayNumber_inj : a.dayNumber = b.dayNumber ↔ a = b := by
  constructor
  · intro h
    rcases before_trichotomy a b with hab | heq | hba
    · have hlt := dayNumber_lt hab
      omega
    · exact heq
    · have hlt := dayNumber_lt hba
      omega
  · rintro rfl
    rfl

theorem year_le_year (h : a.dayNumber ≤ b.dayNumber) : a.year ≤ b.year := by
  by_contra hlt
  have hbefore : b.before a := Or.inl (by omega)
  have hnumber := dayNumber_lt hbefore
  omega

/-- A date lies in a year when its number is between those of the year's first day and of
the next year's. -/
theorem year_eq_iff {year : ℤ} :
    a.year = year ↔ firstDay year 1 ≤ a.dayNumber ∧ a.dayNumber < firstDay (year + 1) 1 := by
  constructor
  · rintro rfl
    exact ⟨a.year_le_dayNumber, a.dayNumber_lt_year⟩
  · rintro ⟨hlow, hhigh⟩
    have hstart := a.year_le_dayNumber
    have hstop := a.dayNumber_lt_year
    rcases lt_trichotomy a.year year with hlt | heq | hgt
    · have hmono := firstDay_year_mono (a := a.year + 1) (b := year) (by omega)
      omega
    · exact heq
    · have hmono := firstDay_year_mono (a := year + 1) (b := a.year) (by omega)
      omega

/-- A date lies between two months of a year when its number is between those of the first
day of the one and of the month after the other. -/
theorem month_between_iff {year : ℤ} {low high : ℕ} (hlow : 1 ≤ low) (hhigh : high ≤ 12) :
    (a.year = year ∧ low ≤ a.month ∧ a.month ≤ high) ↔
      firstDay year low ≤ a.dayNumber ∧ a.dayNumber < firstDay year (high + 1) := by
  have hmonth := a.valid.1
  have htwelve := a.valid.2.1
  have hstart := a.firstDay_le_dayNumber
  have hstop := a.dayNumber_lt_month
  constructor
  · rintro ⟨rfl, hle, hge⟩
    have hfirst := firstDay_mono a.year hlow hle
    have hlast := firstDay_mono a.year (a := a.month + 1) (by omega) (b := high + 1) (by omega)
    omega
  · rintro ⟨hge, hlt⟩
    have hyear : a.year = year := by
      rw [year_eq_iff, firstDay_next_year]
      have hfirst := firstDay_mono year le_rfl hlow
      have hlast := firstDay_mono year (a := high + 1) (by omega) (b := 13) (by omega)
      omega
    rw [hyear] at hstart hstop
    refine ⟨hyear, ?_, ?_⟩
    · by_contra hbefore
      have hmono := firstDay_mono year (a := a.month + 1) (by omega) (b := low) (by omega)
      omega
    · by_contra hafter
      have hmono := firstDay_mono year (a := high + 1) (by omega) (b := a.month) (by omega)
      omega

end Order

section Shift

theorem dayNumber_ofMonthNumber (months : ℤ) :
    (ofMonthNumber months 1 le_rfl).dayNumber =
      firstDay (months / 12) ((months % 12).toNat + 1) := by
  have hpos := daysInMonth_pos (months / 12) ((months % 12).toNat + 1)
  simp only [dayNumber_eq, ofMonthNumber]
  omega

theorem dayNumber_pred (date : NaiveDate) : date.pred.dayNumber = date.dayNumber - 1 := by
  obtain ⟨hlow, hhigh, hday, hlast⟩ := date.valid
  unfold pred
  split_ifs with h
  · simp only [dayNumber_eq]
    omega
  · have hone : date.day = 1 := by omega
    by_cases hjanuary : date.month = 1
    · have hnumber : date.monthNumber - 1 = 12 * (date.year - 1) + 11 := by
        rw [monthNumber, hjanuary]
        omega
      have hyear : (12 * (date.year - 1) + 11) / 12 = date.year - 1 := by omega
      have hmonth : ((12 * (date.year - 1) + 11) % 12).toNat + 1 = 12 := by omega
      have hnext := firstDay_next_year (date.year - 1)
      rw [firstDay_succ _ (by omega : 1 ≤ 12), show daysInMonth (date.year - 1) 12 = 31 by
        simp [daysInMonth], Int.sub_add_cancel] at hnext
      simp only [dayNumber_eq, ofMonthNumber, hnumber, hyear, hmonth, hjanuary, hone, hnext]
      simp [daysInMonth]
      omega
    · have hnumber : date.monthNumber - 1 = 12 * date.year + ((date.month - 2 : ℕ) : ℤ) := by
        rw [monthNumber]
        omega
      have hyear : (12 * date.year + ((date.month - 2 : ℕ) : ℤ)) / 12 = date.year := by omega
      have hmonth : ((12 * date.year + ((date.month - 2 : ℕ) : ℤ)) % 12).toNat + 1 =
          date.month - 1 := by omega
      have hsucc := @firstDay_succ date.year (date.month - 1) (by omega)
      rw [Nat.sub_add_cancel hlow] at hsucc
      have hlength : daysInMonth date.year (date.month - 1) ≤ 31 := by
        unfold daysInMonth
        split_ifs <;> omega
      simp only [dayNumber_eq, ofMonthNumber, hnumber, hyear, hmonth, hone, hsucc]
      omega

/-- The day after. -/
def succ (date : NaiveDate) : NaiveDate :=
  if h : date.day < daysInMonth date.year date.month then
    { date with
      day := date.day + 1
      valid := by
        obtain ⟨hlow, hhigh, -, -⟩ := date.valid
        exact ⟨hlow, hhigh, by omega, h⟩ }
  else ofMonthNumber (date.monthNumber + 1) 1 Nat.one_pos

theorem firstDay_ofMonthNumber_succ (date : NaiveDate) :
    firstDay ((date.monthNumber + 1) / 12) (((date.monthNumber + 1) % 12).toNat + 1) =
      firstDay date.year (date.month + 1) := by
  obtain ⟨hlow, hhigh, -, -⟩ := date.valid
  by_cases hdecember : date.month = 12
  · have hyear : (date.monthNumber + 1) / 12 = date.year + 1 := by
      rw [monthNumber, hdecember]
      omega
    have hmonth : ((date.monthNumber + 1) % 12).toNat + 1 = 1 := by
      rw [monthNumber, hdecember]
      omega
    rw [hyear, hmonth, hdecember, firstDay_next_year]
  · have hyear : (date.monthNumber + 1) / 12 = date.year := by
      rw [monthNumber]
      omega
    have hmonth : ((date.monthNumber + 1) % 12).toNat + 1 = date.month + 1 := by
      rw [monthNumber]
      omega
    rw [hyear, hmonth]

theorem dayNumber_succ (date : NaiveDate) : date.succ.dayNumber = date.dayNumber + 1 := by
  obtain ⟨hlow, hhigh, hday, hlast⟩ := date.valid
  unfold succ
  split_ifs with h
  · simp only [dayNumber_eq]
    omega
  · rw [dayNumber_ofMonthNumber, firstDay_ofMonthNumber_succ, firstDay_succ _ hlow, dayNumber_eq]
    omega

def addDays (date : NaiveDate) : ℤ → NaiveDate
  | .ofNat days => succ^[days] date
  | .negSucc days => pred^[days + 1] date

theorem dayNumber_iterate_succ (date : NaiveDate) (days : ℕ) :
    (succ^[days] date).dayNumber = date.dayNumber + days := by
  induction days with
  | zero => simp
  | succ days ih =>
    rw [Function.iterate_succ_apply', dayNumber_succ, ih]
    omega

theorem dayNumber_iterate_pred (date : NaiveDate) (days : ℕ) :
    (pred^[days] date).dayNumber = date.dayNumber - days := by
  induction days with
  | zero => simp
  | succ days ih =>
    rw [Function.iterate_succ_apply', dayNumber_pred, ih]
    omega

theorem dayNumber_addDays (date : NaiveDate) (days : ℤ) :
    (date.addDays days).dayNumber = date.dayNumber + days := by
  cases days with
  | ofNat days => exact dayNumber_iterate_succ date days
  | negSucc days =>
    rw [addDays, dayNumber_iterate_pred]
    omega

end Shift

section Representable

/-- The years a date of `chrono` can have. -/
def MIN_YEAR : ℤ := -262143

def MAX_YEAR : ℤ := 262142

def IsRepresentable (date : NaiveDate) : Prop := MIN_YEAR ≤ date.year ∧ date.year ≤ MAX_YEAR

instance (date : NaiveDate) : Decidable date.IsRepresentable := by
  unfold IsRepresentable
  infer_instance

/-- The date, if the day exists and the year is in range. -/
def fromYmdOpt (year : ℤ) (month day : ℕ) : Option NaiveDate :=
  (fromYmd? year month day).filter fun date => decide date.IsRepresentable

/-- The date some days later, or earlier; none outside the range. -/
def checkedAddDays (date : NaiveDate) (days : ℤ) : Option NaiveDate :=
  some (date.addDays days) |>.filter fun shifted => decide shifted.IsRepresentable

variable {date : NaiveDate}

theorem IsRepresentable.between {low high : NaiveDate} (hlow : low.IsRepresentable)
    (hhigh : high.IsRepresentable) (hfirst : low.dayNumber ≤ date.dayNumber)
    (hlast : date.dayNumber ≤ high.dayNumber) : date.IsRepresentable :=
  ⟨hlow.1.trans (year_le_year hfirst), (year_le_year hlast).trans hhigh.2⟩

theorem checkedAddDays_eq {days : ℤ} (h : (date.addDays days).IsRepresentable) :
    date.checkedAddDays days = some (date.addDays days) := by
  simp [checkedAddDays, h]

theorem fromYmdOpt_first {year : ℤ} {month : ℕ} (hlow : MIN_YEAR ≤ year) (hhigh : year ≤ MAX_YEAR)
    (hmonth : 1 ≤ month) (htwelve : month ≤ 12) :
    fromYmdOpt year month 1 =
      some ⟨year, month, 1, hmonth, htwelve, le_rfl, daysInMonth_pos year month⟩ := by
  have hpos := daysInMonth_pos year month
  simp [fromYmdOpt, fromYmd?, IsRepresentable, hlow, hhigh, hmonth, htwelve, hpos]

theorem isRepresentable_iff : date.IsRepresentable ↔
    firstDay MIN_YEAR 1 ≤ date.dayNumber ∧ date.dayNumber < firstDay (MAX_YEAR + 1) 1 := by
  have hstart := date.year_le_dayNumber
  have hstop := date.dayNumber_lt_year
  constructor
  · rintro ⟨hlow, hhigh⟩
    have hfirst := firstDay_year_mono hlow
    have hlast := firstDay_year_mono (Int.add_le_add_right hhigh 1)
    omega
  · rintro ⟨hlow, hhigh⟩
    constructor
    · by_contra hbefore
      have hmono := firstDay_year_mono (a := date.year + 1) (b := MIN_YEAR) (by omega)
      omega
    · by_contra hafter
      have hmono := firstDay_year_mono (a := MAX_YEAR + 1) (b := date.year) (by omega)
      omega

theorem firstDay_add_year (year : ℤ) : firstDay year 1 + 365 ≤ firstDay (year + 1) 1 := by
  rw [firstDay_next_year, firstDay_thirteen]
  split_ifs <;> omega

end Representable

/-- Days from Monday; day 0 is a Saturday. -/
def weekday (date : NaiveDate) : ℤ := (date.dayNumber + 5) % 7

end FineractReports.NaiveDate
