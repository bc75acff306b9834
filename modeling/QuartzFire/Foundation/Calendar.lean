import Mathlib.Data.Int.Init
import Mathlib.Data.Nat.Init
import Mathlib.Order.Monotone.Basic
import Mathlib.Tactic.IntervalCases

/-!
# Days of the civil calendar

The number of a date's day, counted year by year and month by month from the
leap year rule, and the two formulas that compute it, and a date from it,
without a loop.  Dates are numbered in their order.
-/

namespace QuartzFire.Calendar

/-! ## Counting -/

def IsLeap (year : Nat) : Prop :=
  year % 4 = 0 ∧ (year % 100 ≠ 0 ∨ year % 400 = 0)

instance (year : Nat) : Decidable (IsLeap year) :=
  inferInstanceAs (Decidable (_ ∧ _))

def yearLength (year : Nat) : Nat := if IsLeap year then 366 else 365

def monthLength (year : Nat) : Nat → Nat
  | 2 => if IsLeap year then 29 else 28
  | 4 | 6 | 9 | 11 => 30
  | 1 | 3 | 5 | 7 | 8 | 10 | 12 => 31
  | _ => 0

def daysBeforeYear : Nat → Nat
  | 0 => 0
  | year + 1 => daysBeforeYear year + yearLength year

def daysBeforeMonth (year : Nat) : Nat → Nat
  | 0 => 0
  | month + 1 => daysBeforeMonth year month + monthLength year month

/-- A day that the calendar has. -/
def IsDate (year month day : Nat) : Prop :=
  1 ≤ day ∧ day ≤ monthLength year month

instance (year month day : Nat) : Decidable (IsDate year month day) :=
  inferInstanceAs (Decidable (_ ∧ _))

/-- The days from the first of January 1970. -/
def dayNumber (year month day : Nat) : Int :=
  daysBeforeYear year + daysBeforeMonth year month + day - 1 -
    daysBeforeYear 1970

theorem IsDate.month {year month day : Nat} (date : IsDate year month day) :
    1 ≤ month ∧ month ≤ 12 := by
  rw [IsDate, monthLength.eq_def] at date
  split at date <;> omega

theorem IsDate.day {year month day : Nat} (date : IsDate year month day) :
    1 ≤ day ∧ day ≤ 31 := by
  rw [IsDate, monthLength.eq_def] at date
  split at date
  · split at date <;> omega
  all_goals omega

/-- A day for each fourth year, none for a hundredth, one for a four hundredth. -/
theorem yearLength_eq (year : Nat) :
    yearLength year + (if year % 100 = 0 then 1 else 0) =
      365 + (if year % 4 = 0 then 1 else 0) +
        (if year % 400 = 0 then 1 else 0) := by
  have century : year % 100 = 0 → year % 4 = 0 := by omega
  have era : year % 400 = 0 → year % 100 = 0 := by omega
  rw [yearLength]
  by_cases fourth : year % 4 = 0
  · by_cases hundredth : year % 100 = 0
    · by_cases last : year % 400 = 0 <;>
        simp [IsLeap, fourth, hundredth, last]
    · have early : ¬ year % 400 = 0 := fun last => hundredth (era last)
      simp [IsLeap, fourth, hundredth, early]
  · have plain : ¬ year % 100 = 0 := fun hundredth => fourth (century hundredth)
    have early : ¬ year % 400 = 0 := fun last => plain (era last)
    simp [IsLeap, fourth, plain, early]

/-- Rounded up, a quotient grows behind each multiple. -/
theorem ceil_succ (number base : Nat) (positive : 0 < base) :
    (number + 1 + (base - 1)) / base =
      (number + (base - 1)) / base + if number % base = 0 then 1 else 0 := by
  have whole : number + 1 + (base - 1) = number + (base - 1) + 1 := by omega
  have period : number + (base - 1) + 1 = number + base := by omega
  rw [whole, Nat.succ_div, period]
  simp only [Nat.dvd_iff_mod_eq_zero, Nat.add_mod_right]

theorem ceil_add (number base : Nat) (positive : 0 < base) :
    (number + (base - 1)) / base + (if number % base = 0 then 1 else 0) =
      number / base + 1 := by
  have whole : number + 1 + (base - 1) = number + base := by omega
  rw [← ceil_succ number base positive, whole, Nat.add_div_right _ positive]

theorem daysBeforeYear_eq (year : Nat) :
    daysBeforeYear year + (year + 99) / 100 =
      365 * year + (year + 3) / 4 + (year + 399) / 400 := by
  induction year with
  | zero => rfl
  | succ year ih =>
      have length := yearLength_eq year
      rw [daysBeforeYear, ceil_succ year 4 (by decide),
        ceil_succ year 100 (by decide), ceil_succ year 400 (by decide)]
      omega

/-! ## The order of dates -/

theorem daysBeforeYear_mono : Monotone daysBeforeYear :=
  monotone_nat_of_le_succ fun _ => Nat.le_add_right _ _

theorem daysBeforeMonth_mono (year : Nat) : Monotone (daysBeforeMonth year) :=
  monotone_nat_of_le_succ fun _ => Nat.le_add_right _ _

theorem daysBeforeMonth_thirteen (year : Nat) :
    daysBeforeMonth year 13 = yearLength year := by
  by_cases leap : IsLeap year <;>
    simp [daysBeforeMonth, monthLength, yearLength, leap]

/-- A date comes before the months after its own. -/
theorem IsDate.before_month {year month day later : Nat}
    (date : IsDate year month day) (after : month < later) :
    daysBeforeMonth year month + day ≤ daysBeforeMonth year later :=
  (Nat.add_le_add_left date.2 _).trans (daysBeforeMonth_mono year after)

/-- A date comes before the years after its own. -/
theorem IsDate.before_year {year month day later : Nat}
    (date : IsDate year month day) (after : year < later) :
    daysBeforeYear year + (daysBeforeMonth year month + day) ≤
      daysBeforeYear later := by
  have ofYear := date.before_month (Nat.lt_succ_of_le date.month.2)
  rw [daysBeforeMonth_thirteen] at ofYear
  exact (Nat.add_le_add_left ofYear _).trans (daysBeforeYear_mono after)

theorem dayNumber_lt {year month day year' month' day' : Nat}
    (date : IsDate year month day) (first : 1 ≤ day')
    (before : year < year' ∨
      year = year' ∧ (month < month' ∨ month = month' ∧ day < day')) :
    dayNumber year month day < dayNumber year' month' day' := by
  rw [dayNumber, dayNumber]
  rcases before with earlier | ⟨rfl, earlier | ⟨rfl, earlier⟩⟩
  · have years := date.before_year earlier
    omega
  · have months := date.before_month earlier
    omega
  · omega

theorem dayNumber_lt_iff {year month day year' month' day' : Nat}
    (date : IsDate year month day) (date' : IsDate year' month' day') :
    dayNumber year month day < dayNumber year' month' day' ↔
      year < year' ∨
        year = year' ∧ (month < month' ∨ month = month' ∧ day < day') := by
  constructor
  · intro earlier
    by_contra notBefore
    by_cases same : year = year' ∧ month = month' ∧ day = day'
    · obtain ⟨rfl, rfl, rfl⟩ := same
      exact Int.lt_irrefl _ earlier
    · have later : dayNumber year' month' day' < dayNumber year month day :=
        dayNumber_lt date' date.1 (by omega)
      omega
  · exact dayNumber_lt date date'.1

/-- No two dates have the same number. -/
theorem dayNumber_inj {year month day year' month' day' : Nat}
    (date : IsDate year month day) (date' : IsDate year' month' day')
    (same : dayNumber year month day = dayNumber year' month' day') :
    year = year' ∧ month = month' ∧ day = day' := by
  have notBefore := (dayNumber_lt_iff date date').not.mp (by omega)
  have notAfter := (dayNumber_lt_iff date' date).not.mp (by omega)
  omega

/-! ## Without a loop -/

/-- The days from the first of January 1970, in years that begin in March. -/
def daysFromCivil (year month day : Int) : Int :=
  let y := if month ≤ 2 then year - 1 else year
  let era := (if y ≥ 0 then y else y - 399).tdiv 400
  let yoe := y - era * 400
  let doy :=
    (153 * (if month > 2 then month - 3 else month + 9) + 2) / 5 + day - 1
  era * 146097 + yoe * 365 + yoe / 4 - yoe / 100 + doy - 719468

/-- Year, month and day. -/
def civilFromDays (days : Int) : Int × Int × Int :=
  let z := days + 719468
  let era := z / 146097
  let doe := z % 146097
  let yoe := (doe - doe / 1460 + doe / 36524 - doe / 146096) / 365
  let y := yoe + era * 400
  let doy := doe - (365 * yoe + yoe / 4 - yoe / 100)
  let mp := (5 * doy + 2) / 153
  let d := doy - (153 * mp + 2) / 5 + 1
  let mo := if mp < 10 then mp + 3 else mp - 9
  (if mo ≤ 2 then y + 1 else y, mo, d)

theorem era_eq (y : Int) :
    (if y ≥ 0 then y else y - 399).tdiv 400 = y / 400 := by
  split
  · rename_i positive
    exact Int.tdiv_eq_ediv_of_nonneg positive
  · rename_i negative
    have sign : Int.sign 400 = 1 := rfl
    rw [Int.tdiv_eq_ediv, sign]
    split <;> omega

/-- From a month of March on, the months before it have 153 days in each five. -/
theorem daysBeforeMonth_eq {year month : Nat} (first : 1 ≤ month)
    (last : month ≤ 12) :
    (daysBeforeMonth year month : Int) =
      if month ≤ 2 then (153 * ((month : Int) + 9) + 2) / 5 - 306
      else (153 * ((month : Int) - 3) + 2) / 5 + 59 +
        if IsLeap year then 1 else 0 := by
  by_cases leap : IsLeap year <;>
    interval_cases month <;>
    simp [daysBeforeMonth, monthLength, leap]

/-- The days of whole years, era by era. -/
theorem days_of_eras (y : Int) :
    y / 400 * 146097 + (y - y / 400 * 400) * 365 + (y - y / 400 * 400) / 4 -
        (y - y / 400 * 400) / 100 =
      365 * y + y / 4 - y / 100 + y / 400 := by
  have fours : (y - y / 400 * 400) / 4 = y / 4 - 100 * (y / 400) := by omega
  have hundreds : (y - y / 400 * 400) / 100 = y / 100 - 4 * (y / 400) := by
    omega
  rw [fours, hundreds]
  omega

/-- Of the year itself only January and February come before March. -/
theorem daysBeforeYear_march (year : Nat) :
    (daysBeforeYear year : Int) + 59 + (if IsLeap year then 1 else 0) =
      365 * year + year / 4 - year / 100 + year / 400 + 60 := by
  have years := daysBeforeYear_eq year
  have length := yearLength_eq year
  have fours := ceil_add year 4 (by decide)
  have hundreds := ceil_add year 100 (by decide)
  have eras := ceil_add year 400 (by decide)
  rw [yearLength] at length
  split at length
  · rename_i leap
    rw [if_pos leap]
    omega
  · rename_i common
    rw [if_neg common]
    omega

theorem daysFromCivil_eq {year month : Nat} (first : 1 ≤ month)
    (last : month ≤ 12) (day : Nat) :
    daysFromCivil year month day = dayNumber year month day := by
  have epoch : daysBeforeYear 1970 = 719528 := by
    have years := daysBeforeYear_eq 1970
    omega
  simp only [daysFromCivil, era_eq]
  rw [days_of_eras, dayNumber, daysBeforeMonth_eq first last, epoch]
  by_cases early : month ≤ 2
  · have early' : (month : Int) ≤ 2 := by omega
    have years := daysBeforeYear_eq year
    rw [if_pos early', if_pos early, if_neg (by omega)]
    omega
  · have late : ¬ (month : Int) ≤ 2 := by omega
    have march := daysBeforeYear_march year
    rw [if_neg late, if_neg early, if_pos (by omega)]
    omega

/-- The year of an era from a day of it, which is then one of its at most 366
days.  It has the last one only before a leap year's March. -/
theorem yearOfEra {doe : Int} (low : 0 ≤ doe) (high : doe < 146097) :
    ∃ yoe : Int,
      (doe - doe / 1460 + doe / 36524 - doe / 146096) / 365 = yoe ∧
      0 ≤ yoe ∧ yoe < 400 ∧
      0 ≤ doe - (365 * yoe + yoe / 4 - yoe / 100) ∧
      doe - (365 * yoe + yoe / 4 - yoe / 100) ≤ 365 ∧
      (doe - (365 * yoe + yoe / 4 - yoe / 100) = 365 → (yoe + 1) % 4 = 0 ∧
        ((yoe + 1) % 100 ≠ 0 ∨ (yoe + 1) % 400 = 0)) := by
  by_cases last : doe = 146096
  · subst last
    exact ⟨399, by decide⟩
  -- whole centuries, whole groups of four years, and the days of the last one
  obtain ⟨c, f, s, same, _, _, _, _, _, _⟩ :
      ∃ c f s : Int, doe = 36524 * c + (1461 * f + s) ∧ 0 ≤ c ∧ c ≤ 3 ∧
        0 ≤ f ∧ 0 ≤ s ∧ s ≤ 1460 ∧ 1461 * f + s < 36524 :=
    ⟨doe / 36524, (doe % 36524) / 1461, (doe % 36524) % 1461, by omega⟩
  obtain ⟨e, fours, _⟩ :
      ∃ e, doe / 1460 = 25 * c + f + e ∧ (e = 0 ∨ e = 1 ∧ 1364 ≤ s) :=
    ⟨(24 * c + f + s) / 1460, by omega⟩
  have centuries : doe / 36524 = c := by omega
  have whole : doe / 146096 = 0 := by omega
  obtain ⟨k, _, _, _, _⟩ :
      ∃ k, 0 ≤ k ∧ k ≤ 3 ∧ 365 * k ≤ s - e ∧ s - e < 365 * (k + 1) :=
    ⟨(s - e) / 365, by omega⟩
  have year : (doe - doe / 1460 + doe / 36524 - doe / 146096) / 365 =
      100 * c + 4 * f + k := by omega
  have leaps : (100 * c + 4 * f + k) / 4 = 25 * c + f := by omega
  have skipped : (100 * c + 4 * f + k) / 100 = c := by omega
  refine ⟨_, year, ?_⟩
  rw [leaps, skipped]
  omega

/-- The day of a month from the day of a year that begins in March. -/
theorem dayOfMonth_le (year month : Nat) {doy mp : Int} (low : 0 ≤ doy)
    (high : doy ≤ 365) (leap : doy = 365 → IsLeap year)
    (ofDay : (5 * doy + 2) / 153 = mp)
    (named : (month : Int) = if mp < 10 then mp + 3 else mp - 9) :
    doy - (153 * mp + 2) / 5 + 1 ≤ monthLength year month := by
  have first : 0 ≤ mp := by omega
  by_cases february : mp = 11
  · obtain rfl : month = 2 := by omega
    by_cases full : doy = 365
    · rw [monthLength, if_pos (leap full)]
      omega
    · rw [monthLength]
      split <;> omega
  · have last : mp ≤ 10 := by omega
    interval_cases mp <;>
      simp only [Int.reduceLT, if_true, if_false, Int.reduceAdd, Int.reduceSub]
        at named <;>
      norm_cast at named <;>
      subst named <;>
      rw [monthLength] <;>
      omega

/-- The date of a day is one of the calendar and has the day's number. -/
theorem civilFromDays_spec {days : Int} (later : 0 ≤ days) :
    ∃ year month day : Nat, civilFromDays days = (↑year, ↑month, ↑day) ∧
      IsDate year month day ∧ dayNumber year month day = days := by
  obtain ⟨era, doe, total, _, _, _⟩ :
      ∃ era doe : Int, days + 719468 = 146097 * era + doe ∧ 0 ≤ era ∧
        0 ≤ doe ∧ doe < 146097 :=
    ⟨(days + 719468) / 146097, (days + 719468) % 146097, by omega⟩
  have eras : (days + 719468) / 146097 = era := by omega
  have ofEra : (days + 719468) % 146097 = doe := by omega
  obtain ⟨yoe, year, _, _, first, last, leap⟩ :=
    yearOfEra ‹0 ≤ doe› ‹doe < 146097›
  obtain ⟨doy, doySame⟩ :
      ∃ doy, doy = doe - (365 * yoe + yoe / 4 - yoe / 100) := ⟨_, rfl⟩
  rw [← doySame] at first last leap
  obtain ⟨mp, mpSame, _, _⟩ :
      ∃ mp, (5 * doy + 2) / 153 = mp ∧ 0 ≤ mp ∧ mp ≤ 11 :=
    ⟨(5 * doy + 2) / 153, rfl, by omega, by omega⟩
  have dayLow : 1 ≤ doy - (153 * mp + 2) / 5 + 1 := by omega
  suffices dated : ∃ year month day : Nat,
      civilFromDays days = (↑year, ↑month, ↑day) ∧ IsDate year month day ∧
        daysFromCivil year month day = days by
    obtain ⟨year, month, day, civil, date, number⟩ := dated
    refine ⟨year, month, day, civil, date, ?_⟩
    rw [← daysFromCivil_eq date.month.1 date.month.2, number]
  simp only [civilFromDays, daysFromCivil, era_eq]
  rw [eras, ofEra, year, ← doySame, mpSame]
  by_cases late : mp < 10
  · have length := dayOfMonth_le (yoe + era * 400).toNat (mp + 3).toNat first
      last (by omega) mpSame (by rw [if_pos late]; omega)
    refine ⟨(yoe + era * 400).toNat, (mp + 3).toNat,
      (doy - (153 * mp + 2) / 5 + 1).toNat, ?_⟩
    rw [if_pos late, if_neg (by omega), Int.toNat_of_nonneg (by omega),
      Int.toNat_of_nonneg (by omega), Int.toNat_of_nonneg (by omega),
      if_neg (by omega), if_pos (by omega)]
    have back : yoe + era * 400 - (yoe + era * 400) / 400 * 400 = yoe := by
      omega
    refine ⟨rfl, ⟨by omega, by omega⟩, ?_⟩
    rw [back]
    omega
  · have leapYear : doy = 365 → IsLeap (yoe + era * 400 + 1).toNat := by
      intro full
      have rule := leap full
      rw [IsLeap]
      omega
    have length := dayOfMonth_le _ (mp - 9).toNat first last leapYear mpSame
      (by rw [if_neg late]; omega)
    refine ⟨(yoe + era * 400 + 1).toNat, (mp - 9).toNat,
      (doy - (153 * mp + 2) / 5 + 1).toNat, ?_⟩
    rw [if_neg late, if_pos (by omega), Int.toNat_of_nonneg (by omega),
      Int.toNat_of_nonneg (by omega), Int.toNat_of_nonneg (by omega),
      if_pos (by omega), if_neg (by omega), Int.add_sub_cancel]
    have back : yoe + era * 400 - (yoe + era * 400) / 400 * 400 = yoe := by
      omega
    refine ⟨rfl, ⟨by omega, by omega⟩, ?_⟩
    rw [back]
    omega

end QuartzFire.Calendar
