import Arale.Base.Date

/-!
# Julian day numbers enumerate the calendar

The two formulas of `base/Date.cc` on all dates from year -4799 to year 900000. They are
inverse to each other there, go up by one from each day to the next, and no `int` in them
overflows. The numbers of the years before -4712 are negative, and still split.
-/

namespace JulianDays

open Arale Checked Calendar Arale.Date

/-- `getJulianDayNumber` of a date. -/
def julian (date : Calendar.Date) : CInt :=
  getJulianDayNumber (ofInt date.year) (ofInt date.month) (ofInt date.day)

/-- The date of three `int`s that have their values. -/
def dateOf (ymd : YearMonthDay) : Option Calendar.Date := do
  let year ← ymd.year.value
  let month ← ymd.month.value
  let day ← ymd.day.value
  some ⟨year, month, day⟩

/-- The last date of the range. -/
def lastDate : Calendar.Date := ⟨900000, 12, 31⟩

theorem dateOf_ofInt {date : Calendar.Date} (valid : Valid date) (low : -5000 ≤ date.year)
    (high : date.year ≤ 1000000) :
    dateOf ⟨ofInt date.year, ofInt date.month, ofInt date.day⟩ = some date := by
  have latest := valid.day_le
  obtain ⟨⟨first, last⟩, begins, -⟩ := valid
  have year : (ofInt date.year : CInt).value = some date.year :=
    value_ofInt (by omega) (by omega)
  have month : (ofInt date.month : CInt).value = some date.month :=
    value_ofInt (by omega) (by omega)
  have day : (ofInt date.day : CInt).value = some date.day := value_ofInt (by omega) (by omega)
  simp only [dateOf, year, month, day]
  rfl

/-- Where the numbers of the years up to one lie. -/
theorem julianDay_bounds {date : Calendar.Date} (valid : Valid date) (low : -4799 ≤ date.year)
    (high : date.year ≤ 900001) :
    -32044 ≤ julianDay date ∧ julianDay date ≤ 350000000 := by
  have inYear := dayOfYear_bounds valid
  have longest := daysInYear_le date.year
  simp only [julianDay, dayNumber, daysBeforeYear, julianOfYearZero]
  omega

theorem value_julian {date : Calendar.Date} (valid : Valid date) (low : -4799 ≤ date.year)
    (high : date.year ≤ 900001) : (julian date).value = some (julianDay date) := by
  have bounds := julianDay_bounds valid low high
  rw [julian, julian_eq valid low (by omega)]
  exact value_ofInt (by omega) (by omega)

/-- A date is split off its number. -/
theorem split_julian {date : Calendar.Date} (valid : Valid date) (low : -4799 ≤ date.year)
    (high : date.year ≤ 900000) : dateOf (getYearMonthDay (julian date)) = some date := by
  have bounds := julianDay_bounds valid low (by omega)
  rw [julian, julian_eq valid low (by omega), split_eq bounds.1 bounds.2,
    ofJulianDay_julianDay valid]
  exact dateOf_ofInt valid (by omega) (by omega)

theorem year_next (date : Calendar.Date) :
    date.year ≤ (next date).year ∧ (next date).year ≤ date.year + 1 := by
  rw [next]
  split
  · exact ⟨Int.le_refl _, by simp only; omega⟩
  · split
    · exact ⟨Int.le_refl _, by simp only; omega⟩
    · exact ⟨by simp only; omega, Int.le_refl _⟩

theorem julian_split {jdn : Int} (low : 0 ≤ jdn) (high : jdn ≤ julianDay lastDate) :
    dateOf (getYearMonthDay (ofInt jdn)) = some (ofJulianDay jdn) ∧
      (julian (ofJulianDay jdn)).value = some jdn := by
  have top : julianDay lastDate ≤ 350000000 := (julianDay_bounds (by decide) (by decide)
    (by decide)).2
  have valid := ofJulianDay_valid jdn
  have number := julianDay_ofJulianDay jdn
  have years := year_bounds valid (by omega) (by omega)
  constructor
  · rw [split_eq (by omega) (by omega)]
    exact dateOf_ofInt valid (by omega) (by omega)
  · rw [julian, julian_eq valid years.1 years.2, number]
    exact value_ofInt (by omega) (by omega)

/-- Every date of the range has a number that is split into it, one less than that of the
day after, and every number up to the last is that of the valid date it is split into. -/
theorem julian_days_enumerate_calendar :
    (∀ date, Valid date → -4799 ≤ date.year → date.year ≤ 900000 →
      dateOf (getYearMonthDay (julian date)) = some date ∧
        ∃ jdn, (julian date).value = some jdn ∧ (julian (next date)).value = some (jdn + 1)) ∧
    ∃ last, (julian lastDate).value = some last ∧ ∀ jdn, 0 ≤ jdn → jdn ≤ last →
      ∃ date, Valid date ∧ dateOf (getYearMonthDay (ofInt jdn)) = some date ∧
        (julian date).value = some jdn := by
  constructor
  · intro date valid low high
    have years := year_next date
    refine ⟨split_julian valid low high, julianDay date, value_julian valid low (by omega), ?_⟩
    rw [← julianDay_next valid]
    exact value_julian (valid_next valid) (by omega) (by omega)
  · refine ⟨julianDay lastDate, value_julian (by decide) (by decide) (by decide), ?_⟩
    intro jdn low high
    obtain ⟨split, number⟩ := julian_split low high
    exact ⟨ofJulianDay jdn, ofJulianDay_valid jdn, split, number⟩

end JulianDays
