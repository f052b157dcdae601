import Arale.Lib.Calendar
import Arale.Lib.CheckedInt

/-!
# Dates as Julian day numbers

`Date` of `base/Date.cc` over `int` expressions that have no value once they overflow.
The two formulas count from March, so that the leap day ends a year: `getYearMonthDay`
splits a day number into centuries, years and months of such years, and
`getJulianDayNumber` adds them up again.
-/

namespace Arale

/-- `int`. -/
abbrev CInt := Checked (-2147483648) 2147483647

/-- `unsigned`. -/
abbrev CUnsigned := Checked 0 4294967295

/-- `time_t`. -/
abbrev TimeT := Checked (-9223372036854775808) 9223372036854775807

def getJulianDayNumber (year month day : CInt) : CInt :=
  let a := (14 - month) / 12
  let y := year + 4800 - a
  let m := month + 12 * a - 3
  day + (153 * m + 2) / 5 + y * 365 + y / 4 - y / 100 + y / 400 - 32045

structure YearMonthDay where
  year : CInt
  month : CInt
  day : CInt
  deriving DecidableEq, Repr

def getYearMonthDay (julianDayNumber : CInt) : YearMonthDay :=
  let a := julianDayNumber + 32044
  let b := (4 * a + 3) / 146097
  let c := a - ((b * 146097) / 4)
  let d := (4 * c + 3) / 1461
  let e := c - ((1461 * d) / 4)
  let m := (5 * e + 2) / 153
  { day := e - ((153 * m + 2) / 5) + 1
    month := m + 3 - 12 * (m / 10)
    year := b * 100 + d - 4800 + (m / 10) }

def kDaysPerWeek : Int := 7

def kJulianDayOf1970_01_01 : CInt := getJulianDayNumber 1970 1 1

/-- `Date::weekDay`, 0 for Sunday. -/
def weekDay (julianDayNumber : CInt) : CInt := (julianDayNumber + 1) % .ofInt kDaysPerWeek

namespace Date

open Checked

theorem julian_ofInt {year month day : Int} (low : -4799 ≤ year) (high : year ≤ 1000000)
    (first : 1 ≤ month) (last : month ≤ 12) (begins : 1 ≤ day) (ends : day ≤ 31) :
    getJulianDayNumber (ofInt year) (ofInt month) (ofInt day) =
      let a := (14 - month) / 12
      let y := year + 4800 - a
      let m := month + 12 * a - 3
      ofInt (day + (153 * m + 2) / 5 + y * 365 + y / 4 - y / 100 + y / 400 - 32045) := by
  simp (disch := omega) only [getJulianDayNumber, ofNat_eq, sub_ofInt, add_ofInt,
    mul_ofInt, div_ofInt]

/-- The Julian day number of the first of January of year 0. -/
def julianOfYearZero : Int := 1721060

/-- The Julian day number of a date. -/
def julianDay (date : Calendar.Date) : Int := Calendar.dayNumber date + julianOfYearZero

theorem julianDay_eq {date : Calendar.Date} (valid : Calendar.Valid date) :
    julianDay date =
      let a := (14 - date.month) / 12
      let y := date.year + 4800 - a
      let m := date.month + 12 * a - 3
      date.day + (153 * m + 2) / 5 + y * 365 + y / 4 - y / 100 + y / 400 - 32045 := by
  rw [julianDay, Calendar.dayNumber_eq valid, julianOfYearZero]
  simp only
  omega

theorem julian_eq {date : Calendar.Date} (valid : Calendar.Valid date)
    (low : -4799 ≤ date.year) (high : date.year ≤ 1000000) :
    getJulianDayNumber (ofInt date.year) (ofInt date.month) (ofInt date.day) =
      ofInt (julianDay date) := by
  rw [julian_ofInt low high valid.month.1 valid.month.2 valid.day.1 valid.day_le,
    julianDay_eq valid]

/-- The date of a Julian day number. -/
def ofJulianDay (jdn : Int) : Calendar.Date := Calendar.ofDayNumber (jdn - julianOfYearZero)

/-- Up to the first of March of the year -4800, nothing is divided that is negative. -/
theorem split_ofInt {jdn : Int} (low : -32044 ≤ jdn) (high : jdn ≤ 350000000) :
    getYearMonthDay (ofInt jdn) =
      let a := jdn + 32044
      let b := (4 * a + 3) / 146097
      let c := a - ((b * 146097) / 4)
      let d := (4 * c + 3) / 1461
      let e := c - ((1461 * d) / 4)
      let m := (5 * e + 2) / 153
      { day := ofInt (e - ((153 * m + 2) / 5) + 1)
        month := ofInt (m + 3 - 12 * (m / 10))
        year := ofInt (b * 100 + d - 4800 + (m / 10)) } := by
  simp (disch := omega) only [getYearMonthDay, ofNat_eq, sub_ofInt, add_ofInt,
    mul_ofInt, div_ofInt]

/-- The date of a Julian day number. -/
theorem split_eq {jdn : Int} (low : -32044 ≤ jdn) (high : jdn ≤ 350000000) :
    getYearMonthDay (ofInt jdn) =
      ⟨ofInt (ofJulianDay jdn).year, ofInt (ofJulianDay jdn).month,
        ofInt (ofJulianDay jdn).day⟩ := by
  have split := split_ofInt low high
  simp only at split
  simp only [ofJulianDay, Calendar.ofDayNumber, julianOfYearZero]
  generalize bEq : (4 * (jdn - 1721060 - 60) + 3) / 146097 = b
  -- the formula counts twelve times four centuries more
  have centuries : (4 * (jdn + 32044) + 3) / 146097 = b + 48 := by omega
  rw [centuries] at split
  generalize cEq : jdn - 1721060 - 60 - (36524 * b + b / 4) = c
  have years : jdn + 32044 - (b + 48) * 146097 / 4 = c := by omega
  rw [years] at split
  generalize (4 * c + 3) / 1461 = d at split ⊢
  have days : 1461 * d / 4 = 365 * d + d / 4 := by omega
  have year : (b + 48) * 100 + d - 4800 = b * 100 + d := by omega
  rw [split, days, year]

theorem ofJulianDay_valid (jdn : Int) : Calendar.Valid (ofJulianDay jdn) :=
  (Calendar.ofDayNumber_spec _).1

theorem julianDay_ofJulianDay (jdn : Int) : julianDay (ofJulianDay jdn) = jdn := by
  rw [julianDay, ofJulianDay, (Calendar.ofDayNumber_spec _).2]
  omega

theorem ofJulianDay_julianDay {date : Calendar.Date} (valid : Calendar.Valid date) :
    ofJulianDay (julianDay date) = date := by
  rw [ofJulianDay, julianDay, Int.add_sub_cancel, Calendar.ofDayNumber_dayNumber valid]

theorem julianDay_next {date : Calendar.Date} (valid : Calendar.Valid date) :
    julianDay (Calendar.next date) = julianDay date + 1 := by
  rw [julianDay, julianDay, Calendar.dayNumber_next valid]
  omega

theorem year_bounds {date : Calendar.Date} (valid : Calendar.Valid date)
    (low : 0 ≤ julianDay date) (high : julianDay date ≤ 350000000) :
    -4799 ≤ date.year ∧ date.year ≤ 1000000 := by
  have before := Calendar.dayOfYear_bounds valid
  have longest := Calendar.daysInYear_le date.year
  simp only [julianDay, Calendar.dayNumber, Calendar.daysBeforeYear, julianOfYearZero] at low high
  omega

theorem kJulianDayOf1970_01_01_eq : kJulianDayOf1970_01_01 = ofInt 2440588 := by decide

theorem weekDay_ofInt {jdn : Int} (low : 0 ≤ jdn) (high : jdn ≤ 350000000) :
    weekDay (ofInt jdn) = ofInt ((jdn + 1) % 7) := by
  simp (disch := omega) only [weekDay, kDaysPerWeek, ofNat_eq, add_ofInt, mod_ofInt]

end Date
end Arale
