import Arale.Base.Date

/-!
# Broken-down times in UTC

`toUtcTime` and `fromUtcTime` of `base/TimeZone.cc`. Dividing a negative time truncates
towards zero, so `toUtcTime` moves a negative remainder back by a day.
-/

namespace Arale

/-- A `const char*`: null, to a literal, or to an element of a `TimeZone`'s abbreviations. -/
inductive CString
  | null
  | literal (bytes : List UInt8)
  | abbreviation (index : Nat)
  deriving DecidableEq, Repr

/-- `struct tm`, with fields of type `I` for `int`. -/
structure Tm (I : Type) where
  tm_sec : I
  tm_min : I
  tm_hour : I
  tm_mday : I
  tm_mon : I
  tm_year : I
  tm_wday : I
  tm_yday : I
  tm_isdst : I
  tm_gmtoff : Int
  tm_zone : CString
  deriving DecidableEq, Repr

namespace Tm

/-- `bzero(&tm, sizeof(tm))`. -/
def bzero {I : Type} [OfNat I 0] : Tm I :=
  { tm_sec := 0, tm_min := 0, tm_hour := 0, tm_mday := 0, tm_mon := 0, tm_year := 0
    tm_wday := 0, tm_yday := 0, tm_isdst := 0, tm_gmtoff := 0, tm_zone := .null }

def map {I J : Type} (f : I → J) (tm : Tm I) : Tm J :=
  { tm_sec := f tm.tm_sec, tm_min := f tm.tm_min, tm_hour := f tm.tm_hour
    tm_mday := f tm.tm_mday, tm_mon := f tm.tm_mon, tm_year := f tm.tm_year
    tm_wday := f tm.tm_wday, tm_yday := f tm.tm_yday, tm_isdst := f tm.tm_isdst
    tm_gmtoff := tm.tm_gmtoff, tm_zone := tm.tm_zone }

theorem map_some_injective {I : Type} {tm tm' : Tm I} (same : tm.map some = tm'.map some) :
    tm = tm' := by
  rcases tm
  rcases tm'
  simpa [map] using same

/-- The date that the fields name. -/
def date (tm : Tm Int) : Calendar.Date := ⟨tm.tm_year + 1900, tm.tm_mon + 1, tm.tm_mday⟩

end Tm

/-- A time of day, without leap seconds. -/
structure TimeOfDay (hour minute second : Int) : Prop where
  hour : 0 ≤ hour ∧ hour ≤ 23
  minute : 0 ≤ minute ∧ minute ≤ 59
  second : 0 ≤ second ∧ second ≤ 59

def gmt : CString := .literal ("GMT".toList.map fun c => c.toNat.toUInt8)

def kSecondsPerDay : Int := 24 * 60 * 60

def fillHMS (seconds : CUnsigned) (utc : Tm CInt) : Tm CInt :=
  let minutes := seconds / 60
  { utc with
    tm_sec := (seconds % 60).convert
    tm_min := (minutes % 60).convert
    tm_hour := (minutes / 60).convert }

/-- `TimeZone::toUtcTime`. -/
def toUtcTime (secondsSinceEpoch : TimeT) (yday : Bool) : Tm CInt :=
  let utc : Tm CInt := { Tm.bzero with tm_zone := gmt }
  let seconds : CInt := (secondsSinceEpoch % .ofInt kSecondsPerDay).convert
  let days : CInt := (secondsSinceEpoch / .ofInt kSecondsPerDay).convert
  let (seconds, days) :=
    if seconds.isNegative then (seconds + .ofInt kSecondsPerDay, days - 1) else (seconds, days)
  let utc := fillHMS seconds.convert utc
  let date := days + kJulianDayOf1970_01_01
  let ymd := getYearMonthDay date
  let utc := { utc with
    tm_year := ymd.year - 1900
    tm_mon := ymd.month - 1
    tm_mday := ymd.day
    tm_wday := weekDay date }
  if yday then
    let startOfYear := getJulianDayNumber ymd.year 1 1
    { utc with tm_yday := date - startOfYear }
  else utc

/-- `TimeZone::fromUtcTime` of six numbers. -/
def fromUtcTimeOf (year month day hour minute seconds : CInt) : TimeT :=
  let date := getJulianDayNumber year month day
  let secondsInDay := hour * 3600 + minute * 60 + seconds
  let days : TimeT := (date - kJulianDayOf1970_01_01).convert
  days * .ofInt kSecondsPerDay + secondsInDay.convert

/-- `TimeZone::fromUtcTime` of a `struct tm`. -/
def fromUtcTime (utc : Tm CInt) : TimeT :=
  fromUtcTimeOf (utc.tm_year + 1900) (utc.tm_mon + 1) utc.tm_mday utc.tm_hour utc.tm_min
    utc.tm_sec

namespace UtcTime

open Checked

/-- The Julian day number of the day that `t` falls on. -/
def julianDayOf (t : Int) : Int := t / kSecondsPerDay + Date.julianDay ⟨1970, 1, 1⟩

/-- The times whose day has a number that the formulas of `Date` are for. -/
def InRange (t : Int) : Prop := 0 ≤ julianDayOf t ∧ julianDayOf t ≤ 350000000

instance (t : Int) : Decidable (InRange t) := inferInstanceAs (Decidable (_ ∧ _))

/-- Every field of `toUtcTime` has a value. -/
def ConvertsTo (t : Int) (yday : Bool) (tm : Tm Int) : Prop :=
  (toUtcTime (ofInt t) yday).map Checked.value = tm.map some

/-- The broken-down time of `t`. -/
def brokenDown (t : Int) (yday : Bool) : Tm Int :=
  let date := Date.ofJulianDay (julianDayOf t)
  { Tm.bzero with
    tm_sec := t % 86400 % 60
    tm_min := t % 86400 / 60 % 60
    tm_hour := t % 86400 / 60 / 60
    tm_mday := date.day
    tm_mon := date.month - 1
    tm_year := date.year - 1900
    tm_wday := (julianDayOf t + 1) % 7
    tm_yday := if yday then Calendar.dayOfYear date else 0
    tm_zone := gmt }

theorem julianDayOf_eq (t : Int) : julianDayOf t = t / 86400 + 2440588 := rfl

theorem fillHMS_ofInt {seconds : Int} (low : 0 ≤ seconds) (high : seconds < 86400)
    (utc : Tm CInt) :
    fillHMS (ofInt seconds) utc =
      { utc with
        tm_sec := ofInt (seconds % 60)
        tm_min := ofInt (seconds / 60 % 60)
        tm_hour := ofInt (seconds / 60 / 60) } := by
  simp (disch := omega) only [fillHMS, ofNat_eq, div_ofInt, mod_ofInt, convert_ofInt]

/-- The remainder is brought back above zero together with the day. -/
theorem secondsAndDays {t : Int} (inRange : InRange t) :
    (let seconds : CInt := (ofInt t % ofInt kSecondsPerDay : TimeT).convert
      let days : CInt := (ofInt t / ofInt kSecondsPerDay : TimeT).convert
      if seconds.isNegative then (seconds + ofInt kSecondsPerDay, days - 1) else (seconds, days)) =
      (ofInt (t % 86400), ofInt (t / 86400)) := by
  simp only [InRange, julianDayOf_eq] at inRange
  have rounding : (0 ≤ t.tmod 86400 ∧ t.tmod 86400 = t % 86400 ∧ t.tdiv 86400 = t / 86400) ∨
      (t.tmod 86400 < 0 ∧ t.tmod 86400 + 86400 = t % 86400 ∧
        t.tdiv 86400 - 1 = t / 86400) := by
    have positive : Int.sign 86400 = 1 := rfl
    rw [Int.tdiv_eq_ediv, Int.tmod_eq_emod]
    split <;> omega
  simp (disch := omega) only [kSecondsPerDay, Int.reduceMul, tmod_ofInt, tdiv_ofInt,
    convert_ofInt, isNegative_ofInt, ofNat_eq]
  rcases rounding with ⟨sign, rest, quotient⟩ | ⟨sign, rest, quotient⟩
  · rw [if_neg (by simpa using sign), rest, quotient]
  · rw [if_pos (by simpa using sign)]
    simp (disch := omega) only [rest, quotient, add_ofInt, sub_ofInt]

theorem startOfYear_ofInt {year : Int} (early : -4799 ≤ year) (late : year ≤ 1000000) :
    getJulianDayNumber (ofInt year) (ofInt 1) (ofInt 1) =
      ofInt (Calendar.daysBeforeYear year + Date.julianOfYearZero) := by
  have first : Calendar.Valid ⟨year, 1, 1⟩ :=
    ⟨by simp, Int.le_refl 1, Calendar.daysInMonth_pos year 1⟩
  have start : Calendar.dayOfYear ⟨year, 1, 1⟩ = 0 := rfl
  have julian := Date.julian_eq first early late
  rwa [Date.julianDay, Calendar.dayNumber, start, Int.add_zero] at julian

theorem yday_ofInt {date : Calendar.Date} {day : Int} (valid : Calendar.Valid date)
    (number : Date.julianDay date = day) (low : 0 ≤ day) (high : day ≤ 350000000) :
    (ofInt day - ofInt (Calendar.daysBeforeYear date.year + Date.julianOfYearZero) : CInt) =
      ofInt (Calendar.dayOfYear date) := by
  have before := Calendar.dayOfYear_bounds valid
  have longest := Calendar.daysInYear_le date.year
  simp only [Date.julianDay, Calendar.dayNumber] at number
  rw [sub_ofInt (by omega) (by omega) (by omega) (by omega)]
  congr 1
  omega

theorem brokenDown_date (t : Int) (yday : Bool) :
    (brokenDown t yday).date = Date.ofJulianDay (julianDayOf t) := by
  simp only [Tm.date, brokenDown, Int.sub_add_cancel]

theorem brokenDown_timeOfDay (t : Int) (yday : Bool) :
    TimeOfDay (brokenDown t yday).tm_hour (brokenDown t yday).tm_min
      (brokenDown t yday).tm_sec := by
  constructor <;> simp only [brokenDown] <;> omega

theorem brokenDown_clock (t : Int) (yday : Bool) :
    (brokenDown t yday).tm_hour * 3600 + (brokenDown t yday).tm_min * 60 +
      (brokenDown t yday).tm_sec = t % 86400 := by
  simp only [brokenDown]
  omega

section Conversions
variable {t : Int} (inRange : InRange t) (yday : Bool)
include inRange

theorem year_inRange : -4799 ≤ (Date.ofJulianDay (julianDayOf t)).year ∧
    (Date.ofJulianDay (julianDayOf t)).year ≤ 1000000 := by
  have number := Date.julianDay_ofJulianDay (julianDayOf t)
  obtain ⟨low, high⟩ := inRange
  rw [← number] at low high
  exact Date.year_bounds (Date.ofJulianDay_valid _) low high

theorem toUtcTime_ofInt : toUtcTime (ofInt t) yday = (brokenDown t yday).map ofInt := by
  have halves := secondsAndDays inRange
  obtain ⟨early, late⟩ := year_inRange inRange
  obtain ⟨low, high⟩ := inRange
  have days := julianDayOf_eq t
  have date_ofInt : (ofInt (t / 86400) + kJulianDayOf1970_01_01 : CInt) =
      ofInt (julianDayOf t) := by
    simp (disch := omega) only [Date.kJulianDayOf1970_01_01_eq, add_ofInt, days]
  have number := Date.julianDay_ofJulianDay (julianDayOf t)
  have valid := Date.ofJulianDay_valid (julianDayOf t)
  have split := Date.split_eq (Int.le_trans (by decide) low) high
  have months := valid.month
  have monthDays := valid.day
  have longest := valid.day_le
  simp only at halves
  rw [toUtcTime]
  simp only [halves, date_ofInt, split, Date.weekDay_ofInt low high]
  simp (disch := omega) only [convert_ofInt, fillHMS_ofInt, ofNat_eq, sub_ofInt]
  rw [startOfYear_ofInt early late, yday_ofInt valid number low high]
  cases yday <;> rfl

/-- None of the fields overflows. -/
theorem convertsTo_brokenDown : ConvertsTo t yday (brokenDown t yday) := by
  obtain ⟨early, late⟩ := year_inRange inRange
  have valid := Date.ofJulianDay_valid (julianDayOf t)
  have months := valid.month
  have days := valid.day
  have longest := valid.day_le
  have before := Calendar.dayOfYear_bounds valid
  have lastDay := Calendar.daysInYear_le (Date.ofJulianDay (julianDayOf t)).year
  have yday_bounds : 0 ≤ (brokenDown t yday).tm_yday ∧ (brokenDown t yday).tm_yday ≤ 365 := by
    simp only [brokenDown]
    split <;> omega
  simp only [brokenDown] at yday_bounds
  rw [ConvertsTo, toUtcTime_ofInt inRange]
  simp (disch := omega) only [Tm.map, brokenDown, value_ofInt]
  rfl

theorem eq_brokenDown {tm : Tm Int} {yday : Bool} (converts : ConvertsTo t yday tm) :
    tm = brokenDown t yday :=
  Tm.map_some_injective (converts.symm.trans (convertsTo_brokenDown inRange yday))

end Conversions

/-- The seconds since 1970 of a valid date and time. -/
theorem fromUtcTimeOf_ofInt {date : Calendar.Date} {hour minute second : Int}
    (valid : Calendar.Valid date) (low : 0 ≤ Date.julianDay date)
    (high : Date.julianDay date ≤ 350000000) (time : TimeOfDay hour minute second) :
    fromUtcTimeOf (ofInt date.year) (ofInt date.month) (ofInt date.day) (ofInt hour)
        (ofInt minute) (ofInt second) =
      ofInt ((Date.julianDay date - 2440588) * 86400 + (hour * 3600 + minute * 60 + second)) := by
  have years := Date.year_bounds valid low high
  obtain ⟨hours, minutes, seconds⟩ := time
  simp (disch := omega) only [fromUtcTimeOf, Date.julian_eq valid years.1 years.2,
    Date.kJulianDayOf1970_01_01_eq, kSecondsPerDay, Int.reduceMul, ofNat_eq, add_ofInt,
    sub_ofInt, mul_ofInt, convert_ofInt]

theorem fromUtcTime_toUtcTime {t : Int} (inRange : InRange t) (yday : Bool) :
    fromUtcTime (toUtcTime (ofInt t) yday) = ofInt t := by
  rw [toUtcTime_ofInt inRange]
  have years := year_inRange inRange
  have valid := Date.ofJulianDay_valid (julianDayOf t)
  have number := Date.julianDay_ofJulianDay (julianDayOf t)
  have time := brokenDown_timeOfDay t yday
  obtain ⟨low, high⟩ := inRange
  rw [← number] at low high
  have seconds := fromUtcTimeOf_ofInt valid low high time
  rw [number] at seconds
  simp only [brokenDown] at seconds
  have months := valid.month
  simp (disch := omega) only [fromUtcTime, brokenDown, Tm.map, ofNat_eq, add_ofInt,
    Int.sub_add_cancel]
  rw [seconds, julianDayOf_eq]
  congr 1
  omega

/-- A valid date and time is given back field by field. -/
theorem toUtcTime_fromUtcTimeOf {date : Calendar.Date} {hour minute second : Int}
    (valid : Calendar.Valid date) (low : 0 ≤ Date.julianDay date)
    (high : Date.julianDay date ≤ 350000000) (time : TimeOfDay hour minute second)
    (yday : Bool) :
    ∃ t tm, (fromUtcTimeOf (ofInt date.year) (ofInt date.month) (ofInt date.day) (ofInt hour)
        (ofInt minute) (ofInt second)).value = some t ∧
      ConvertsTo t yday tm ∧ tm.date = date ∧ tm.tm_hour = hour ∧ tm.tm_min = minute ∧
      tm.tm_sec = second := by
  have seconds := fromUtcTimeOf_ofInt valid low high time
  obtain ⟨hours, minutes, ends⟩ := time
  generalize tEq : (Date.julianDay date - 2440588) * 86400 +
    (hour * 3600 + minute * 60 + second) = t at seconds
  have day : julianDayOf t = Date.julianDay date := by
    rw [julianDayOf_eq]
    omega
  have inRange : InRange t := by
    rw [InRange, day]
    exact ⟨low, high⟩
  refine ⟨t, brokenDown t yday, ?_, convertsTo_brokenDown inRange yday, ?_, ?_⟩
  · rw [seconds, value_ofInt (by omega) (by omega)]
  · rw [brokenDown_date, day, Date.ofJulianDay_julianDay valid]
  · simp only [brokenDown]
    omega

/-- From each day to the next the date moves on by one, and so does the day of the week. -/
theorem ofJulianDay_succ (jdn : Int) :
    Date.ofJulianDay (jdn + 1) = Calendar.next (Date.ofJulianDay jdn) := by
  have valid := Date.ofJulianDay_valid jdn
  have number : Date.julianDay (Calendar.next (Date.ofJulianDay jdn)) = jdn + 1 := by
    rw [Date.julianDay_next valid, Date.julianDay_ofJulianDay]
  rw [← number, Date.ofJulianDay_julianDay (Calendar.valid_next valid)]

/-- The two conversions invert each other, no field overflows, and the days of the week and
of the year are counted from one day to the next. -/
theorem utc_round_trip :
    (∀ t yday, InRange t → ∃ tm : Tm Int, ConvertsTo t yday tm ∧
      (fromUtcTime (toUtcTime (ofInt t) yday)).value = some t ∧
      TimeOfDay tm.tm_hour tm.tm_min tm.tm_sec ∧
      Calendar.Valid tm.date ∧ Date.julianDay tm.date = julianDayOf t ∧
      (tm.date = ⟨1970, 1, 1⟩ → tm.tm_wday = 4) ∧
      tm.tm_yday = if yday then Calendar.dayOfYear tm.date else 0) ∧
    (∀ date hour minute second yday, Calendar.Valid date → 0 ≤ Date.julianDay date →
      Date.julianDay date ≤ 350000000 → TimeOfDay hour minute second →
      ∃ t tm, (fromUtcTimeOf (ofInt date.year) (ofInt date.month) (ofInt date.day)
          (ofInt hour) (ofInt minute) (ofInt second)).value = some t ∧
        ConvertsTo t yday tm ∧ tm.date = date ∧ tm.tm_hour = hour ∧ tm.tm_min = minute ∧
        tm.tm_sec = second) ∧
    (∀ t t' yday yday' tm tm', InRange t → InRange t' → ConvertsTo t yday tm →
      ConvertsTo t' yday' tm' → julianDayOf t' = julianDayOf t + 1 →
      tm'.date = Calendar.next tm.date ∧ tm'.tm_wday = (tm.tm_wday + 1) % 7) := by
  refine ⟨?_, ?_, ?_⟩
  · intro t yday inRange
    have number := Date.julianDay_ofJulianDay (julianDayOf t)
    have bounds := inRange
    simp only [InRange, julianDayOf_eq] at bounds
    refine ⟨_, convertsTo_brokenDown inRange yday, ?_, brokenDown_timeOfDay t yday, ?_⟩
    · rw [fromUtcTime_toUtcTime inRange, value_ofInt (by omega) (by omega)]
    · rw [brokenDown_date]
      refine ⟨Date.ofJulianDay_valid _, number, ?_, rfl⟩
      intro thursday
      rw [thursday] at number
      simp only [brokenDown, ← number]
      rfl
  · intro date hour minute second yday valid low high time
    exact toUtcTime_fromUtcTimeOf valid low high time yday
  · intro t t' yday yday' tm tm' inRange inRange' converts converts' later
    obtain rfl := eq_brokenDown inRange converts
    obtain rfl := eq_brokenDown inRange' converts'
    rw [brokenDown_date, brokenDown_date, later, ofJulianDay_succ]
    refine ⟨rfl, ?_⟩
    simp only [brokenDown, later]
    omega

/-- The second before 1970. -/
theorem utc_round_trip_before1970 : InRange (-1) ∧
    (fromUtcTime (toUtcTime (ofInt (-1)) true)).value = some (-1) := by
  have inRange : InRange (-1) := by decide
  obtain ⟨tm, -, back, -⟩ := utc_round_trip.1 (-1) true inRange
  exact ⟨inRange, back⟩

end UtcTime
end Arale
