import Arale.Base.LogTime
import Arale.Lib.Lines
import Arale.Lib.TextOrder

/-!
# Times as texts

`Timestamp` of `base/TimeStamp.cc`. The fields of a formatted time have fixed widths and stand
in the order of their weight, so the texts of two times sort as the times do.
-/

namespace Arale

/-- `gmtime_r`, for a time whose year fits into an `int`. -/
def gmtime_r (seconds : Int) : Tm Int := UtcTime.brokenDown seconds true

structure Timestamp where
  microSecondsSinceEpoch_ : Int
  deriving DecidableEq, Repr

namespace Timestamp

open Logger Format Calendar

def secondsSinceEpoch (t : Timestamp) : Int := secondsOf t.microSecondsSinceEpoch_

def toString (t : Timestamp) : List UInt8 :=
  let seconds := t.microSecondsSinceEpoch_.tdiv kMicroSecondsPerSecond
  let microseconds := t.microSecondsSinceEpoch_.tmod kMicroSecondsPerSecond
  snprintf 31 (sign seconds ++ decimal seconds.natAbs ++ literal "." ++ zeroed 6 microseconds)

/-- The times of the years 1970 to 9999. -/
def FourDigits (t : Timestamp) : Prop :=
  0 ≤ t.microSecondsSinceEpoch_ ∧ t.microSecondsSinceEpoch_ < 253402300800 * kMicroSecondsPerSecond

/-! ## The fields of a date and time -/

section Fields
variable {s u : Int}

theorem gmtime_date (s : Int) : Valid (gmtime_r s).date ∧
    dayNumber (gmtime_r s).date = s / 86400 + 719528 := by
  have valid := Date.ofJulianDay_valid (UtcTime.julianDayOf s)
  have number := Date.julianDay_ofJulianDay (UtcTime.julianDayOf s)
  have zero : Date.julianOfYearZero = 1721060 := rfl
  rw [gmtime_r, UtcTime.brokenDown_date]
  refine ⟨valid, ?_⟩
  rw [Date.julianDay, zero] at number
  have day := UtcTime.julianDayOf_eq s
  omega

/-- The year of a time of four digits has them. -/
theorem gmtime_year (range : 0 ≤ s ∧ s < 253402300800) :
    1970 ≤ (gmtime_r s).tm_year + 1900 ∧ (gmtime_r s).tm_year + 1900 ≤ 9999 := by
  obtain ⟨valid, number⟩ := gmtime_date s
  obtain ⟨epoch, last⟩ := range
  have bounds := dayOfYear_bounds valid
  have first : daysBeforeYear 1970 = 719528 := by decide
  have final : daysBeforeYear 10000 = 3652425 := by decide
  have year : (gmtime_r s).date.year = (gmtime_r s).tm_year + 1900 := rfl
  rw [dayNumber] at number
  rw [← year]
  constructor
  · by_contra early
    have years := daysBeforeYear_lt (Int.not_le.mp early)
    omega
  · by_contra late
    have reached : daysBeforeYear 10000 ≤ daysBeforeYear (gmtime_r s).date.year := by
      have beyond : 10000 ≤ (gmtime_r s).date.year := by omega
      rcases Int.lt_or_eq_of_le beyond with later | next
      · have years := daysBeforeYear_lt later
        have leap : daysInYear 10000 = 366 := by decide
        omega
      · exact Int.le_of_eq (congrArg daysBeforeYear next)
    omega

theorem sortable_two : Sortable 2 0 100 (zeroed 2) := sortable_zeroed (by decide)

theorem sortable_year : Sortable 4 1000 10000 (spaced 4) := sortable_spaced (by decide)

/-- Every field of a time of four digits fits into its width. -/
theorem field_bounds (range : 0 ≤ s ∧ s < 253402300800) :
    (1000 ≤ (gmtime_r s).tm_year + 1900 ∧ (gmtime_r s).tm_year + 1900 < 10000) ∧
      (0 ≤ (gmtime_r s).tm_mon + 1 ∧ (gmtime_r s).tm_mon + 1 < 100) ∧
      (0 ≤ (gmtime_r s).tm_mday ∧ (gmtime_r s).tm_mday < 100) ∧
      (0 ≤ (gmtime_r s).tm_hour ∧ (gmtime_r s).tm_hour < 100) ∧
      (0 ≤ (gmtime_r s).tm_min ∧ (gmtime_r s).tm_min < 100) ∧
      (0 ≤ (gmtime_r s).tm_sec ∧ (gmtime_r s).tm_sec < 100) := by
  have year := gmtime_year range
  obtain ⟨valid, -⟩ := gmtime_date s
  obtain ⟨month, day⟩ := valid
  have longest := daysInMonth_le (gmtime_r s).date.year (gmtime_r s).date.month
  obtain ⟨hour, minute, second⟩ := UtcTime.brokenDown_timeOfDay s true
  simp only [Tm.date] at month day longest
  simp only [gmtime_r] at *
  omega

theorem length_dateTime (range : 0 ≤ s ∧ s < 253402300800) :
    (dateTime (gmtime_r s)).length = 17 := by
  obtain ⟨year, month, day, hour, minute, sec⟩ := field_bounds range
  have space : (literal " ").length = 1 := rfl
  have colon : (literal ":").length = 1 := rfl
  simp only [dateTime, List.length_append, space, colon, sortable_year.length _ year,
    sortable_two.length _ month, sortable_two.length _ day, sortable_two.length _ hour,
    sortable_two.length _ minute, sortable_two.length _ sec]

end Fields

section Order
variable {t u : Timestamp}

theorem FourDigits.seconds (range : t.FourDigits) :
    0 ≤ t.secondsSinceEpoch ∧ t.secondsSinceEpoch < 253402300800 := by
  obtain ⟨epoch, last⟩ := range
  simp only [kMicroSecondsPerSecond] at last
  rw [secondsSinceEpoch, secondsOf, kMicroSecondsPerSecond, Int.tdiv_eq_ediv_of_nonneg epoch]
  omega

theorem FourDigits.microseconds (range : t.FourDigits) :
    0 ≤ t.microSecondsSinceEpoch_.tmod kMicroSecondsPerSecond ∧
      t.microSecondsSinceEpoch_.tmod kMicroSecondsPerSecond < 1000000 := by
  rw [kMicroSecondsPerSecond, Int.tmod_eq_emod_of_nonneg range.1]
  omega

theorem FourDigits.lt_iff (first : t.FourDigits) (second : u.FourDigits) :
    t.microSecondsSinceEpoch_ < u.microSecondsSinceEpoch_ ↔
      t.secondsSinceEpoch < u.secondsSinceEpoch ∨ t.secondsSinceEpoch = u.secondsSinceEpoch ∧
        t.microSecondsSinceEpoch_.tmod kMicroSecondsPerSecond <
          u.microSecondsSinceEpoch_.tmod kMicroSecondsPerSecond := by
  simp only [secondsSinceEpoch, secondsOf, kMicroSecondsPerSecond,
    Int.tdiv_eq_ediv_of_nonneg first.1, Int.tmod_eq_emod_of_nonneg first.1,
    Int.tdiv_eq_ediv_of_nonneg second.1, Int.tmod_eq_emod_of_nonneg second.1]
  omega

end Order

/-! ## Unformatted times -/

section Unformatted
variable {t u : Timestamp}

/-- The values of an `int64_t`. -/
def IsInt64 (n : Int) : Prop := -2 ^ 63 ≤ n ∧ n < 2 ^ 63

theorem toString_eq (range : IsInt64 t.microSecondsSinceEpoch_) :
    t.toString = (sign t.secondsSinceEpoch ++ decimal t.secondsSinceEpoch.natAbs) ++ 46 ::
      zeroed 6 (t.microSecondsSinceEpoch_.tmod kMicroSecondsPerSecond) := by
  have small : t.secondsSinceEpoch.natAbs < 10 ^ 13 := by
    have million : (1000 * 1000 : Int).natAbs = 1000000 := rfl
    rw [secondsSinceEpoch, secondsOf, kMicroSecondsPerSecond, Int.natAbs_tdiv, million]
    obtain ⟨low, high⟩ := range
    exact Nat.div_lt_of_lt_mul (by omega)
  have rest : (t.microSecondsSinceEpoch_.tmod kMicroSecondsPerSecond).natAbs < 10 ^ 6 := by
    rw [kMicroSecondsPerSecond, Int.natAbs_tmod]
    exact Nat.mod_lt _ (by decide)
  have front := length_signed_le (by decide) small
  have back := length_zeroed_le (by decide) rest
  refine Eq.trans ?_ (snprintf_of_lt (?_ : _ < 31))
  · rw [toString, secondsSinceEpoch, secondsOf, List.append_assoc]
    rfl
  · rw [List.length_append, List.length_cons]
    omega

theorem point_not_mem (n : Int) : 46 ∉ sign n ++ decimal n.natAbs := by
  intro mem
  rw [← pad_zero 48 (decimal n.natAbs), List.mem_append, sign] at mem
  rcases mem with mem | mem
  · split at mem
    · exact absurd (List.mem_singleton.mp mem) (by decide)
    · cases mem
  · exact absurd (digit_of_mem_pad mem).1 (by decide)

/-- The number in front of the point and the one behind it tell the time, also before 1970,
where both have a sign. -/
theorem toString_eq_iff (first : IsInt64 t.microSecondsSinceEpoch_)
    (second : IsInt64 u.microSecondsSinceEpoch_) : t.toString = u.toString ↔ t = u := by
  constructor
  · intro same
    rw [toString_eq first, toString_eq second] at same
    obtain ⟨front, back⟩ := Lines.split_unique (point_not_mem _) (point_not_mem _) same
    rw [← pad_zero 48 (decimal t.secondsSinceEpoch.natAbs),
      ← pad_zero 48 (decimal u.secondsSinceEpoch.natAbs)] at front
    have seconds := signed_injective front
    have microseconds := signed_injective back
    simp only [secondsSinceEpoch, secondsOf] at seconds
    have whole := Int.mul_tdiv_add_tmod t.microSecondsSinceEpoch_ kMicroSecondsPerSecond
    rw [seconds, microseconds, Int.mul_tdiv_add_tmod] at whole
    cases t
    cases u
    rw [mk.injEq]
    exact whole.symm
  · rintro rfl
    rfl

/-- A microsecond before 1970 and one after. -/
theorem toString_eq_iff_signs : (⟨-1⟩ : Timestamp).toString ≠ (⟨1⟩ : Timestamp).toString :=
  mt (toString_eq_iff ⟨by decide, by decide⟩ ⟨by decide, by decide⟩).mp (by decide)

end Unformatted

end Timestamp

end Arale
