import Mathlib.Algebra.Ring.Int.Defs

/-!
# The proleptic Gregorian calendar

Dates of all years, before and after year 0, with the number of each day counted from
the first of January of year 0. The count is built from the lengths of years and months;
it goes up by one from each date to the next, and every number is that of exactly one
date.
-/

namespace Calendar

/-- `year` is the astronomical one: year 0 comes before year 1. -/
structure Date where
  year : Int
  month : Int
  day : Int
  deriving DecidableEq, Repr

def isLeap (year : Int) : Bool := year % 4 == 0 && (year % 100 != 0 || year % 400 == 0)

def daysInYear (year : Int) : Int := if isLeap year then 366 else 365

def daysInMonth (year month : Int) : Int :=
  if month = 2 then if isLeap year then 29 else 28
  else if month = 4 ∨ month = 6 ∨ month = 9 ∨ month = 11 then 30
  else 31

structure Valid (date : Date) : Prop where
  month : 1 ≤ date.month ∧ date.month ≤ 12
  day : 1 ≤ date.day ∧ date.day ≤ daysInMonth date.year date.month

instance (date : Date) : Decidable (Valid date) :=
  decidable_of_iff ((1 ≤ date.month ∧ date.month ≤ 12) ∧
    (1 ≤ date.day ∧ date.day ≤ daysInMonth date.year date.month))
    ⟨fun ⟨month, day⟩ => ⟨month, day⟩, fun valid => ⟨valid.month, valid.day⟩⟩

def next (date : Date) : Date :=
  if date.day < daysInMonth date.year date.month then { date with day := date.day + 1 }
  else if date.month < 12 then ⟨date.year, date.month + 1, 1⟩
  else ⟨date.year + 1, 1, 1⟩

/-- The days of the months ahead of a month. -/
def daysBeforeMonth (year month : Int) : Int :=
  ((List.range (month - 1).toNat).map fun (m : Nat) => daysInMonth year (m + 1)).sum

/-- The days of the years from year 0 up to a year; fewer than none for one before. -/
def daysBeforeYear (year : Int) : Int :=
  year * 365 + (year + 3) / 4 - (year + 99) / 100 + (year + 399) / 400

/-- How many days of its year are over. -/
def dayOfYear (date : Date) : Int := daysBeforeMonth date.year date.month + date.day - 1

def dayNumber (date : Date) : Int := daysBeforeYear date.year + dayOfYear date

/-- The date of a number. Counted from the first of March of year 0, the days split into
centuries, years and months in which the leap day comes last. -/
def ofDayNumber (number : Int) : Date :=
  let a := number - 60
  let b := (4 * a + 3) / 146097
  let c := a - (36524 * b + b / 4)
  let d := (4 * c + 3) / 1461
  let e := c - (365 * d + d / 4)
  let m := (5 * e + 2) / 153
  ⟨b * 100 + d + m / 10, m + 3 - 12 * (m / 10), e - (153 * m + 2) / 5 + 1⟩

/-! ## Lengths -/

theorem isLeap_iff {year : Int} :
    isLeap year = true ↔ year % 4 = 0 ∧ (year % 100 ≠ 0 ∨ year % 400 = 0) := by
  simp [isLeap]

/-- 1 in a leap year, 0 in any other. -/
def leapDay (year : Int) : Int := if isLeap year then 1 else 0

theorem leapDay_cases (year : Int) :
    (leapDay year = 1 ∧ year % 4 = 0 ∧ (year % 100 ≠ 0 ∨ year % 400 = 0)) ∨
      (leapDay year = 0 ∧ (year % 4 ≠ 0 ∨ (year % 100 = 0 ∧ year % 400 ≠ 0))) := by
  rw [leapDay]
  split
  · rename_i yes
    exact .inl ⟨rfl, isLeap_iff.mp yes⟩
  · rename_i no
    have := mt isLeap_iff.mpr no
    exact .inr ⟨rfl, by omega⟩

theorem daysInYear_eq (year : Int) : daysInYear year = 365 + leapDay year := by
  rw [daysInYear, leapDay]
  split <;> rfl

theorem daysInYear_le (year : Int) : daysInYear year ≤ 366 := by
  rw [daysInYear]
  split <;> omega

theorem daysBeforeYear_succ (year : Int) :
    daysBeforeYear (year + 1) = daysBeforeYear year + daysInYear year := by
  have leap := leapDay_cases year
  rw [daysInYear_eq]
  simp only [daysBeforeYear]
  omega

theorem daysBeforeMonth_succ (year : Int) {month : Int} (first : 1 ≤ month) :
    daysBeforeMonth year (month + 1) = daysBeforeMonth year month + daysInMonth year month := by
  obtain ⟨m, rfl⟩ : ∃ m : Nat, month = m + 1 := ⟨(month - 1).toNat, by omega⟩
  have one : (m + 1 + 1 - 1 : Int).toNat = (m + 1 - 1 : Int).toNat + 1 := by omega
  have same : (m + 1 - 1 : Int).toNat = m := by omega
  rw [daysBeforeMonth, daysBeforeMonth, one, List.range_succ, List.map_append, List.sum_append,
    same]
  simp

/-- Counted from March the months have 153 days in five, with February at the end. -/
theorem daysBeforeMonth_eq (year : Int) {month : Int} (first : 1 ≤ month) (last : month ≤ 12) :
    daysBeforeMonth year month =
      if month ≤ 2 then 31 * (month - 1)
      else (153 * (month - 3) + 2) / 5 + 59 + leapDay year := by
  have months : month = 1 ∨ month = 2 ∨ month = 3 ∨ month = 4 ∨ month = 5 ∨ month = 6 ∨
      month = 7 ∨ month = 8 ∨ month = 9 ∨ month = 10 ∨ month = 11 ∨ month = 12 := by omega
  cases leap : isLeap year <;>
    rcases months with rfl | rfl | rfl | rfl | rfl | rfl | rfl | rfl | rfl | rfl | rfl | rfl <;>
      simp [daysBeforeMonth, leapDay, leap, daysInMonth, List.range_succ]

theorem daysInMonth_pos (year month : Int) : 1 ≤ daysInMonth year month := by
  simp only [daysInMonth]
  split
  · split <;> omega
  · split <;> omega

theorem daysInMonth_le (year month : Int) : daysInMonth year month ≤ 31 := by
  simp only [daysInMonth]
  split
  · split <;> omega
  · split <;> omega

theorem daysInMonth_december (year : Int) : daysInMonth year 12 = 31 := rfl

theorem daysBeforeMonth_december (year : Int) :
    daysBeforeMonth year 12 + 31 = daysInYear year := by
  rw [daysBeforeMonth_eq year (by decide) (by decide), daysInYear_eq, if_neg (by decide)]
  omega

/-- A month is over before any later one begins. -/
theorem daysBeforeMonth_lt (year : Int) {month other : Int} (first : 1 ≤ month)
    (later : month < other) (last : other ≤ 12) :
    daysBeforeMonth year month + daysInMonth year month ≤ daysBeforeMonth year other := by
  have leap := leapDay_cases year
  rw [← daysBeforeMonth_succ year first, daysBeforeMonth_eq year (by omega) (by omega),
    daysBeforeMonth_eq year (by omega) last]
  split <;> split <;> omega

theorem daysBeforeYear_lt {year other : Int} (later : year < other) :
    daysBeforeYear year + daysInYear year ≤ daysBeforeYear other := by
  rw [← daysBeforeYear_succ]
  simp only [daysBeforeYear]
  omega

/-! ## Dates and their numbers -/

section Dates
variable {date other : Date}

theorem dayOfYear_bounds (valid : Valid date) :
    0 ≤ dayOfYear date ∧ dayOfYear date < daysInYear date.year := by
  obtain ⟨⟨first, last⟩, begins, ends⟩ := valid
  have lengths : daysBeforeMonth date.year date.month + daysInMonth date.year date.month ≤
      daysInYear date.year := by
    rcases Int.lt_or_eq_of_le last with earlier | december
    · have := daysBeforeMonth_lt date.year first earlier (Int.le_refl 12)
      have := daysBeforeMonth_december date.year
      omega
    · rw [december, daysInMonth_december]
      exact Int.le_of_eq (daysBeforeMonth_december date.year)
  have start : 0 ≤ daysBeforeMonth date.year date.month := by
    have leap := leapDay_cases date.year
    rw [daysBeforeMonth_eq date.year first last]
    split <;> omega
  simp only [dayOfYear]
  omega

theorem valid_next (valid : Valid date) : Valid (next date) := by
  obtain ⟨⟨first, last⟩, begins, ends⟩ := valid
  simp only [next]
  split
  · exact ⟨⟨first, last⟩, by simp only; omega, by simp only; omega⟩
  · split
    · exact ⟨⟨by simp only; omega, by simp only; omega⟩, Int.le_refl 1, daysInMonth_pos _ _⟩
    · exact ⟨⟨Int.le_refl 1, by simp only; omega⟩, Int.le_refl 1, daysInMonth_pos _ _⟩

/-- Each date is one day after the one before it. -/
theorem dayNumber_next (valid : Valid date) : dayNumber (next date) = dayNumber date + 1 := by
  obtain ⟨⟨first, last⟩, begins, ends⟩ := valid
  simp only [next]
  split
  · simp only [dayNumber, dayOfYear]
    omega
  · split
    · simp only [dayNumber, dayOfYear, daysBeforeMonth_succ date.year first]
      omega
    · obtain december : date.month = 12 := by omega
      have start : daysBeforeMonth (date.year + 1) 1 = 0 := rfl
      have total := daysBeforeMonth_december date.year
      rw [december, daysInMonth_december] at ends
      rename_i lastDay _
      rw [december, daysInMonth_december] at lastDay
      simp only [dayNumber, dayOfYear, daysBeforeYear_succ, start, december]
      omega

/-- The number tells the date. -/
theorem eq_of_dayNumber_eq (valid : Valid date) (valid' : Valid other)
    (same : dayNumber date = dayNumber other) : date = other := by
  have bounds := dayOfYear_bounds valid
  have bounds' := dayOfYear_bounds valid'
  obtain ⟨⟨first, last⟩, begins, ends⟩ := valid
  obtain ⟨⟨first', last'⟩, begins', ends'⟩ := valid'
  rcases date with ⟨year, month, day⟩
  rcases other with ⟨year', month', day'⟩
  simp only [dayNumber] at same bounds bounds' first last first' last' ends ends'
  have sameYear : year = year' := by
    rcases Int.lt_trichotomy year year' with earlier | sameYear | later
    · have := daysBeforeYear_lt earlier
      omega
    · exact sameYear
    · have := daysBeforeYear_lt later
      omega
  subst sameYear
  simp only [dayOfYear] at same begins begins'
  have sameMonth : month = month' := by
    rcases Int.lt_trichotomy month month' with earlier | sameMonth | later
    · have := daysBeforeMonth_lt year first earlier last'
      omega
    · exact sameMonth
    · have := daysBeforeMonth_lt year first' later last
      omega
  subst sameMonth
  obtain rfl : day = day' := by omega
  rfl

theorem Valid.day_le (valid : Valid date) : date.day ≤ 31 :=
  Int.le_trans valid.day.2 (daysInMonth_le date.year date.month)

/-- Counted from March, the number is a sum of truncated products. -/
theorem dayNumber_eq (valid : Valid date) :
    dayNumber date =
      let a := (14 - date.month) / 12
      let y := date.year - a
      let m := date.month + 12 * a - 3
      date.day + (153 * m + 2) / 5 + y * 365 + y / 4 - y / 100 + y / 400 + 59 := by
  obtain ⟨⟨first, last⟩, -⟩ := valid
  have leap := leapDay_cases date.year
  simp only [dayNumber, dayOfYear, daysBeforeYear, daysBeforeMonth_eq date.year first last]
  split
  · have shift : (14 - date.month) / 12 = 1 := by omega
    rw [shift]
    omega
  · have shift : (14 - date.month) / 12 = 0 := by omega
    rw [shift]
    omega

/-- The day of the month that the last split leaves; day 365 of a year from March is the
leap day. -/
theorem day_bounds {e m : Int} (mEq : (5 * e + 2) / 153 = m) (low : 0 ≤ e) (high : e ≤ 365)
    {year : Int} (leap : e = 365 → isLeap (year + 1) = true) :
    1 ≤ e - (153 * m + 2) / 5 + 1 ∧
      e - (153 * m + 2) / 5 + 1 ≤ daysInMonth (year + m / 10) (m + 3 - 12 * (m / 10)) := by
  refine ⟨by omega, ?_⟩
  by_cases february : m = 11
  · subst february
    have length : daysInMonth (year + 11 / 10) (11 + 3 - 12 * (11 / 10)) =
        if isLeap (year + 1) then 29 else 28 := rfl
    rw [length]
    by_cases last : e = 365
    · rw [if_pos (leap last)]
      omega
    · split <;> omega
  · have months : m = 0 ∨ m = 1 ∨ m = 2 ∨ m = 3 ∨ m = 4 ∨ m = 5 ∨ m = 6 ∨ m = 7 ∨ m = 8 ∨
        m = 9 ∨ m = 10 := by omega
    rcases months with rfl | rfl | rfl | rfl | rfl | rfl | rfl | rfl | rfl | rfl | rfl
    -- the length of the month is 30 or 31
    all_goals
      first
        | exact (show _ ≤ (30 : Int) by omega)
        | exact (show _ ≤ (31 : Int) by omega)

/-- The number of a date leads back to it. -/
theorem ofDayNumber_spec (number : Int) :
    Valid (ofDayNumber number) ∧ dayNumber (ofDayNumber number) = number := by
  simp only [ofDayNumber]
  generalize aEq : number - 60 = a
  generalize bEq : (4 * a + 3) / 146097 = b
  -- a century of years from March, 36524 days and one more every fourth time
  generalize cEq : a - (36524 * b + b / 4) = c
  have century : 0 ≤ c ∧ c ≤ 36524 ∧ (c = 36524 → b % 4 = 3) := by omega
  -- a year of it, 365 days and one more every fourth time
  generalize dEq : (4 * c + 3) / 1461 = d
  generalize eEq : c - (365 * d + d / 4) = e
  have year : 0 ≤ d ∧ d ≤ 99 ∧ 0 ≤ e ∧ e ≤ 365 ∧
      (e = 365 → d % 4 = 3 ∧ (d = 99 → c = 36524)) := by omega
  generalize mEq : (5 * e + 2) / 153 = m
  have month : 0 ≤ m ∧ m ≤ 11 := by omega
  have shifted : (m ≤ 9 ∧ m / 10 = 0) ∨ (10 ≤ m ∧ m / 10 = 1) := by omega
  have leap : e = 365 → isLeap (b * 100 + d + 1) = true := by
    intro last
    rw [isLeap_iff]
    omega
  have valid : Valid ⟨b * 100 + d + m / 10, m + 3 - 12 * (m / 10),
      e - (153 * m + 2) / 5 + 1⟩ :=
    ⟨by constructor <;> simp only <;> omega, day_bounds mEq year.2.2.1 year.2.2.2.1 leap⟩
  refine ⟨valid, ?_⟩
  rw [dayNumber_eq valid]
  have shift : (14 - (m + 3 - 12 * (m / 10))) / 12 = m / 10 := by omega
  have back : m + 3 - 12 * (m / 10) + 12 * (m / 10) - 3 = m := by omega
  have march : b * 100 + d + m / 10 - m / 10 = b * 100 + d := by omega
  have fourths : (b * 100 + d) / 4 = 25 * b + d / 4 := by omega
  have hundredths : (b * 100 + d) / 100 = b := by omega
  have whole : (b * 100 + d) / 400 = b / 4 := by omega
  simp only [shift, back, march, fourths, hundredths, whole]
  omega

/-- And a date is the date of its number. -/
theorem ofDayNumber_dayNumber (valid : Valid date) : ofDayNumber (dayNumber date) = date := by
  obtain ⟨valid', same⟩ := ofDayNumber_spec (dayNumber date)
  exact eq_of_dayNumber_eq valid' valid same

end Dates

end Calendar
