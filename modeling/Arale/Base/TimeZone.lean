import Arale.Base.UtcTime
import Arale.Lib.LowerBound

/-!
# Local times

`findLocaltime`, `toLocalTime` and `fromLocalTime` of `base/TimeZone.cc` on the tables of a
zone. `time_t` is `Int`; `gmtime_r` and `timegm` are parameters. A result is `none` where an
element access is out of bounds or the assertion fails; `tm_zone` points into the
abbreviations or past them.

The clock is put back by an hour when daylight saving ends, so each local time of that hour
comes twice. `fromLocalTime` looks for the last transition up to a local time, finds the
one that ended daylight saving, and corrects the first pass by `tm_isdst`.
-/

namespace Arale

structure Transition where
  gmttime : Int
  localtime : Int
  localtimeIdx : Nat
  deriving DecidableEq, Repr

structure Comp where
  compareGmt : Bool

namespace Comp

def less (comp : Comp) (lhs rhs : Transition) : Bool :=
  if comp.compareGmt then lhs.gmttime < rhs.gmttime else lhs.localtime < rhs.localtime

def equal (comp : Comp) (lhs rhs : Transition) : Bool :=
  if comp.compareGmt then lhs.gmttime == rhs.gmttime else lhs.localtime == rhs.localtime

end Comp

structure Localtime where
  gmtOffset : Int
  isDst : Bool
  arrbIdx : Nat
  deriving DecidableEq, Repr

namespace TimeZone

/-- `TimeZone::Data`. -/
structure Data where
  transitions : List Transition := []
  localtimes : List Localtime := []
  abbreviation : List UInt8 := []
  deriving DecidableEq, Repr

/-- `lower_bound(data.transitions.begin(), data.transitions.end(), sentry, comp)`. -/
def lowerBound (data : Data) (sentry : Transition) (comp : Comp) : Nat :=
  LowerBound.lowerBound (fun t => comp.less t sentry) data.transitions

def findLocaltime (data : Data) (sentry : Transition) (comp : Comp) : Option Localtime :=
  if data.transitions.head?.all (comp.less sentry) then data.localtimes.head?
  else
    let transI := lowerBound data sentry comp
    match data.transitions[transI]? with
    | some found =>
      if comp.equal sentry found then data.localtimes[found.localtimeIdx]?
      -- `assert(transI != data.transitions.begin())`
      else if transI = 0 then none
      else data.transitions[transI - 1]?.bind fun t => data.localtimes[t.localtimeIdx]?
    | none => data.transitions.getLast?.bind fun t => data.localtimes[t.localtimeIdx]?

section
variable (gmtime_r : Int → Tm Int) (timegm : Tm Int → Int) (data : Data)

def toLocalTime (seconds : Int) : Option (Tm Int) :=
  (findLocaltime data ⟨seconds, 0, 0⟩ ⟨true⟩).map fun found =>
    let localSeconds := seconds + found.gmtOffset
    { gmtime_r localSeconds with
      tm_isdst := if found.isDst then 1 else 0
      tm_gmtoff := found.gmtOffset
      tm_zone := .abbreviation found.arrbIdx }

def fromLocalTime (localTm : Tm Int) : Option Int :=
  let seconds := timegm localTm
  (findLocaltime data ⟨0, seconds, 0⟩ ⟨false⟩).bind fun found =>
    if localTm.tm_isdst ≠ 0 then
      (toLocalTime gmtime_r data (seconds - found.gmtOffset)).map fun tryTm =>
        let seconds :=
          if tryTm.tm_isdst = 0 ∧ tryTm.tm_hour = localTm.tm_hour ∧
              tryTm.tm_min = localTm.tm_min then
            seconds - 3600
          else seconds
        seconds - found.gmtOffset
    else some (seconds - found.gmtOffset)

end

/-! ## Finding a type -/

/-- What `Comp` compares. -/
def key (comp : Comp) (transition : Transition) : Int :=
  if comp.compareGmt then transition.gmttime else transition.localtime

@[simp] theorem key_gmt (transition : Transition) : key ⟨true⟩ transition = transition.gmttime :=
  rfl

@[simp] theorem key_local (transition : Transition) :
    key ⟨false⟩ transition = transition.localtime := rfl

theorem less_iff {comp : Comp} {lhs rhs : Transition} :
    comp.less lhs rhs = true ↔ key comp lhs < key comp rhs := by
  simp only [Comp.less, key]
  split <;> simp

theorem equal_iff {comp : Comp} {lhs rhs : Transition} :
    comp.equal lhs rhs = true ↔ key comp lhs = key comp rhs := by
  simp only [Comp.equal, key]
  split <;> simp

/-- The transition that the search settles on: the one it finds if that begins right at the
sentry, else the one before. -/
def pick (data : Data) (sentry : Transition) (comp : Comp) : Nat :=
  let transI := lowerBound data sentry comp
  if data.transitions[transI]?.any (comp.equal sentry) then transI else transI - 1

section Finding
variable {data : Data} {sentry : Transition} {comp : Comp}

/-- Before the first transition, and without any, the first type holds. -/
theorem findLocaltime_front (early : data.transitions.head?.all (comp.less sentry) = true) :
    findLocaltime data sentry comp = data.localtimes.head? := if_pos early

theorem front_of_late (late : data.transitions.head?.all (comp.less sentry) = false) :
    ∃ front, data.transitions[0]? = some front ∧ ¬ key comp sentry < key comp front := by
  rw [List.head?_eq_getElem?] at late
  cases first : data.transitions[0]? with
  | none => simp [first] at late
  | some front =>
    refine ⟨front, rfl, ?_⟩
    rw [← less_iff]
    simpa [first] using late

theorem not_below_lowerBound {next : Transition}
    (here : data.transitions[lowerBound data sentry comp]? = some next) :
    ¬ key comp next < key comp sentry := by
  have above : comp.less next sentry = false :=
    @LowerBound.lowerBound_found _ (fun t => comp.less t sentry) _ _ here
  rw [← less_iff, above]
  exact Bool.false_ne_true

theorem below_lowerBound {k : Nat} {found : Transition}
    (position : lowerBound data sentry comp = k + 1) (here : data.transitions[k]? = some found) :
    key comp found < key comp sentry :=
  less_iff.mp (@LowerBound.lowerBound_pred _ (fun t => comp.less t sentry) _ _ _ position here)

/-- Where the search finds no transition that begins at the sentry, it has passed by the one
to be taken, and the assertion holds. -/
theorem lowerBound_passed (late : data.transitions.head?.all (comp.less sentry) = false)
    (differ : data.transitions[lowerBound data sentry comp]?.any (comp.equal sentry) = false) :
    ∃ k found, lowerBound data sentry comp = k + 1 ∧ data.transitions[k]? = some found ∧
      key comp found < key comp sentry ∧
      ∀ next, data.transitions[k + 1]? = some next → key comp sentry < key comp next := by
  have bound : lowerBound data sentry comp ≤ data.transitions.length :=
    LowerBound.lowerBound_le _ _
  have ahead : ∀ next, data.transitions[lowerBound data sentry comp]? = some next →
      key comp sentry < key comp next := by
    intro next after
    have above := not_below_lowerBound after
    have apart : ¬ key comp sentry = key comp next := by
      rw [← equal_iff]
      simpa [after] using differ
    omega
  cases position : lowerBound data sentry comp with
  | zero =>
    obtain ⟨front, begins, notLess⟩ := front_of_late late
    rw [position] at ahead
    exact absurd (ahead front begins) notLess
  | succ k =>
    rw [position] at bound ahead
    have inside := List.getElem?_eq_getElem (show k < data.transitions.length by omega)
    exact ⟨k, _, rfl, inside, below_lowerBound position inside, ahead⟩

/-- From the first transition on, the type of a transition holds. -/
theorem findLocaltime_pick (late : data.transitions.head?.all (comp.less sentry) = false) :
    ∃ found, data.transitions[pick data sentry comp]? = some found ∧
      findLocaltime data sentry comp = data.localtimes[found.localtimeIdx]? ∧
      (key comp found = key comp sentry ∨ key comp found < key comp sentry ∧
        ∀ next, data.transitions[pick data sentry comp + 1]? = some next →
          key comp sentry < key comp next) := by
  rw [findLocaltime, late, if_neg Bool.false_ne_true, pick]
  simp only
  cases begins : data.transitions[lowerBound data sentry comp]?.any (comp.equal sentry) with
  | true =>
    obtain ⟨found, here, same⟩ := (Option.any_eq_true _ _).mp begins
    simp only [here, same, if_true]
    exact ⟨found, rfl, rfl, .inl (equal_iff.mp same).symm⟩
  | false =>
    obtain ⟨k, found, position, before, low, high⟩ := lowerBound_passed late begins
    simp only [position, Bool.false_eq_true, if_false, Nat.add_sub_cancel]
    refine ⟨found, before, ?_, .inr ⟨low, high⟩⟩
    cases here : data.transitions[k + 1]? with
    | some next =>
      rw [position, here] at begins
      simp only [Option.any_some] at begins
      simp [begins, before]
    | none =>
      have last : data.transitions.length = k + 1 := by
        have := List.getElem?_eq_none_iff.mp here
        have := (List.getElem?_eq_some_iff.mp before).1
        omega
      simp only [List.getLast?_eq_getElem?, last, Nat.add_sub_cancel, before, Option.bind_some]

/-- Where the keys increase, this is the last transition up to the sentry. -/
theorem findLocaltime_increasing
    (increasing : LowerBound.Increasing (key comp) data.transitions)
    (late : data.transitions.head?.all (comp.less sentry) = false) :
    ∃ i found, data.transitions[i]? = some found ∧
      findLocaltime data sentry comp = data.localtimes[found.localtimeIdx]? ∧
      key comp found ≤ key comp sentry ∧
      ∀ next, data.transitions[i + 1]? = some next → key comp sentry < key comp next := by
  obtain ⟨found, picked, type, position⟩ := findLocaltime_pick late
  refine ⟨_, found, picked, type, by omega, ?_⟩
  intro next after
  rcases position with same | ⟨_, ahead⟩
  · have := increasing _ _ _ picked after
    omega
  · exact ahead next after

theorem findLocaltime_last (increasing : LowerBound.Increasing (key comp) data.transitions)
    {i : Nat} {transition : Transition} {type : Localtime}
    (here : data.transitions[i]? = some transition)
    (typed : data.localtimes[transition.localtimeIdx]? = some type)
    (low : key comp transition ≤ key comp sentry)
    (high : ∀ next, data.transitions[i + 1]? = some next → key comp sentry < key comp next) :
    findLocaltime data sentry comp = some type := by
  have late : data.transitions.head?.all (comp.less sentry) = false := by
    have nonempty := (List.getElem?_eq_some_iff.mp here).1
    have begins : data.transitions[0]? = some data.transitions[0] :=
      List.getElem?_eq_getElem (by omega)
    have earliest : key comp data.transitions[0] ≤ key comp transition := by
      cases i with
      | zero =>
        rw [here, Option.some.injEq] at begins
        exact Int.le_of_eq (congrArg (key comp) begins.symm)
      | succ i => exact Int.le_of_lt (increasing.lt begins (by rwa [Nat.zero_add]))
    rw [List.head?_eq_getElem?, begins, Option.all_some, ← Bool.not_eq_true, less_iff]
    omega
  obtain ⟨j, found, there, result, low', high'⟩ := findLocaltime_increasing increasing late
  have last : LowerBound.LastUpTo (key comp) data.transitions (key comp sentry) j :=
    ⟨⟨found, there, low'⟩, high'⟩
  obtain rfl := last.unique increasing ⟨⟨transition, here, low⟩, high⟩
  rw [here, Option.some.injEq] at there
  rw [result, ← there, typed]

end Finding

/-! ## There and back -/

/-- `timegm` undoes `gmtime_r`, whatever is in the fields that it ignores. -/
def Inverse (gmtime_r : Int → Tm Int) (timegm : Tm Int → Int) : Prop :=
  ∀ seconds isdst gmtoff zone, timegm
    { gmtime_r seconds with tm_isdst := isdst, tm_gmtoff := gmtoff, tm_zone := zone } = seconds

/-- The transitions are made of types, as `readTimeZoneFile` makes them. -/
def Built (data : Data) : Prop :=
  ∀ transition ∈ data.transitions, ∃ type,
    data.localtimes[transition.localtimeIdx]? = some type ∧
      transition.localtime = transition.gmttime + type.gmtOffset

/-- Daylight saving begins and ends by turns, an hour ahead of standard time. -/
structure SwitchesDst (data : Data) : Prop where
  types : data.localtimes ≠ []
  built : Built data
  neighbours : ∀ i before after, data.transitions[i]? = some before →
    data.transitions[i + 1]? = some after → before.gmttime + 7200 < after.gmttime ∧
      ∀ old new, data.localtimes[before.localtimeIdx]? = some old →
        data.localtimes[after.localtimeIdx]? = some new →
        new.isDst = !old.isDst ∧
          new.gmtOffset = old.gmtOffset + if new.isDst then 3600 else -3600

section RoundTrip
variable {gmtime_r : Int → Tm Int} {timegm : Tm Int → Int} {data : Data}

/-- The local time of `t` by a type. -/
def localTm (gmtime_r : Int → Tm Int) (t : Int) (type : Localtime) : Tm Int :=
  { gmtime_r (t + type.gmtOffset) with
    tm_isdst := if type.isDst then 1 else 0
    tm_gmtoff := type.gmtOffset
    tm_zone := .abbreviation type.arrbIdx }

theorem toLocalTime_eq {t : Int} {type : Localtime}
    (found : findLocaltime data ⟨t, 0, 0⟩ ⟨true⟩ = some type) :
    toLocalTime gmtime_r data t = some (localTm gmtime_r t type) := by
  rw [toLocalTime, found]
  rfl

theorem timegm_localTm (inverse : Inverse gmtime_r timegm) (t : Int) (type : Localtime) :
    timegm (localTm gmtime_r t type) = t + type.gmtOffset := inverse _ _ _ _

/-- Where both searches find the same type, its offset is taken back. -/
theorem fromLocalTime_same (inverse : Inverse gmtime_r timegm) {t : Int} {type : Localtime}
    (byGmt : findLocaltime data ⟨t, 0, 0⟩ ⟨true⟩ = some type)
    (byLocal : findLocaltime data ⟨0, t + type.gmtOffset, 0⟩ ⟨false⟩ = some type) :
    fromLocalTime gmtime_r timegm data (localTm gmtime_r t type) = some t := by
  rw [fromLocalTime, timegm_localTm inverse]
  simp only [byLocal, Option.bind_some, Int.add_sub_cancel, toLocalTime_eq byGmt,
    Option.map_some]
  cases dst : type.isDst <;> simp [localTm, dst]

/-- In the first pass through the repeated hour the search by local time is ahead by one
type; an hour later the clock shows the same time. -/
theorem fromLocalTime_repeated (inverse : Inverse gmtime_r timegm) {t : Int}
    {summer winter : Localtime} (dst : summer.isDst = true) (standard : winter.isDst = false)
    (hour : winter.gmtOffset = summer.gmtOffset - 3600)
    (byLocal : findLocaltime data ⟨0, t + summer.gmtOffset, 0⟩ ⟨false⟩ = some winter)
    (later : findLocaltime data ⟨t + 3600, 0, 0⟩ ⟨true⟩ = some winter) :
    fromLocalTime gmtime_r timegm data (localTm gmtime_r t summer) = some t := by
  have anHourLater : t + summer.gmtOffset - winter.gmtOffset = t + 3600 := by omega
  have sameClock : t + 3600 + winter.gmtOffset = t + summer.gmtOffset := by omega
  rw [fromLocalTime, timegm_localTm inverse]
  simp only [byLocal, Option.bind_some, anHourLater, toLocalTime_eq later, Option.map_some]
  simp only [localTm, dst, standard, sameClock, if_true, Bool.false_eq_true, if_false, and_self]
  rw [if_pos (by decide)]
  congr 1
  omega

section Switches
variable (switches : SwitchesDst data)
include switches

theorem SwitchesDst.type_of {i : Nat} {transition : Transition}
    (here : data.transitions[i]? = some transition) : ∃ type,
      data.localtimes[transition.localtimeIdx]? = some type ∧
        transition.localtime = transition.gmttime + type.gmtOffset :=
  switches.built transition (List.mem_of_getElem? here)

theorem SwitchesDst.increasing_gmttime :
    LowerBound.Increasing (key ⟨true⟩) data.transitions := by
  intro i before after here next
  have gap := (switches.neighbours i before after here next).1
  simp only [key_gmt]
  omega

/-- Putting the clock back leaves more than an hour between local times. -/
theorem SwitchesDst.localtime_gap {i : Nat} {before after : Transition}
    (here : data.transitions[i]? = some before)
    (next : data.transitions[i + 1]? = some after) :
    before.localtime + 3600 < after.localtime := by
  obtain ⟨old, oldType, oldTime⟩ := switches.type_of here
  obtain ⟨new, newType, newTime⟩ := switches.type_of next
  obtain ⟨gap, change⟩ := switches.neighbours i before after here next
  have offset := (change old new oldType newType).2
  split at offset <;> omega

theorem SwitchesDst.increasing_localtime :
    LowerBound.Increasing (key ⟨false⟩) data.transitions := by
  intro i before after here next
  have gap := switches.localtime_gap here next
  simp only [key_local]
  omega

/-- A local time that the next transition has reached ahead of the transition itself is in
the hour by which the clock is put back. -/
theorem SwitchesDst.put_back {i : Nat} {before after : Transition} {old new : Localtime} {t : Int}
    (here : data.transitions[i]? = some before) (next : data.transitions[i + 1]? = some after)
    (oldType : data.localtimes[before.localtimeIdx]? = some old)
    (newType : data.localtimes[after.localtimeIdx]? = some new) (earlier : t < after.gmttime)
    (reached : after.localtime ≤ t + old.gmtOffset) :
    old.isDst = true ∧ new.isDst = false ∧ new.gmtOffset = old.gmtOffset - 3600 := by
  obtain ⟨type, typed, time⟩ := switches.type_of next
  cases typed.symm.trans newType
  obtain ⟨dst, offset⟩ := (switches.neighbours i before after here next).2 old new oldType newType
  cases isDst : new.isDst with
  | true =>
    rw [isDst, if_pos rfl] at offset
    omega
  | false =>
    rw [isDst, if_neg Bool.false_ne_true] at offset
    refine ⟨?_, rfl, by omega⟩
    simpa [isDst] using dst

end Switches

/-- A time is read back from its local time, also in either pass through the hour that
comes twice. -/
theorem local_round_trip (inverse : Inverse gmtime_r timegm) (switches : SwitchesDst data)
    {t : Int} (late : ∀ first, data.transitions.head? = some first → first.gmttime ≤ t) :
    ∃ tm, toLocalTime gmtime_r data t = some tm ∧
      fromLocalTime gmtime_r timegm data tm = some t := by
  cases head : data.transitions.head? with
  | none =>
    obtain ⟨type, types⟩ : ∃ type, data.localtimes.head? = some type :=
      ⟨_, List.head?_eq_some_head switches.types⟩
    have always : ∀ sentry comp, findLocaltime data sentry comp = some type := by
      intro sentry comp
      rw [findLocaltime_front (by rw [head]; rfl), types]
    exact ⟨_, toLocalTime_eq (always _ _), fromLocalTime_same inverse (always _ _) (always _ _)⟩
  | some first =>
    have notEarly : data.transitions.head?.all (Comp.less ⟨true⟩ ⟨t, 0, 0⟩) = false := by
      have := late first head
      rw [head, Option.all_some, ← Bool.not_eq_true, less_iff]
      simp only [key_gmt]
      omega
    obtain ⟨i, found, here, byGmt, low, high⟩ :=
      findLocaltime_increasing switches.increasing_gmttime notEarly
    obtain ⟨type, found_type, found_time⟩ := switches.type_of here
    rw [found_type] at byGmt
    simp only [key_gmt] at low high
    refine ⟨_, toLocalTime_eq byGmt, ?_⟩
    by_cases ahead : ∀ next, data.transitions[i + 1]? = some next →
        t + type.gmtOffset < next.localtime
    · apply fromLocalTime_same inverse byGmt
      apply findLocaltime_last switches.increasing_localtime here found_type
      · simp only [key_local]
        omega
      · exact ahead
    · obtain ⟨next, after, back⟩ : ∃ next, data.transitions[i + 1]? = some next ∧
          next.localtime ≤ t + type.gmtOffset := by
        simpa only [not_forall, Int.not_lt, exists_prop] using ahead
      obtain ⟨new, new_type, new_time⟩ := switches.type_of after
      have before := high next after
      obtain ⟨summer, standard, offset⟩ :=
        switches.put_back here after found_type new_type before back
      apply fromLocalTime_repeated inverse summer standard offset
      · apply findLocaltime_last switches.increasing_localtime after new_type
        · exact back
        · intro later there
          have gap := switches.localtime_gap after there
          simp only [key_local]
          omega
      · apply findLocaltime_last switches.increasing_gmttime after new_type
        · simp only [key_gmt]
          omega
        · intro later there
          have gap := (switches.neighbours _ next later after there).1
          simp only [key_gmt]
          omega

end RoundTrip

section CentralEurope

/-- `timegm` of a valid date and time. -/
def secondsOf (tm : Tm Int) : Int :=
  (Date.julianDay tm.date - Date.julianDay ⟨1970, 1, 1⟩) * 86400 + tm.tm_hour * 3600 +
    tm.tm_min * 60 + tm.tm_sec

theorem inverse_calendar : Inverse (UtcTime.brokenDown · true) secondsOf := by
  intro seconds isdst gmtoff zone
  have day : Date.julianDay (UtcTime.brokenDown seconds true).date = seconds / 86400 + 2440588 := by
    rw [UtcTime.brokenDown_date, Date.julianDay_ofJulianDay, UtcTime.julianDayOf_eq]
  have epoch : Date.julianDay ⟨1970, 1, 1⟩ = 2440588 := rfl
  have clock := UtcTime.brokenDown_clock seconds true
  change (Date.julianDay (UtcTime.brokenDown seconds true).date - _) * 86400 +
    (UtcTime.brokenDown seconds true).tm_hour * 3600 +
    (UtcTime.brokenDown seconds true).tm_min * 60 +
    (UtcTime.brokenDown seconds true).tm_sec = seconds
  omega

/-- Summer 2021. -/
def centralEurope : Data where
  transitions := [⟨1616893200, 1616900400, 1⟩, ⟨1635642000, 1635645600, 0⟩]
  localtimes := [⟨3600, false, 0⟩, ⟨7200, true, 4⟩]
  abbreviation := "CET\x00CEST\x00".toList.map fun c => c.toNat.toUInt8

theorem switchesDst_centralEurope : SwitchesDst centralEurope where
  types := List.cons_ne_nil _ _
  built := by
    intro transition member
    rcases List.mem_pair.mp member with rfl | rfl
    · exact ⟨_, rfl, rfl⟩
    · exact ⟨_, rfl, rfl⟩
  neighbours := by
    intro i before after here next
    cases i with
    | zero =>
      cases here
      cases next
      refine ⟨by decide, ?_⟩
      intro old new oldType newType
      cases oldType
      cases newType
      decide
    | succ i => cases i <;> cases next

/-- Half past two at night on the last day of October, in summer time. -/
theorem local_round_trip_repeatedHour :
    ∃ tm, toLocalTime (UtcTime.brokenDown · true) centralEurope 1635640200 = some tm ∧
      fromLocalTime (UtcTime.brokenDown · true) secondsOf centralEurope tm =
        some 1635640200 := by
  apply local_round_trip inverse_calendar switchesDst_centralEurope
  intro first head
  cases head
  decide

end CentralEurope

end TimeZone
end Arale
