import Arale.Base.Logging
import Arale.Lib.Schedules

/-!
# The cached time of the log

A thread formats the date and time of a second once and keeps the text for the other records
of that second. The text also depends on `g_logTimeZone`, by which the cache does not go: a
`setTimeZone` between two records of one second comes too late for the second of them. And the
cache of a new thread is taken for one of second 0.
-/

namespace LogTimes

open Arale Logger LogStreams

/-- What the log statements of a thread depend on. -/
structure LogState where
  thread : ThreadTime
  g_logTimeZone : Option TimeZone.Data

/-- A record, with the array of its stream, or a call of `Logger::setTimeZone`. -/
inductive LogOp where
  | log (microSecondsSinceEpoch : Int) (memory : SmallBuffer)
  | setTimeZone (tz : Option TimeZone.Data)

section
variable (gmtime_r : Int → Tm Int)

def step (s : LogState) : LogOp → Option LogState
  | .log now memory =>
    (formatTime gmtime_r s.g_logTimeZone s.thread (.new memory.val) now).map fun formatted =>
      { s with thread := formatted.1 }
  | .setTimeZone tz => some { s with g_logTimeZone := tz }

/-- The bytes that `formatTime` writes. -/
def prefixWritten (s : LogState) (now : Int) (memory : SmallBuffer) : Option (List UInt8) :=
  (formatTime gmtime_r s.g_logTimeZone s.thread (.new memory.val) now).map fun formatted =>
    formatted.2.buffer_.toString

/-- The date and time of a second in a time zone, in the width of the log. -/
def shown (tz : Option TimeZone.Data) (second : Int) : Option (List UInt8) :=
  (brokenDown gmtime_r tz second).map fun tm => (dateTime tm).take 17

/-- What stands behind the date and time. -/
def microseconds (tz : Option TimeZone.Data) (now : Int) : List UInt8 :=
  (Format.snprintf 32 (microText tz.isSome (now.tmod kMicroSecondsPerSecond))).take
    (microLength tz.isSome)

/-- The prefix from the time of the record and the time zone in force alone. -/
def fromScratch (tz : Option TimeZone.Data) (now : Int) : Option (List UInt8) :=
  (shown gmtime_r tz (secondsOf now)).map (· ++ microseconds tz now)

/-- A record that is written has the prefix computed from scratch. -/
def Fresh (s : LogState) : LogOp → Prop
  | .log now memory =>
    prefixWritten gmtime_r s now memory = fromScratch gmtime_r s.g_logTimeZone now
  | .setTimeZone _ => True

/-- A record of this second finds its time zone to show it as the one of the record before it,
if that is of the same second. The first record of a thread is not of second 0. -/
def Agrees (tz : Option TimeZone.Data) (last : Option (Int × Option TimeZone.Data))
    (second : Int) : Prop :=
  match last with
  | none => second ≠ 0
  | some (before, old) => second = before → shown gmtime_r tz second = shown gmtime_r old second

/-- The records of a thread agree with the records before them, as far as their times can be
shown: `tz` is in force, and `last` tells the second and the time zone of the last record. -/
def AllAgree : Option TimeZone.Data → Option (Int × Option TimeZone.Data) → List LogOp → Prop
  | _, _, [] => True
  | _, last, .setTimeZone tz :: rest => AllAgree tz last rest
  | tz, last, .log now _ :: rest =>
    Agrees gmtime_r tz last (secondsOf now) ∧
      ((shown gmtime_r tz (secondsOf now)).isSome → AllAgree tz (some (secondsOf now, tz)) rest)

end

/-! ## Widths -/

theorem length_dateTime (tm : Tm Int) : 17 ≤ (dateTime tm).length := by
  have year := Format.le_length_spaced 4 (tm.tm_year + 1900)
  have month := Format.le_length_zeroed 2 (tm.tm_mon + 1)
  have day := Format.le_length_zeroed 2 tm.tm_mday
  have hour := Format.le_length_zeroed 2 tm.tm_hour
  have minute := Format.le_length_zeroed 2 tm.tm_min
  have second := Format.le_length_zeroed 2 tm.tm_sec
  have space : (literal " ").length = 1 := rfl
  have colon : (literal ":").length = 1 := rfl
  simp only [dateTime, List.length_append, space, colon]
  omega

/-- A text begins with a digit, a sign or a space, and the zeros of a new thread do not. -/
theorem take_dateTime_ne (tm : Tm Int) :
    (dateTime tm).take 17 ≠ ThreadTime.new.t_time.take 17 := by
  intro same
  have year := Format.le_length_spaced 4 (tm.tm_year + 1900)
  have first : (dateTime tm).head? = some 0 := by
    have head := congrArg List.head? same
    rw [List.head?_take, List.head?_take, if_neg (by decide), if_neg (by decide)] at head
    exact head
  have begins : ∃ rest, dateTime tm = Format.spaced 4 (tm.tm_year + 1900) ++ rest := by
    simp only [dateTime, List.append_assoc]
    exact ⟨_, rfl⟩
  obtain ⟨rest, begins⟩ := begins
  have nonempty : Format.spaced 4 (tm.tm_year + 1900) ≠ [] :=
    List.length_pos_iff.mp (by omega)
  rw [begins, List.head?_append_of_ne_nil _ nonempty] at first
  exact Format.zero_not_mem_spaced _ _ (List.mem_of_head? first)

theorem length_microseconds_le (tz : Option TimeZone.Data) (now : Int) :
    (microseconds tz now).length ≤ 9 := by
  have widest : ∀ valid, microLength valid ≤ 9 := by decide
  exact Nat.le_trans (List.length_take_le _ _) (widest tz.isSome)

/-! ## One record -/

section Record
variable {gmtime_r : Int → Tm Int} {s : LogState} {now : Int} {memory : SmallBuffer}
  {thread : ThreadTime} {last : Option (Int × Option TimeZone.Data)}

/-- Both parts of the prefix are written into the empty stream. -/
theorem formatTime_contains (memory : SmallBuffer)
    (refreshed : refresh gmtime_r s.g_logTimeZone s.thread (secondsOf now) = some thread) :
    ∃ stream, formatTime gmtime_r s.g_logTimeZone s.thread (.new memory.val) now =
        some (thread, stream) ∧
      stream.buffer_.toString = thread.t_time.take 17 ++ microseconds s.g_logTimeZone now := by
  have time : (thread.t_time.take 17).length = 17 := by
    rw [List.length_take, thread.size]
    rfl
  have micro := length_microseconds_le s.g_logTimeZone now
  have short : ∀ piece ∈ timePieces s.g_logTimeZone.isSome thread now, Short piece := by
    intro piece mem
    rcases List.mem_pair.mp mem with rfl | rfl <;> trivial
  obtain ⟨stream, done, contains⟩ := (contains_new memory.property).insertAll short
  have all : AllAdmitted ([] : List UInt8).length
      (timePieces s.g_logTimeZone.isSome thread now) := by
    have capacity : kSmallBuffer = 4000 := rfl
    rw [microseconds] at micro
    simp only [timePieces, AllAdmitted, admits, fullText_string, List.length_nil, time,
      decide_eq_true_eq, and_true]
    omega
  have texts : (timePieces s.g_logTimeZone.isSome thread now).flatMap fullText =
      thread.t_time.take 17 ++ microseconds s.g_logTimeZone now := by
    simp only [timePieces, List.flatMap_cons, List.flatMap_nil, fullText_string, List.append_nil,
      microseconds]
  refine ⟨stream, ?_, ?_⟩
  · rw [formatTime_eq refreshed, done, Option.map_some]
  · rw [contains.content, (foldl_inserted_iff [] _).mpr all, texts, List.nil_append]

/-- What the cache holds after the last record. -/
def Cached (gmtime_r : Int → Tm Int) (t : ThreadTime) :
    Option (Int × Option TimeZone.Data) → Prop
  | none => t = .new
  | some (second, tz) =>
    t.t_lastSecond = second ∧ shown gmtime_r tz second = some (t.t_time.take 17)

theorem refresh_same (same : secondsOf now = s.thread.t_lastSecond) :
    refresh gmtime_r s.g_logTimeZone s.thread (secondsOf now) = some s.thread :=
  if_neg (not_not_intro same)

theorem refresh_other (other : secondsOf now ≠ s.thread.t_lastSecond) {text : List UInt8}
    (known : shown gmtime_r s.g_logTimeZone (secondsOf now) = some text) :
    ∃ thread, refresh gmtime_r s.g_logTimeZone s.thread (secondsOf now) = some thread ∧
      thread.t_lastSecond = secondsOf now ∧ thread.t_time.take 17 = text := by
  obtain ⟨tm, time, rfl⟩ := Option.map_eq_some_iff.mp known
  have room : 17 < s.thread.t_time.length := by
    rw [s.thread.size]
    decide
  refine ⟨s.thread.print (dateTime tm) (secondsOf now), ?_, rfl, ?_⟩
  · rw [refresh, if_pos other, time, Option.map_some]
  · exact Format.take_printed room (length_dateTime tm)

theorem refresh_unknown (other : secondsOf now ≠ s.thread.t_lastSecond)
    (unknown : shown gmtime_r s.g_logTimeZone (secondsOf now) = none) :
    refresh gmtime_r s.g_logTimeZone s.thread (secondsOf now) = none := by
  rw [refresh, if_pos other, Option.map_eq_none_iff.mp unknown, Option.map_none]

/-- A record takes the text of the cache for the time of its second. -/
theorem fresh_of_refreshed (memory : SmallBuffer)
    (refreshed : refresh gmtime_r s.g_logTimeZone s.thread (secondsOf now) = some thread) :
    Fresh gmtime_r s (.log now memory) ↔
      shown gmtime_r s.g_logTimeZone (secondsOf now) = some (thread.t_time.take 17) := by
  obtain ⟨stream, done, content⟩ := formatTime_contains memory refreshed
  rw [Fresh, prefixWritten, done, Option.map_some, content, fromScratch]
  cases shown gmtime_r s.g_logTimeZone (secondsOf now) with
  | none => simp
  | some text => simp [eq_comm]

theorem not_shown_new (tz : Option TimeZone.Data) (second : Int) :
    shown gmtime_r tz second ≠ some (ThreadTime.new.t_time.take 17) := by
  intro zeros
  obtain ⟨tm, -, same⟩ := Option.map_eq_some_iff.mp zeros
  exact take_dateTime_ne tm same

/-- One record is fresh exactly when it agrees with the last one. -/
theorem fresh_log_iff (cached : Cached gmtime_r s.thread last) :
    Fresh gmtime_r s (.log now memory) ↔ Agrees gmtime_r s.g_logTimeZone last (secondsOf now) := by
  by_cases same : secondsOf now = s.thread.t_lastSecond
  · rw [fresh_of_refreshed memory (refresh_same same)]
    cases last with
    | none =>
      have begun : s.thread = .new := cached
      rw [begun] at same ⊢
      exact iff_of_false (not_shown_new _ _) fun later => later same
    | some record =>
      obtain ⟨before, old⟩ := record
      obtain ⟨rfl, text⟩ := cached
      rw [Agrees, same, text]
      exact ⟨fun fresh _ => fresh, fun agrees => agrees rfl⟩
  · have agrees : Agrees gmtime_r s.g_logTimeZone last (secondsOf now) := by
      cases last with
      | none =>
        have begun : s.thread = .new := cached
        rw [begun] at same
        exact same
      | some record =>
        obtain ⟨before, old⟩ := record
        obtain ⟨rfl, -⟩ := cached
        exact fun equal => absurd equal same
    refine iff_of_true ?_ agrees
    cases known : shown gmtime_r s.g_logTimeZone (secondsOf now) with
    | none =>
      rw [Fresh, prefixWritten, formatTime_of_none (refresh_unknown same known), fromScratch,
        known]
      rfl
    | some text =>
      obtain ⟨thread, refreshed, -, time⟩ := refresh_other same known
      rw [fresh_of_refreshed memory refreshed, known, time]

/-- A record whose time can be shown is written, and the cache holds its time. -/
theorem step_shown (memory : SmallBuffer) (cached : Cached gmtime_r s.thread last)
    (agrees : Agrees gmtime_r s.g_logTimeZone last (secondsOf now)) {text : List UInt8}
    (known : shown gmtime_r s.g_logTimeZone (secondsOf now) = some text) :
    ∃ thread, step gmtime_r s (.log now memory) = some { s with thread := thread } ∧
      Cached gmtime_r thread (some (secondsOf now, s.g_logTimeZone)) := by
  obtain ⟨thread, refreshed, second, time⟩ :
      ∃ thread, refresh gmtime_r s.g_logTimeZone s.thread (secondsOf now) = some thread ∧
        thread.t_lastSecond = secondsOf now ∧ thread.t_time.take 17 = text := by
    by_cases same : secondsOf now = s.thread.t_lastSecond
    · have fresh := (fresh_of_refreshed memory (refresh_same same)).mp
        ((fresh_log_iff cached).mpr agrees)
      rw [known, Option.some.injEq] at fresh
      exact ⟨s.thread, refresh_same same, same.symm, fresh.symm⟩
    · exact refresh_other same known
  obtain ⟨stream, done, -⟩ := formatTime_contains memory refreshed
  refine ⟨thread, ?_, second, ?_⟩
  · rw [step, done, Option.map_some]
  · rw [known, time]

theorem step_unknown (memory : SmallBuffer) (cached : Cached gmtime_r s.thread last)
    (agrees : Agrees gmtime_r s.g_logTimeZone last (secondsOf now))
    (unknown : shown gmtime_r s.g_logTimeZone (secondsOf now) = none) :
    step gmtime_r s (.log now memory) = none := by
  by_cases same : secondsOf now = s.thread.t_lastSecond
  · have fresh := (fresh_of_refreshed memory (refresh_same same)).mp
      ((fresh_log_iff cached).mpr agrees)
    rw [unknown] at fresh
    cases fresh
  · rw [step, formatTime_of_none (refresh_unknown same unknown), Option.map_none]

end Record

/-! ## Runs -/

theorem fresh_iff_agree {gmtime_r : Int → Tm Int} {s : LogState}
    {last : Option (Int × Option TimeZone.Data)} (cached : Cached gmtime_r s.thread last)
    (ops : List LogOp) :
    Schedules.Along (step gmtime_r) (Fresh gmtime_r) s ops ↔
      AllAgree gmtime_r s.g_logTimeZone last ops := by
  induction ops generalizing s last with
  | nil => exact Iff.rfl
  | cons op rest ih =>
    cases op with
    | setTimeZone tz =>
      have later := ih (s := { s with g_logTimeZone := tz }) cached
      rw [AllAgree, ← later]
      constructor
      · intro along
        exact along.2 _ rfl
      · intro along
        refine ⟨trivial, fun t next => ?_⟩
        cases next
        exact along
    | log now memory =>
      rw [Schedules.Along, AllAgree, fresh_log_iff cached]
      refine and_congr_right fun agrees => ?_
      cases known : shown gmtime_r s.g_logTimeZone (secondsOf now) with
      | none =>
        have stuck := step_unknown memory cached agrees known
        constructor
        · intro _ impossible
          cases impossible
        · intro _ t next
          rw [stuck] at next
          cases next
      | some text =>
        obtain ⟨thread, next, cached'⟩ := step_shown memory cached agrees known
        rw [← ih (s := { s with thread := thread }) cached']
        constructor
        · intro along _
          exact along _ next
        · intro along t next'
          rw [next] at next'
          cases next'
          exact along rfl

/-- On a new thread every record has the prefix computed from scratch exactly when the records
agree with the ones before them. -/
theorem cached_time_fresh_iff (gmtime_r : Int → Tm Int) (tz : Option TimeZone.Data)
    (ops : List LogOp) :
    Schedules.Along (step gmtime_r) (Fresh gmtime_r) ⟨.new, tz⟩ ops ↔
      AllAgree gmtime_r tz none ops :=
  have begun : Cached gmtime_r .new none := rfl
  fresh_iff_agree (s := ⟨.new, tz⟩) begun ops

section China

/-- `TimeZone(8 * 3600, "CST")` -/
def china : TimeZone.Data where
  localtimes := [⟨8 * 3600, false, 0⟩]
  abbreviation := literal "CST"

/-- The time zone is set between two records of one second, and the second record has the time
of the old zone. -/
theorem stale_time_written :
    ∃ s, Schedules.run (step (UtcTime.brokenDown · true)) ⟨.new, none⟩
        [.log 1600000000000000 .zeros, .setTimeZone (some china)] = some s ∧
      prefixWritten (UtcTime.brokenDown · true) s 1600000000000001 .zeros =
        some (literal "20200913 12:26:40.000001 ") ∧
      fromScratch (UtcTime.brokenDown · true) s.g_logTimeZone 1600000000000001 =
        some (literal "20200913 20:26:40.000001 ") ∧
      ¬ Schedules.Along (step (UtcTime.brokenDown · true)) (Fresh (UtcTime.brokenDown · true))
        ⟨.new, none⟩ [.log 1600000000000000 .zeros, .setTimeZone (some china),
          .log 1600000000000001 .zeros] := by
  have known : shown (UtcTime.brokenDown · true) none (secondsOf 1600000000000000) =
      some (literal "20200913 12:26:40") := by decide
  have knownInChina : shown (UtcTime.brokenDown · true) (some china)
      (secondsOf 1600000000000001) = some (literal "20200913 20:26:40") := by decide
  have micro : microseconds (some china) 1600000000000001 = literal ".000001 " := by decide
  have begun : Cached (UtcTime.brokenDown · true) .new none := rfl
  obtain ⟨thread, next, second, time⟩ := step_shown (s := ⟨.new, none⟩) .zeros begun
    (by decide : secondsOf 1600000000000000 ≠ 0) known
  have same : secondsOf 1600000000000001 = thread.t_lastSecond := second.symm
  rw [known, Option.some.injEq] at time
  refine ⟨⟨thread, some china⟩, ?_, ?_, ?_, ?_⟩
  · rw [Schedules.run, next]
    rfl
  · obtain ⟨stream, done, content⟩ := formatTime_contains (s := ⟨thread, some china⟩)
      .zeros (refresh_same same)
    rw [prefixWritten, done, Option.map_some, content, ← time, micro]
    rfl
  · rw [fromScratch, knownInChina, micro]
    rfl
  · intro along
    have agrees := (fresh_iff_agree (s := ⟨.new, none⟩) begun _).mp along
    have later := (agrees.2 (by rw [known]; rfl)).1 rfl
    rw [knownInChina] at later
    exact absurd (later.trans known) (by decide)

end China

end LogTimes
