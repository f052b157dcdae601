import Mathlib.Data.List.DropRight
import Arale.Base.LogStream
import Arale.Base.TimeZone

/-!
# Log records

`Logger` of `base/Logging.cc`: the constructors write the time, the thread and the level in
front of the message, the destructor writes the source file and the line behind it and hands
the content of the stream to `g_output`. The assertions are those of a debug build and are
not checked. `gmtime_r` and `strerror_r` are parameters; a record has no result where a table
of the time zone is read out of bounds.
-/

namespace Arale

open TimeZone

/-- The thread-local `t_time` and `t_lastSecond`. -/
structure ThreadTime where
  t_time : List UInt8
  t_lastSecond : Int
  size : t_time.length = 32

namespace ThreadTime

/-- What a thread begins with. -/
def new : ThreadTime := ⟨List.replicate 32 0, 0, rfl⟩

/-- `snprintf(t_time, sizeof(t_time), ...)` of a new second. -/
def print (t : ThreadTime) (text : List UInt8) (seconds : Int) : ThreadTime where
  t_time := Format.printed t.t_time text
  t_lastSecond := seconds
  size := by
    have positive : 0 < t.t_time.length := by rw [t.size]; decide
    rw [Format.length_printed positive, t.size]

end ThreadTime

namespace Logger

inductive LogLevel where
  | TRACE
  | DEBUG
  | INFO
  | WARN
  | ERROR
  | FATAL
  deriving DecidableEq, Repr

def LogLevelName : LogLevel → List UInt8
  | .TRACE => literal "TRACE "
  | .DEBUG => literal "DEBUG "
  | .INFO => literal "INFO  "
  | .WARN => literal "WARN  "
  | .ERROR => literal "ERROR "
  | .FATAL => literal "FATAL "

structure SourceFile where
  data_ : List UInt8
  size_ : Nat
  within : size_ ≤ data_.length

/-- The part of a path behind its last slash. -/
def SourceFile.ofPath (filename : List UInt8) : SourceFile :=
  let data := filename.rtakeWhile (· ≠ 47)
  ⟨data, data.length, Nat.le_refl _⟩

/-- The array of a stream on the stack, before anything is written into it. -/
def SmallBuffer : Type := { memory : List UInt8 // memory.length = kSmallBuffer }

def SmallBuffer.zeros : SmallBuffer := ⟨List.replicate kSmallBuffer 0, List.length_replicate⟩

end Logger

open Logger

/-- `Logger::Impl`. -/
structure Logger where
  time_ : Int
  stream_ : LogStream
  level_ : LogLevel
  line_ : Int32
  basename_ : SourceFile

namespace Logger

def kMicroSecondsPerSecond : Int := 1000 * 1000

/-- `"%4d%02d%02d %02d:%02d:%02d"` -/
def dateTime (tm_time : Tm Int) : List UInt8 :=
  Format.spaced 4 (tm_time.tm_year + 1900) ++ Format.zeroed 2 (tm_time.tm_mon + 1) ++
    Format.zeroed 2 tm_time.tm_mday ++ literal " " ++ Format.zeroed 2 tm_time.tm_hour ++
    literal ":" ++ Format.zeroed 2 tm_time.tm_min ++ literal ":" ++
    Format.zeroed 2 tm_time.tm_sec

/-- `".%06d "`, or `".%06dZ "` in UTC -/
def microText (valid : Bool) (microseconds : Int) : List UInt8 :=
  literal "." ++ Format.zeroed 6 microseconds ++ if valid then literal " " else literal "Z "

/-- How much of it is written. -/
def microLength (valid : Bool) : Nat := if valid then 8 else 9

def secondsOf (microSecondsSinceEpoch : Int) : Int :=
  microSecondsSinceEpoch.tdiv kMicroSecondsPerSecond

section
variable (gmtime_r : Int → Tm Int)

/-- The broken-down time in `g_logTimeZone`. -/
def brokenDown (g_logTimeZone : Option Data) (seconds : Int) : Option (Tm Int) :=
  match g_logTimeZone with
  | some data => toLocalTime gmtime_r data seconds
  | none => some (gmtime_r seconds)

/-- The first half of `formatTime`. -/
def refresh (g_logTimeZone : Option Data) (t : ThreadTime) (seconds : Int) :
    Option ThreadTime :=
  if seconds ≠ t.t_lastSecond then
    (brokenDown gmtime_r g_logTimeZone seconds).map fun tm_time =>
      t.print (dateTime tm_time) seconds
  else some t

def formatTime (g_logTimeZone : Option Data) (t : ThreadTime) (stream_ : LogStream)
    (microSecondsSinceEpoch : Int) : Option (ThreadTime × LogStream) := do
  let seconds := secondsOf microSecondsSinceEpoch
  let microseconds := microSecondsSinceEpoch.tmod kMicroSecondsPerSecond
  let t ← refresh gmtime_r g_logTimeZone t seconds
  let valid := g_logTimeZone.isSome
  let us := Format.snprintf 32 (microText valid microseconds)
  let stream ← stream_.append t.t_time 17
  let stream ← stream.append us (microLength valid)
  some (t, stream)

end

/-- What a record takes from outside of this file. -/
structure Env where
  gmtime_r : Int → Tm Int
  strerror_tl : Int32 → List UInt8
  threadID : Int32

section
variable (env : Env) (g_logTimeZone : Option Data) (t : ThreadTime) (memory : SmallBuffer)
  (now : Int)

/-- `threadIDStr`, with its length as `snprintf` returned it. -/
def threadIDStr : List UInt8 := Format.spaced 5 env.threadID.toInt

/-- The constructor of `Impl`. -/
def new (level : LogLevel) (savedErrno : Int32) (file : SourceFile) (line : Int32) :
    Option (ThreadTime × Logger) := do
  let (t, stream) ← formatTime env.gmtime_r g_logTimeZone t (.new memory.val) now
  let stream ← stream.append (Format.snprintf 32 (threadIDStr env)) (threadIDStr env).length
  let stream ← stream.append (literal " ") 1
  let stream ← stream.append (LogLevelName level) 6
  let stream ←
    if savedErrno ≠ 0 then do
      let stream ← stream.insert (.cString (some (env.strerror_tl savedErrno)))
      let stream ← stream.insert (.cString (some (literal " (errno=")))
      let stream ← stream.insert (.int savedErrno)
      stream.insert (.cString (some (literal ") ")))
    else some stream
  some (t, ⟨now, stream, level, line, file⟩)

/-- The four constructors by what they are given besides the place. -/
inductive Call where
  | plain
  | func (level : LogLevel) (func : List UInt8)
  | level (level : LogLevel)
  | errno (toAbort : Bool) (errno : Int32)

def construct (call : Call) (file : SourceFile) (line : Int32) :
    Option (ThreadTime × Logger) :=
  match call with
  | .plain => new env g_logTimeZone t memory now .INFO 0 file line
  | .func level func => do
    let (t, l) ← new env g_logTimeZone t memory now level 0 file line
    let stream ← l.stream_.insert (.cString (some func))
    let stream ← stream.insert (.char 32)
    some (t, { l with stream_ := stream })
  | .level level => new env g_logTimeZone t memory now level 0 file line
  | .errno toAbort errno =>
    new env g_logTimeZone t memory now (if toAbort then .FATAL else .ERROR) errno file line

end

def finish (l : Logger) : Option Logger := do
  let stream ← l.stream_.insert (.cString (some (literal " - ")))
  let stream ← stream.append l.basename_.data_ l.basename_.size_
  let stream ← stream.insert (.char 58)
  let stream ← stream.insert (.int l.line_)
  let stream ← stream.insert (.char 10)
  some { l with stream_ := stream }

/-- `~Logger()`: the bytes that `g_output` is given, and whether the process is aborted. -/
def destroy (l : Logger) : Option (List UInt8 × Bool) :=
  l.finish.map fun l => (l.stream_.buffer_.toString, l.level_ == .FATAL)

/-! ## Records as pieces

What a record writes besides the message, as the pieces of a stream. -/

section Pieces
open LogStreams

def timePieces (valid : Bool) (t : ThreadTime) (now : Int) : List Piece :=
  [.string (t.t_time.take 17),
    .string ((Format.snprintf 32 (microText valid (now.tmod kMicroSecondsPerSecond))).take
      (microLength valid))]

def headPieces (env : Env) (level : LogLevel) (savedErrno : Int32) : List Piece :=
  [.string (threadIDStr env), .string (literal " "), .string (LogLevelName level)] ++
    if savedErrno ≠ 0 then
      [.cString (some (env.strerror_tl savedErrno)), .cString (some (literal " (errno=")),
        .int savedErrno, .cString (some (literal ") "))]
    else []

def Call.logLevel : Call → LogLevel
  | .plain => .INFO
  | .func given _ => given
  | .level given => given
  | .errno toAbort _ => if toAbort then .FATAL else .ERROR

def Call.pieces (env : Env) : Call → List Piece
  | .plain => headPieces env .INFO 0
  | .func given name => headPieces env given 0 ++ [.cString (some name), .char 32]
  | .level given => headPieces env given 0
  | .errno toAbort saved => headPieces env (if toAbort then .FATAL else .ERROR) saved

def suffixPieces (file : SourceFile) (line : Int32) : List Piece :=
  [.cString (some (literal " - ")), .string (file.data_.take file.size_), .char 58, .int line,
    .char 10]

theorem microLength_le (valid : Bool) (microseconds : Int) :
    microLength valid ≤ (Format.snprintf 32 (microText valid microseconds)).length := by
  have digits := Format.le_length_zeroed 6 microseconds
  have point : (literal ".").length = 1 := rfl
  rw [Format.snprintf, List.length_take, microText, List.length_append, List.length_append, point]
  cases valid with
  | true =>
    have ending : (literal " ").length = 1 := rfl
    simp only [microLength, if_true, ending]
    omega
  | false =>
    have ending : (literal "Z ").length = 2 := rfl
    simp only [microLength, Bool.false_eq_true, if_false, ending]
    omega

theorem length_threadIDStr (env : Env) : (threadIDStr env).length < 32 := by
  have low := env.threadID.le_toInt
  have high := env.threadID.toInt_lt
  have small : env.threadID.toInt.natAbs < 10 ^ 10 := by omega
  have text := Format.length_signed_le (by decide) small
  rw [threadIDStr, Format.spaced, Format.pad, List.length_append, List.length_replicate]
  omega

section
variable {gmtime_r : Int → Tm Int} {g_logTimeZone : Option Data} {t t' : ThreadTime}
  {stream : LogStream} {now : Int}

theorem formatTime_of_none
    (unknown : refresh gmtime_r g_logTimeZone t (secondsOf now) = none) :
    formatTime gmtime_r g_logTimeZone t stream now = none := by
  rw [formatTime, unknown]
  rfl

theorem formatTime_eq
    (refreshed : refresh gmtime_r g_logTimeZone t (secondsOf now) = some t') :
    formatTime gmtime_r g_logTimeZone t stream now =
      (insertAll stream (timePieces g_logTimeZone.isSome t' now)).map fun s => (t', s) := by
  have time : 17 ≤ t'.t_time.length := by rw [t'.size]; decide
  have us := microLength_le g_logTimeZone.isSome (now.tmod kMicroSecondsPerSecond)
  simp only [formatTime, refreshed, Option.bind_eq_bind, Option.bind_some, timePieces, insertAll,
    append_eq_insert _ time, append_eq_insert _ us, Option.map_bind, Function.comp_def,
    Option.map_some]

end

section
variable (env : Env) {g_logTimeZone : Option Data} {t t' : ThreadTime} (memory : SmallBuffer)
  {now : Int} (file : SourceFile) (line : Int32)

theorem new_eq (refreshed : refresh env.gmtime_r g_logTimeZone t (secondsOf now) = some t')
    (level : LogLevel) (savedErrno : Int32) :
    new env g_logTimeZone t memory now level savedErrno file line =
      (insertAll (.new memory.val)
        (timePieces g_logTimeZone.isSome t' now ++ headPieces env level savedErrno)).map
          fun s => (t', ⟨now, s, level, line, file⟩) := by
  have id := length_threadIDStr env
  have idStr : Format.snprintf 32 (threadIDStr env) = threadIDStr env :=
    Format.snprintf_of_lt id
  have name : (LogLevelName level).length = 6 := by cases level <;> rfl
  have appendId (s : LogStream) : s.append (threadIDStr env) (threadIDStr env).length =
      s.insert (.string (threadIDStr env)) := rfl
  have appendSpace (s : LogStream) : s.append (literal " ") 1 =
      s.insert (.string (literal " ")) := rfl
  have appendName (s : LogStream) : s.append (LogLevelName level) 6 =
      s.insert (.string (LogLevelName level)) := by rw [LogStream.insert, name]
  rw [new, formatTime_eq refreshed, insertAll_append]
  simp only [idStr, appendId, appendSpace, appendName, headPieces]
  by_cases set : savedErrno ≠ 0
  · simp only [if_pos set, insertAll, List.cons_append, List.nil_append, Option.bind_eq_bind,
      Option.bind_map, Option.map_bind, Option.map_some, Function.comp_def]
  · simp only [if_neg set, insertAll, List.append_nil, Option.bind_eq_bind, Option.bind_some,
      Option.bind_map, Option.map_bind, Option.map_some, Function.comp_def]

theorem construct_eq (refreshed : refresh env.gmtime_r g_logTimeZone t (secondsOf now) = some t')
    (call : Call) :
    construct env g_logTimeZone t memory now call file line =
      (insertAll (.new memory.val)
        (timePieces g_logTimeZone.isSome t' now ++ call.pieces env)).map
          fun s => (t', ⟨now, s, call.logLevel, line, file⟩) := by
  cases call with
  | plain => exact new_eq env memory file line refreshed .INFO 0
  | level given => exact new_eq env memory file line refreshed given 0
  | errno toAbort saved => exact new_eq env memory file line refreshed _ saved
  | func given name =>
    rw [construct, new_eq env memory file line refreshed, Call.pieces, ← List.append_assoc,
      insertAll_append _ (_ ++ _) [_, _]]
    simp only [insertAll, Call.logLevel, Option.bind_eq_bind, Option.bind_map, Option.map_bind,
      Option.map_some, Function.comp_def]

theorem construct_of_none (unknown : refresh env.gmtime_r g_logTimeZone t (secondsOf now) = none)
    (call : Call) : construct env g_logTimeZone t memory now call file line = none := by
  have head (level : LogLevel) (savedErrno : Int32) :
      new env g_logTimeZone t memory now level savedErrno file line = none := by
    rw [new, formatTime_of_none unknown]
    rfl
  cases call with
  | plain => exact head .INFO 0
  | level given => exact head given 0
  | errno toAbort saved => exact head _ saved
  | func given name =>
    rw [construct, head]
    rfl

end

theorem finish_eq (l : Logger) :
    l.finish = (insertAll l.stream_ (suffixPieces l.basename_ l.line_)).map fun s =>
      { l with stream_ := s } := by
  simp only [finish, suffixPieces, insertAll, append_eq_insert _ l.basename_.within,
    Option.bind_eq_bind, Option.map_bind, Option.map_some, Function.comp_def]

end Pieces

end Logger
end Arale
