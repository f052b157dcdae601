import Arale.Base.Logging

/-!
# The end of a log record

`finish` writes the source file, the line and the newline behind a message of any length. They
go through the buffer that drops what does not fit, so that a record ends in its own line only
if the message leaves room for them: for the file, for the reserve that the line number asks
for, and for what stands between.
-/

namespace LogRecords

open Arale Logger LogStreams

/-- What `finish` writes. -/
def suffix (file : SourceFile) (line : Int32) : List UInt8 :=
  literal " - " ++ file.data_.take file.size_ ++ literal ":" ++ decimalText line.toInt ++
    literal "\n"

/-- The record ends with a newline, and the whole suffix is behind what was streamed. -/
structure Terminated (streamed : List UInt8) (file : SourceFile) (line : Int32)
    (record : List UInt8) : Prop where
  newline : record.getLast? = some 10
  whole : record = streamed ++ suffix file line

theorem Terminated.of_whole {streamed record : List UInt8} {file : SourceFile} {line : Int32}
    (whole : record = streamed ++ suffix file line) : Terminated streamed file line record where
  newline := by
    have newline : literal "\n" = [10] := rfl
    rw [whole, suffix, newline, ← List.append_assoc]
    exact List.getLast?_concat
  whole := whole

/-! ## What is dropped -/

/-- A line number has a text. -/
theorem length_line (line : Int32) :
    1 ≤ (decimalText line.toInt).length ∧ (decimalText line.toInt).length ≤ 11 := by
  have low := line.le_toInt
  have high := line.toInt_lt
  have small : line.toInt.natAbs < 10 ^ 10 := by omega
  have digits := Format.length_decimal_pos line.toInt.natAbs
  refine ⟨?_, length_decimalText (by decide) small⟩
  rw [decimalText, List.length_append]
  omega

theorem flatMap_suffixPieces (file : SourceFile) (line : Int32) :
    (suffixPieces file line).flatMap fullText = suffix file line := by
  have dash : fullText (.cString (some (literal " - "))) = literal " - " := by decide
  have colon : literal ":" = [58] := rfl
  have newline : literal "\n" = [10] := rfl
  simp only [suffixPieces, List.flatMap_cons, List.flatMap_nil, dash, fullText_string,
    fullText_char, fullText_int, suffix, colon, newline, List.append_assoc, List.append_nil]

/-- The suffix is written as a whole exactly when it finds room, with the reserve for the line
number. -/
theorem suffix_written_iff (content : List UInt8) (file : SourceFile) (line : Int32) :
    (suffixPieces file line).foldl inserted content = content ++ suffix file line ↔
      content.length + file.size_ + 36 ≤ kSmallBuffer := by
  have within := file.within
  have size : (file.data_.take file.size_).length = file.size_ := by
    rw [List.length_take]
    omega
  have number := length_line line
  have numbered : decimalText line.toInt ≠ [] := List.length_pos_iff.mp number.1
  have named : file.data_.take file.size_ = [] ↔ file.size_ = 0 := by
    rw [← List.length_eq_zero_iff, size]
  have capacity : kSmallBuffer = 4000 := rfl
  have reserve : LogStream.kMaxNumericSize = 32 := rfl
  have dash : fullText (.cString (some (literal " - "))) = literal " - " := by decide
  have dashLength : (literal " - ").length = 3 := rfl
  have dashed : literal " - " ≠ [] := by decide
  rw [← flatMap_suffixPieces, foldl_inserted_iff]
  simp only [suffixPieces, AllAdmitted, admits, dash, dashLength, dashed, fullText_string,
    fullText_char, fullText_int, size, numbered, named, List.length_singleton, List.cons_ne_nil,
    decide_eq_true_eq, or_false, and_true]
  omega

/-! ## Whole records -/

/-- The pieces of a record are texts of their own lengths, but for those of the message. -/
theorem short_pieces (env : Env) (valid : Bool) (t : ThreadTime) (now : Int) (call : Call) :
    ∀ piece ∈ timePieces valid t now ++ call.pieces env, Short piece := by
  have head (level : LogLevel) (savedErrno : Int32) :
      ∀ piece ∈ headPieces env level savedErrno, Short piece := by
    intro piece mem
    rw [headPieces] at mem
    split at mem <;>
      simp only [List.cons_append, List.nil_append, List.append_nil, List.mem_cons,
        List.not_mem_nil, or_false] at mem
    · rcases mem with rfl | rfl | rfl | rfl | rfl | rfl | rfl <;> trivial
    · rcases mem with rfl | rfl | rfl <;> trivial
  intro piece mem
  rcases List.mem_append.mp mem with time | mem
  · rcases List.mem_pair.mp time with rfl | rfl <;> trivial
  · cases call with
    | plain => exact head .INFO 0 piece mem
    | level given => exact head given 0 piece mem
    | errno toAbort saved => exact head _ saved piece mem
    | func given name =>
      rcases List.mem_append.mp mem with mem | mem
      · exact head given 0 piece mem
      · rcases List.mem_pair.mp mem with rfl | rfl <;> trivial

theorem short_suffix (file : SourceFile) (line : Int32) :
    ∀ piece ∈ suffixPieces file line, Short piece := by
  intro piece mem
  simp only [suffixPieces, List.mem_cons, List.not_mem_nil, or_false] at mem
  rcases mem with rfl | rfl | rfl | rfl | rfl <;> trivial

section Record
variable {env : Env} {g_logTimeZone : Option TimeZone.Data} {t t' : ThreadTime}
  {memory : SmallBuffer} {now : Int} {call : Call} {file : SourceFile} {line : Int32} {l : Logger}

theorem exists_constructed (memory : SmallBuffer) (call : Call) (file : SourceFile)
    (line : Int32)
    (refreshed : refresh env.gmtime_r g_logTimeZone t (secondsOf now) = some t') :
    ∃ l, construct env g_logTimeZone t memory now call file line = some (t', l) ∧
      l.level_ = call.logLevel := by
  obtain ⟨s, done, -⟩ := (contains_new memory.property).insertAll
    (short_pieces env g_logTimeZone.isSome t' now call)
  rw [construct_eq env memory file line refreshed, done]
  exact ⟨_, rfl, rfl⟩

/-- What the constructor leaves. -/
theorem constructed_contains
    (constructed : construct env g_logTimeZone t memory now call file line = some (t', l)) :
    Contains l.stream_
      ((timePieces g_logTimeZone.isSome t' now ++ call.pieces env).foldl inserted []) ∧
      l.basename_ = file ∧ l.line_ = line := by
  cases refreshed : refresh env.gmtime_r g_logTimeZone t (secondsOf now) with
  | none =>
    rw [construct_of_none env memory file line refreshed] at constructed
    cases constructed
  | some fresh =>
    rw [construct_eq env memory file line refreshed, Option.map_eq_some_iff] at constructed
    obtain ⟨s, done, same⟩ := constructed
    obtain ⟨s', done', contains⟩ := (contains_new memory.property).insertAll
      (short_pieces env g_logTimeZone.isSome fresh now call)
    rw [done, Option.some.injEq] at done'
    subst done'
    cases same
    exact ⟨contains, rfl, rfl⟩

/-- The destructor passes on what the stream holds after the suffix. -/
theorem destroy_eq {content : List UInt8} (contains : Contains l.stream_ content) :
    l.destroy = some ((suffixPieces l.basename_ l.line_).foldl inserted content,
      l.level_ == .FATAL) := by
  obtain ⟨s, done, contains'⟩ := contains.insertAll (short_suffix l.basename_ l.line_)
  rw [destroy, finish_eq, done, ← contains'.content]
  rfl

/-- Whatever is streamed, the record ends in its own line exactly when 36 bytes and the name of
the file still fit the buffer. -/
theorem record_terminated_iff
    (constructed : construct env g_logTimeZone t memory now call file line = some (t', l))
    (message : List Piece) (short : ∀ piece ∈ message, Short piece) :
    ∃ s record, insertAll l.stream_ message = some s ∧
      ({ l with stream_ := s } : Logger).destroy = some (record, l.level_ == .FATAL) ∧
      (Terminated s.buffer_.toString file line record ↔
        s.buffer_.toString.length + file.size_ + 36 ≤ kSmallBuffer) := by
  obtain ⟨contains, rfl, rfl⟩ := constructed_contains constructed
  obtain ⟨s, streamed, contains'⟩ := contains.insertAll short
  have content := contains'.content
  refine ⟨s, _, streamed, destroy_eq (l := { l with stream_ := s }) contains', ?_⟩
  rw [← suffix_written_iff _ l.basename_ l.line_, content]
  constructor
  · intro terminated
    exact terminated.whole
  · intro whole
    exact .of_whole whole

end Record

section Example

/-- A thread of a Linux process, in UTC. -/
def env : Env where
  gmtime_r := (UtcTime.brokenDown · true)
  strerror_tl _ := literal "Success"
  threadID := 4711

/-- A second in September 2020. -/
def now : Int := 1600000000123456

/-- What the thread keeps of it. -/
def time : ThreadTime :=
  ThreadTime.new.print (literal "20200913 12:26:40") (secondsOf now)

theorem refresh_now : refresh env.gmtime_r none .new (secondsOf now) = some time := by
  have shown : dateTime (UtcTime.brokenDown (secondsOf now) true) =
      literal "20200913 12:26:40" := by decide
  have later : secondsOf now ≠ ThreadTime.new.t_lastSecond := by decide
  rw [refresh, if_pos later, time, ← shown]
  rfl

theorem head_length : ((timePieces false time now ++ Call.plain.pieces env).foldl inserted
    []).length = 38 := by decide

/-- The record of the test of the logger. -/
theorem record_terminated_hello :
    ∃ l s record, construct env none .new .zeros now .plain
        (.ofPath (literal "tests/Logging_Test.cc")) 8 = some (time, l) ∧
      insertAll l.stream_ [.cString (some (literal "Hello World!"))] = some s ∧
      ({ l with stream_ := s } : Logger).destroy = some (record, l.level_ == .FATAL) ∧
      (Terminated s.buffer_.toString (.ofPath (literal "tests/Logging_Test.cc")) 8 record ↔
        s.buffer_.toString.length + 15 + 36 ≤ kSmallBuffer) := by
  obtain ⟨l, constructed, -⟩ := exists_constructed .zeros .plain
    (.ofPath (literal "tests/Logging_Test.cc")) 8 refresh_now
  obtain ⟨s, record, streamed, destroyed, terminated⟩ := record_terminated_iff constructed
    [.cString (some (literal "Hello World!"))]
    (fun piece mem => by rw [List.mem_singleton.mp mem]; trivial)
  exact ⟨l, s, record, constructed, streamed, destroyed, terminated⟩

/-- As many bytes as leave one byte of the buffer. -/
def longMessage : List UInt8 := List.replicate 3961 97

/-- Nothing of the suffix is written, and the record ends with the message. -/
theorem record_not_terminated :
    ∃ l s record, construct env none .new .zeros now .plain (.ofPath (literal "a.cc")) 1 =
        some (time, l) ∧
      10 ∉ fullText (.string longMessage) ∧
      insertAll l.stream_ [.string longMessage] = some s ∧
      ({ l with stream_ := s } : Logger).destroy = some (record, false) ∧
      record.getLast? = some 97 ∧
      ¬ Terminated s.buffer_.toString (.ofPath (literal "a.cc")) 1 record := by
  obtain ⟨l, constructed, level⟩ := exists_constructed .zeros .plain
    (.ofPath (literal "a.cc")) 1 refresh_now
  obtain ⟨holds, named, lined⟩ := constructed_contains constructed
  have contains : Contains l.stream_
    ((timePieces false time now ++ Call.plain.pieces env).foldl inserted []) := holds
  have head := head_length
  generalize (timePieces false time now ++ Call.plain.pieces env).foldl inserted [] = front
    at head contains
  have short : ∀ piece ∈ [Piece.string longMessage], Short piece := by
    intro piece mem
    rw [List.mem_singleton.mp mem]
    trivial
  obtain ⟨s, streamed, contains'⟩ := contains.insertAll short
  have long : longMessage.length = 3961 := List.length_replicate
  have room : admits front.length (.string longMessage) = true := by
    rw [admits, head, long]
    rfl
  have written : inserted front (.string longMessage) = front ++ longMessage := by
    rw [inserted, if_pos room, fullText_string]
  rw [List.foldl_cons, List.foldl_nil, written] at contains'
  have full : (front ++ longMessage).length + 1 = kSmallBuffer := by
    rw [List.length_append, head, long]
    rfl
  have dropped : (suffixPieces (.ofPath (literal "a.cc")) 1).foldl inserted
      (front ++ longMessage) = front ++ longMessage :=
    foldl_inserted_full full _
  have last : (front ++ longMessage).getLast? = some 97 := by
    rw [List.getLast?_append, longMessage, List.getLast?_replicate]
    rfl
  have quiet : (Call.plain.logLevel == .FATAL) = false := rfl
  have destroyed : ({ l with stream_ := s } : Logger).destroy =
      some (front ++ longMessage, false) := by
    rw [destroy_eq (l := { l with stream_ := s }) contains']
    simp only [named, lined, dropped, level, quiet]
  refine ⟨l, s, front ++ longMessage, constructed, ?_, streamed, destroyed, last, ?_⟩
  · intro mem
    exact absurd (List.eq_of_mem_replicate mem) (by decide)
  · intro terminated
    have newline := terminated.newline
    rw [last] at newline
    exact absurd newline (by decide)

end Example

end LogRecords
