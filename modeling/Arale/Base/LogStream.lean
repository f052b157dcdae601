import Mathlib.Algebra.Group.Int.Defs
import Arale.Lib.Format
import Arale.Lib.Memory

/-!
# Log streams

`LogStream` of `base/LogStream.cc` over its fixed buffer, with pointers as offsets into
the array. Numbers are written in place, digit by digit, and turned around at the end. A
store outside of the array has no result, and neither has what follows it. Of a `double`
only its `%.12g` text matters.
-/

namespace Arale

open Memory

/-- An `int` converted to `size_t`. -/
def sizeT (x : Int) : Nat := (x % 18446744073709551616).toNat

structure FixedBuffer where
  data_ : List UInt8
  cur_ : Nat
  deriving DecidableEq, Repr

namespace FixedBuffer

def avail (b : FixedBuffer) : Int := b.data_.length - b.cur_

def append (b : FixedBuffer) (buf : List UInt8) (len : Nat) : Option FixedBuffer :=
  if sizeT b.avail > len then
    (store b.data_ b.cur_ (buf.take len)).map fun data => { data_ := data, cur_ := b.cur_ + len }
  else some b

def add (b : FixedBuffer) (len : Nat) : FixedBuffer := { b with cur_ := b.cur_ + len }

def reset (b : FixedBuffer) : FixedBuffer := { b with cur_ := 0 }

def toString (b : FixedBuffer) : List UInt8 := b.data_.take b.cur_

end FixedBuffer

/-! ## Conversions -/

/-- The bytes of a literal. -/
def literal (s : String) : List UInt8 := s.toList.map fun c => c.toNat.toUInt8

def digits : List UInt8 := literal "9876543210123456789"

/-- `zero[lsd]`, with `zero` at the middle of `digits`. -/
def zero (lsd : Int) : Option UInt8 := if 0 ≤ 9 + lsd then digits[(9 + lsd).toNat]? else none

def digitsHex (lsd : Int) : Option UInt8 :=
  if 0 ≤ lsd then (literal "0123456789ABCDEF")[lsd.toNat]? else none

/-- The `do` loop of `convert` and `convertHex`, from `p` on. -/
def convertLoop (base : Int) (symbols : Int → Option UInt8) :
    Nat → List UInt8 → Nat → Int → Option (List UInt8 × Nat)
  | 0, _, _, _ => none
  | fuel + 1, mem, p, i => do
    let lsd := i.tmod base
    let i := i.tdiv base
    let symbol ← symbols lsd
    let mem ← store mem p [symbol]
    if i ≠ 0 then convertLoop base symbols fuel mem (p + 1) i else some (mem, p + 1)

/-- `*p = '\\0'; std::reverse(buf, p);` -/
def terminate (mem : List UInt8) (buf p : Nat) : Option (List UInt8 × Nat) := do
  let mem ← store mem p [0]
  let mem ← store mem buf (slice mem buf p).reverse
  some (mem, p - buf)

def convert (mem : List UInt8) (buf : Nat) (value : Int) : Option (List UInt8 × Nat) := do
  let (mem, p) ← convertLoop 10 zero (value.natAbs + 1) mem buf value
  if value < 0 then
    let mem ← store mem p (literal "-")
    terminate mem buf (p + 1)
  else terminate mem buf p

def convertHex (mem : List UInt8) (buf : Nat) (value : UInt64) :
    Option (List UInt8 × Nat) := do
  let (mem, p) ← convertLoop 16 digitsHex (value.toNat + 1) mem buf value.toNat
  terminate mem buf p

/-! ## Insertions -/

structure LogStream where
  buffer_ : FixedBuffer
  deriving DecidableEq, Repr

def kSmallBuffer : Nat := 4000

/-- Some bytes by a pointer and an `int`, with as many of them as it says. -/
structure StringPiece where
  ptr_ : List UInt8
  length_ : Int32
  within : length_.toInt ≤ ptr_.length

/-- What is inserted, by the type of the operator. -/
inductive Piece where
  | bool (v : Bool)
  | short (v : Int16)
  | unsignedShort (v : UInt16)
  | int (v : Int32)
  | unsignedInt (v : UInt32)
  | long (v : Int64)
  | unsignedLong (v : UInt64)
  | longLong (v : Int64)
  | unsignedLongLong (v : UInt64)
  | pointer (p : UInt64)
  | double (text : List UInt8)
  | char (v : UInt8)
  /-- the bytes from `str` on, or `none` for a null pointer -/
  | cString (str : Option (List UInt8))
  | string (v : List UInt8)
  | stringPiece (v : StringPiece)
  /-- not an operator, but `append(data, len)` -/
  | append (data : StringPiece)

namespace LogStream

/-- The constructor leaves the array as it is. -/
def new (memory : List UInt8) : LogStream := ⟨{ data_ := memory, cur_ := 0 }⟩

def kMaxNumericSize : Nat := 32

def strlen (str : List UInt8) : Nat := (str.takeWhile (· ≠ 0)).length

def append (s : LogStream) (data : List UInt8) (len : Nat) : Option LogStream :=
  (s.buffer_.append data len).map fun buffer => ⟨buffer⟩

def formatInteger (s : LogStream) (v : Int) : Option LogStream :=
  if s.buffer_.avail ≥ kMaxNumericSize then do
    let (data, len) ← convert s.buffer_.data_ s.buffer_.cur_ v
    some ⟨{ s.buffer_ with data_ := data }.add len⟩
  else some s

def insertPointer (s : LogStream) (v : UInt64) : Option LogStream :=
  if s.buffer_.avail ≥ kMaxNumericSize then do
    let buf := s.buffer_.cur_
    let data ← store s.buffer_.data_ buf (literal "0")
    let data ← store data (buf + 1) (literal "x")
    let (data, len) ← convertHex data (buf + 2) v
    some ⟨{ s.buffer_ with data_ := data }.add (len + 2)⟩
  else some s

/-- `snprintf` returns the length of the whole text, cut or not. -/
def insertDouble (s : LogStream) (text : List UInt8) : Option LogStream :=
  if s.buffer_.avail ≥ kMaxNumericSize then do
    let data ← store s.buffer_.data_ s.buffer_.cur_ (Format.snprintf kMaxNumericSize text ++ [0])
    some ⟨{ s.buffer_ with data_ := data }.add text.length⟩
  else some s

def insert (s : LogStream) : Piece → Option LogStream
  | .bool v => s.append (if v then literal "1" else literal "0") 1
  | .short v => s.formatInteger v.toInt
  | .unsignedShort v => s.formatInteger v.toNat
  | .int v => s.formatInteger v.toInt
  | .unsignedInt v => s.formatInteger v.toNat
  | .long v => s.formatInteger v.toInt
  | .unsignedLong v => s.formatInteger v.toNat
  | .longLong v => s.formatInteger v.toInt
  | .unsignedLongLong v => s.formatInteger v.toNat
  | .pointer p => s.insertPointer p
  | .double text => s.insertDouble text
  | .char v => s.append [v] 1
  | .cString (some str) => s.append str (strlen str)
  | .cString none => s.append (literal "(null)") 6
  | .string v => s.append v v.length
  | .stringPiece v => s.append v.ptr_ (sizeT v.length_.toInt)
  | .append data => s.append data.ptr_ (sizeT data.length_.toInt)

def resetBuffer (s : LogStream) : LogStream := ⟨s.buffer_.reset⟩

end LogStream

end Arale

namespace LogStreams

open Arale Memory

/-! ## What is inserted -/

def decimalText (value : Int) : List UInt8 :=
  (if value < 0 then literal "-" else []) ++ Format.decimal value.natAbs

/-- The symbol of a digit, in capitals. -/
def capital (c : Char) : UInt8 := c.toUpper.toNat.toUInt8

def hexText (value : Nat) : List UInt8 := (Nat.toDigits 16 value).map capital

def pieceText (v : StringPiece) : List UInt8 := v.ptr_.take v.length_.toInt.toNat

/-- The full text of a piece. -/
def fullText : Piece → List UInt8
  | .bool v => if v then literal "1" else literal "0"
  | .short v => decimalText v.toInt
  | .unsignedShort v => decimalText v.toNat
  | .int v => decimalText v.toInt
  | .unsignedInt v => decimalText v.toNat
  | .long v => decimalText v.toInt
  | .unsignedLong v => decimalText v.toNat
  | .longLong v => decimalText v.toInt
  | .unsignedLongLong v => decimalText v.toNat
  | .pointer p => literal "0x" ++ hexText p.toNat
  | .double text => text
  | .char v => [v]
  | .cString (some str) => str.takeWhile (· ≠ 0)
  | .cString none => literal "(null)"
  | .string v => v
  | .stringPiece v => pieceText v
  | .append data => pieceText data

@[simp] theorem fullText_string (v : List UInt8) : fullText (.string v) = v := rfl

@[simp] theorem fullText_char (v : UInt8) : fullText (.char v) = [v] := rfl

@[simp] theorem fullText_int (v : Int32) : fullText (.int v) = decimalText v.toInt := rfl

/-- A `double` has a text that fits the reserve. -/
def Short : Piece → Prop
  | .double text => text.length < LogStream.kMaxNumericSize
  | _ => True

inductive Op where
  | insert (piece : Piece)
  | resetBuffer

def step (s : LogStream) : Op → Option LogStream
  | .insert piece => s.insert piece
  | .resetBuffer => some s.resetBuffer

def run (s : LogStream) : List Op → Option LogStream
  | [] => some s
  | op :: rest => do
    let s' ← step s op
    run s' rest

/-- The texts since the last `resetBuffer`, with those there were before. -/
def textsSince (before : List (List UInt8)) : List Op → List (List UInt8)
  | [] => before
  | .insert piece :: rest => textsSince (before ++ [fullText piece]) rest
  | .resetBuffer :: rest => textsSince [] rest

/-! ## Conversions in place -/

theorem zero_eq {lsd : Int} (digit : lsd.natAbs < 10) :
    zero lsd = some (Nat.digitChar lsd.natAbs).toNat.toUInt8 := by
  have all : lsd = -9 ∨ lsd = -8 ∨ lsd = -7 ∨ lsd = -6 ∨ lsd = -5 ∨ lsd = -4 ∨ lsd = -3 ∨
      lsd = -2 ∨ lsd = -1 ∨ lsd = 0 ∨ lsd = 1 ∨ lsd = 2 ∨ lsd = 3 ∨ lsd = 4 ∨ lsd = 5 ∨
      lsd = 6 ∨ lsd = 7 ∨ lsd = 8 ∨ lsd = 9 := by omega
  rcases all with rfl | rfl | rfl | rfl | rfl | rfl | rfl | rfl | rfl | rfl | rfl | rfl | rfl |
    rfl | rfl | rfl | rfl | rfl | rfl <;> decide

theorem digitsHex_eq {lsd : Int} (sign : 0 ≤ lsd) (digit : lsd.natAbs < 16) :
    digitsHex lsd = some (capital (Nat.digitChar lsd.natAbs)) := by
  have all : lsd = 0 ∨ lsd = 1 ∨ lsd = 2 ∨ lsd = 3 ∨ lsd = 4 ∨ lsd = 5 ∨ lsd = 6 ∨ lsd = 7 ∨
      lsd = 8 ∨ lsd = 9 ∨ lsd = 10 ∨ lsd = 11 ∨ lsd = 12 ∨ lsd = 13 ∨ lsd = 14 ∨
      lsd = 15 := by omega
  rcases all with rfl | rfl | rfl | rfl | rfl | rfl | rfl | rfl | rfl | rfl | rfl | rfl | rfl |
    rfl | rfl | rfl <;> decide

/-- The loop stores the digits of the number with the last one in front. -/
theorem convertLoop_eq {b : Nat} (base : 1 < b) {symbols : Int → Option UInt8}
    {byte : Char → UInt8} {fuel : Nat} {i : Int}
    (known : ∀ lsd : Int, lsd.natAbs < b → (0 ≤ i → 0 ≤ lsd) →
      symbols lsd = some (byte (Nat.digitChar lsd.natAbs)))
    (enough : i.natAbs < fuel) (mem : List UInt8) (p : Nat) :
    convertLoop b symbols fuel mem p i =
      (store mem p ((Nat.toDigits b i.natAbs).map byte).reverse).map fun mem' =>
        (mem', p + (Nat.toDigits b i.natAbs).length) := by
  induction fuel generalizing i mem p with
  | zero => omega
  | succ fuel ih =>
    have last : (i.tmod b).natAbs = i.natAbs % b := Int.natAbs_tmod i b
    have rest : (i.tdiv b).natAbs = i.natAbs / b := Int.natAbs_tdiv i b
    have symbol := known (i.tmod b) (by rw [last]; exact Nat.mod_lt _ (by omega))
      fun sign => Int.tmod_nonneg _ sign
    rw [last] at symbol
    simp only [convertLoop, symbol, Option.bind_eq_bind, Option.bind_some]
    rw [Nat.toDigits_eq_if base]
    by_cases single : i.natAbs < b
    · have done : i.tdiv b = 0 := by
        rw [← Int.natAbs_eq_zero, rest, Nat.div_eq_of_lt single]
      simp only [done, if_pos single, Nat.mod_eq_of_lt single, ne_eq, not_true_eq_false, if_false,
        List.map_cons, List.map_nil, List.reverse_singleton, List.length_singleton]
      cases store mem p [byte (Nat.digitChar i.natAbs)] <;> rfl
    · have quotient : i.natAbs / b < i.natAbs := Nat.div_lt_self (by omega) base
      have more : i.tdiv b ≠ 0 := by
        rw [← Int.natAbs_ne_zero, rest]
        have positive := Nat.div_pos (Nat.not_lt.mp single) (by omega)
        omega
      have later := fun mem' => ih (i := i.tdiv b)
        (fun lsd digit sign => known lsd digit fun nonneg =>
          sign (Int.tdiv_nonneg nonneg (Int.natCast_nonneg b)))
        (by rw [rest]; omega) mem' (p + 1)
      simp only [more, if_neg single, ne_eq, not_false_eq_true, if_true, later, rest,
        List.map_append, List.reverse_append, List.map_cons, List.map_nil, List.reverse_singleton,
        store_append, List.length_append, List.length_singleton]
      cases store mem p [byte (Nat.digitChar (i.natAbs % b))] with
      | none => rfl
      | some mem' =>
        simp only [Option.bind_some]
        congr 1
        funext mem''
        rw [Nat.add_right_comm, Nat.add_assoc]

/-- What has been stored from `buf` on is ended with a NUL and turned around. -/
theorem terminate_eq (mem : List UInt8) (buf : Nat) (xs : List UInt8) :
    ((store mem buf xs).bind fun mem' => terminate mem' buf (buf + xs.length)) =
      (store mem buf (xs.reverse ++ [0])).map fun mem' => (mem', xs.length) := by
  have whole := store_append mem buf xs [0]
  cases stored : store mem buf (xs ++ [0]) with
  | none =>
    have outside : store mem buf (xs.reverse ++ [0]) = none := by
      rw [store] at stored ⊢
      split at stored
      · cases stored
      · rename_i far
        exact if_neg (by simpa using far)
    rw [outside]
    cases first : store mem buf xs with
    | none => rfl
    | some mem' =>
      rw [stored, first, Option.bind_some] at whole
      rw [Option.bind_some, terminate, ← whole]
      rfl
  | some ended =>
    obtain ⟨mem', first, second⟩ := Option.bind_eq_some_iff.mp (whole.symm.trans stored)
    have inside := (store_eq_some.mp stored).1
    rw [List.length_append] at inside
    have written : slice ended buf (buf + xs.length) = xs := by
      have front : (mem.take buf).length = buf := by
        rw [List.length_take]
        omega
      rw [slice, take_store stored]
      exact List.drop_left' front
    have sameLength : xs.length = xs.reverse.length := List.length_reverse.symm
    have turned := store_replace stored sameLength
    have length : buf + xs.length - buf = xs.length := by omega
    rw [first, Option.bind_some, terminate, second]
    simp only [Option.bind_eq_bind, Option.bind_some, written, turned, length]
    cases store mem buf (xs.reverse ++ [0]) <;> rfl

/-- A loop and the end of it store a text with a NUL behind it. -/
theorem written_eq {loop : Option (List UInt8 × Nat)} {mem : List UInt8} {buf : Nat}
    {text : List UInt8}
    (stored : loop = (store mem buf text.reverse).map fun mem' => (mem', buf + text.length)) :
    (loop.bind fun (mem', p) => terminate mem' buf p) =
      (store mem buf (text ++ [0])).map fun mem' => (mem', text.length) := by
  have ended := terminate_eq mem buf text.reverse
  rw [List.reverse_reverse, List.length_reverse] at ended
  rw [stored, ← ended]
  cases store mem buf text.reverse <;> rfl

theorem convert_eq (mem : List UInt8) (buf : Nat) (value : Int) :
    convert mem buf value = (store mem buf (decimalText value ++ [0])).map fun mem' =>
      (mem', (decimalText value).length) := by
  have loop : convertLoop 10 zero (value.natAbs + 1) mem buf value =
      (store mem buf (Format.decimal value.natAbs).reverse).map fun mem' =>
        (mem', buf + (Format.decimal value.natAbs).length) := by
    rw [Format.decimal, List.length_map]
    exact convertLoop_eq (b := 10) (by decide) (fun lsd digit _ => zero_eq digit)
      (Nat.lt_succ_self _) mem buf
  by_cases sign : value < 0
  · have text : decimalText value = literal "-" ++ Format.decimal value.natAbs := by
      rw [decimalText, if_pos sign]
    have signed : ((convertLoop 10 zero (value.natAbs + 1) mem buf value).bind fun (mem', p) =>
        (store mem' p (literal "-")).map fun mem'' => (mem'', p + 1)) =
          (store mem buf (decimalText value).reverse).map fun mem' =>
            (mem', buf + (decimalText value).length) := by
      rw [loop, text, List.reverse_append, store_append, List.length_reverse, List.length_append]
      cases store mem buf (Format.decimal value.natAbs).reverse with
      | none => rfl
      | some mem' =>
        simp only [Option.map_some, Option.bind_some]
        congr 1
        funext mem''
        rw [Nat.add_comm (literal "-").length, ← Nat.add_assoc]
        rfl
    rw [← written_eq signed, convert]
    simp only [sign, if_true, Option.bind_eq_bind]
    cases convertLoop 10 zero (value.natAbs + 1) mem buf value with
    | none => rfl
    | some written =>
      simp only [Option.bind_some]
      cases store written.1 written.2 (literal "-") <;> rfl
  · have text : decimalText value = Format.decimal value.natAbs := by
      rw [decimalText, if_neg sign, List.nil_append]
    rw [text, ← written_eq loop, convert]
    simp only [sign, if_false]
    rfl

theorem convertHex_eq (mem : List UInt8) (buf : Nat) (value : UInt64) :
    convertHex mem buf value = (store mem buf (hexText value.toNat ++ [0])).map fun mem' =>
      (mem', (hexText value.toNat).length) := by
  have loop : convertLoop 16 digitsHex (value.toNat + 1) mem buf value.toNat =
      (store mem buf (hexText value.toNat).reverse).map fun mem' =>
        (mem', buf + (hexText value.toNat).length) := by
    rw [hexText, List.length_map]
    exact convertLoop_eq (b := 16) (by decide)
      (fun lsd digit sign => digitsHex_eq (sign (Int.natCast_nonneg _)) digit)
      (Nat.lt_succ_self _) mem buf
  rw [← written_eq loop, convertHex]
  rfl

theorem length_decimalText {value : Int} {k : Nat} (positive : 0 < k)
    (small : value.natAbs < 10 ^ k) : (decimalText value).length ≤ k + 1 :=
  Format.length_signed_le positive small

theorem length_hexText (value : UInt64) : (hexText value.toNat).length ≤ 16 := by
  rw [hexText, List.length_map]
  exact (Nat.length_toDigits_le_iff (by decide) (by decide)).mpr value.toNat_lt

/-- The text of a pointer. -/
theorem length_marked (value : Nat) :
    (literal "0x" ++ hexText value).length = (hexText value).length + 2 := by
  rw [List.length_append, Nat.add_comm]
  rfl

/-! ## One insertion -/

/-- The array is whole and the current position is before its end. -/
structure Inside (s : LogStream) : Prop where
  size : s.buffer_.data_.length = kSmallBuffer
  room : s.buffer_.cur_ < kSmallBuffer

/-- A text is in the stream entirely or not at all, and the stream stays inside its array. -/
def AllOrNothing (s : LogStream) (text : List UInt8) (result : Option LogStream) : Prop :=
  ∃ s', result = some s' ∧ Inside s' ∧
    (s' = s ∨ s'.buffer_.toString = s.buffer_.toString ++ text)

/-- Whether a piece is admitted behind so many bytes: a text has to leave a byte free, and a
number finds its reserve. -/
def admits (length : Nat) : Piece → Bool
  | .bool _ => length + 1 < kSmallBuffer
  | .char _ => length + 1 < kSmallBuffer
  | .cString (some str) => length + (fullText (.cString (some str))).length < kSmallBuffer
  | .cString none => length + 6 < kSmallBuffer
  | .string v => length + v.length < kSmallBuffer
  | .stringPiece v => 0 ≤ v.length_.toInt ∧ length + (pieceText v).length < kSmallBuffer
  | .append data => 0 ≤ data.length_.toInt ∧ length + (pieceText data).length < kSmallBuffer
  | _ => length + LogStream.kMaxNumericSize ≤ kSmallBuffer

/-- A text that is admitted is behind the others, and one that is not leaves no trace. -/
def Inserted (s : LogStream) (admitted : Prop) (text : List UInt8) (result : Option LogStream) :
    Prop :=
  ∃ s', result = some s' ∧ Inside s' ∧
    (admitted ∧ s'.buffer_.toString = s.buffer_.toString ++ text ∨ ¬ admitted ∧ s' = s)

section Insertion
variable {s : LogStream}

theorem Inserted.decided {admitted : Prop} [Decidable admitted] {text : List UInt8}
    {result : Option LogStream} (inserted : Inserted s admitted text result) :
    Inserted s (decide admitted = true) text result := by
  rwa [decide_eq_true_iff]

theorem avail_eq (inside : Inside s) :
    s.buffer_.avail = (kSmallBuffer - s.buffer_.cur_ : Nat) := by
  have size := inside.size
  have room := inside.room
  simp only [FixedBuffer.avail]
  omega

theorem sizeT_avail (inside : Inside s) :
    sizeT s.buffer_.avail = kSmallBuffer - s.buffer_.cur_ := by
  have small : kSmallBuffer = 4000 := rfl
  rw [sizeT, avail_eq inside]
  omega

/-- A text stored at the current position, with what is written behind it. -/
theorem stored_at_current (inside : Inside s) (text tail : List UInt8)
    (room : s.buffer_.cur_ + text.length < kSmallBuffer)
    (fits : s.buffer_.cur_ + (text ++ tail).length ≤ kSmallBuffer) :
    ∃ data, store s.buffer_.data_ s.buffer_.cur_ (text ++ tail) = some data ∧
      Inside ⟨⟨data, s.buffer_.cur_ + text.length⟩⟩ ∧
      FixedBuffer.toString ⟨data, s.buffer_.cur_ + text.length⟩ =
        s.buffer_.toString ++ text := by
  have size := inside.size
  obtain ⟨data, stored⟩ :=
    store_isSome s.buffer_.data_ s.buffer_.cur_ (text ++ tail) (by omega)
  exact ⟨data, stored, ⟨(length_store stored).trans size, room⟩, take_store stored⟩

/-- Numbers are written into the reserve of 32 bytes, the NUL included. -/
theorem stored_in_reserve (inside : Inside s)
    (admitted : s.buffer_.avail ≥ LogStream.kMaxNumericSize) {text : List UInt8}
    (short : text.length < LogStream.kMaxNumericSize) :
    ∃ data, store s.buffer_.data_ s.buffer_.cur_ (text ++ [0]) = some data ∧
      Inside ⟨⟨data, s.buffer_.cur_ + text.length⟩⟩ ∧
      FixedBuffer.toString ⟨data, s.buffer_.cur_ + text.length⟩ =
        s.buffer_.toString ++ text := by
  rw [avail_eq inside] at admitted
  apply stored_at_current inside text [0]
  · omega
  · rw [List.length_append, List.length_singleton]
    omega

/-- A text behind a `0x` is stored after the two marks. -/
theorem stored_marked {mem data : List UInt8} {pos : Nat} {text tail : List UInt8}
    (stored : store mem pos (literal "0x" ++ text ++ tail) = some data) :
    ∃ first second, store mem pos (literal "0") = some first ∧
      store first (pos + 1) (literal "x") = some second ∧
      store second (pos + 2) (text ++ tail) = some data := by
  have parts : literal "0x" ++ text ++ tail = literal "0" ++ (literal "x" ++ (text ++ tail)) := rfl
  have zeroLength : (literal "0").length = 1 := rfl
  have xLength : (literal "x").length = 1 := rfl
  rw [parts, store_append] at stored
  obtain ⟨first, zeroStored, stored⟩ := Option.bind_eq_some_iff.mp stored
  rw [store_append] at stored
  obtain ⟨second, xStored, stored⟩ := Option.bind_eq_some_iff.mp stored
  rw [zeroLength] at xStored
  rw [zeroLength, xLength] at stored
  exact ⟨first, second, zeroStored, xStored, stored⟩

theorem inserted_append (inside : Inside s) {buf : List UInt8} {len : Nat}
    (enough : len < kSmallBuffer → len ≤ buf.length) :
    Inserted s (s.buffer_.cur_ + len < kSmallBuffer) (buf.take len) (s.append buf len) := by
  have room := inside.room
  rw [LogStream.append, FixedBuffer.append, sizeT_avail inside]
  split
  · rename_i admitted
    have length : (buf.take len).length = len := by
      rw [List.length_take]
      have := enough (by omega)
      omega
    obtain ⟨data, stored, inside', content⟩ :=
      stored_at_current inside (buf.take len) [] (by omega) (by
        rw [List.append_nil]
        omega)
    rw [List.append_nil] at stored
    rw [length] at inside' content
    rw [stored]
    exact ⟨_, rfl, inside', .inl ⟨by omega, content⟩⟩
  · exact ⟨s, rfl, inside, .inr ⟨by omega, rfl⟩⟩

/-- What the reserve is asked for. -/
theorem admitted_iff (inside : Inside s) :
    s.buffer_.avail ≥ LogStream.kMaxNumericSize ↔
      s.buffer_.cur_ + LogStream.kMaxNumericSize ≤ kSmallBuffer := by
  have room := inside.room
  rw [avail_eq inside]
  omega

theorem inserted_formatInteger (inside : Inside s) {v : Int} (small : v.natAbs < 10 ^ 20) :
    Inserted s (s.buffer_.cur_ + LogStream.kMaxNumericSize ≤ kSmallBuffer) (decimalText v)
      (s.formatInteger v) := by
  have length := length_decimalText (by decide) small
  have reserve : LogStream.kMaxNumericSize = 32 := rfl
  rw [LogStream.formatInteger, ← admitted_iff inside]
  split
  · rename_i admitted
    have short : (decimalText v).length < LogStream.kMaxNumericSize := by omega
    obtain ⟨data, stored, inside', content⟩ := stored_in_reserve inside admitted short
    rw [convert_eq, stored]
    exact ⟨_, rfl, inside', .inl ⟨admitted, content⟩⟩
  · rename_i refused
    exact ⟨s, rfl, inside, .inr ⟨refused, rfl⟩⟩

theorem inserted_insertPointer (inside : Inside s) (v : UInt64) :
    Inserted s (s.buffer_.cur_ + LogStream.kMaxNumericSize ≤ kSmallBuffer)
      (literal "0x" ++ hexText v.toNat) (s.insertPointer v) := by
  have length := length_hexText v
  have reserve : LogStream.kMaxNumericSize = 32 := rfl
  have mark := length_marked v.toNat
  rw [LogStream.insertPointer, ← admitted_iff inside]
  split
  · rename_i admitted
    have short : (literal "0x" ++ hexText v.toNat).length < LogStream.kMaxNumericSize := by omega
    obtain ⟨data, stored, inside', content⟩ := stored_in_reserve inside admitted short
    obtain ⟨first, second, zeroStored, xStored, stored⟩ := stored_marked stored
    rw [mark] at inside' content
    simp only [zeroStored, xStored, convertHex_eq, stored, Option.bind_eq_bind, Option.bind_some,
      Option.map_some]
    exact ⟨_, rfl, inside', .inl ⟨admitted, content⟩⟩
  · rename_i refused
    exact ⟨s, rfl, inside, .inr ⟨refused, rfl⟩⟩

theorem inserted_insertDouble (inside : Inside s) {text : List UInt8}
    (short : text.length < LogStream.kMaxNumericSize) :
    Inserted s (s.buffer_.cur_ + LogStream.kMaxNumericSize ≤ kSmallBuffer) text
      (s.insertDouble text) := by
  rw [LogStream.insertDouble, Format.snprintf_of_lt short, ← admitted_iff inside]
  split
  · rename_i admitted
    obtain ⟨data, stored, inside', content⟩ := stored_in_reserve inside admitted short
    rw [stored]
    exact ⟨_, rfl, inside', .inl ⟨admitted, content⟩⟩
  · rename_i refused
    exact ⟨s, rfl, inside, .inr ⟨refused, rfl⟩⟩

theorem sizeT_toInt (x : Int32) :
    (0 ≤ x.toInt ∧ sizeT x.toInt = x.toInt.toNat) ∨
      (x.toInt < 0 ∧ kSmallBuffer ≤ sizeT x.toInt) := by
  have small : kSmallBuffer = 4000 := rfl
  have low : -2 ^ 31 ≤ x.toInt := x.le_toInt
  have high : x.toInt < 2 ^ 31 := x.toInt_lt
  simp only [sizeT]
  omega

/-- A negative length is a large one, and nothing is appended then. -/
theorem inserted_piece (inside : Inside s) (v : StringPiece) :
    Inserted s (0 ≤ v.length_.toInt ∧ s.buffer_.cur_ + (pieceText v).length < kSmallBuffer)
      (pieceText v) (s.append v.ptr_ (sizeT v.length_.toInt)) := by
  rcases sizeT_toInt v.length_ with ⟨sign, length⟩ | ⟨sign, large⟩
  · have within := v.within
    have size : (pieceText v).length = v.length_.toInt.toNat := by
      rw [pieceText, List.length_take]
      omega
    rw [length, and_iff_right sign, size]
    exact inserted_append inside fun _ => by omega
  · have refused : ¬ sizeT s.buffer_.avail > sizeT v.length_.toInt := by
      rw [sizeT_avail inside]
      omega
    rw [LogStream.append, FixedBuffer.append, if_neg refused]
    exact ⟨s, rfl, inside, .inr ⟨by omega, rfl⟩⟩

/-- Of a C string the bytes ahead of the first NUL are the text. -/
theorem inserted_cString (inside : Inside s) (str : List UInt8) :
    Inserted s (s.buffer_.cur_ + (str.takeWhile (· ≠ 0)).length < kSmallBuffer)
      (str.takeWhile (· ≠ 0)) (s.append str (LogStream.strlen str)) := by
  have front := List.takeWhile_prefix (p := (· ≠ (0 : UInt8))) (l := str)
  have text : str.take (LogStream.strlen str) = str.takeWhile (· ≠ 0) :=
    (List.prefix_iff_eq_take.mp front).symm
  have inserted : Inserted s _ (str.take (LogStream.strlen str)) _ :=
    inserted_append inside fun _ => front.length_le
  rw [text] at inserted
  exact inserted

/-- What is admitted is inserted whole, and nothing else is. -/
theorem inserted_insert (inside : Inside s) {piece : Piece} (short : Short piece) :
    Inserted s (admits s.buffer_.cur_ piece = true) (fullText piece) (s.insert piece) := by
  have natural {n : Nat} (small : n < 10 ^ 20) :
      Inserted s (s.buffer_.cur_ + LogStream.kMaxNumericSize ≤ kSmallBuffer) (decimalText n)
        (s.formatInteger n) :=
    inserted_formatInteger inside (by omega)
  cases piece with
  | bool v => cases v <;> exact (inserted_append inside fun _ => Nat.le_refl 1).decided
  | short v =>
    have low := v.le_toInt
    have high := v.toInt_lt
    exact (inserted_formatInteger inside (by omega)).decided
  | unsignedShort v => exact (natural (Nat.lt_trans v.toNat_lt (by decide))).decided
  | int v =>
    have low := v.le_toInt
    have high := v.toInt_lt
    exact (inserted_formatInteger inside (by omega)).decided
  | unsignedInt v => exact (natural (Nat.lt_trans v.toNat_lt (by decide))).decided
  | long v =>
    have low := v.le_toInt
    have high := v.toInt_lt
    exact (inserted_formatInteger inside (by omega)).decided
  | unsignedLong v => exact (natural (Nat.lt_trans v.toNat_lt (by decide))).decided
  | longLong v =>
    have low := v.le_toInt
    have high := v.toInt_lt
    exact (inserted_formatInteger inside (by omega)).decided
  | unsignedLongLong v => exact (natural (Nat.lt_trans v.toNat_lt (by decide))).decided
  | pointer p => exact (inserted_insertPointer inside p).decided
  | double text => exact (inserted_insertDouble inside short).decided
  | char v => exact (inserted_append inside fun _ => Nat.le_refl 1).decided
  | cString str =>
    cases str with
    | none => exact (inserted_append inside fun _ => Nat.le_refl 6).decided
    | some str => exact (inserted_cString inside str).decided
  | string v =>
    have inserted := inserted_append inside fun _ => Nat.le_refl v.length
    rw [List.take_length] at inserted
    exact inserted.decided
  | stringPiece v => exact (inserted_piece inside v).decided
  | append data => exact (inserted_piece inside data).decided

theorem allOrNothing_insert (inside : Inside s) {piece : Piece} (short : Short piece) :
    AllOrNothing s (fullText piece) (s.insert piece) := by
  obtain ⟨s', inserted, inside', ⟨-, content⟩ | ⟨-, same⟩⟩ := inserted_insert inside short
  · exact ⟨s', inserted, inside', .inr content⟩
  · exact ⟨s', inserted, inside', .inl same⟩

end Insertion

/-! ## The content of a stream -/

/-- A content after one more piece. -/
def inserted (content : List UInt8) (piece : Piece) : List UInt8 :=
  if admits content.length piece then content ++ fullText piece else content

/-- `<<` after `<<`. -/
def insertAll (s : LogStream) : List Piece → Option LogStream
  | [] => some s
  | piece :: rest => do
    let s' ← s.insert piece
    insertAll s' rest

/-- The stream is inside its array and has this content. -/
structure Contains (s : LogStream) (content : List UInt8) : Prop where
  inside : Inside s
  content : s.buffer_.toString = content

section Content
variable {s : LogStream} {content : List UInt8}

theorem contains_new {memory : List UInt8} (size : memory.length = kSmallBuffer) :
    Contains (.new memory) [] := ⟨⟨size, (by decide : 0 < kSmallBuffer)⟩, rfl⟩

theorem Contains.length (contains : Contains s content) : s.buffer_.cur_ = content.length := by
  have size := contains.inside.size
  have room := contains.inside.room
  rw [← contains.content, FixedBuffer.toString, List.length_take]
  omega

theorem Contains.insert (contains : Contains s content) {piece : Piece} (short : Short piece) :
    ∃ s', s.insert piece = some s' ∧ Contains s' (inserted content piece) := by
  obtain ⟨s', done, inside', ⟨admitted, whole⟩ | ⟨refused, rfl⟩⟩ :=
    inserted_insert contains.inside short
  · rw [contains.length] at admitted
    refine ⟨s', done, inside', ?_⟩
    rw [inserted, if_pos admitted, whole, contains.content]
  · rw [contains.length] at refused
    refine ⟨s', done, inside', ?_⟩
    rw [inserted, if_neg refused, contains.content]

theorem Contains.insertAll (contains : Contains s content) {pieces : List Piece}
    (short : ∀ piece ∈ pieces, Short piece) :
    ∃ s', insertAll s pieces = some s' ∧ Contains s' (pieces.foldl inserted content) := by
  induction pieces generalizing s content with
  | nil => exact ⟨s, rfl, contains⟩
  | cons piece rest ih =>
    obtain ⟨t, done, contains'⟩ := contains.insert (short piece List.mem_cons_self)
    obtain ⟨s', others, whole⟩ := ih contains' fun other mem => short other (.tail _ mem)
    refine ⟨s', ?_, whole⟩
    rw [LogStreams.insertAll, done]
    exact others

/-- Every piece is admitted behind the ones before it, if it has a text at all. -/
def AllAdmitted : Nat → List Piece → Prop
  | _, [] => True
  | length, piece :: rest =>
    (admits length piece = true ∨ fullText piece = []) ∧
      AllAdmitted (length + (fullText piece).length) rest

theorem length_inserted_le (content : List UInt8) (piece : Piece) :
    (inserted content piece).length ≤ content.length + (fullText piece).length := by
  rw [inserted]
  split
  · exact Nat.le_of_eq List.length_append
  · exact Nat.le_add_right _ _

theorem length_foldl_inserted_le (content : List UInt8) (pieces : List Piece) :
    (pieces.foldl inserted content).length ≤
      content.length + (pieces.flatMap fullText).length := by
  induction pieces generalizing content with
  | nil => exact Nat.le_refl _
  | cons piece rest ih =>
    have first := length_inserted_le content piece
    have others := ih (inserted content piece)
    rw [List.foldl_cons, List.flatMap_cons, List.length_append]
    omega

/-- All texts are written exactly when all pieces are admitted. -/
theorem foldl_inserted_iff (content : List UInt8) (pieces : List Piece) :
    pieces.foldl inserted content = content ++ pieces.flatMap fullText ↔
      AllAdmitted content.length pieces := by
  induction pieces generalizing content with
  | nil => simp [AllAdmitted]
  | cons piece rest ih =>
    rw [List.foldl_cons, List.flatMap_cons, ← List.append_assoc, AllAdmitted]
    by_cases written : admits content.length piece = true ∨ fullText piece = []
    · have here : inserted content piece = content ++ fullText piece := by
        rw [inserted]
        split
        · rfl
        · rename_i refused
          rw [written.resolve_left refused, List.append_nil]
      rw [here, ih, List.length_append, and_iff_right written]
    · have refused : inserted content piece = content :=
        if_neg fun admitted => written (.inl admitted)
      have text := List.length_pos_iff.mpr fun empty => written (.inr empty)
      have short := length_foldl_inserted_le content rest
      constructor
      · intro whole
        rw [refused] at whole
        rw [whole, List.length_append, List.length_append] at short
        omega
      · intro all
        exact absurd all.1 written

/-- With one byte left nothing more is written, whatever is inserted. -/
theorem inserted_full {content : List UInt8} (full : content.length + 1 = kSmallBuffer)
    (piece : Piece) : inserted content piece = content := by
  have capacity : kSmallBuffer = 4000 := rfl
  have reserve : LogStream.kMaxNumericSize = 32 := rfl
  rw [inserted]
  split
  · rename_i admitted
    have short : (fullText piece).length = 0 := by
      cases piece with
      | cString str =>
        cases str with
        | none =>
          simp only [admits, decide_eq_true_eq] at admitted
          omega
        | some str =>
          simp only [admits, decide_eq_true_eq] at admitted
          omega
      | _ =>
        simp only [admits, decide_eq_true_eq] at admitted
        simp only [fullText]
        omega
    rw [List.eq_nil_of_length_eq_zero short, List.append_nil]
  · rfl

theorem foldl_inserted_full {content : List UInt8} (full : content.length + 1 = kSmallBuffer)
    (pieces : List Piece) : pieces.foldl inserted content = content := by
  induction pieces with
  | nil => rfl
  | cons piece rest ih => rw [List.foldl_cons, inserted_full full, ih]

/-- Some bytes of an array are appended like a string of these bytes. -/
theorem append_eq_insert (s : LogStream) {buf : List UInt8} {len : Nat}
    (enough : len ≤ buf.length) : s.append buf len = s.insert (.string (buf.take len)) := by
  have length : (buf.take len).length = len := by
    rw [List.length_take]
    omega
  rw [LogStream.insert, length, LogStream.append, LogStream.append, FixedBuffer.append,
    FixedBuffer.append, List.take_take, Nat.min_self]

theorem insertAll_append (s : LogStream) (first last : List Piece) :
    LogStreams.insertAll s (first ++ last) =
      (LogStreams.insertAll s first).bind fun s' => LogStreams.insertAll s' last := by
  induction first generalizing s with
  | nil => rfl
  | cons piece rest ih =>
    simp only [List.cons_append, LogStreams.insertAll, Option.bind_eq_bind, Option.bind_assoc, ih]

end Content

/-! ## Runs -/

/-- The content is some of these texts, in their order. -/
structure Holds (s : LogStream) (texts : List (List UInt8)) : Prop where
  inside : Inside s
  content : ∃ kept : List (List UInt8), kept.Sublist texts ∧
    s.buffer_.toString = kept.flatten

/-- The pieces that have a text of their own have a short one. -/
def Op.Short : Op → Prop
  | .insert piece => LogStreams.Short piece
  | .resetBuffer => True

theorem step_holds {s : LogStream} {texts : List (List UInt8)} (holds : Holds s texts) {op : Op}
    (short : op.Short) : ∃ s', step s op = some s' ∧ Holds s' (textsSince texts [op]) := by
  obtain ⟨inside, kept, among, content⟩ := holds
  cases op with
  | insert piece =>
    obtain ⟨s', inserted, inside', rfl | added⟩ := allOrNothing_insert inside short
    · exact ⟨s', inserted, inside', kept, among.trans (List.sublist_append_left _ _), content⟩
    · refine ⟨s', inserted, inside', kept ++ [fullText piece], among.append_right _, ?_⟩
      rw [added, content, List.flatten_append, List.flatten_singleton]
  | resetBuffer =>
    refine ⟨s.resetBuffer, rfl, ⟨inside.size, ?_⟩, [], List.nil_sublist _, rfl⟩
    exact Nat.lt_of_le_of_lt (Nat.zero_le _) inside.room

theorem run_holds {s : LogStream} {texts : List (List UInt8)} (holds : Holds s texts)
    {ops : List Op} (short : ∀ op ∈ ops, op.Short) :
    ∃ s', run s ops = some s' ∧ Holds s' (textsSince texts ops) := by
  induction ops generalizing s texts with
  | nil => exact ⟨s, rfl, holds⟩
  | cons op rest ih =>
    obtain ⟨t, stepped, holds'⟩ := step_holds holds (short op List.mem_cons_self)
    obtain ⟨s', ran, whole⟩ := ih holds' fun other mem => short other (.tail _ mem)
    refine ⟨s', ?_, ?_⟩
    · rw [run, stepped]
      exact ran
    · cases op <;> exact whole

/-- Whatever is inserted and reset, every store is inside the array, the position stays
before its end, and the content is made of whole texts inserted since the last reset. -/
theorem whole_texts_inside_array {memory : List UInt8} (size : memory.length = kSmallBuffer)
    {ops : List Op} (short : ∀ op ∈ ops, op.Short) :
    ∃ s, run (.new memory) ops = some s ∧ s.buffer_.avail ≥ 1 ∧
      s.buffer_.data_.length = kSmallBuffer ∧
      ∃ kept : List (List UInt8), kept.Sublist (textsSince [] ops) ∧
        s.buffer_.toString = kept.flatten := by
  have start : Holds (.new memory) [] :=
    ⟨⟨size, (by decide : 0 < kSmallBuffer)⟩, [], List.Sublist.refl [], rfl⟩
  obtain ⟨s, ran, inside, content⟩ := run_holds start short
  refine ⟨s, ran, ?_, inside.size, content⟩
  have room := inside.room
  rw [avail_eq inside]
  omega

/-- A number, a `double` and, after a reset, two of the smallest pieces. -/
theorem whole_texts_after_reset :
    ∃ s, run (.new (List.replicate kSmallBuffer 7)) [.insert (.int (-5)),
        .insert (.double (literal "1.5")), .resetBuffer, .insert (.cString none),
        .insert (.bool true)] = some s ∧ s.buffer_.avail ≥ 1 ∧
      s.buffer_.data_.length = kSmallBuffer ∧
      ∃ kept : List (List UInt8), kept.Sublist [literal "(null)", literal "1"] ∧
        s.buffer_.toString = kept.flatten := by
  refine whole_texts_inside_array List.length_replicate ?_
  intro op mem
  simp only [List.mem_cons, List.not_mem_nil, or_false] at mem
  rcases mem with rfl | rfl | rfl | rfl | rfl
  · trivial
  · exact (by decide : (literal "1.5").length < LogStream.kMaxNumericSize)
  · trivial
  · trivial
  · trivial

end LogStreams
