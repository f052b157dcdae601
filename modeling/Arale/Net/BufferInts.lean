import Mathlib.Algebra.GroupWithZero.Nat
import Arale.Lib.ByteOrder
import Arale.Net.Buffer

/-!
# Integers in the buffer

The typed part of `Buffer` and the conversions of `net/Endian.h`, on a machine of either
byte order. An integer is appended, prepended and read by its bytes in network order, so
that lists of integers of any widths come back as they went in.
-/

namespace Arale

open ByteOrder

namespace sockets
variable (order : Order)

def hostToNetwork16 (host16 : UInt16) : UInt16 := .ofNat (order.network 2 host16.toNat)
def hostToNetwork32 (host32 : UInt32) : UInt32 := .ofNat (order.network 4 host32.toNat)
def hostToNetwork64 (host64 : UInt64) : UInt64 := .ofNat (order.network 8 host64.toNat)
def networkToHost16 (net16 : UInt16) : UInt16 := .ofNat (order.network 2 net16.toNat)
def networkToHost32 (net32 : UInt32) : UInt32 := .ofNat (order.network 4 net32.toNat)
def networkToHost64 (net64 : UInt64) : UInt64 := .ofNat (order.network 8 net64.toNat)

end sockets

namespace Buffer

open sockets

section Typed
variable (order : Order)

def appendInt8 (b : Buffer) (x : Int8) : Except Fault Buffer :=
  b.append (order.store 1 x.toUInt8.toNat)

def appendInt16 (b : Buffer) (x : Int16) : Except Fault Buffer :=
  let be16 := (hostToNetwork16 order x.toUInt16).toInt16
  b.append (order.store 2 be16.toUInt16.toNat)

def appendInt32 (b : Buffer) (x : Int32) : Except Fault Buffer :=
  let be32 := (hostToNetwork32 order x.toUInt32).toInt32
  b.append (order.store 4 be32.toUInt32.toNat)

def appendInt64 (b : Buffer) (x : Int64) : Except Fault Buffer :=
  let be64 := (hostToNetwork64 order x.toUInt64).toInt64
  b.append (order.store 8 be64.toUInt64.toNat)

def prependInt8 (b : Buffer) (data : Int8) : Except Fault Buffer :=
  b.prepend (order.store 1 data.toUInt8.toNat)

def prependInt16 (b : Buffer) (data : Int16) : Except Fault Buffer :=
  let be16 := (hostToNetwork16 order data.toUInt16).toInt16
  b.prepend (order.store 2 be16.toUInt16.toNat)

def prependInt32 (b : Buffer) (data : Int32) : Except Fault Buffer :=
  let be32 := (hostToNetwork32 order data.toUInt32).toInt32
  b.prepend (order.store 4 be32.toUInt32.toNat)

def prependInt64 (b : Buffer) (data : Int64) : Except Fault Buffer :=
  let be64 := (hostToNetwork64 order data.toUInt64).toInt64
  b.prepend (order.store 8 be64.toUInt64.toNat)

/-- `assert(readableBytes() >= sizeof(x))` and the `memcpy` from `peek()` into `x`. -/
def peekWord (b : Buffer) (size : Nat) : Except Fault Nat := do
  check (b.readableBytes ≥ size)
  .ok (order.load (b.readable.take size))

def peekInt8 (b : Buffer) : Except Fault Int8 := do
  check (b.readableBytes ≥ 1)
  .ok (b.readable.headD 0).toInt8

def peekInt16 (b : Buffer) : Except Fault Int16 := do
  let x ← b.peekWord order 2
  .ok (networkToHost16 order (.ofNat x)).toInt16

def peekInt32 (b : Buffer) : Except Fault Int32 := do
  let x ← b.peekWord order 4
  .ok (networkToHost32 order (.ofNat x)).toInt32

def peekInt64 (b : Buffer) : Except Fault Int64 := do
  let x ← b.peekWord order 8
  .ok (networkToHost64 order (.ofNat x)).toInt64

def retrieveInt8 (b : Buffer) : Except Fault Buffer := b.retrieve 1
def retrieveInt16 (b : Buffer) : Except Fault Buffer := b.retrieve 2
def retrieveInt32 (b : Buffer) : Except Fault Buffer := b.retrieve 4
def retrieveInt64 (b : Buffer) : Except Fault Buffer := b.retrieve 8

def readInt8 (b : Buffer) : Except Fault (Buffer × Int8) := do
  let res ← b.peekInt8
  let b' ← b.retrieveInt8
  .ok (b', res)

def readInt16 (b : Buffer) : Except Fault (Buffer × Int16) := do
  let res ← b.peekInt16 order
  let b' ← b.retrieveInt16
  .ok (b', res)

def readInt32 (b : Buffer) : Except Fault (Buffer × Int32) := do
  let res ← b.peekInt32 order
  let b' ← b.retrieveInt32
  .ok (b', res)

def readInt64 (b : Buffer) : Except Fault (Buffer × Int64) := do
  let res ← b.peekInt64 order
  let b' ← b.retrieveInt64
  .ok (b', res)

end Typed
end Buffer
end Arale

namespace BufferInts

open Arale ByteOrder

/-! ## Integers of mixed widths -/

inductive IntType where
  | int8
  | int16
  | int32
  | int64
  deriving DecidableEq, Repr

/-- `sizeof`. -/
def IntType.size : IntType → Nat
  | .int8 => 1
  | .int16 => 2
  | .int32 => 4
  | .int64 => 8

inductive Integer where
  | int8 (x : Int8)
  | int16 (x : Int16)
  | int32 (x : Int32)
  | int64 (x : Int64)
  deriving DecidableEq

namespace Integer

def type : Integer → IntType
  | .int8 _ => .int8
  | .int16 _ => .int16
  | .int32 _ => .int32
  | .int64 _ => .int64

def toInt : Integer → Int
  | .int8 x => x.toInt
  | .int16 x => x.toInt
  | .int32 x => x.toInt
  | .int64 x => x.toInt

/-- The bytes of its two's complement, the most significant first. -/
def bigEndian (x : Integer) : List UInt8 :=
  digits x.type.size (x.toInt % (256 ^ x.type.size : Nat)).toNat

variable (order : Order) (b : Buffer)

def append : Integer → Except Fault Buffer
  | .int8 x => b.appendInt8 order x
  | .int16 x => b.appendInt16 order x
  | .int32 x => b.appendInt32 order x
  | .int64 x => b.appendInt64 order x

def prepend : Integer → Except Fault Buffer
  | .int8 x => b.prependInt8 order x
  | .int16 x => b.prependInt16 order x
  | .int32 x => b.prependInt32 order x
  | .int64 x => b.prependInt64 order x

/-- The `readIntN` of a type. -/
def read : IntType → Except Fault (Buffer × Integer)
  | .int8 => b.readInt8.map fun (b', x) => (b', .int8 x)
  | .int16 => (b.readInt16 order).map fun (b', x) => (b', .int16 x)
  | .int32 => (b.readInt32 order).map fun (b', x) => (b', .int32 x)
  | .int64 => (b.readInt64 order).map fun (b', x) => (b', .int64 x)

end Integer

section Lists
variable (order : Order)

def appendAll (b : Buffer) : List Integer → Except Fault Buffer
  | [] => .ok b
  | x :: rest => do
    let b' ← x.append order b
    appendAll b' rest

def prependAll (b : Buffer) : List Integer → Except Fault Buffer
  | [] => .ok b
  | x :: rest => do
    let b' ← x.prepend order b
    prependAll b' rest

def readAll (b : Buffer) : List IntType → Except Fault (Buffer × List Integer)
  | [] => .ok (b, [])
  | type :: rest => do
    let (b', x) ← Integer.read order b type
    let (b'', xs) ← readAll b' rest
    .ok (b'', x :: xs)

end Lists

def totalSize (xs : List Integer) : Nat := (xs.map fun x => x.type.size).sum

/-- The bytes of a list, one integer after the other. -/
def encoded (xs : List Integer) : List UInt8 := xs.flatMap Integer.bigEndian

/-! ## The words of the conversions -/

def words16 : Words UInt16 2 where
  toNat := UInt16.toNat
  ofNat := UInt16.ofNat
  toNat_lt := UInt16.toNat_lt
  ofNat_toNat _ := UInt16.ofNat_toNat
  toNat_ofNat _ small := UInt16.toNat_ofNat'.trans (Nat.mod_eq_of_lt small)

def words32 : Words UInt32 4 where
  toNat := UInt32.toNat
  ofNat := UInt32.ofNat
  toNat_lt := UInt32.toNat_lt
  ofNat_toNat _ := UInt32.ofNat_toNat
  toNat_ofNat _ small := UInt32.toNat_ofNat'.trans (Nat.mod_eq_of_lt small)

def words64 : Words UInt64 8 where
  toNat := UInt64.toNat
  ofNat := UInt64.ofNat
  toNat_lt := UInt64.toNat_lt
  ofNat_toNat _ := UInt64.ofNat_toNat
  toNat_ofNat _ small := UInt64.toNat_ofNat'.trans (Nat.mod_eq_of_lt small)

/-- Four bytes that are loaded and converted are the number they write. -/
theorem networkToHost32_load (order : Order) {bytes : List UInt8} (four : bytes.length = 4) :
    (sockets.networkToHost32 order (.ofNat (order.load bytes))).toNat = value bytes := by
  have small := value_lt bytes
  rw [four] at small
  have back : digits 4 (value bytes) = bytes := by
    rw [← four]
    exact digits_value bytes
  have kept : (UInt32.ofNat (value bytes)).toNat = value bytes :=
    words32.toNat_ofNat _ small
  have round := words32.network_load order (.ofNat (value bytes))
  rw [show words32.toNat (.ofNat (value bytes)) = value bytes from kept, back] at round
  exact (congrArg UInt32.toNat round).trans kept

/-! ## One integer -/

/-- The bits of a word are its value modulo the range of the word. -/
theorem toNat_of_toInt {w : Nat} (x : BitVec w) :
    x.toNat = (x.toInt % (2 ^ w : Nat)).toNat := by
  have bound : (x.toNat : Int) < (2 ^ w : Nat) := Int.ofNat_lt.mpr x.isLt
  rw [BitVec.toInt_eq_toNat_bmod, Int.bmod_emod, Int.emod_eq_of_lt (Int.natCast_nonneg _) bound,
    Int.toNat_natCast]

@[simp] theorem bigEndian_int8 (x : Int8) :
    (Integer.int8 x).bigEndian = digits 1 x.toUInt8.toNat :=
  congrArg (digits 1) (toNat_of_toInt x.toBitVec).symm

@[simp] theorem bigEndian_int16 (x : Int16) :
    (Integer.int16 x).bigEndian = digits 2 x.toUInt16.toNat :=
  congrArg (digits 2) (toNat_of_toInt x.toBitVec).symm

@[simp] theorem bigEndian_int32 (x : Int32) :
    (Integer.int32 x).bigEndian = digits 4 x.toUInt32.toNat :=
  congrArg (digits 4) (toNat_of_toInt x.toBitVec).symm

@[simp] theorem bigEndian_int64 (x : Int64) :
    (Integer.int64 x).bigEndian = digits 8 x.toUInt64.toNat :=
  congrArg (digits 8) (toNat_of_toInt x.toBitVec).symm

theorem length_bigEndian (x : Integer) : x.bigEndian.length = x.type.size := by
  rw [Integer.bigEndian, length_digits]

section Bytes
variable (order : Order) (b : Buffer)

open sockets

/-! The memory of a converted integer, and an integer that is converted back from there. -/

theorem stored_int8 (x : Int8) : order.store 1 x.toUInt8.toNat = (Integer.int8 x).bigEndian := by
  rw [bigEndian_int8]
  cases order <;> rfl

theorem stored_int16 (x : Int16) :
    order.store 2 (hostToNetwork16 order x.toUInt16).toInt16.toUInt16.toNat =
      (Integer.int16 x).bigEndian := by
  rw [bigEndian_int16]
  exact words16.store_network order x.toUInt16

theorem stored_int32 (x : Int32) :
    order.store 4 (hostToNetwork32 order x.toUInt32).toInt32.toUInt32.toNat =
      (Integer.int32 x).bigEndian := by
  rw [bigEndian_int32]
  exact words32.store_network order x.toUInt32

theorem stored_int64 (x : Int64) :
    order.store 8 (hostToNetwork64 order x.toUInt64).toInt64.toUInt64.toNat =
      (Integer.int64 x).bigEndian := by
  rw [bigEndian_int64]
  exact words64.store_network order x.toUInt64

theorem loaded_int16 (x : Int16) :
    (networkToHost16 order (.ofNat (order.load (Integer.int16 x).bigEndian))).toInt16 = x := by
  rw [bigEndian_int16]
  exact congrArg UInt16.toInt16 (words16.network_load order x.toUInt16)

theorem loaded_int32 (x : Int32) :
    (networkToHost32 order (.ofNat (order.load (Integer.int32 x).bigEndian))).toInt32 = x := by
  rw [bigEndian_int32]
  exact congrArg UInt32.toInt32 (words32.network_load order x.toUInt32)

theorem loaded_int64 (x : Int64) :
    (networkToHost64 order (.ofNat (order.load (Integer.int64 x).bigEndian))).toInt64 = x := by
  rw [bigEndian_int64]
  exact congrArg UInt64.toInt64 (words64.network_load order x.toUInt64)

/-- An integer is appended as its bytes. -/
theorem append_eq (x : Integer) : x.append order b = b.append x.bigEndian := by
  cases x with
  | int8 x => exact congrArg b.append (stored_int8 order x)
  | int16 x => exact congrArg b.append (stored_int16 order x)
  | int32 x => exact congrArg b.append (stored_int32 order x)
  | int64 x => exact congrArg b.append (stored_int64 order x)

theorem prepend_eq (x : Integer) : x.prepend order b = b.prepend x.bigEndian := by
  cases x with
  | int8 x => exact congrArg b.prepend (stored_int8 order x)
  | int16 x => exact congrArg b.prepend (stored_int16 order x)
  | int32 x => exact congrArg b.prepend (stored_int32 order x)
  | int64 x => exact congrArg b.prepend (stored_int64 order x)

variable {b} {x : Integer} {rest : List UInt8}

theorem size_le_readableBytes (filled : b.readable.length = b.readableBytes)
    (front : b.readable = x.bigEndian ++ rest) : x.type.size ≤ b.readableBytes := by
  rw [← filled, front, List.length_append, length_bigEndian]
  omega

theorem peekWord_eq (filled : b.readable.length = b.readableBytes)
    (front : b.readable = x.bigEndian ++ rest) :
    b.peekWord order x.type.size = .ok (order.load x.bigEndian) := by
  have taken : b.readable.take x.type.size = x.bigEndian := by
    rw [front, ← length_bigEndian, List.take_left]
  rw [Buffer.peekWord, Buffer.bind_eq_ok]
  exact ⟨(), Buffer.check_eq_ok.mpr (size_le_readableBytes filled front), by rw [taken]⟩

/-- What is peeked and then retrieved has been read. -/
theorem read_of_peek {α : Type} {peek : Except Fault α} {retrieve : Except Fault Buffer}
    {value : α} {b' : Buffer} (wrap : α → Integer) (peeked : peek = .ok value)
    (retrieved : retrieve = .ok b') :
    (do
      let res ← peek
      let b' ← retrieve
      .ok (b', res) : Except Fault (Buffer × α)).map (Prod.map id wrap) = .ok (b', wrap value) := by
  rw [peeked, retrieved]
  rfl

/-- An integer at the front is read and removed. -/
theorem read_eq (filled : b.readable.length = b.readableBytes)
    (front : b.readable = x.bigEndian ++ rest) :
    ∃ b', Integer.read order b x.type = .ok (b', x) ∧ b'.readable = rest ∧
      b'.readable.length = b'.readableBytes := by
  have enough := size_le_readableBytes filled front
  have peeked := peekWord_eq order filled front
  obtain ⟨b', done, content, filled'⟩ := Buffer.retrieve_filled filled enough
  have left : b'.readable = rest := by
    rw [content, front, ← length_bigEndian, List.drop_left]
  refine ⟨b', ?_, left, filled'⟩
  cases x with
  | int8 x =>
    have first : b.readable.headD 0 = x.toUInt8 := by
      rw [front, bigEndian_int8]
      exact UInt8.ofNat_toNat
    have peek : b.peekInt8 = .ok x := by
      rw [Buffer.peekInt8, Buffer.bind_eq_ok]
      exact ⟨(), Buffer.check_eq_ok.mpr enough, by rw [first, Int8.toInt8_toUInt8]⟩
    exact read_of_peek .int8 peek done
  | int16 x =>
    have peek : b.peekInt16 order = .ok x := by
      rw [Buffer.peekInt16, Buffer.bind_eq_ok]
      exact ⟨_, peeked, congrArg Except.ok (loaded_int16 order x)⟩
    exact read_of_peek .int16 peek done
  | int32 x =>
    have peek : b.peekInt32 order = .ok x := by
      rw [Buffer.peekInt32, Buffer.bind_eq_ok]
      exact ⟨_, peeked, congrArg Except.ok (loaded_int32 order x)⟩
    exact read_of_peek .int32 peek done
  | int64 x =>
    have peek : b.peekInt64 order = .ok x := by
      rw [Buffer.peekInt64, Buffer.bind_eq_ok]
      exact ⟨_, peeked, congrArg Except.ok (loaded_int64 order x)⟩
    exact read_of_peek .int64 peek done

end Bytes

/-! ## Lists of integers -/

section RoundTrip
variable (order : Order)

theorem appendAll_eq {b : Buffer} (wf : b.Wf) {xs : List Integer}
    (fits : totalSize xs ≤ b.writableBytes) :
    ∃ b', appendAll order b xs = .ok b' ∧ b'.Wf ∧ b'.readable = b.readable ++ encoded xs := by
  induction xs generalizing b with
  | nil => exact ⟨b, rfl, wf, by simp [encoded]⟩
  | cons x rest ih =>
    have ordered := wf.ordered
    have inside := wf.inside
    have size := length_bigEndian x
    simp only [totalSize, List.map_cons, List.sum_cons, Buffer.writableBytes] at fits
    have first : x.bigEndian.length ≤ b.writableBytes := by
      simp only [Buffer.writableBytes]
      omega
    obtain ⟨mem, done, same, content⟩ := Buffer.append_in_place wf first
    have later : Buffer.Wf ⟨mem, b.readIndex, b.writeIndex + x.bigEndian.length⟩ :=
      ⟨by simp only; omega, by simp only; omega⟩
    obtain ⟨b', others, wf', whole⟩ := ih later (by
      simp only [totalSize, Buffer.writableBytes]
      omega)
    refine ⟨b', ?_, wf', ?_⟩
    · rw [appendAll, append_eq, Buffer.bind_eq_ok]
      exact ⟨_, done, others⟩
    · rw [whole, content, List.append_assoc]
      rfl

theorem prependAll_eq {b : Buffer} (wf : b.Wf) {xs : List Integer}
    (fits : totalSize xs ≤ b.prependableSize) :
    ∃ b', prependAll order b xs = .ok b' ∧ b'.Wf ∧
      b'.readable = encoded xs.reverse ++ b.readable := by
  induction xs generalizing b with
  | nil => exact ⟨b, rfl, wf, by simp [encoded]⟩
  | cons x rest ih =>
    have ordered := wf.ordered
    have inside := wf.inside
    have size := length_bigEndian x
    simp only [totalSize, List.map_cons, List.sum_cons, Buffer.prependableSize] at fits
    have first : x.bigEndian.length ≤ b.prependableSize := by
      simp only [Buffer.prependableSize]
      omega
    obtain ⟨mem, done, same, content⟩ := Buffer.prepend_in_place wf first
    have later : Buffer.Wf ⟨mem, b.readIndex - x.bigEndian.length, b.writeIndex⟩ :=
      ⟨by simp only; omega, by simp only; omega⟩
    obtain ⟨b', others, wf', whole⟩ := ih later (by
      simp only [totalSize, Buffer.prependableSize]
      omega)
    refine ⟨b', ?_, wf', ?_⟩
    · rw [prependAll, prepend_eq, Buffer.bind_eq_ok]
      exact ⟨_, done, others⟩
    · rw [whole, content]
      simp [encoded]

/-- Integers at the front are read in their order, and what follows them is left. -/
theorem readAll_eq {b : Buffer} (filled : b.readable.length = b.readableBytes)
    {xs : List Integer} {rest : List UInt8} (front : b.readable = encoded xs ++ rest) :
    ∃ b', readAll order b (xs.map Integer.type) = .ok (b', xs) ∧ b'.readable = rest ∧
      b'.readable.length = b'.readableBytes := by
  induction xs generalizing b with
  | nil => exact ⟨b, rfl, front, filled⟩
  | cons x others ih =>
    rw [encoded, List.flatMap_cons, List.append_assoc] at front
    obtain ⟨c, first, content, filled'⟩ := read_eq order filled front
    obtain ⟨b', later, left, filled''⟩ := ih filled' content
    refine ⟨b', ?_, left, filled''⟩
    simp only [List.map_cons, readAll, Buffer.bind_eq_ok]
    exact ⟨(c, x), first, (b', others), later, rfl⟩

/-- Integers that fit behind the content are read back after it, and integers that fit in
front of it are read back in the opposite order and leave it as it was. The conversions on
the way are byte swaps. -/
theorem integers_survive {b : Buffer} (wf : b.Wf) (xs : List Integer) :
    (totalSize xs ≤ b.writableBytes →
      ∃ appended retrieved finished, appendAll order b xs = .ok appended ∧
        appended.readable = b.readable ++ encoded xs ∧
        appended.retrieve b.readableBytes = .ok retrieved ∧
        readAll order retrieved (xs.map Integer.type) = .ok (finished, xs) ∧
        finished.readable = [] ∧ finished.readableBytes = 0) ∧
    (totalSize xs ≤ b.prependableSize →
      ∃ prepended finished, prependAll order b xs = .ok prepended ∧
        prepended.readable = encoded xs.reverse ++ b.readable ∧
        readAll order prepended (xs.reverse.map Integer.type) = .ok (finished, xs.reverse) ∧
        finished.readable = b.readable) ∧
    ByteSwaps words16 sockets.hostToNetwork16 sockets.networkToHost16 ∧
    ByteSwaps words32 sockets.hostToNetwork32 sockets.networkToHost32 ∧
    ByteSwaps words64 sockets.hostToNetwork64 sockets.networkToHost64 := by
  refine ⟨?_, ?_, words16.byteSwaps, words32.byteSwaps, words64.byteSwaps⟩
  · intro fits
    obtain ⟨appended, done, wf', content⟩ := appendAll_eq order wf fits
    have filled := Buffer.length_readable wf'
    have earlier := Buffer.length_readable wf
    have within : b.readableBytes ≤ appended.readableBytes := by
      rw [← filled, content, List.length_append]
      omega
    obtain ⟨retrieved, skipped, left, filled'⟩ := Buffer.retrieve_filled filled within
    have front : retrieved.readable = encoded xs ++ [] := by
      rw [left, content, ← earlier, List.drop_left, List.append_nil]
    obtain ⟨finished, read, nothing, filled''⟩ := readAll_eq order filled' front
    refine ⟨appended, retrieved, finished, done, content, skipped, read, nothing, ?_⟩
    rw [← filled'', nothing]
    rfl
  · intro fits
    obtain ⟨prepended, done, wf', content⟩ := prependAll_eq order wf fits
    obtain ⟨finished, read, left, -⟩ :=
      readAll_eq order (Buffer.length_readable wf') content
    exact ⟨prepended, finished, done, content, read, left⟩

/-- On a fresh buffer, with eight bytes of room in front. -/
theorem integers_survive_new :
    (∃ appended retrieved finished,
      appendAll .little .new [.int8 (-1), .int32 70000, .int16 (-2)] = .ok appended ∧
        appended.readable =
          Buffer.new.readable ++ encoded [.int8 (-1), .int32 70000, .int16 (-2)] ∧
        appended.retrieve Buffer.new.readableBytes = .ok retrieved ∧
        readAll .little retrieved [.int8, .int32, .int16] =
          .ok (finished, [.int8 (-1), .int32 70000, .int16 (-2)]) ∧
        finished.readable = [] ∧ finished.readableBytes = 0) ∧
    ∃ prepended finished,
      prependAll .little .new [.int8 (-1), .int32 70000, .int16 (-2)] = .ok prepended ∧
        prepended.readable =
          encoded [.int16 (-2), .int32 70000, .int8 (-1)] ++ Buffer.new.readable ∧
        readAll .little prepended [.int16, .int32, .int8] =
          .ok (finished, [.int16 (-2), .int32 70000, .int8 (-1)]) ∧
        finished.readable = Buffer.new.readable := by
  have survive := integers_survive .little Buffer.new_sound.toWf
    [.int8 (-1), .int32 70000, .int16 (-2)]
  refine ⟨survive.1 ?_, survive.2.1 (by decide)⟩
  rw [Buffer.writableBytes_new]
  decide

end RoundTrip

end BufferInts
