import Arale.Base.LogStream

/-!
# Numbers in the log

What `convert` and `convertHex` write, against the numerals of the numbers. `convert` divides
the signed value itself: the remainders of a negative one are negative, and are looked up in
a table with the digits on both sides of its zero. So nothing is negated, and the least value
of a type is written like any other.
-/

namespace LogNumbers

open Arale Memory LogStreams

def decimalDigit (d : Nat) : UInt8 := .ofNat (48 + d)

def hexDigit (d : Nat) : UInt8 := if d < 10 then .ofNat (48 + d) else .ofNat (55 + d)

/-- The numeral of an integer, with a minus sign in front of a negative one. -/
def Decimal (value : Int) (text : List UInt8) : Prop :=
  ∃ digits, Format.Numeral 10 decimalDigit value.natAbs digits ∧
    text = Format.sign value ++ digits

/-- The numeral of `value` is what is stored, with a NUL behind it and nothing else. -/
structure Converted (value : Int) (text : List UInt8) : Prop where
  numeral : Decimal value text
  short : (text ++ [0]).length ≤ 21
  convert : ∀ mem buf, buf + 21 ≤ mem.length → ∃ mem', store mem buf (text ++ [0]) = some mem' ∧
    Arale.convert mem buf value = some (mem', text.length)
  formatInteger : ∀ s : LogStream, s.buffer_.avail ≥ LogStream.kMaxNumericSize →
    ∃ data, store s.buffer_.data_ s.buffer_.cur_ (text ++ [0]) = some data ∧
      s.formatInteger value = some ⟨⟨data, s.buffer_.cur_ + text.length⟩⟩

/-- The same to the base 16, with `0x` in front of it in the stream. -/
structure ConvertedHex (value : UInt64) (text : List UInt8) : Prop where
  numeral : Format.Numeral 16 hexDigit value.toNat text
  short : (literal "0x" ++ text ++ [0]).length ≤ 19
  convertHex : ∀ mem buf, buf + 17 ≤ mem.length →
    ∃ mem', store mem buf (text ++ [0]) = some mem' ∧
      Arale.convertHex mem buf value = some (mem', text.length)
  insertPointer : ∀ s : LogStream, s.buffer_.avail ≥ LogStream.kMaxNumericSize →
    ∃ data, store s.buffer_.data_ s.buffer_.cur_ (literal "0x" ++ text ++ [0]) = some data ∧
      s.insertPointer value =
        some ⟨⟨data, s.buffer_.cur_ + (literal "0x" ++ text).length⟩⟩

/-! ## The texts are numerals -/

theorem decimalText_numeral (value : Int) : Decimal value (decimalText value) := by
  have symbols : ∀ d < 10, (Nat.digitChar d).toNat.toUInt8 = decimalDigit d := by decide
  exact ⟨_, Format.numeral_of_symbols (by decide) symbols value.natAbs, rfl⟩

theorem hexText_numeral (value : Nat) : Format.Numeral 16 hexDigit value (hexText value) := by
  have symbols : ∀ d < 16, capital (Nat.digitChar d) = hexDigit d := by decide
  exact Format.numeral_of_symbols (by decide) symbols value

/-- A reserve inside the array. -/
theorem reserved {s : LogStream} (admitted : s.buffer_.avail ≥ LogStream.kMaxNumericSize) :
    s.buffer_.cur_ + 32 ≤ s.buffer_.data_.length := by
  simp only [FixedBuffer.avail, LogStream.kMaxNumericSize] at admitted
  omega

theorem converted {value : Int} (short : (decimalText value ++ [0]).length ≤ 21) :
    Converted value (decimalText value) where
  numeral := decimalText_numeral value
  short := short
  convert mem buf room := by
    obtain ⟨mem', stored⟩ := store_isSome mem buf (decimalText value ++ [0]) (by omega)
    refine ⟨mem', stored, ?_⟩
    rw [convert_eq, stored, Option.map_some]
  formatInteger s admitted := by
    have room := reserved admitted
    obtain ⟨data, stored⟩ :=
      store_isSome s.buffer_.data_ s.buffer_.cur_ (decimalText value ++ [0]) (by omega)
    refine ⟨data, stored, ?_⟩
    rw [LogStream.formatInteger, if_pos admitted, convert_eq, stored]
    rfl

theorem convertedHex (value : UInt64) : ConvertedHex value (hexText value.toNat) where
  numeral := hexText_numeral value.toNat
  short := by
    have length := length_hexText value
    have mark : (literal "0x").length = 2 := rfl
    simp only [List.length_append, List.length_singleton, mark]
    omega
  convertHex mem buf room := by
    have length := length_hexText value
    have size : (hexText value.toNat ++ [0]).length = (hexText value.toNat).length + 1 :=
      List.length_append
    obtain ⟨mem', stored⟩ := store_isSome mem buf (hexText value.toNat ++ [0]) (by omega)
    refine ⟨mem', stored, ?_⟩
    rw [convertHex_eq, stored, Option.map_some]
  insertPointer s admitted := by
    have room := reserved admitted
    have length := length_hexText value
    have mark := length_marked value.toNat
    obtain ⟨data, stored⟩ := store_isSome s.buffer_.data_ s.buffer_.cur_
      (literal "0x" ++ hexText value.toNat ++ [0]) (by
        rw [List.length_append, List.length_singleton]
        omega)
    refine ⟨data, stored, ?_⟩
    obtain ⟨first, second, zeroStored, xStored, rest⟩ := stored_marked stored
    rw [LogStream.insertPointer, if_pos admitted, mark]
    simp only [zeroStored, xStored, convertHex_eq, rest, Option.bind_eq_bind, Option.bind_some,
      Option.map_some]
    rfl

/-- A natural number of at most twenty digits has no sign, and a negative integer of nineteen
has room for one. -/
theorem length_converted {value : Int} (low : -10 ^ 19 < value) (high : value < 10 ^ 20) :
    (decimalText value ++ [0]).length ≤ 21 := by
  rw [List.length_append, List.length_singleton, decimalText, List.length_append]
  by_cases negative : value < 0
  · have digits := Format.length_decimal_le (n := value.natAbs) (k := 19) (by decide) (by omega)
    have sign : (literal "-").length = 1 := rfl
    rw [if_pos negative]
    omega
  · have digits := Format.length_decimal_le (n := value.natAbs) (k := 20) (by decide) (by omega)
    rw [if_neg negative, List.length_nil]
    omega

theorem converted_of_bounds {value : Int} (low : -2 ^ 63 ≤ value) (high : value < 2 ^ 64) :
    ∃ text, Converted value text :=
  ⟨_, converted (length_converted (by omega) (by omega))⟩

/-- Every value of the integer types is written as its numeral, in 21 bytes at most, and every
pointer as its hexadecimal numeral, in 19 bytes at most. -/
theorem integers_written_exactly :
    (∀ v : Int32, ∃ text, Converted v.toInt text) ∧
    (∀ v : UInt32, ∃ text, Converted v.toNat text) ∧
    (∀ v : Int64, ∃ text, Converted v.toInt text) ∧
    (∀ v : UInt64, ∃ text, Converted v.toNat text) ∧
    (∀ v : UInt64, ∃ text, ConvertedHex v text) ∧
    21 ≤ LogStream.kMaxNumericSize ∧ 19 ≤ LogStream.kMaxNumericSize := by
  refine ⟨?_, ?_, ?_, ?_, ?_, by decide, by decide⟩
  · intro v
    have low := v.le_toInt
    have high := v.toInt_lt
    exact converted_of_bounds (by omega) (by omega)
  · intro v
    have high := v.toNat_lt
    exact converted_of_bounds (by omega) (by omega)
  · intro v
    have high := v.toInt_lt
    exact converted_of_bounds v.le_toInt (by omega)
  · intro v
    have high := v.toNat_lt
    exact converted_of_bounds (by omega) (by omega)
  · intro v
    exact ⟨_, convertedHex v⟩

/-- The least value, which has no negation in its type. -/
example : decimalText Int64.minValue.toInt = literal "-9223372036854775808" := by decide

end LogNumbers
