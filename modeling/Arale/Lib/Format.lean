import Mathlib.Algebra.Group.Nat.Defs
import Mathlib.Data.List.Basic

/-!
# Text formatted into a fixed buffer

Decimal numbers as bytes, and what `snprintf` leaves in a buffer of a given size. The
lemmas are about names built that way: numbers are told apart by their digits, and a
text that fits is not cut. A numeral is canonical: its digits have the value of the number
and no zero stands in front of them.
-/

namespace Format

/-- `%d` and `%u` of a non-negative number. -/
def decimal (n : Nat) : List UInt8 := (Nat.toDigits 10 n).map fun c => c.toNat.toUInt8

/-- The text a buffer of `size` bytes holds; its last byte is the terminator. -/
def snprintf (size : Nat) (text : List UInt8) : List UInt8 := text.take (size - 1)

theorem snprintf_of_lt {size : Nat} {text : List UInt8} (fits : text.length < size) :
    snprintf size text = text :=
  List.take_of_length_le (by omega)

theorem length_decimal_le {n k : Nat} (positive : 0 < k) (small : n < 10 ^ k) :
    (decimal n).length ≤ k := by
  rw [decimal, List.length_map]
  exact (Nat.length_toDigits_le_iff (by decide) positive).mpr small

/-- A digit is read back from its byte. -/
theorem digit_of_byte {c : Char} (digit : c.isDigit = true) :
    Char.ofNat (c.toNat.toUInt8).toNat = c := by
  have small : c.toNat < 256 := by
    have below : c.toNat ≤ 57 := (Char.isDigit_iff_toNat.mp digit).2
    omega
  rw [Nat.toUInt8, UInt8.toNat_ofNat', Nat.mod_eq_of_lt small]
  exact Char.ofNat_toNat c

theorem decimal_injective : Function.Injective decimal := by
  intro a b same
  have digits (n : Nat) : (decimal n).map (fun b => Char.ofNat b.toNat) = Nat.toDigits 10 n := by
    rw [decimal, List.map_map]
    refine (List.map_congr_left fun c mem => ?_).trans (List.map_id _)
    exact digit_of_byte (Nat.isDigit_of_mem_toDigits (by decide) (by decide) mem)
  have sameDigits : Nat.toDigits 10 a = Nat.toDigits 10 b := by
    rw [← digits a, same, digits b]
  calc
    a = Nat.ofDigitChars 10 (Nat.toDigits 10 a) 0 := Nat.ofDigitChars_ten_toDigits.symm
    _ = Nat.ofDigitChars 10 (Nat.toDigits 10 b) 0 := by rw [sameDigits]
    _ = b := Nat.ofDigitChars_ten_toDigits

/-! ## Widths -/

def pad (width : Nat) (fill : UInt8) (text : List UInt8) : List UInt8 :=
  List.replicate (width - text.length) fill ++ text

def sign (n : Int) : List UInt8 := if n < 0 then [45] else []

/-- `%4d` and the like: spaces in front. -/
def spaced (width : Nat) (n : Int) : List UInt8 := pad width 32 (sign n ++ decimal n.natAbs)

/-- `%02d` and the like: zeros behind the sign. -/
def zeroed (width : Nat) (n : Int) : List UInt8 :=
  sign n ++ pad (width - (sign n).length) 48 (decimal n.natAbs)

/-- `snprintf` into an array, whose bytes behind the terminator stay as they were. -/
def printed (array text : List UInt8) : List UInt8 :=
  snprintf array.length text ++ 0 :: array.drop ((snprintf array.length text).length + 1)

theorem length_decimal_pos (n : Nat) : 0 < (decimal n).length := by
  rw [decimal, List.length_map]
  exact Nat.length_toDigits_pos

theorem length_signed_le {n : Int} {k : Nat} (positive : 0 < k) (small : n.natAbs < 10 ^ k) :
    (sign n ++ decimal n.natAbs).length ≤ k + 1 := by
  have digits := length_decimal_le positive small
  have signed : (sign n).length ≤ 1 := by
    rw [sign]
    split <;> decide
  rw [List.length_append]
  omega

theorem le_length_pad (width : Nat) (fill : UInt8) (text : List UInt8) :
    width ≤ (pad width fill text).length := by
  rw [pad, List.length_append, List.length_replicate]
  omega

theorem le_length_spaced (width : Nat) (n : Int) : width ≤ (spaced width n).length :=
  le_length_pad width 32 _

theorem le_length_zeroed (width : Nat) (n : Int) : width ≤ (zeroed width n).length := by
  have padded := le_length_pad (width - (sign n).length) 48 (decimal n.natAbs)
  rw [zeroed, List.length_append]
  omega

theorem length_zeroed_le {n : Int} {k : Nat} (positive : 0 < k) (small : n.natAbs < 10 ^ k) :
    (zeroed k n).length ≤ k + 1 := by
  have digits := length_decimal_le positive small
  have signed : (sign n).length ≤ 1 := by
    rw [sign]
    split <;> decide
  rw [zeroed, pad, List.length_append, List.length_append, List.length_replicate]
  omega

theorem digit_byte_ne_zero {n : Nat} {c : Char} (mem : c ∈ Nat.toDigits 10 n) :
    c.toNat.toUInt8 ≠ 0 := by
  have digit := Nat.isDigit_of_mem_toDigits (by decide) (by decide) mem
  have low : 48 ≤ c.toNat := (Char.isDigit_iff_toNat.mp digit).1
  have high : c.toNat ≤ 57 := (Char.isDigit_iff_toNat.mp digit).2
  intro zero
  have number : c.toNat.toUInt8.toNat = 0 := by rw [zero]; rfl
  rw [Nat.toUInt8, UInt8.toNat_ofNat'] at number
  omega

/-- No byte of a number is a terminator. -/
theorem zero_not_mem_spaced (width : Nat) (n : Int) : 0 ∉ spaced width n := by
  intro mem
  rw [spaced, pad, List.mem_append, List.mem_append] at mem
  rcases mem with mem | mem | mem
  · exact absurd (List.eq_of_mem_replicate mem) (by decide)
  · rw [sign] at mem
    split at mem
    · exact absurd (List.mem_singleton.mp mem) (by decide)
    · cases mem
  · obtain ⟨c, digit, zero⟩ := List.mem_map.mp mem
    exact digit_byte_ne_zero digit zero

theorem length_printed {array : List UInt8} (room : 0 < array.length) (text : List UInt8) :
    (printed array text).length = array.length := by
  have cut : (snprintf array.length text).length ≤ array.length - 1 := List.length_take_le _ _
  rw [printed, List.length_append, List.length_cons, List.length_drop]
  omega

/-- The front of an array after a text that is at least as long. -/
theorem take_printed {array text : List UInt8} {n : Nat} (room : n < array.length)
    (long : n ≤ text.length) : (printed array text).take n = text.take n := by
  have kept : n ≤ (snprintf array.length text).length := by
    rw [snprintf, List.length_take]
    omega
  rw [printed, List.take_append_of_le_length kept, snprintf, List.take_take, Nat.min_eq_left]
  omega

/-! ## Numbers read back -/

/-- The byte of a digit. -/
def digitByte (d : Nat) : UInt8 := (Nat.digitChar d).toNat.toUInt8

theorem toNat_digitByte {d : Nat} (small : d < 10) : (digitByte d).toNat = 48 + d := by
  have cases10 : d = 0 ∨ d = 1 ∨ d = 2 ∨ d = 3 ∨ d = 4 ∨ d = 5 ∨ d = 6 ∨ d = 7 ∨ d = 8 ∨
      d = 9 := by omega
  rcases cases10 with rfl | rfl | rfl | rfl | rfl | rfl | rfl | rfl | rfl | rfl <;> rfl

theorem decimal_digit {n : Nat} (small : n < 10) : decimal n = [digitByte n] := by
  rw [decimal, Nat.toDigits_eq_if (by decide), if_pos small]
  rfl

theorem decimal_concat {n : Nat} (long : ¬ n < 10) :
    decimal n = decimal (n / 10) ++ [digitByte (n % 10)] := by
  rw [decimal, Nat.toDigits_eq_if (by decide), if_neg long, List.map_append]
  rfl

theorem pad_zero (fill : UInt8) (text : List UInt8) : pad 0 fill text = text := by
  rw [pad, Nat.zero_sub]
  rfl

/-- A number read from its digits. -/
def readDigits (text : List UInt8) : Nat := text.foldl (fun n b => 10 * n + (b.toNat - 48)) 0

theorem readDigits_concat (text : List UInt8) (b : UInt8) :
    readDigits (text ++ [b]) = 10 * readDigits text + (b.toNat - 48) := by
  rw [readDigits, List.foldl_append]
  rfl

theorem readDigits_decimal (n : Nat) : readDigits (decimal n) = n := by
  induction n using Nat.strongRecOn with
  | ind n ih =>
    have last := toNat_digitByte (Nat.mod_lt n (by decide : 0 < 10))
    by_cases small : n < 10
    · rw [decimal_digit small, ← List.nil_append [digitByte n], readDigits_concat]
      rw [Nat.mod_eq_of_lt small] at last
      rw [last]
      simp [readDigits]
    · rw [decimal_concat small, readDigits_concat, ih (n / 10) (by omega), last]
      omega

/-- Zeros in front do not count. -/
theorem readDigits_pad (width n : Nat) : readDigits (pad width 48 (decimal n)) = n := by
  have zeros (k : Nat) (rest : List UInt8) :
      readDigits (List.replicate k 48 ++ rest) = readDigits rest := by
    induction k with
    | zero => rfl
    | succ k ih => exact ih
  rw [pad, zeros, readDigits_decimal]

theorem digit_of_mem_pad {width n : Nat} {b : UInt8} (mem : b ∈ pad width 48 (decimal n)) :
    48 ≤ b.toNat ∧ b.toNat ≤ 57 := by
  rw [pad, List.mem_append] at mem
  rcases mem with mem | mem
  · rw [List.eq_of_mem_replicate mem]
    decide
  · induction n using Nat.strongRecOn with
    | ind n ih =>
      have last := toNat_digitByte (Nat.mod_lt n (by decide : 0 < 10))
      by_cases small : n < 10
      · rw [decimal_digit small, List.mem_singleton] at mem
        rw [Nat.mod_eq_of_lt small] at last
        rw [mem]
        omega
      · rw [decimal_concat small, List.mem_append, List.mem_singleton] at mem
        rcases mem with mem | rfl
        · exact ih (n / 10) (by omega) mem
        · omega

/-- A number with its sign is read back, with zeros in front of its digits or without. -/
theorem signed_injective {v w : Nat} {m n : Int}
    (same : sign m ++ pad v 48 (decimal m.natAbs) = sign n ++ pad w 48 (decimal n.natAbs)) :
    m = n := by
  have minus {width k : Nat} {rest : List UInt8}
      (begins : 45 :: rest = pad width 48 (decimal k)) : False := by
    have digit := digit_of_mem_pad (begins ▸ List.mem_cons_self : (45 : UInt8) ∈ _)
    exact absurd digit.1 (by decide)
  by_cases first : m < 0
  · by_cases second : n < 0
    · rw [sign, sign, if_pos first, if_pos second] at same
      have number := congrArg readDigits (List.append_cancel_left same)
      rw [readDigits_pad, readDigits_pad] at number
      omega
    · rw [sign, sign, if_pos first, if_neg second] at same
      exact (minus same).elim
  · by_cases second : n < 0
    · rw [sign, sign, if_neg first, if_pos second] at same
      exact (minus same.symm).elim
    · rw [sign, sign, if_neg first, if_neg second] at same
      have number := congrArg readDigits (List.append_cancel_left same)
      rw [readDigits_pad, readDigits_pad] at number
      omega

/-! ## Numerals -/

/-- The value of digits, the most significant first. -/
def valueOf (base : Nat) (digits : List Nat) : Nat := digits.foldl (fun n d => base * n + d) 0

/-- The digits of a number, with no zero in front of others. -/
structure Digits (base n : Nat) (digits : List Nat) : Prop where
  small : ∀ d ∈ digits, d < base
  value : valueOf base digits = n
  nonempty : digits ≠ []
  lead : digits.head? = some 0 → digits = [0]

/-- A text is the numeral of a number, with a symbol for each digit. -/
def Numeral (base : Nat) (symbol : Nat → UInt8) (n : Nat) (text : List UInt8) : Prop :=
  ∃ digits, Digits base n digits ∧ text = digits.map symbol

theorem valueOf_concat (base : Nat) (digits : List Nat) (d : Nat) :
    valueOf base (digits ++ [d]) = base * valueOf base digits + d := by
  simp [valueOf]

theorem Digits.single {base n : Nat} (small : n < base) : Digits base n [n] where
  small d mem := by rwa [List.mem_singleton.mp mem]
  value := by simp [valueOf]
  nonempty := List.cons_ne_nil n []
  lead head := by rw [Option.some.inj head]

/-- One more digit, behind those of a number other than zero. -/
theorem Digits.concat {base n d : Nat} {digits : List Nat} (front : Digits base n digits)
    (positive : 0 < n) (small : d < base) : Digits base (base * n + d) (digits ++ [d]) where
  small e mem := by
    rcases List.mem_append.mp mem with mem | mem
    · exact front.small e mem
    · rwa [List.mem_singleton.mp mem]
  value := by rw [valueOf_concat, front.value]
  nonempty := List.append_ne_nil_of_left_ne_nil front.nonempty [d]
  lead head := by
    rw [List.head?_append_of_ne_nil digits front.nonempty] at head
    have value := front.value
    rw [front.lead head] at value
    have zero : valueOf base [0] = 0 := rfl
    omega

theorem toDigits_digits {base : Nat} (two : 1 < base) (n : Nat) :
    ∃ digits, Digits base n digits ∧ Nat.toDigits base n = digits.map Nat.digitChar := by
  induction n using Nat.strongRecOn with
  | ind n ih =>
    rw [Nat.toDigits_eq_if two]
    by_cases single : n < base
    · rw [if_pos single]
      exact ⟨[n], .single single, rfl⟩
    · have positive : 0 < n / base := Nat.div_pos (by omega) (by omega)
      obtain ⟨digits, front, written⟩ := ih (n / base) (Nat.div_lt_self (by omega) two)
      have whole := front.concat positive (Nat.mod_lt n (by omega))
      rw [Nat.div_add_mod] at whole
      refine ⟨_, whole, ?_⟩
      rw [if_neg single, written, List.map_append, List.map_singleton]

/-- The digits that `toDigits` gives, with other symbols for them. -/
theorem numeral_of_symbols {base : Nat} (two : 1 < base) {byte : Char → UInt8}
    {symbol : Nat → UInt8} (same : ∀ d < base, byte (Nat.digitChar d) = symbol d) (n : Nat) :
    Numeral base symbol n ((Nat.toDigits base n).map byte) := by
  obtain ⟨digits, whole, written⟩ := toDigits_digits two n
  refine ⟨digits, whole, ?_⟩
  rw [written, List.map_map]
  exact List.map_congr_left fun d mem => same d (whole.small d mem)

end Format
