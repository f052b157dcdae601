import Mathlib.Algebra.Group.Nat.Defs
import Mathlib.Data.List.Induction

/-!
# Words as bytes

Numbers by their digits to the base 256, the most significant first, and words of a fixed
width as a machine of either byte order keeps them in memory. Converting a word to network
order and storing it gives its digits whatever the order of the machine is, and loading
digits and converting back gives the number.
-/

namespace ByteOrder

/-- The number that bytes write, the most significant first. -/
def value (bytes : List UInt8) : Nat := bytes.foldl (fun n byte => 256 * n + byte.toNat) 0

/-- The last `width` digits of a number, the most significant first. -/
def digits : Nat → Nat → List UInt8
  | 0, _ => []
  | width + 1, n => digits width (n / 256) ++ [UInt8.ofNat n]

theorem value_concat (bytes : List UInt8) (byte : UInt8) :
    value (bytes ++ [byte]) = 256 * value bytes + byte.toNat := by
  simp [value]

@[simp] theorem length_digits (width n : Nat) : (digits width n).length = width := by
  induction width generalizing n with
  | zero => rfl
  | succ width ih => rw [digits, List.length_append, ih, List.length_singleton]

theorem value_lt (bytes : List UInt8) : value bytes < 256 ^ bytes.length := by
  induction bytes using List.reverseRecOn with
  | nil => decide
  | append_singleton bytes byte ih =>
    have small := byte.toNat_lt
    rw [value_concat, List.length_append, List.length_singleton, Nat.pow_succ]
    omega

theorem value_digits {width n : Nat} (small : n < 256 ^ width) : value (digits width n) = n := by
  induction width generalizing n with
  | zero =>
    rw [Nat.pow_zero] at small
    have zero : n = 0 := by omega
    rw [zero]
    rfl
  | succ width ih =>
    rw [Nat.pow_succ] at small
    rw [digits, value_concat, ih (by omega), UInt8.toNat_ofNat']
    omega

theorem digits_value (bytes : List UInt8) : digits bytes.length (value bytes) = bytes := by
  induction bytes using List.reverseRecOn with
  | nil => rfl
  | append_singleton bytes byte ih =>
    have small := byte.toNat_lt
    have high : (256 * value bytes + byte.toNat) / 256 = value bytes := by omega
    have low : UInt8.ofNat (256 * value bytes + byte.toNat) = byte := by
      apply UInt8.toNat_inj.mp
      rw [UInt8.toNat_ofNat']
      omega
    rw [List.length_append, List.length_singleton, digits, value_concat, high, low, ih]

/-! ## Machines -/

inductive Order where
  | little
  | big
  deriving DecidableEq, Repr

/-- The word of these bytes in the opposite order. -/
def swap (width n : Nat) : Nat := value (digits width n).reverse

namespace Order
variable (order : Order)

/-- The bytes of a word in memory. -/
def store (width n : Nat) : List UInt8 :=
  match order with
  | little => (digits width n).reverse
  | big => digits width n

/-- The word of some bytes of memory. -/
def load (bytes : List UInt8) : Nat :=
  match order with
  | little => value bytes.reverse
  | big => value bytes

/-- A word from host to network order, or back. -/
def network (width n : Nat) : Nat :=
  match order with
  | little => swap width n
  | big => n

@[simp] theorem length_store (width n : Nat) : (order.store width n).length = width := by
  cases order with
  | little => rw [store, List.length_reverse, length_digits]
  | big => exact length_digits width n

theorem store_network (width n : Nat) :
    order.store width (order.network width n) = digits width n := by
  cases order with
  | little =>
    have back := digits_value (digits width n).reverse
    rw [List.length_reverse, length_digits] at back
    rw [store, network, swap, back, List.reverse_reverse]
  | big => rfl

theorem network_load (bytes : List UInt8) :
    order.network bytes.length (order.load bytes) = value bytes := by
  cases order with
  | little =>
    have back := digits_value bytes.reverse
    rw [List.length_reverse] at back
    rw [network, load, swap, back, List.reverse_reverse]
  | big => rfl

/-- Digits that are loaded and converted are read as the number they write. -/
theorem network_load_digits {width n : Nat} (small : n < 256 ^ width) :
    order.network width (order.load (digits width n)) = n := by
  have loaded := order.network_load (digits width n)
  rwa [length_digits, value_digits small] at loaded

theorem load_digits_lt (width n : Nat) : order.load (digits width n) < 256 ^ width := by
  cases order with
  | little =>
    have bound := value_lt (digits width n).reverse
    rwa [List.length_reverse, length_digits] at bound
  | big =>
    have bound := value_lt (digits width n)
    rwa [length_digits] at bound

theorem network_lt {width n : Nat} (small : n < 256 ^ width) :
    order.network width n < 256 ^ width := by
  cases order with
  | little =>
    have bound := value_lt (digits width n).reverse
    rwa [List.length_reverse, length_digits] at bound
  | big => exact small

/-- The two conversions undo each other. -/
theorem network_network {width n : Nat} (small : n < 256 ^ width) :
    order.network width (order.network width n) = n := by
  cases order with
  | little =>
    have back := digits_value (digits width n).reverse
    rw [List.length_reverse, length_digits] at back
    rw [network, network, swap, swap, back, List.reverse_reverse, value_digits small]
  | big => rfl

end Order

/-! ## Types of words -/

/-- A type whose values are the numbers below `256 ^ width`. -/
structure Words (α : Type) (width : Nat) where
  toNat : α → Nat
  ofNat : Nat → α
  toNat_lt : ∀ x, toNat x < 256 ^ width
  ofNat_toNat : ∀ x, ofNat (toNat x) = x
  toNat_ofNat : ∀ n, n < 256 ^ width → toNat (ofNat n) = n

/-- Conversions that undo each other, and that turn the bytes of a word around on a machine
that does not have them in network order already. -/
structure ByteSwaps {α : Type} {width : Nat} (words : Words α width)
    (hostToNetwork networkToHost : Order → α → α) : Prop where
  back : ∀ order x, networkToHost order (hostToNetwork order x) = x
  forth : ∀ order x, hostToNetwork order (networkToHost order x) = x
  little : ∀ x, digits width (words.toNat (hostToNetwork .little x)) =
    (digits width (words.toNat x)).reverse
  big : ∀ x, hostToNetwork .big x = x

namespace Words
variable {α : Type} {width : Nat} (words : Words α width) (order : Order)

/-- A word from host to network order, or back. -/
def network (x : α) : α := words.ofNat (order.network width (words.toNat x))

theorem toNat_network (x : α) :
    words.toNat (words.network order x) = order.network width (words.toNat x) :=
  words.toNat_ofNat _ (order.network_lt (words.toNat_lt x))

/-- In memory a converted word is the digits of the word. -/
theorem store_network (x : α) :
    order.store width (words.toNat (words.network order x)) = digits width (words.toNat x) := by
  rw [toNat_network, Order.store_network]

theorem network_load (x : α) :
    words.network order (words.ofNat (order.load (digits width (words.toNat x)))) = x := by
  have small := order.load_digits_lt width (words.toNat x)
  rw [network, words.toNat_ofNat _ small, order.network_load_digits (words.toNat_lt x),
    words.ofNat_toNat]

theorem network_network (x : α) : words.network order (words.network order x) = x := by
  rw [network, toNat_network, order.network_network (words.toNat_lt x), words.ofNat_toNat]

theorem byteSwaps : ByteSwaps words words.network words.network where
  back := words.network_network
  forth := words.network_network
  little x := by
    have stored := words.store_network .little x
    rw [Order.store] at stored
    rw [← stored, List.reverse_reverse]
  big := words.ofNat_toNat

end Words

end ByteOrder
