import Mathlib.Algebra.Group.Int.Defs

/-!
# Integer expressions that must not overflow

A value of a signed integer type is an integer between two bounds, and an expression has
no value once one of its parts has left them or a divisor is zero. Division truncates
towards zero. An expression whose operands are in bounds is rewritten, operation by
operation, into one integer whose bounds are left to be shown.
-/

/-- What an expression over integers between `lo` and `hi` evaluates to, if nothing in it
overflows. -/
structure Checked (lo hi : Int) where
  value : Option Int
  deriving DecidableEq, Repr

namespace Checked

variable {lo hi : Int}

def ofInt (x : Int) : Checked lo hi := ⟨if lo ≤ x ∧ x ≤ hi then some x else none⟩

instance (n : Nat) : OfNat (Checked lo hi) n := ⟨ofInt n⟩

/-- An operation without a value where either operand has none, or by itself. -/
def lift (f : Int → Int → Option Int) (x y : Checked lo hi) : Checked lo hi :=
  match x.value, y.value with
  | some x, some y => (f x y).elim ⟨none⟩ ofInt
  | _, _ => ⟨none⟩

instance : Add (Checked lo hi) := ⟨lift fun x y => some (x + y)⟩
instance : Sub (Checked lo hi) := ⟨lift fun x y => some (x - y)⟩
instance : Mul (Checked lo hi) := ⟨lift fun x y => some (x * y)⟩
instance : Div (Checked lo hi) := ⟨lift fun x y => if y = 0 then none else some (x.tdiv y)⟩
instance : Mod (Checked lo hi) :=
  ⟨lift fun x y => if y = 0 ∨ hi < x.tdiv y then none else some (x.tmod y)⟩

/-- A conversion to a type with other bounds wraps around. -/
def convert {lo' hi' : Int} (x : Checked lo hi) : Checked lo' hi' :=
  x.value.elim ⟨none⟩ fun x => ofInt (lo' + (x - lo') % (hi' + 1 - lo'))

/-- The condition `x < 0`, false of an expression without a value. -/
def isNegative (x : Checked lo hi) : Bool := x.value.any (· < 0)

section Values
variable {x y : Int}

theorem value_ofInt (low : lo ≤ x) (high : x ≤ hi) : (ofInt x : Checked lo hi).value = some x :=
  if_pos ⟨low, high⟩

theorem ofNat_eq (n : Nat) : (OfNat.ofNat n : Checked lo hi) = ofInt (OfNat.ofNat n) := rfl

theorem lift_ofInt {f : Int → Int → Option Int} {z : Int} (low : lo ≤ x) (high : x ≤ hi)
    (low' : lo ≤ y) (high' : y ≤ hi) (result : f x y = some z) :
    lift f (ofInt x : Checked lo hi) (ofInt y) = ofInt z := by
  rw [lift, value_ofInt low high, value_ofInt low' high']
  simp only [result, Option.elim]

theorem add_ofInt (low : lo ≤ x) (high : x ≤ hi) (low' : lo ≤ y) (high' : y ≤ hi) :
    (ofInt x + ofInt y : Checked lo hi) = ofInt (x + y) := lift_ofInt low high low' high' rfl

theorem sub_ofInt (low : lo ≤ x) (high : x ≤ hi) (low' : lo ≤ y) (high' : y ≤ hi) :
    (ofInt x - ofInt y : Checked lo hi) = ofInt (x - y) := lift_ofInt low high low' high' rfl

theorem mul_ofInt (low : lo ≤ x) (high : x ≤ hi) (low' : lo ≤ y) (high' : y ≤ hi) :
    (ofInt x * ofInt y : Checked lo hi) = ofInt (x * y) := lift_ofInt low high low' high' rfl

/-- Where nothing is negative, truncating is rounding down. -/
theorem div_ofInt (low : lo ≤ x) (high : x ≤ hi) (low' : lo ≤ y) (high' : y ≤ hi) (sign : 0 ≤ x)
    (positive : 0 < y) : (ofInt x / ofInt y : Checked lo hi) = ofInt (x / y) := by
  refine lift_ofInt low high low' high' ?_
  simp only [if_neg (Int.ne_of_gt positive), Int.tdiv_eq_ediv_of_nonneg sign]

theorem mod_ofInt (low : lo ≤ x) (high : x ≤ hi) (low' : lo ≤ y) (high' : y ≤ hi) (sign : 0 ≤ x)
    (positive : 0 < y) : (ofInt x % ofInt y : Checked lo hi) = ofInt (x % y) := by
  refine lift_ofInt low high low' high' ?_
  have smaller : x.tdiv y ≤ x := by
    rw [Int.tdiv_eq_ediv_of_nonneg sign]
    exact Int.ediv_le_self y sign
  have fits : ¬ (y = 0 ∨ hi < x.tdiv y) := by
    rintro (zero | far) <;> omega
  simp only [if_neg fits, Int.tmod_eq_emod_of_nonneg sign]

theorem tdiv_ofInt (low : lo ≤ x) (high : x ≤ hi) (low' : lo ≤ y) (high' : y ≤ hi)
    (positive : 0 < y) : (ofInt x / ofInt y : Checked lo hi) = ofInt (x.tdiv y) := by
  refine lift_ofInt low high low' high' ?_
  simp only [if_neg (Int.ne_of_gt positive)]

theorem tmod_ofInt (low : lo ≤ x) (high : x ≤ hi) (low' : lo ≤ y) (high' : y ≤ hi)
    (positive : 0 < y) (quotient : x.tdiv y ≤ hi) :
    (ofInt x % ofInt y : Checked lo hi) = ofInt (x.tmod y) := by
  refine lift_ofInt low high low' high' ?_
  have fits : ¬ (y = 0 ∨ hi < x.tdiv y) := by
    rintro (zero | far) <;> omega
  simp only [if_neg fits]

/-- A value within the other bounds is kept. -/
theorem convert_ofInt {lo' hi' : Int} (low : lo ≤ x) (high : x ≤ hi) (low' : lo' ≤ x)
    (high' : x ≤ hi') : convert (ofInt x : Checked lo hi) = (ofInt x : Checked lo' hi') := by
  have kept : lo' + (x - lo') % (hi' + 1 - lo') = x := by
    rw [Int.emod_eq_of_lt (by omega) (by omega)]
    omega
  rw [convert, value_ofInt low high]
  exact congrArg ofInt kept

theorem isNegative_ofInt (low : lo ≤ x) (high : x ≤ hi) :
    (ofInt x : Checked lo hi).isNegative = decide (x < 0) := by
  rw [isNegative, value_ofInt low high]
  rfl

end Values

end Checked
