import Arale.Lib.Format

/-!
# Texts in the order of what they write

Texts are compared byte by byte. Numbers padded with zeros to one width compare as the numbers
do, and records of such fields compare field by field.
-/

namespace Format

/-- The order of `memcmp` on texts, a beginning of a text before the text. -/
def Before : List UInt8 → List UInt8 → Prop := List.Lex fun a b => a.toNat < b.toNat

theorem not_before_nil (xs : List UInt8) : ¬ Before xs [] := by
  intro before
  cases before

theorem before_cons {a b : UInt8} {xs ys : List UInt8} :
    Before (a :: xs) (b :: ys) ↔ a.toNat < b.toNat ∨ a = b ∧ Before xs ys := by
  constructor
  · intro before
    cases before with
    | rel less => exact .inl less
    | cons rest => exact .inr ⟨rfl, rest⟩
  · rintro (less | ⟨rfl, rest⟩)
    · exact .rel less
    · exact .cons rest

theorem not_before_self (xs : List UInt8) : ¬ Before xs xs := by
  induction xs with
  | nil => exact not_before_nil []
  | cons x xs ih =>
    rw [before_cons]
    rintro (less | ⟨-, rest⟩)
    · exact Nat.lt_irrefl _ less
    · exact ih rest

/-- Behind parts of one length the rest decides where these agree. -/
theorem before_append {as bs xs ys : List UInt8} (same : as.length = bs.length) :
    Before (as ++ xs) (bs ++ ys) ↔ Before as bs ∨ as = bs ∧ Before xs ys := by
  induction as generalizing bs with
  | nil =>
    obtain rfl := List.length_eq_zero_iff.mp same.symm
    simp [not_before_nil]
  | cons a as ih =>
    cases bs with
    | nil => cases same
    | cons b bs =>
      rw [List.cons_append, List.cons_append, before_cons, before_cons, ih (by simpa using same),
        List.cons.injEq]
      tauto

/-- Texts of one length for the numbers of a range, in the order of the numbers. -/
structure Sortable (width : Nat) (low limit : Int) (text : Int → List UInt8) : Prop where
  length : ∀ n, low ≤ n ∧ n < limit → (text n).length = width
  before : ∀ m n, low ≤ m ∧ m < limit → low ≤ n ∧ n < limit →
    (Before (text m) (text n) ↔ m < n)

section Sortable
variable {width : Nat} {low limit m n : Int} {text : Int → List UInt8}

theorem Sortable.eq_iff (sorts : Sortable width low limit text) (first : low ≤ m ∧ m < limit)
    (second : low ≤ n ∧ n < limit) : text m = text n ↔ m = n := by
  constructor
  · intro same
    have less := sorts.before m n first second
    have more := sorts.before n m second first
    rw [same] at less more
    have notLess := mt less.mpr (not_before_self (text n))
    have notMore := mt more.mpr (not_before_self (text n))
    omega
  · rintro rfl
    rfl

/-- A field of such texts in front of a record. -/
theorem Sortable.append (sorts : Sortable width low limit text) (first : low ≤ m ∧ m < limit)
    (second : low ≤ n ∧ n < limit) (xs ys : List UInt8) :
    Before (text m ++ xs) (text n ++ ys) ↔ m < n ∨ m = n ∧ Before xs ys := by
  rw [before_append ((sorts.length m first).trans (sorts.length n second).symm),
    sorts.before m n first second, sorts.eq_iff first second]

theorem Sortable.congr {other : Int → List UInt8} (sorts : Sortable width low limit text)
    (same : ∀ n, low ≤ n ∧ n < limit → other n = text n) : Sortable width low limit other where
  length n range := by rw [same n range, sorts.length n range]
  before m n first second := by rw [same m first, same n second, sorts.before m n first second]

/-- A part of the range. -/
theorem Sortable.mono {low' limit' : Int} (sorts : Sortable width low limit text)
    (lower : low ≤ low') (upper : limit' ≤ limit) : Sortable width low' limit' text where
  length n range := sorts.length n (by omega)
  before m n first second := sorts.before m n (by omega) (by omega)

end Sortable

/-! ## Padded numbers -/

/-- The last digit of a padded number. -/
theorem pad_succ {width : Nat} (positive : 0 < width) (n : Nat) :
    pad (width + 1) 48 (decimal n) = pad width 48 (decimal (n / 10)) ++ [digitByte (n % 10)] := by
  by_cases small : n < 10
  · have zero : n / 10 = 0 := by omega
    have rest : n % 10 = n := by omega
    have one : width - 1 + 1 = width := by omega
    rw [zero, rest, decimal_digit small, decimal_digit (by decide : 0 < 10), pad, pad]
    simp only [List.length_singleton, Nat.add_sub_cancel]
    have zeros : List.replicate width (48 : UInt8) = List.replicate (width - 1) 48 ++ [48] := by
      rw [← List.replicate_succ', one]
    rw [zeros]
    rfl
  · rw [decimal_concat small, pad, pad, List.length_append, List.length_singleton,
      Nat.add_sub_add_right, List.append_assoc]

theorem length_padded {width n : Nat} (positive : 0 < width) (small : n < 10 ^ width) :
    (pad width 48 (decimal n)).length = width := by
  have short := length_decimal_le positive small
  rw [pad, List.length_append, List.length_replicate]
  omega

/-- Numbers padded with zeros compare as numbers. -/
theorem sortable_padded {width : Nat} (positive : 0 < width) :
    Sortable width 0 (10 ^ width : Nat) fun n => pad width 48 (decimal n.toNat) := by
  induction width with
  | zero => cases positive
  | succ width ih =>
    refine ⟨fun n range => length_padded positive (by omega), fun m n first second => ?_⟩
    rw [Nat.pow_succ] at first second
    have lastFirst := toNat_digitByte (Nat.mod_lt m.toNat (by decide : 0 < 10))
    have lastSecond := toNat_digitByte (Nat.mod_lt n.toNat (by decide : 0 < 10))
    rcases Nat.eq_zero_or_pos width with rfl | more
    · have one (k : Int) (range : 0 ≤ k ∧ k < (10 ^ 0 * 10 : Nat)) :
          pad (0 + 1) 48 (decimal k.toNat) = [digitByte (k.toNat % 10)] := by
        have single : k.toNat < 10 := by omega
        rw [decimal_digit single, Nat.mod_eq_of_lt single]
        rfl
      rw [one m first, one n second, before_cons, lastFirst, lastSecond]
      simp only [not_before_nil, and_false, or_false]
      omega
    · have front (k : Int) : k.toNat / 10 = (k / 10).toNat := by omega
      rw [pad_succ more, pad_succ more, front, front,
        (ih more).append (by omega) (by omega), before_cons, lastFirst, lastSecond]
      simp only [not_before_nil, and_false, or_false]
      omega

theorem sortable_zeroed {width : Nat} (positive : 0 < width) :
    Sortable width 0 (10 ^ width : Nat) (zeroed width) := by
  refine (sortable_padded positive).congr fun n range => ?_
  have nonneg : ¬ n < 0 := by omega
  have same : n.natAbs = n.toNat := by omega
  rw [zeroed, sign, if_neg nonneg, same]
  rfl

/-- A number as wide as its field has nothing in front of it. -/
theorem sortable_spaced {width : Nat} (positive : 0 < width) :
    Sortable (width + 1) (10 ^ width : Nat) (10 ^ (width + 1) : Nat) (spaced (width + 1)) := by
  have padded := (sortable_padded (Nat.succ_pos width)).mono (Int.natCast_nonneg (10 ^ width))
    (Int.le_refl _)
  refine padded.congr fun n range => ?_
  have nonneg : ¬ n < 0 := by omega
  have same : n.natAbs = n.toNat := by omega
  have long : ¬ (decimal n.toNat).length ≤ width := by
    rw [decimal, List.length_map, Nat.length_toDigits_le_iff (by decide) positive]
    omega
  have filled : width + 1 - (decimal n.toNat).length = 0 := by omega
  rw [spaced, sign, if_neg nonneg, List.nil_append, same, pad, pad, filled]
  rfl

end Format
