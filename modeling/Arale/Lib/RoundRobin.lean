import Mathlib.Data.Int.CardIntervalMod

/-!
# Taking places in turn

A counter that goes round `k` places. The place of the `i`th turn is `i % k`, and after any
number of turns two places have been taken equally often, up to one.
-/

namespace RoundRobin

/-- The next place: the counter starts again behind the last one. -/
def turn (k next : Nat) : Nat := if next + 1 ≥ k then 0 else next + 1

theorem turn_eq_mod {k next : Nat} (bound : next < k) : turn k next = (next + 1) % k := by
  rw [turn]
  split
  · have last : next + 1 = k := by omega
    rw [last, Nat.mod_self]
  · rw [Nat.mod_eq_of_lt (by omega)]

theorem turn_mod {k : Nat} (positive : 0 < k) (i : Nat) : turn k (i % k) = (i + 1) % k := by
  rw [turn_eq_mod (Nat.mod_lt i positive), Nat.mod_add_mod]

section Load
variable {α : Type} [DecidableEq α]

/-- How often a place has been taken when they have been taken in turn. -/
theorem count_turns {k : Nat} (positive : 0 < k) {place : Nat → α}
    (distinct : ∀ i < k, ∀ j < k, place i = place j → i = j) {i : Nat} (bound : i < k) (n : Nat) :
    ((List.range n).map fun j => place (j % k)).count (place i) =
      n / k + if i < n % k then 1 else 0 := by
  have turns : ((List.range n).map fun j => place (j % k)).count (place i) =
      n.count (fun j => j ≡ i [MOD k]) := by
    induction n with
    | zero => rfl
    | succ n ih =>
      rw [List.range_succ, List.map_append, List.count_append, ih, Nat.count_succ]
      congr 1
      have same : place (n % k) = place i ↔ n ≡ i [MOD k] := by
        rw [Nat.ModEq, Nat.mod_eq_of_lt bound]
        exact ⟨distinct _ (Nat.mod_lt n positive) i bound, congrArg place⟩
      rw [List.map_singleton, List.count_singleton]
      simp only [beq_iff_eq, same]
  rw [turns, Nat.count_modEq_card n positive, Nat.mod_eq_of_lt bound]

/-- No place is ahead of another by more than one turn. -/
theorem count_turns_le {k : Nat} (positive : 0 < k) {place : Nat → α}
    (distinct : ∀ i < k, ∀ j < k, place i = place j → i = j) {i j : Nat} (boundI : i < k)
    (boundJ : j < k) (n : Nat) :
    ((List.range n).map fun l => place (l % k)).count (place i) ≤
      ((List.range n).map fun l => place (l % k)).count (place j) + 1 := by
  rw [count_turns positive distinct boundI, count_turns positive distinct boundJ]
  split <;> split <;> omega

end Load
end RoundRobin
