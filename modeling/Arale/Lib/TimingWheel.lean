import Mathlib.Data.List.Basic

/-!
# A timing wheel

A ring of buckets. Elements are put into the last bucket, again and again as they show
themselves; a turn drops the first bucket and appends an empty one, and an element that was
in no other bucket is gone with it. For one element on its own the wheel is a countdown:
putting it in sets it to the size of the wheel, a turn lowers it by one.
-/

namespace TimingWheel

universe u

variable {ε : Type u} [DecidableEq ε]

/-- An element is put into the last bucket. -/
def touch (e : ε) : List (List ε) → List (List ε)
  | [] => []
  | [bucket] => [if e ∈ bucket then bucket else e :: bucket]
  | bucket :: next :: rest => bucket :: touch e (next :: rest)

omit [DecidableEq ε] in
/-- The first bucket is dropped, an empty one appended. -/
def turn (wheel : List (List ε)) : List (List ε) := wheel.tail ++ [[]]

/-- The elements that the next turn takes out of their last bucket. -/
def expiring (wheel : List (List ε)) : List ε :=
  (wheel.headD []).filter fun e => ∀ bucket ∈ wheel.tail, e ∉ bucket

/-- The number of turns after which an element is in no bucket. -/
def left (e : ε) : List (List ε) → Nat
  | [] => 0
  | bucket :: rest =>
    if 0 < left e rest then left e rest + 1 else if e ∈ bucket then 1 else 0

variable {e other : ε} {wheel : List (List ε)}

theorem left_pos_iff : 0 < left e wheel ↔ ∃ bucket ∈ wheel, e ∈ bucket := by
  induction wheel with
  | nil => simp [left]
  | cons bucket rest ih =>
    rw [left, List.exists_mem_cons_iff, ← ih]
    split
    · rename_i later
      simp [later]
    · rename_i none
      split
      · rename_i here
        simp [here]
      · rename_i absent
        simp [absent, none]

theorem length_touch : (touch e wheel).length = wheel.length := by
  fun_induction touch e wheel with
  | case1 => rfl
  | case2 => rfl
  | case3 bucket next rest ih => rw [List.length_cons, ih, ← List.length_cons]

omit [DecidableEq ε] in
theorem length_turn (some : wheel ≠ []) : (turn wheel).length = wheel.length := by
  cases wheel with
  | nil => exact absurd rfl some
  | cons bucket rest => simp [turn]

/-- An element that has just been put in stays for a whole turn of the wheel. -/
theorem left_touch (some : wheel ≠ []) : left e (touch e wheel) = wheel.length := by
  fun_induction touch e wheel with
  | case1 => exact absurd rfl some
  | case2 bucket =>
    have here : e ∈ if e ∈ bucket then bucket else e :: bucket := by
      split
      · assumption
      · exact List.mem_cons_self
    simp [left, here]
  | case3 bucket next rest ih =>
    rw [left, ih (by simp), if_pos (by simp)]
    rfl

/-- Putting one element in leaves the others alone. -/
theorem left_touch_of_ne (different : other ≠ e) :
    left other (touch e wheel) = left other wheel := by
  fun_induction touch e wheel with
  | case1 => rfl
  | case2 bucket =>
    have same : (other ∈ if e ∈ bucket then bucket else e :: bucket) ↔ other ∈ bucket := by
      split
      · rfl
      · simp [different]
    simp [left, same]
  | case3 bucket next rest ih => rw [left, ih, ← left]

theorem left_append_empty : left e (wheel ++ [[]]) = left e wheel := by
  induction wheel with
  | nil => simp [left]
  | cons bucket rest ih => rw [List.cons_append, left, ih, ← left]

theorem left_turn : left e (turn wheel) = left e wheel - 1 := by
  rw [turn, left_append_empty]
  cases wheel with
  | nil => rfl
  | cons bucket rest =>
    rw [List.tail_cons, left]
    split
    · rfl
    · split
      · omega
      · omega

/-- The next turn is the end of those whose countdown stands at one. -/
theorem mem_expiring : e ∈ expiring wheel ↔ left e wheel = 1 := by
  cases wheel with
  | nil => simp [expiring, left]
  | cons bucket rest =>
    have later : (∀ bucket ∈ rest, e ∉ bucket) ↔ ¬ 0 < left e rest := by
      rw [left_pos_iff]
      simp
    rw [expiring, List.mem_filter, left]
    simp only [List.headD_cons, List.tail_cons, decide_eq_true_eq, later]
    split
    · rename_i some
      simp only [some, not_true_eq_false, and_false, false_iff]
      omega
    · rename_i none
      simp [none]

theorem left_replicate (n : Nat) : left e (List.replicate n []) = 0 := by
  induction n with
  | zero => rfl
  | succ n ih => simp [List.replicate_succ, left, ih]

end TimingWheel
