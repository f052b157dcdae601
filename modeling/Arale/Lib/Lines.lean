import Mathlib.Data.List.Basic

/-!
# Lines ended by a pair of symbols

A stream over any alphabet is cut into the lines that end with two given adjacent
symbols; what follows the last such pair is no line yet. The point of the lemmas is
growth: a line that has been found stays the first line however the stream goes on,
and one more symbol completes at most one line, with nothing left behind it.
-/

namespace Lines

universe u

variable {α : Type u} [DecidableEq α] (a b : α)

/-- The index of the first adjacent pair `a`, `b`. -/
def find : List α → Option Nat
  | x :: y :: rest => if x = a ∧ y = b then some 0 else (find (y :: rest)).map (· + 1)
  | _ => none

/-- The complete lines of a stream, at most `fuel` of them. -/
def upTo : Nat → List α → List (List α)
  | 0, _ => []
  | fuel + 1, s =>
    match find a b s with
    | none => []
    | some i => s.take i :: upTo fuel (s.drop (i + 2))

/-- All complete lines: each of them takes two symbols at least. -/
def complete (s : List α) : List (List α) := upTo a b s.length s

/-- The stream that a list of lines is written as. -/
def join (lines : List (List α)) : List α := lines.flatMap (· ++ [a, b])

variable {a b}

theorem find_bound {s : List α} {i : Nat} (found : find a b s = some i) : i + 2 ≤ s.length := by
  fun_induction find a b s generalizing i with
  | case1 x y rest pair =>
    cases found
    simp
  | case2 x y rest other ih =>
    obtain ⟨j, hj, rfl⟩ := Option.map_eq_some_iff.mp found
    have := ih hj
    simp only [List.length_cons] at this ⊢
    omega
  | case3 => cases found

/-- What stands before the first pair, the pair, and what follows it. -/
theorem find_split {s : List α} {i : Nat} (found : find a b s = some i) :
    s = s.take i ++ [a, b] ++ s.drop (i + 2) := by
  fun_induction find a b s generalizing i with
  | case1 x y rest pair =>
    cases found
    simp [pair]
  | case2 x y rest other ih =>
    obtain ⟨j, hj, rfl⟩ := Option.map_eq_some_iff.mp found
    have later := ih hj
    simp only [List.take_succ_cons, List.drop_succ_cons, List.cons_append]
    exact congrArg (List.cons x) later
  | case3 => cases found

/-- A stream without the pair. -/
theorem find_eq_none_iff {s : List α} : find a b s = none ↔ ¬ [a, b] <:+: s := by
  constructor
  · rintro none ⟨before, after, rfl⟩
    induction before with
    | nil => simp [find] at none
    | cons x before ih =>
      cases before with
      | nil =>
        simp only [List.cons_append, List.nil_append, find] at none ih
        split at none
        · cases none
        · exact ih (Option.map_eq_none_iff.mp none)
      | cons y before =>
        simp only [List.cons_append, find] at none ih
        split at none
        · cases none
        · exact ih (Option.map_eq_none_iff.mp none)
  · intro absent
    cases found : find a b s with
    | none => rfl
    | some i => exact absurd ⟨_, _, (find_split found).symm⟩ absent

/-- The pair behind a stream that has none of it is found where the stream ends. -/
theorem find_of_none {s : List α} (different : a ≠ b) (none : find a b s = none)
    (rest : List α) : find a b (s ++ a :: b :: rest) = some s.length := by
  fun_induction find a b s with
  | case1 x y s pair => cases none
  | case2 x y s other ih =>
    have later := ih (Option.map_eq_none_iff.mp none)
    simp only [List.cons_append] at later ⊢
    rw [find, if_neg other, later]
    rfl
  | case3 s short =>
    match s, short with
    | [], _ => simp [find]
    | [x], _ => simp [find, different]
    | x :: y :: s, short => exact absurd rfl (short x y s)

omit [DecidableEq α] in
/-- A symbol that is not of the pair keeps the pair from arising across it. -/
theorem infix_append_cons {s t : List α} {c : α} (first : c ≠ a) (second : c ≠ b)
    (found : [a, b] <:+: s ++ c :: t) : [a, b] <:+: s ∨ [a, b] <:+: t := by
  obtain ⟨before, after, same⟩ := found
  rw [List.append_assoc, List.append_eq_append_iff] at same
  rcases same with ⟨middle, rfl, tail⟩ | ⟨middle, rfl, tail⟩
  · match middle, tail with
    | [], tail => exact absurd (List.cons.inj tail).1.symm first
    | [x], tail =>
      obtain ⟨-, tail⟩ := List.cons.inj tail
      exact absurd (List.cons.inj tail).1.symm second
    | x :: y :: middle, tail =>
      simp only [List.cons_append, List.nil_append, List.cons.injEq] at tail
      obtain ⟨rfl, rfl, -⟩ := tail
      exact .inl ⟨before, middle, by simp⟩
  · match middle, tail with
    | [], tail => exact absurd (List.cons.inj tail).1 first
    | x :: middle, tail =>
      obtain ⟨-, rfl⟩ := List.cons.inj tail
      exact .inr ⟨middle, after, by simp⟩

/-- A pair that has been found stays the first one. -/
theorem find_append {s : List α} {i : Nat} (found : find a b s = some i) (more : List α) :
    find a b (s ++ more) = some i := by
  fun_induction find a b s generalizing i with
  | case1 x y rest pair =>
    cases found
    simp [find, pair]
  | case2 x y rest other ih =>
    obtain ⟨j, hj, rfl⟩ := Option.map_eq_some_iff.mp found
    have later := ih hj
    simp only [List.cons_append] at later ⊢
    rw [find, if_neg other, later]
    rfl
  | case3 => cases found

/-- A pair completed by one more symbol ends with it. -/
theorem find_concat {s : List α} {x : α} {i : Nat} (before : find a b s = none)
    (found : find a b (s ++ [x]) = some i) : i + 2 = (s ++ [x]).length := by
  fun_induction find a b s generalizing i with
  | case1 y z rest pair => cases before
  | case2 y z rest other ih =>
    have none : find a b (z :: rest) = none := by simpa using before
    simp only [List.cons_append] at found ih ⊢
    rw [find, if_neg other] at found
    obtain ⟨j, hj, rfl⟩ := Option.map_eq_some_iff.mp found
    have := ih none hj
    simp only [List.length_cons] at this ⊢
    omega
  | case3 s short =>
    have bound := find_bound found
    have small : s.length ≤ 1 := by
      match s, short with
      | [], _ => simp
      | [_], _ => simp
      | y :: z :: rest, short => exact absurd rfl (short y z rest)
    simp only [List.length_append, List.length_singleton] at bound ⊢
    omega

theorem upTo_nil (fuel : Nat) : upTo a b fuel [] = [] := by
  cases fuel <;> rfl

/-- Fuel for every symbol is enough. -/
theorem upTo_congr {fuel other : Nat} {s : List α} (enough : s.length ≤ fuel)
    (enough' : s.length ≤ other) : upTo a b fuel s = upTo a b other s := by
  induction fuel generalizing other s with
  | zero =>
    obtain rfl := List.length_eq_zero_iff.mp (Nat.le_zero.mp enough)
    rw [upTo_nil, upTo_nil]
  | succ fuel ih =>
    cases other with
    | zero =>
      obtain rfl := List.length_eq_zero_iff.mp (Nat.le_zero.mp enough')
      rw [upTo_nil, upTo_nil]
    | succ other =>
      simp only [upTo]
      cases found : find a b s with
      | none => rfl
      | some i =>
        have bound := find_bound found
        have shorter : (s.drop (i + 2)).length = s.length - (i + 2) := List.length_drop
        exact congrArg _ (ih (by omega) (by omega))

theorem complete_of_none {s : List α} (none : find a b s = none) : complete a b s = [] := by
  rw [complete]
  cases s with
  | nil => rfl
  | cons x rest => simp [upTo, none]

theorem complete_of_some {s : List α} {i : Nat} (found : find a b s = some i) :
    complete a b s = s.take i :: complete a b (s.drop (i + 2)) := by
  have bound := find_bound found
  have one : s.length = (s.length - 1) + 1 := by omega
  rw [complete, one, upTo, found]
  exact congrArg _ (upTo_congr (by rw [List.length_drop]; omega) (Nat.le_refl _))

omit [DecidableEq α] in
@[simp] theorem join_nil : join a b ([] : List (List α)) = [] := rfl

omit [DecidableEq α] in
@[simp] theorem join_cons (line : List α) (lines : List (List α)) :
    join a b (line :: lines) = line ++ [a, b] ++ join a b lines := rfl

omit [DecidableEq α] in
theorem join_append (lines more : List (List α)) :
    join a b (lines ++ more) = join a b lines ++ join a b more := List.flatMap_append

omit [DecidableEq α] in
theorem eq_nil_of_join_eq_nil {lines : List (List α)} (nothing : join a b lines = []) :
    lines = [] := by
  cases lines with
  | nil => rfl
  | cons line rest => simp at nothing

omit [DecidableEq α] in
/-- Two beginnings of the same lines that are written alike are the same lines. -/
theorem eq_of_join_eq {first second more more' : List (List α)}
    (same : first ++ more = second ++ more') (written : join a b first = join a b second) :
    first = second := by
  rcases List.append_eq_append_iff.mp same with ⟨middle, rfl, -⟩ | ⟨middle, rfl, -⟩
  · rw [join_append, List.self_eq_append_right] at written
    rw [eq_nil_of_join_eq_nil written, List.append_nil]
  · rw [join_append, List.append_right_eq_self] at written
    rw [eq_nil_of_join_eq_nil written, List.append_nil]

/-- The first line stays, whatever follows. -/
theorem complete_append_of_some {s : List α} {i : Nat} (found : find a b s = some i)
    (more : List α) :
    complete a b (s ++ more) = s.take i :: complete a b (s.drop (i + 2) ++ more) := by
  have bound := find_bound found
  rw [complete_of_some (find_append found more), List.take_append_of_le_length (by omega),
    List.drop_append_of_le_length (by omega)]

theorem complete_concat (s : List α) (x : α) :
    ∃ last, complete a b (s ++ [x]) = complete a b s ++ last ∧ last.length ≤ 1 := by
  induction h : s.length using Nat.strongRecOn generalizing s with
  | ind n ih =>
    cases found : find a b s with
    | none =>
      rw [complete_of_none found]
      cases now : find a b (s ++ [x]) with
      | none => exact ⟨[], complete_of_none now, Nat.zero_le 1⟩
      | some i =>
        have atEnd := find_concat found now
        have nothing : (s ++ [x]).drop (i + 2) = [] := by rw [atEnd, List.drop_length]
        have one : complete a b (s ++ [x]) = [(s ++ [x]).take i] := by
          rw [complete_of_some now, nothing]
          rfl
        exact ⟨_, one, Nat.le_refl 1⟩
    | some i =>
      have bound := find_bound found
      obtain ⟨last, later, short⟩ :=
        ih (s.drop (i + 2)).length (by rw [List.length_drop]; omega) (s.drop (i + 2)) rfl
      refine ⟨last, ?_, short⟩
      rw [complete_append_of_some found, later, complete_of_some found, List.cons_append]

/-- A longer stream has the same lines and more, one for each symbol at most. -/
theorem complete_append (s more : List α) :
    ∃ later, complete a b (s ++ more) = complete a b s ++ later ∧ later.length ≤ more.length := by
  induction more generalizing s with
  | nil => exact ⟨[], by simp, Nat.le_refl 0⟩
  | cons x more ih =>
    obtain ⟨last, first, one⟩ := complete_concat (a := a) (b := b) s x
    obtain ⟨later, rest, few⟩ := ih (s ++ [x])
    refine ⟨last ++ later, ?_, ?_⟩
    · rw [← List.append_assoc, ← first, ← rest, List.append_assoc, List.singleton_append]
    · rw [List.length_append, List.length_cons]
      omega

/-! ## Cutting at one symbol -/

theorem idxOf_append_cons {before after : List α} {c : α} (fresh : c ∉ before) :
    (before ++ c :: after).idxOf c = before.length := by
  rw [List.idxOf_append_of_notMem fresh, List.idxOf_cons_self, Nat.add_zero]

/-- The first occurrence of a symbol determines both sides of it. -/
theorem split_unique {before before' after after' : List α} {c : α} (fresh : c ∉ before)
    (fresh' : c ∉ before') (same : before ++ c :: after = before' ++ c :: after') :
    before = before' ∧ after = after' := by
  have length : before.length = before'.length := by
    calc before.length = (before ++ c :: after).idxOf c := (idxOf_append_cons fresh).symm
      _ = (before' ++ c :: after').idxOf c := by rw [same]
      _ = before'.length := idxOf_append_cons fresh'
  obtain ⟨first, rest⟩ := List.append_inj same length
  exact ⟨first, (List.cons.inj rest).2⟩

end Lines
