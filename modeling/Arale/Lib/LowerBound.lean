import Mathlib.Data.List.Basic

/-!
# Binary search for a boundary

`std::lower_bound`: a range is halved until nothing is left between the last element seen
below the value and the first one seen not below it. Nothing is assumed of the order of
the elements; in a sorted range there is one such boundary only.
-/

namespace LowerBound

/-- The search among the `len` indices from `first` on, each round of which at least halves
them; `fuel` rounds do for `len ≤ fuel`. -/
def search (below : Nat → Bool) : Nat → Nat → Nat → Nat
  | 0, first, _ => first
  | fuel + 1, first, len =>
    if len = 0 then first
    else
      let half := len / 2
      let middle := first + half
      if below middle then search below fuel (middle + 1) (len - half - 1)
      else search below fuel first half

/-- What the search leaves behind: it stops within its range, right after an index found
below and right ahead of one found not below. -/
structure Boundary (below : Nat → Bool) (first len result : Nat) : Prop where
  first_le : first ≤ result
  le_last : result ≤ first + len
  last_below : first < result → below (result - 1) = true
  first_above : result < first + len → below result = false

theorem boundary_empty (below : Nat → Bool) (first : Nat) : Boundary below first 0 first :=
  ⟨Nat.le_refl _, Nat.le_refl _, fun less => absurd less (Nat.lt_irrefl _),
    fun less => absurd less (Nat.lt_irrefl _)⟩

theorem search_boundary (below : Nat → Bool) (fuel first len : Nat) (enough : len ≤ fuel) :
    Boundary below first len (search below fuel first len) := by
  induction fuel generalizing first len with
  | zero =>
    obtain rfl : len = 0 := by omega
    exact boundary_empty below first
  | succ fuel ih =>
    rw [search]
    split
    · rename_i empty
      subst empty
      exact boundary_empty below first
    · simp only
      split
      · rename_i seen
        obtain ⟨low, high, lastBelow, firstAbove⟩ :=
          ih (first + len / 2 + 1) (len - len / 2 - 1) (by omega)
        refine ⟨by omega, by omega, ?_, fun less => firstAbove (by omega)⟩
        intro _
        rcases Nat.lt_or_eq_of_le low with further | stopped
        · exact lastBelow further
        · rwa [← stopped, Nat.add_sub_cancel]
      · rename_i seen
        obtain ⟨low, high, lastBelow, firstAbove⟩ := ih first (len / 2) (by omega)
        refine ⟨low, by omega, lastBelow, ?_⟩
        intro _
        rcases Nat.lt_or_eq_of_le high with inside | stopped
        · exact firstAbove inside
        · rw [stopped]
          exact Bool.eq_false_iff.mpr seen

variable {α : Type} {below : α → Bool} {xs : List α}

/-- The index of the first element not below, or that of the end. -/
def lowerBound (below : α → Bool) (xs : List α) : Nat :=
  search (fun i => xs[i]?.any below) xs.length 0 xs.length

theorem lowerBound_boundary (below : α → Bool) (xs : List α) :
    Boundary (fun i => xs[i]?.any below) 0 xs.length (lowerBound below xs) :=
  search_boundary _ _ 0 xs.length (Nat.le_refl _)

theorem lowerBound_le (below : α → Bool) (xs : List α) : lowerBound below xs ≤ xs.length := by
  have last := (lowerBound_boundary below xs).le_last
  omega

/-- The element found is not below. -/
theorem lowerBound_found {x : α} (found : xs[lowerBound below xs]? = some x) :
    below x = false := by
  have inside := (List.getElem?_eq_some_iff.mp found).1
  have above := (lowerBound_boundary below xs).first_above (by omega)
  simpa only [found, Option.any_some] using above

/-- The one before it is. -/
theorem lowerBound_pred {k : Nat} {x : α} (after : lowerBound below xs = k + 1)
    (pred : xs[k]? = some x) : below x = true := by
  have seen := (lowerBound_boundary below xs).last_below (by omega)
  rw [after, Nat.add_sub_cancel] at seen
  simpa only [pred, Option.any_some] using seen

/-! ## Increasing keys -/

/-- Each element has a smaller key than the next one. -/
def Increasing (key : α → Int) (xs : List α) : Prop :=
  ∀ i a b, xs[i]? = some a → xs[i + 1]? = some b → key a < key b

theorem Increasing.lt {key : α → Int} (increasing : Increasing key xs) {i d : Nat} {a b : α}
    (earlier : xs[i]? = some a) (later : xs[i + d + 1]? = some b) : key a < key b := by
  induction d generalizing b with
  | zero => exact increasing i a b earlier later
  | succ d ih =>
    have inside : i + d + 1 < xs.length := by
      have := (List.getElem?_eq_some_iff.mp later).1
      omega
    have between := List.getElem?_eq_getElem inside
    exact Int.lt_trans (ih between) (increasing _ _ _ between later)

/-- The element at `i` is the last one whose key is at most `s`. -/
structure LastUpTo (key : α → Int) (xs : List α) (s : Int) (i : Nat) : Prop where
  reached : ∃ a, xs[i]? = some a ∧ key a ≤ s
  ahead : ∀ next, xs[i + 1]? = some next → s < key next

theorem LastUpTo.unique {key : α → Int} (increasing : Increasing key xs) {s : Int} {i j : Nat}
    (first : LastUpTo key xs s i) (second : LastUpTo key xs s j) : i = j := by
  have notBefore : ∀ {i j}, LastUpTo key xs s i → LastUpTo key xs s j → ¬ i < j := by
    intro i j ⟨_, ahead⟩ ⟨⟨b, found, low⟩, _⟩ less
    obtain ⟨d, rfl⟩ := Nat.exists_eq_add_of_lt less
    cases d with
    | zero =>
      have := ahead b found
      omega
    | succ d =>
      have inside : i + 1 < xs.length := by
        have := (List.getElem?_eq_some_iff.mp found).1
        omega
      have between := List.getElem?_eq_getElem inside
      have near := ahead _ between
      rw [show i + (d + 1) + 1 = i + 1 + d + 1 by omega] at found
      have far := increasing.lt between found
      omega
  have before := notBefore first second
  have after := notBefore second first
  omega

end LowerBound
