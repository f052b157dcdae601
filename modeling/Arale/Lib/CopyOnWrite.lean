import Mathlib.Logic.Function.Basic

/-!
# Copy on write

A variable that points to an object, and readers that hold on to the object they found there.
A writer moves the variable to a copy first unless nobody else holds the object. Readers then
see the value of the moment at which they began, whatever is written meanwhile.
-/

namespace CopyOnWrite

universe u v

/-- `heap` has the objects by their addresses, those from `fresh` on are not in use; `held` is
what each reader holds. -/
structure Cell (T : Type u) (V : Type v) where
  heap : Nat → V
  current : Nat
  fresh : Nat
  held : T → Option Nat
  current_lt : current < fresh
  held_lt : ∀ t a, held t = some a → a < fresh

namespace Cell
variable {T : Type u} {V : Type v}

def new (v : V) : Cell T V where
  heap := fun _ => v
  current := 0
  fresh := 1
  held := fun _ => none
  current_lt := Nat.zero_lt_one
  held_lt := by simp

/-- The value of the variable. -/
def value (c : Cell T V) : V := c.heap c.current

/-- What a reader sees. -/
def seen (c : Cell T V) (t : T) : Option V := (c.held t).map c.heap

/-- Nobody but the variable holds its object. -/
def Unique (c : Cell T V) : Prop := ∀ t, c.held t ≠ some c.current

/-- The variable is moved to a copy of its object. -/
def copy (c : Cell T V) : Cell T V where
  heap := Function.update c.heap c.fresh (c.heap c.current)
  current := c.fresh
  fresh := c.fresh + 1
  held := c.held
  current_lt := Nat.lt_succ_self _
  held_lt t a holds := Nat.lt_succ_of_lt (c.held_lt t a holds)

/-- The object is changed in place. -/
def modify (c : Cell T V) (f : V → V) : Cell T V :=
  { c with heap := Function.update c.heap c.current (f c.value) }

section Writing
variable {c : Cell T V}

@[simp] theorem value_new (v : V) : (new v : Cell T V).value = v := rfl

@[simp] theorem seen_new (v : V) (t : T) : (new v : Cell T V).seen t = none := rfl

@[simp] theorem value_copy : c.copy.value = c.value := Function.update_self _ _ _

@[simp] theorem value_modify (f : V → V) : (c.modify f).value = f c.value :=
  Function.update_self _ _ _

/-- Readers do not see a copy being made. -/
@[simp] theorem seen_copy (t : T) : c.copy.seen t = c.seen t := by
  rw [seen, seen]
  refine Option.map_congr fun a holds => ?_
  exact Function.update_of_ne (Nat.ne_of_lt (c.held_lt t a holds)) _ _

/-- Readers do not see a change of an object that nobody holds. -/
theorem seen_modify (unique : c.Unique) (f : V → V) (t : T) : (c.modify f).seen t = c.seen t := by
  rw [seen, seen]
  refine Option.map_congr fun a holds => ?_
  refine Function.update_of_ne (fun same => unique t ?_) _ _
  exact same ▸ holds

theorem unique_copy : c.copy.Unique :=
  fun t holds => Nat.lt_irrefl _ (c.held_lt t _ holds)

end Writing

section Reading
variable [DecidableEq T] {c : Cell T V} {t r : T}

def acquire (c : Cell T V) (t : T) : Cell T V where
  heap := c.heap
  current := c.current
  fresh := c.fresh
  held := Function.update c.held t (some c.current)
  current_lt := c.current_lt
  held_lt := by
    intro r a holds
    by_cases same : r = t
    · subst same
      rw [Function.update_self] at holds
      exact Option.some.inj holds ▸ c.current_lt
    · rw [Function.update_of_ne same] at holds
      exact c.held_lt r a holds

def release (c : Cell T V) (t : T) : Cell T V where
  heap := c.heap
  current := c.current
  fresh := c.fresh
  held := Function.update c.held t none
  current_lt := c.current_lt
  held_lt := by
    intro r a holds
    by_cases same : r = t
    · subst same
      rw [Function.update_self] at holds
      cases holds
    · rw [Function.update_of_ne same] at holds
      exact c.held_lt r a holds

@[simp] theorem value_acquire : (c.acquire t).value = c.value := rfl

@[simp] theorem value_release : (c.release t).value = c.value := rfl

@[simp] theorem seen_acquire_self : (c.acquire t).seen t = some c.value := by
  simp [seen, acquire, value]

theorem seen_acquire_of_ne (other : r ≠ t) : (c.acquire t).seen r = c.seen r := by
  simp [seen, acquire, other]

@[simp] theorem seen_release_self : (c.release t).seen t = none := by
  simp [seen, release]

theorem seen_release_of_ne (other : r ≠ t) : (c.release t).seen r = c.seen r := by
  simp [seen, release, other]

theorem unique_release (unique : c.Unique) : (c.release t).Unique := by
  intro r holds
  by_cases same : r = t
  · subst same
    simp [release] at holds
  · refine unique r ?_
    simpa [release, same] using holds

end Reading

end Cell
end CopyOnWrite
