import Mathlib.Data.List.Basic

/-!
# Reading a file front to back

A reader consumes bytes of a file and may store something elsewhere meanwhile. It ends with
a value, with an exception, or with an access outside of an object, after which nothing is
said about the program. What was stored before an exception stays. The lemmas are about
readers of a fixed width, alone and in a loop.
-/

namespace FileReader

inductive Stop
  | thrown
  | wild
  deriving DecidableEq, Repr

/-- The bytes not read yet, and what has been stored. -/
structure Reading (σ : Type) where
  rest : List UInt8
  store : σ
  deriving DecidableEq, Repr

abbrev Reader (σ α : Type) := EStateM Stop (Reading σ) α

variable {σ α β : Type}

theorem bind_ok {x : Reader σ α} {f : α → Reader σ β} {s s' : Reading σ} {a : α}
    (done : x s = .ok a s') : (x >>= f) s = f a s' := by
  simp only [bind, EStateM.bind, done]

theorem bind_error {x : Reader σ α} {f : α → Reader σ β} {s s' : Reading σ} {stop : Stop}
    (stopped : x s = .error stop s') : (x >>= f) s = .error stop s' := by
  simp only [bind, EStateM.bind, stopped]

/-- An exception unless the condition holds. -/
def require (condition : Bool) : Reader σ Unit := if condition then pure () else throw .thrown

theorem require_ok {condition : Bool} (holds : condition = true) (s : Reading σ) :
    require condition s = .ok () s := by
  rw [require, if_pos holds]
  rfl

/-- Reads `n` times. -/
def repeated (read : Reader σ α) : Nat → Reader σ (List α)
  | 0 => pure []
  | n + 1 => do
    let x ← read
    let xs ← repeated read n
    pure (x :: xs)

/-- Wherever `width` bytes are left at `k`, they are read as `value k`. -/
def Reads (read : Reader σ α) (bytes : List UInt8) (width : Nat) (value : Nat → α) : Prop :=
  ∀ k store, k + width ≤ bytes.length →
    read ⟨bytes.drop k, store⟩ = .ok (value k) ⟨bytes.drop (k + width), store⟩

theorem repeated_reads {read : Reader σ α} {bytes : List UInt8} {width : Nat} {value : Nat → α}
    (reads : Reads read bytes width value) (n : Nat) :
    Reads (repeated read n) bytes (width * n)
      fun k => (List.range n).map fun i => value (k + width * i) := by
  induction n with
  | zero => exact fun k store _ => rfl
  | succ n ih =>
    intro k store fits
    rw [Nat.mul_succ] at fits
    have first := reads k store (by omega)
    have others := ih (k + width) store (by omega)
    rw [repeated, bind_ok first, bind_ok others]
    simp only [pure, EStateM.pure, List.range_succ_eq_map, List.map_cons, List.map_map,
      Nat.mul_succ]
    congr 2
    · congr 2
      funext i
      simp only [Function.comp_apply, Nat.mul_succ]
      congr 1
      omega
    · congr 1
      omega

/-- Any number of bytes. -/
def bytesReader (n : Nat) : Reader σ (List UInt8) := fun s =>
  if n ≤ s.rest.length then .ok (s.rest.take n) { s with rest := s.rest.drop n }
  else .error .thrown { s with rest := [] }

theorem bytesReader_reads (bytes : List UInt8) (n : Nat) :
    Reads (σ := σ) (bytesReader n) bytes n fun k => (bytes.drop k).take n := by
  intro k store fits
  have enough : n ≤ (bytes.drop k).length := by
    rw [List.length_drop]
    omega
  simp only [bytesReader, enough, if_true, List.drop_drop]

/-! ## Reading what has been written -/

/-- Where the encoding of a value stands ahead, it is read as the value and consumed. -/
def Decodes (read : Reader σ β) (encode : α → List UInt8) (value : α → β) : Prop :=
  ∀ x rest store, read ⟨encode x ++ rest, store⟩ = .ok (value x) ⟨rest, store⟩

theorem repeated_decodes {read : Reader σ β} {encode : α → List UInt8} {value : α → β}
    (decodes : Decodes read encode value) (xs : List α) (rest : List UInt8) (store : σ) :
    repeated read xs.length ⟨xs.flatMap encode ++ rest, store⟩ =
      .ok (xs.map value) ⟨rest, store⟩ := by
  induction xs with
  | nil => rfl
  | cons x xs ih =>
    have first := decodes x (xs.flatMap encode ++ rest) store
    rw [List.length_cons, repeated, List.flatMap_cons, List.append_assoc, bind_ok first,
      bind_ok ih]
    rfl

theorem bytesReader_append (bytes rest : List UInt8) (store : σ) :
    bytesReader bytes.length ⟨bytes ++ rest, store⟩ = .ok bytes ⟨rest, store⟩ := by
  have enough : bytes.length ≤ (bytes ++ rest).length := by simp
  simp only [bytesReader, if_pos enough, List.take_left, List.drop_left]

end FileReader
