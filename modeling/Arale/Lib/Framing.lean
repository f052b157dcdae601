import Mathlib.Data.List.Basic

/-!
# Messages framed in a stream

A reader looks at the front of what has arrived: nothing can be said yet, nothing more can
be read, or a message ends within it. Its answer is final, as in every self-delimiting
format. What such a reader takes from a stream depends on the stream and not on the pieces
in which it arrived, and a stream that was written frame by frame is read back.
-/

namespace Framing

universe u v

/-- What stands at the front of a stream. -/
inductive Front (β : Type v) where
  | short
  | bad
  | frame (message : β) (size : Nat)
  deriving DecidableEq, Repr

structure Reader (α : Type u) (β : Type v) where
  front : List α → Front β
  fits : ∀ {xs message size}, front xs = .frame message size → 0 < size ∧ size ≤ xs.length
  settled : ∀ {xs}, front xs ≠ .short → ∀ more, front (xs ++ more) = front xs

/-- What has been read, what is left, and whether the reader gave up there. -/
structure Reading (α : Type u) (β : Type v) where
  messages : List β
  rest : List α
  bad : Bool
  deriving DecidableEq, Repr

/-- A reading that goes on where another one ended. -/
def Reading.after {α : Type u} {β : Type v} (earlier : List β) (r : Reading α β) : Reading α β :=
  { r with messages := earlier ++ r.messages }

namespace Reader
variable {α : Type u} {β : Type v} (reader : Reader α β)

/-- At most `fuel` messages from the front of a stream. -/
def readUpTo : Nat → List α → Reading α β
  | 0, xs => ⟨[], xs, false⟩
  | fuel + 1, xs =>
    match reader.front xs with
    | .short => ⟨[], xs, false⟩
    | .bad => ⟨[], xs, true⟩
    | .frame message size => (readUpTo fuel (xs.drop size)).after [message]

/-- All messages of a stream: each takes one symbol at least. -/
def read (xs : List α) : Reading α β := reader.readUpTo (xs.length + 1) xs

/-- One more piece of the stream arrives. -/
def feed (r : Reading α β) (piece : List α) : Reading α β :=
  (reader.read (r.rest ++ piece)).after r.messages

variable {reader}

theorem readUpTo_enough {fuel other : Nat} {xs : List α} (enough : xs.length < fuel)
    (enough' : xs.length < other) : reader.readUpTo fuel xs = reader.readUpTo other xs := by
  induction fuel generalizing other xs with
  | zero => omega
  | succ fuel ih =>
    cases other with
    | zero => omega
    | succ other =>
      cases front : reader.front xs with
      | short => simp [readUpTo, front]
      | bad => simp [readUpTo, front]
      | frame message size =>
        have bounds := reader.fits front
        have shorter : (xs.drop size).length = xs.length - size := List.length_drop
        have same : reader.readUpTo fuel (xs.drop size) = reader.readUpTo other (xs.drop size) :=
          ih (by omega) (by omega)
        simp [readUpTo, front, same]

theorem read_of_short {xs : List α} (front : reader.front xs = .short) :
    reader.read xs = ⟨[], xs, false⟩ := by
  simp [read, readUpTo, front]

theorem read_of_bad {xs : List α} (front : reader.front xs = .bad) :
    reader.read xs = ⟨[], xs, true⟩ := by
  simp [read, readUpTo, front]

theorem read_of_frame {xs : List α} {message : β} {size : Nat}
    (front : reader.front xs = .frame message size) :
    reader.read xs = (reader.read (xs.drop size)).after [message] := by
  have bounds := reader.fits front
  have shorter : (xs.drop size).length = xs.length - size := List.length_drop
  have same : reader.readUpTo xs.length (xs.drop size) = reader.read (xs.drop size) :=
    readUpTo_enough (by omega) (Nat.lt_succ_self _)
  simp only [read, readUpTo, front] at same ⊢
  rw [same]

/-- The three ways in which a reading can begin, as an induction principle. -/
theorem read_induction {motive : List α → Prop}
    (short : ∀ xs, reader.front xs = .short → motive xs)
    (bad : ∀ xs, reader.front xs = .bad → motive xs)
    (frame : ∀ xs message size, reader.front xs = .frame message size →
      motive (xs.drop size) → motive xs) (xs : List α) : motive xs := by
  induction h : xs.length using Nat.strongRecOn generalizing xs with
  | ind n ih =>
    cases front : reader.front xs with
    | short => exact short xs front
    | bad => exact bad xs front
    | frame message size =>
      have bounds := reader.fits front
      have shorter : (xs.drop size).length = xs.length - size := List.length_drop
      exact frame xs message size front (ih _ (by omega) _ rfl)

/-- Reading on from where a reading of the first part ended reads the whole. -/
theorem read_append (xs more : List α) :
    reader.read (xs ++ more) = reader.feed (reader.read xs) more := by
  induction xs using reader.read_induction with
  | short xs front =>
    rw [read_of_short front]
    rfl
  | bad xs front =>
    have final : reader.front xs ≠ .short := by simp [front]
    have whole := read_of_bad ((reader.settled final more).trans front)
    rw [read_of_bad front, feed, whole]
    rfl
  | frame xs message size front ih =>
    have bounds := reader.fits front
    have final : reader.front xs ≠ .short := by simp [front]
    have still := (reader.settled final more).trans front
    rw [read_of_frame still, List.drop_append_of_le_length bounds.2, ih, read_of_frame front]
    rfl

/-- A reader that has given up does not begin again. -/
theorem bad_append {xs : List α} (bad : (reader.read xs).bad = true) (more : List α) :
    (reader.read (xs ++ more)).bad = true := by
  induction xs using reader.read_induction with
  | short xs front =>
    rw [read_of_short front] at bad
    cases bad
  | bad xs front =>
    have final : reader.front xs ≠ .short := by simp [front]
    rw [read_of_bad ((reader.settled final more).trans front)]
  | frame xs message size front ih =>
    have bounds := reader.fits front
    have final : reader.front xs ≠ .short := by simp [front]
    have still := (reader.settled final more).trans front
    rw [read_of_frame front] at bad
    rw [read_of_frame still, List.drop_append_of_le_length bounds.2]
    exact ih bad

/-! ## Writing -/

/-- Messages that are written as frames are read, one by one, ahead of whatever follows. -/
theorem read_written {encode : β → List α} {messages : List β}
    (framed : ∀ message ∈ messages, ∀ more,
      reader.front (encode message ++ more) = .frame message (encode message).length)
    (more : List α) :
    reader.read (messages.flatMap encode ++ more) = (reader.read more).after messages := by
  induction messages with
  | nil => rfl
  | cons message messages ih =>
    rw [List.forall_mem_cons] at framed
    rw [List.flatMap_cons, List.append_assoc, read_of_frame (framed.1 _), List.drop_left,
      ih framed.2]
    rfl

end Reader
end Framing
