import Arale.Lib.Schedules
import Arale.Net.Buffer

/-!
# The buffer against an unbounded deque

A schedule of buffer calls is run on the buffer and on a plain list in lockstep.
Argument assertions are the caller's duty and are a condition on the schedule;
whatever else can go wrong (the assertions inside `ensureWritableBytes` and
`hasWritten`, a store outside the vector, wrong content) is the buffer's. The
result is exact: the lockstep holds along a schedule if and only if every request
for room is one that `makeSpace` can serve.
-/

namespace BufferRefinement

open Arale Schedules

inductive Op where
  | append (data : List UInt8)
  | ensureWritableBytes (len : Nat)
  | retrieve (len : Nat)
  | retrieveUntil (stop : Nat)
  | retrieveAsString (len : Nat)
  | retrieveAllAsString
  | retrieveAll
  | prepend (data : List UInt8)
  | readFd (outcome : ReadOutcome)
  deriving DecidableEq, Repr

/-- One call, with the bytes it returns to the caller. -/
def exec (b : Buffer) : Op → Except Fault (Buffer × List UInt8)
  | .append data => (b.append data).map (·, [])
  | .ensureWritableBytes len => (b.ensureWritableBytes len).map (·, [])
  | .retrieve len => (b.retrieve len).map (·, [])
  | .retrieveUntil stop => (b.retrieveUntil stop).map (·, [])
  | .retrieveAsString len => b.retrieveAsString len
  | .retrieveAllAsString => b.retrieveAllAsString
  | .retrieveAll => .ok (b.retrieveAll, [])
  | .prepend data => (b.prepend data).map (·, [])
  | .readFd outcome => (b.readFd outcome).map fun r => (r.1, [])

/-- The deque's own operations; the second component is what it returns. -/
inductive DequeOp where
  | keep
  | pushBack (bytes : List UInt8)
  | pushFront (bytes : List UInt8)
  | dropFront (n : Nat)
  | takeFront (n : Nat)
  | takeAll
  | clear

def DequeOp.run (deque : List UInt8) : DequeOp → List UInt8 × List UInt8
  | .keep => (deque, [])
  | .pushBack bytes => (deque ++ bytes, [])
  | .pushFront bytes => (bytes ++ deque, [])
  | .dropFront n => (deque.drop n, [])
  | .takeFront n => (deque.drop n, deque.take n)
  | .takeAll => ([], deque)
  | .clear => ([], [])

/-- What a call means on the deque. The buffer is consulted only to turn the
pointer argument of `retrieveUntil` into a distance from `peek()`. -/
def Op.meaning (b : Buffer) : Op → DequeOp
  | .append data => .pushBack data
  | .ensureWritableBytes _ => .keep
  | .retrieve len => .dropFront len
  | .retrieveUntil stop => .dropFront (stop - b.readIndex)
  | .retrieveAsString len => .takeFront len
  | .retrieveAllAsString => .takeAll
  | .retrieveAll => .clear
  | .prepend data => .pushFront data
  | .readFd (.delivered bytes) => .pushBack bytes
  | .readFd (.failed _) => .keep

/-- The buffer and the deque side by side. -/
structure Pair where
  buffer : Buffer
  deque : List UInt8

def Pair.start : Pair := ⟨.new, []⟩

def lockstep (p : Pair) (op : Op) : Option Pair :=
  match exec p.buffer op with
  | .ok (b, _) => some ⟨b, ((op.meaning p.buffer).run p.deque).1⟩
  | .error _ => none

/-- The argument assertions, and what `readv` can deliver into the two parts. -/
def Admissible (p : Pair) : Op → Prop
  | .retrieve len => len ≤ p.buffer.readableBytes
  | .retrieveUntil stop => p.buffer.readIndex ≤ stop ∧ stop ≤ p.buffer.writeIndex
  | .retrieveAsString len => len ≤ p.buffer.readableBytes
  | .prepend data => data.length ≤ p.buffer.prependableSize
  | .readFd (.delivered bytes) =>
      bytes.length ≤ p.buffer.writableBytes + Buffer.extrabufSize
  | _ => True

/-- The call succeeds with every store inside the vector, leaves the indices in
order, makes the room it promises and agrees with the deque on content and result. -/
def Refines (p : Pair) (op : Op) : Prop :=
  ∃ b result, exec p.buffer op = .ok (b, result) ∧ b.Wf ∧
    (b.readable, result) = (op.meaning p.buffer).run p.deque ∧
    ∀ len, op = .ensureWritableBytes len → len ≤ b.writableBytes

/-- The room each call asks for is room `makeSpace` can provide. -/
def HasRoom (p : Pair) : Op → Prop
  | .append data => p.buffer.MakesRoom data.length
  | .ensureWritableBytes len => p.buffer.MakesRoom len
  | .readFd (.delivered bytes) => p.buffer.MakesRoom bytes.length
  | _ => True

/-- The lockstep invariant. -/
structure Matched (p : Pair) : Prop where
  sound : p.buffer.Sound
  content : p.buffer.readable = p.deque

theorem start_matched : Matched Pair.start := ⟨Buffer.new_sound, Buffer.readable_new⟩

theorem map_eq_ok {α β : Type} {x : Except Fault α} {f : α → β} {r : β} :
    x.map f = .ok r ↔ ∃ a, x = .ok a ∧ f a = r := by
  cases x <;> simp [Except.map]

/-- Where there is room, a call refines the deque and keeps the buffer sound. -/
theorem exec_of_hasRoom {p : Pair} (matched : Matched p) {op : Op} (adm : Admissible p op)
    (room : HasRoom p op) :
    ∃ b result, exec p.buffer op = .ok (b, result) ∧ b.Sound ∧
      (b.readable, result) = (op.meaning p.buffer).run p.deque ∧
      ∀ len, op = .ensureWritableBytes len → len ≤ b.writableBytes := by
  obtain ⟨sound, content⟩ := matched
  rw [← content]
  cases op with
  | append data =>
    obtain ⟨b, done, sound', h⟩ := Buffer.append_spec sound room
    exact ⟨b, [], map_eq_ok.mpr ⟨b, done, rfl⟩, sound', by rw [h]; rfl, by simp⟩
  | ensureWritableBytes len =>
    obtain ⟨b, done, sound', h, enough⟩ := Buffer.ensureWritableBytes_spec sound room
    refine ⟨b, [], map_eq_ok.mpr ⟨b, done, rfl⟩, sound', by rw [h]; rfl, ?_⟩
    intro n hn
    cases hn
    exact enough
  | retrieve len =>
    obtain ⟨b, done, sound', h⟩ := Buffer.retrieve_spec sound adm
    exact ⟨b, [], map_eq_ok.mpr ⟨b, done, rfl⟩, sound', by rw [h]; rfl, by simp⟩
  | retrieveUntil stop =>
    obtain ⟨b, done, sound', h⟩ := Buffer.retrieveUntil_spec sound adm.1 adm.2
    exact ⟨b, [], map_eq_ok.mpr ⟨b, done, rfl⟩, sound', by rw [h]; rfl, by simp⟩
  | retrieveAsString len =>
    obtain ⟨b, done, sound', h⟩ := Buffer.retrieveAsString_spec sound adm
    exact ⟨b, _, done, sound', by rw [h]; rfl, by simp⟩
  | retrieveAllAsString =>
    obtain ⟨b, done, sound', h⟩ := Buffer.retrieveAsString_spec sound (Nat.le_refl _)
    have whole := Buffer.length_readable sound.toWf
    refine ⟨b, _, done, sound', ?_, by simp⟩
    rw [h, ← whole, List.drop_length, List.take_length]
    rfl
  | retrieveAll =>
    obtain ⟨sound', h⟩ := Buffer.retrieveAll_spec sound
    exact ⟨_, [], rfl, sound', by rw [h]; rfl, by simp⟩
  | prepend data =>
    obtain ⟨b, done, sound', h⟩ := Buffer.prepend_spec sound adm
    exact ⟨b, [], map_eq_ok.mpr ⟨b, done, rfl⟩, sound', by rw [h]; rfl, by simp⟩
  | readFd outcome =>
    cases outcome with
    | failed errno => exact ⟨p.buffer, [], rfl, sound, rfl, by simp⟩
    | delivered bytes =>
      obtain ⟨b, done, sound', h⟩ := Buffer.readFd_spec sound room
      exact ⟨b, [], map_eq_ok.mpr ⟨_, done, rfl⟩, sound', by rw [h]; rfl, by simp⟩

theorem hasRoom_of_exec {p : Pair} (matched : Matched p) {op : Op} {r : Buffer × List UInt8}
    (done : exec p.buffer op = .ok r) : HasRoom p op := by
  cases op with
  | append data =>
    obtain ⟨b, h, -⟩ := map_eq_ok.mp done
    exact Buffer.makesRoom_of_append matched.sound h
  | ensureWritableBytes len =>
    obtain ⟨b, h, -⟩ := map_eq_ok.mp done
    exact Buffer.makesRoom_of_ensureWritableBytes matched.sound h
  | readFd outcome =>
    cases outcome with
    | failed errno => trivial
    | delivered bytes =>
      obtain ⟨b, h, -⟩ := map_eq_ok.mp done
      exact Buffer.makesRoom_of_readFd matched.sound h
  | retrieve len => trivial
  | retrieveUntil stop => trivial
  | retrieveAsString len => trivial
  | retrieveAllAsString => trivial
  | retrieveAll => trivial
  | prepend data => trivial

theorem refines_iff_hasRoom {p : Pair} (matched : Matched p) {op : Op}
    (adm : Admissible p op) : Refines p op ↔ HasRoom p op := by
  constructor
  · rintro ⟨b, result, done, -⟩
    exact hasRoom_of_exec matched done
  · intro room
    obtain ⟨b, result, done, sound, agrees, enough⟩ := exec_of_hasRoom matched adm room
    exact ⟨b, result, done, sound.toWf, agrees, enough⟩

theorem lockstep_matched {p q : Pair} (matched : Matched p) {op : Op} (adm : Admissible p op)
    (room : HasRoom p op) (next : lockstep p op = some q) : Matched q := by
  obtain ⟨b, result, done, sound, agrees, -⟩ := exec_of_hasRoom matched adm room
  rw [lockstep, done] at next
  cases next
  exact ⟨sound, congrArg Prod.fst agrees⟩

/-- Along a schedule with admissible arguments the buffer is an unbounded deque
exactly when every request for room can be served. -/
theorem buffer_refines_deque_iff (ops : List Op)
    (admissible : Along lockstep Admissible Pair.start ops) :
    Along lockstep Refines Pair.start ops ↔ Along lockstep HasRoom Pair.start ops :=
  along_congr (I := Matched) (fun _ _ matched adm => refines_iff_hasRoom matched adm)
    (fun _ _ _ matched adm refines next =>
      lockstep_matched matched adm ((refines_iff_hasRoom matched adm).mp refines) next)
    start_matched admissible

/-- A prepend into the reserved prefix and an append meet the argument conditions. -/
theorem prepend_append_refines_iff :
    Along lockstep Admissible Pair.start [.prepend [1, 2], .append [3]] ∧
      (Along lockstep Refines Pair.start [.prepend [1, 2], .append [3]] ↔
        Along lockstep HasRoom Pair.start [.prepend [1, 2], .append [3]]) := by
  have admissible : Along lockstep Admissible Pair.start [.prepend [1, 2], .append [3]] :=
    ⟨show 2 ≤ 8 by decide, fun _ _ => ⟨trivial, fun _ _ => trivial⟩⟩
  exact ⟨admissible, buffer_refines_deque_iff _ admissible⟩

/-- One byte more than a fresh buffer holds: the content is "moved" onto itself,
no room is made, and the byte has no place in the vector. -/
theorem append_beyond_fresh_buffer :
    Along lockstep Admissible Pair.start [.append (List.replicate 1025 97)] ∧
      ¬ Along lockstep Refines Pair.start [.append (List.replicate 1025 97)] := by
  refine ⟨⟨trivial, fun _ _ => trivial⟩, ?_⟩
  rintro ⟨refines, -⟩
  have room : Buffer.new.MakesRoom (List.replicate 1025 (97 : UInt8)).length :=
    (refines_iff_hasRoom start_matched (show Admissible Pair.start
      (.append (List.replicate 1025 97)) from trivial)).mp refines
  rw [List.length_replicate, Buffer.MakesRoom, Buffer.writableBytes_new] at room
  exact absurd (room (by decide) (by decide)) (by decide)

end BufferRefinement
