import Arale.Lib.Schedules
import Arale.Net.TcpConnection

/-!
# The output byte stream of a connection

Any schedule of `sendInLoop` calls and `handleWrite` events on an established
connection, with any pattern of short writes. The stream is intact when the bytes
the socket has accepted, followed by the bytes still buffered, are the payloads in
call order. Writes that report a vanished peer are excluded by hypothesis, all
other failures are allowed. The condition found is exact, not only sufficient.
-/

namespace OutputStream

open Arale Schedules

/-- A connection together with everything `sendInLoop` has been given. -/
structure Stream where
  conn : TcpConnection
  sent : List UInt8

def Stream.start (loop : EventLoop ConnFunctor) (sockfd : Int) (options : ConnOptions) : Stream :=
  ⟨.established loop sockfd options, []⟩

inductive Act where
  | sendInLoop (data : List UInt8) (o : WriteOutcome)
  | handleWrite (o : WriteOutcome)
  deriving DecidableEq, Repr

def Act.outcome : Act → WriteOutcome
  | .sendInLoop _ o => o
  | .handleWrite o => o

/-- One call; a write that would accept more than it was given is no step. -/
def step (s : Stream) : Act → Option Stream
  | .sendInLoop data o =>
    if o.Possible data.length then some ⟨s.conn.sendInLoop data o, s.sent ++ data⟩ else none
  | .handleWrite o =>
    if o.Possible s.conn.outputBuffer.length then some ⟨s.conn.handleWrite o, s.sent⟩ else none

/-- Nothing lost, duplicated or reordered. -/
def Intact (s : Stream) : Prop := s.conn.accepted ++ s.conn.outputBuffer = s.sent

instance (s : Stream) : Decidable (Intact s) :=
  inferInstanceAs (Decidable (s.conn.accepted ++ s.conn.outputBuffer = s.sent))

/-- The rest of a short direct write looks like the beginning of the payload, which
is what gets buffered in its place. -/
def RestRepeatsFront (s : Stream) : Act → Prop
  | .sendInLoop data (.accepted n) =>
    s.conn.sendsDirectly = true → data.take (data.length - n) = data.drop n
  | _ => True

theorem start_intact (loop : EventLoop ConnFunctor) (sockfd : Int) (options : ConnOptions) :
    Intact (.start loop sockfd options) := rfl

theorem handleWrite_intact {s : Stream} (intact : Intact s) (o : WriteOutcome) :
    Intact ⟨s.conn.handleWrite o, s.sent⟩ := by
  obtain ⟨loop, channel, -, -, h⟩ := s.conn.handleWrite_eq o
  simp only [Intact, h, List.append_assoc, List.take_append_drop]
  exact intact

/-- What `sendInLoop` does to the stream when the peer is there. -/
theorem sendInLoop_stream (c : TcpConnection) (data : List UInt8) {o : WriteOutcome}
    (benign : o.peerGone = false) :
    (c.sendInLoop data o).accepted ++ (c.sendInLoop data o).outputBuffer =
      c.accepted ++ (data.take (c.nwrote o) ++ (c.outputBuffer ++
        data.take (data.length - c.nwrote o))) := by
  obtain ⟨loop, -, h⟩ := c.sendInLoop_eq data o
  have fine : c.sendFails o = false := by simp [TcpConnection.sendFails, benign]
  by_cases all : data.length ≤ c.nwrote o
  · rw [h, if_pos (Or.inr all), Nat.sub_eq_zero_of_le all]
    simp
  · rw [h, if_neg (by simp [fine, all])]
    simp

/-- A direct write finds an empty buffer. -/
theorem outputBuffer_of_sendsDirectly {c : TcpConnection} (direct : c.sendsDirectly = true) :
    c.outputBuffer = [] := by
  simpa [TcpConnection.sendsDirectly] using (Bool.and_eq_true_iff.mp direct).2

/-- A payload that is not cut in two by a direct write goes into the stream whole. -/
theorem sendInLoop_intact_of_uncut {s : Stream} (intact : Intact s) (data : List UInt8)
    {o : WriteOutcome} (benign : o.peerGone = false) (uncut : s.conn.nwrote o = 0) :
    Intact ⟨s.conn.sendInLoop data o, s.sent ++ data⟩ := by
  simp only [Intact, sendInLoop_stream s.conn data benign, uncut]
  simpa [Intact] using congrArg (· ++ data) intact

theorem sendInLoop_intact_iff {s : Stream} (intact : Intact s) (data : List UInt8)
    {o : WriteOutcome} (benign : o.peerGone = false) :
    Intact ⟨s.conn.sendInLoop data o, s.sent ++ data⟩ ↔
      RestRepeatsFront s (.sendInLoop data o) := by
  cases o with
  | failed errno =>
    have uncut : s.conn.nwrote (.failed errno) = 0 := by
      cases direct : s.conn.sendsDirectly <;> simp [TcpConnection.nwrote, direct]
    exact ⟨fun _ => trivial, fun _ => sendInLoop_intact_of_uncut intact data benign uncut⟩
  | accepted n =>
    cases direct : s.conn.sendsDirectly with
    | false =>
      have uncut : s.conn.nwrote (.accepted n) = 0 := by simp [TcpConnection.nwrote, direct]
      refine ⟨fun _ held => ?_, fun _ => sendInLoop_intact_of_uncut intact data benign uncut⟩
      rw [direct] at held
      cases held
    | true =>
      have cut : s.conn.nwrote (.accepted n) = n := by simp [TcpConnection.nwrote, direct]
      have empty := outputBuffer_of_sendsDirectly direct
      have sent : s.conn.accepted = s.sent := by simpa [Intact, empty] using intact
      have whole := List.take_append_drop n data
      simp only [Intact, RestRepeatsFront, sendInLoop_stream s.conn data benign, cut, empty, sent,
        direct, List.nil_append, List.append_cancel_left_eq, true_implies]
      constructor
      · intro h
        exact List.append_cancel_left (h.trans whole.symm)
      · intro h
        rw [h, whole]

theorem restRepeatsFront_of_impossible {s : Stream} {data : List UInt8} {o : WriteOutcome}
    (impossible : ¬ o.Possible data.length) : RestRepeatsFront s (.sendInLoop data o) := by
  cases o with
  | failed errno => trivial
  | accepted n =>
    intro _
    have beyond : data.length ≤ n := Nat.le_of_not_le impossible
    simp [Nat.sub_eq_zero_of_le beyond, List.drop_eq_nil_of_le beyond]

/-- One step keeps the stream intact exactly when it meets the condition. -/
theorem step_intact_iff {s : Stream} (intact : Intact s) {a : Act}
    (benign : a.outcome.peerGone = false) :
    (∀ t, step s a = some t → Intact t) ↔ RestRepeatsFront s a := by
  cases a with
  | sendInLoop data o =>
    have quiet : o.peerGone = false := benign
    by_cases possible : o.Possible data.length
    · simp only [step, if_pos possible, Option.some.injEq, forall_eq']
      exact sendInLoop_intact_iff intact data quiet
    · simp only [step, if_neg possible, reduceCtorEq, false_implies, implies_true, true_iff]
      exact restRepeatsFront_of_impossible possible
  | handleWrite o =>
    refine ⟨fun _ => trivial, fun _ t next => ?_⟩
    simp only [step] at next
    split at next
    · cases next
      exact handleWrite_intact intact o
    · cases next

/-- In every run whose writes do not report a vanished peer the stream is intact in
every state exactly when no direct write is cut short, unless the part cut off
happens to repeat the front of the payload. -/
theorem output_stream_intact_iff (loop : EventLoop ConnFunctor) (sockfd : Int)
    (options : ConnOptions) (actions : List Act)
    (benign : ∀ a ∈ actions, a.outcome.peerGone = false) :
    Throughout step Intact (.start loop sockfd options) actions ↔
      Along step RestRepeatsFront (.start loop sockfd options) actions :=
  throughout_iff_along (J := fun _ => True)
    (fun _ _ intact _ quiet => step_intact_iff intact quiet)
    (fun _ _ _ _ _ _ => trivial) (start_intact loop sockfd options) trivial
    (along_of_forall step _ benign)

/-- A full direct write, a refused one and the drain of its payload. -/
theorem refused_send_intact_iff :
    (∀ a ∈ [Act.sendInLoop [1, 2] (.accepted 2), .sendInLoop [3, 4] (.failed .EWOULDBLOCK),
        .handleWrite (.accepted 1)], a.outcome.peerGone = false) ∧
      (Throughout step Intact (.start .new 7 {}) [.sendInLoop [1, 2] (.accepted 2),
          .sendInLoop [3, 4] (.failed .EWOULDBLOCK), .handleWrite (.accepted 1)] ↔
        Along step RestRepeatsFront (.start .new 7 {}) [.sendInLoop [1, 2] (.accepted 2),
          .sendInLoop [3, 4] (.failed .EWOULDBLOCK), .handleWrite (.accepted 1)]) := by
  have benign : ∀ a ∈ [Act.sendInLoop [1, 2] (.accepted 2),
      .sendInLoop [3, 4] (.failed .EWOULDBLOCK), .handleWrite (.accepted 1)],
      a.outcome.peerGone = false := by decide
  exact ⟨benign, output_stream_intact_iff .new 7 {} _ benign⟩

/-- The socket takes the first of two bytes; the first one is buffered again and the
second is gone. -/
theorem short_write_repeats_front :
    ¬ Throughout step Intact (.start .new 7 {}) [.sendInLoop [97, 98] (.accepted 1)] := by
  rintro ⟨-, after⟩
  have intact : Intact _ := after _ rfl
  revert intact
  decide

end OutputStream
