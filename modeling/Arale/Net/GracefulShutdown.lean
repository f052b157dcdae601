import Arale.Lib.Schedules
import Arale.Net.TcpConnection

/-!
# Graceful shutdown

Every schedule of what a loop thread can do to one connection: sends, `shutdown()`
called there or by another thread, the posted `shutdownInLoop`, write events with
any outcome, and the calls that leave the output alone. A shutdown is graceful when
an open connection whose output has drained has been half-closed, and when no
half-close happens over buffered bytes. The condition found is exact.
-/

namespace GracefulShutdown

open Arale Schedules

/-- The remaining entry points of a connection on its loop thread. -/
inductive Call where
  | handleRead (o : ReadOutcome)
  | handleClose
  | forceClose (inLoop : Bool)
  | forceCloseInLoop
  | forceCloseWithDelay
  | startRead (inLoop : Bool)
  | startReadInLoop
  | stopRead (inLoop : Bool)
  | stopReadInLoop
  | connectionDestroyed
  deriving DecidableEq, Repr

def Call.run (c : TcpConnection) : Call → TcpConnection
  | .handleRead o => c.handleRead o
  | .handleClose => c.handleClose
  | .forceClose inLoop => c.forceClose inLoop
  | .forceCloseInLoop => c.forceCloseInLoop
  | .forceCloseWithDelay => c.forceCloseWithDelay
  | .startRead inLoop => c.startRead inLoop
  | .startReadInLoop => c.startReadInLoop
  | .stopRead inLoop => c.stopRead inLoop
  | .stopReadInLoop => c.stopReadInLoop
  | .connectionDestroyed => c.connectionDestroyed

inductive Act where
  | send (data : List UInt8) (o : WriteOutcome)
  /-- a functor posted by `send` in another thread -/
  | sendInLoop (data : List UInt8) (o : WriteOutcome)
  | shutdown (inLoop : Bool)
  /-- a functor posted by `shutdown` in another thread -/
  | shutdownInLoop
  | handleWrite (o : WriteOutcome)
  | call (call : Call)
  deriving DecidableEq, Repr

structure Shutdown where
  conn : TcpConnection
  /-- posted `shutdownInLoop` functors that have not run -/
  posted : Nat
  /-- `shutdown()` was called while connected and its `shutdownInLoop` has run -/
  asked : Bool

def Shutdown.start (loop : EventLoop ConnFunctor) (sockfd : Int) (options : ConnOptions) :
    Shutdown :=
  ⟨.established loop sockfd options, 0, false⟩

def step (s : Shutdown) : Act → Option Shutdown
  | .send data o =>
    if o.Possible data.length then some { s with conn := s.conn.send data o } else none
  | .sendInLoop data o =>
    if o.Possible data.length then some { s with conn := s.conn.sendInLoop data o } else none
  | .shutdown true =>
    some { s with conn := s.conn.shutdown true, asked := s.asked || s.conn.isConnected }
  | .shutdown false =>
    some { s with conn := s.conn.shutdown false
                  posted := if s.conn.isConnected then s.posted + 1 else s.posted }
  | .shutdownInLoop =>
    if s.posted = 0 then none
    else some ⟨s.conn.shutdownInLoop, s.posted - 1, true⟩
  | .handleWrite o =>
    if o.Possible s.conn.outputBuffer.length then
      some { s with conn := s.conn.handleWrite o }
    else none
  | .call call => some { s with conn := call.run s.conn }

/-- The half-close has happened where it is due, and never over buffered bytes. -/
structure Graceful (s : Shutdown) : Prop where
  completes : s.asked = true → s.conn.isOpen = true → s.conn.outputBuffer = [] →
    s.conn.halfCloses ≠ []
  drained : ∀ n ∈ s.conn.halfCloses, n = 0

/-- The connection is open, not half-closed yet, and asks for write events. -/
def Waiting (c : TcpConnection) : Prop :=
  c.isOpen = true ∧ c.halfCloses = [] ∧ c.readWriteChannel.isWriting = true

/-- `shutdownInLoop` does not find a write interest that has outlived the output, nor
a closed connection with output left; and no write event drains the output after it. -/
def NoDrain (s : Shutdown) : Act → Prop
  | .shutdown true => s.conn.isConnected = true → Waiting s.conn → s.conn.outputBuffer ≠ []
  | .shutdownInLoop => s.posted ≠ 0 →
      (Waiting s.conn → s.conn.outputBuffer ≠ []) ∧
      (s.conn.readWriteChannel.isWriting = false → s.conn.outputBuffer = [])
  | .handleWrite (.accepted n) =>
      s.asked = true → Waiting s.conn → n ≠ s.conn.outputBuffer.length
  | _ => True

/-- What every run keeps, graceful or not. -/
structure Tracked (s : Shutdown) : Prop where
  writing : s.conn.isOpen = true → s.conn.outputBuffer ≠ [] →
    s.conn.readWriteChannel.isWriting = true
  fresh : s.conn.isConnected = true →
    s.conn.halfCloses = [] ∧ s.posted = 0 ∧ s.asked = false

theorem start_graceful (loop : EventLoop ConnFunctor) (sockfd : Int) (options : ConnOptions) :
    Graceful (.start loop sockfd options) :=
  ⟨fun asked => Bool.noConfusion asked, fun _ h => absurd h List.not_mem_nil⟩

theorem start_tracked (loop : EventLoop ConnFunctor) (sockfd : Int) (options : ConnOptions) :
    Tracked (.start loop sockfd options) :=
  ⟨fun _ h => absurd rfl h, fun _ => ⟨rfl, rfl, rfl⟩⟩

/-- A change that leaves the output, the half-closes and the write interest of an
open connection alone, and opens nothing. -/
structure Quiet (c d : TcpConnection) : Prop where
  output : d.outputBuffer = c.outputBuffer
  halfCloses : d.halfCloses = c.halfCloses
  stillOpen : d.isOpen = true → c.isOpen = true ∧
    d.readWriteChannel.isWriting = c.readWriteChannel.isWriting
  stillConnected : d.isConnected = true → c.isConnected = true

theorem Quiet.refl (c : TcpConnection) : Quiet c c := ⟨rfl, rfl, fun h => ⟨h, rfl⟩, id⟩

/-- A closed connection has nothing left to keep. -/
theorem quiet_of_closed {c d : TcpConnection} (output : d.outputBuffer = c.outputBuffer)
    (halfCloses : d.halfCloses = c.halfCloses) (closed : d.state = .kDisconnected) :
    Quiet c d where
  output := output
  halfCloses := halfCloses
  stillOpen := by simp [TcpConnection.isOpen, closed]
  stillConnected := by simp [TcpConnection.isConnected, closed]

theorem quiet_of_same_state {c d : TcpConnection} (output : d.outputBuffer = c.outputBuffer)
    (halfCloses : d.halfCloses = c.halfCloses) (state : d.state = c.state)
    (writing : d.readWriteChannel.isWriting = c.readWriteChannel.isWriting) : Quiet c d where
  output := output
  halfCloses := halfCloses
  stillOpen := by simp [TcpConnection.isOpen, state, writing]
  stillConnected := by simp [TcpConnection.isConnected, state]

theorem handleClose_quiet (c : TcpConnection) : Quiet c c.handleClose := by
  rw [c.handleClose_eq]
  exact quiet_of_closed rfl rfl rfl

theorem forceCloseInLoop_quiet (c : TcpConnection) : Quiet c c.forceCloseInLoop := by
  rw [c.forceCloseInLoop_eq]
  exact quiet_of_closed rfl rfl rfl

theorem handleRead_quiet (c : TcpConnection) (o : ReadOutcome) : Quiet c (c.handleRead o) := by
  cases o with
  | failed errno => exact quiet_of_same_state rfl rfl rfl rfl
  | delivered bytes =>
    cases bytes with
    | nil =>
      rw [c.handleRead_eof]
      exact handleClose_quiet c
    | cons b rest => exact quiet_of_same_state rfl rfl rfl rfl

/-- Both closing calls that only ask move an open connection to `kDisconnecting`. -/
theorem quiet_of_disconnecting {c d : TcpConnection} (isOpen : c.isOpen = true)
    (output : d.outputBuffer = c.outputBuffer) (halfCloses : d.halfCloses = c.halfCloses)
    (state : d.state = .kDisconnecting) (channel : d.readWriteChannel = c.readWriteChannel) :
    Quiet c d where
  output := output
  halfCloses := halfCloses
  stillOpen := fun _ => ⟨isOpen, by rw [channel]⟩
  stillConnected := by simp [TcpConnection.isConnected, state]

theorem forceClose_quiet (c : TcpConnection) (inLoop : Bool) : Quiet c (c.forceClose inLoop) := by
  unfold TcpConnection.forceClose
  split
  · cases inLoop with
    | true =>
      simp only [if_true, TcpConnection.forceCloseInLoop_eq]
      exact quiet_of_closed rfl rfl rfl
    | false => exact quiet_of_disconnecting ‹_› rfl rfl rfl rfl
  · exact Quiet.refl c

theorem forceCloseWithDelay_quiet (c : TcpConnection) : Quiet c c.forceCloseWithDelay := by
  unfold TcpConnection.forceCloseWithDelay
  split
  · exact quiet_of_disconnecting ‹_› rfl rfl rfl rfl
  · exact Quiet.refl c

theorem startReadInLoop_quiet (c : TcpConnection) : Quiet c c.startReadInLoop := by
  unfold TcpConnection.startReadInLoop
  split
  · exact quiet_of_same_state rfl rfl rfl (Channel.isWriting_enableRead _)
  · exact Quiet.refl c

theorem stopReadInLoop_quiet (c : TcpConnection) : Quiet c c.stopReadInLoop := by
  unfold TcpConnection.stopReadInLoop
  split
  · exact quiet_of_same_state rfl rfl rfl (Channel.isWriting_disableRead _)
  · exact Quiet.refl c

theorem Quiet.trans {c d e : TcpConnection} (first : Quiet c d) (last : Quiet d e) : Quiet c e where
  output := last.output.trans first.output
  halfCloses := last.halfCloses.trans first.halfCloses
  stillOpen := fun h =>
    have mid := last.stillOpen h
    have start := first.stillOpen mid.1
    ⟨start.1, mid.2.trans start.2⟩
  stillConnected := first.stillConnected ∘ last.stillConnected

theorem assertAt_quiet (c : TcpConnection) (site : AssertSite) (cond : Bool) :
    Quiet c (c.assertAt site cond) := by
  rw [c.assertAt_eq]
  exact quiet_of_same_state rfl rfl rfl rfl

theorem connectionDestroyed_quiet (c : TcpConnection) : Quiet c c.connectionDestroyed := by
  unfold TcpConnection.connectionDestroyed
  split
  · exact quiet_of_closed rfl rfl rfl
  · exact quiet_of_same_state rfl rfl rfl rfl

theorem call_quiet (c : TcpConnection) (call : Call) : Quiet c (call.run c) := by
  cases call with
  | handleRead o => exact handleRead_quiet c o
  | handleClose => exact handleClose_quiet c
  | forceClose inLoop => exact forceClose_quiet c inLoop
  | forceCloseInLoop => exact forceCloseInLoop_quiet c
  | forceCloseWithDelay => exact forceCloseWithDelay_quiet c
  | startRead inLoop =>
    refine (assertAt_quiet c .startRead (c.state == .kConnected)).trans ?_
    cases inLoop with
    | true => exact startReadInLoop_quiet _
    | false => exact quiet_of_same_state rfl rfl rfl rfl
  | startReadInLoop => exact startReadInLoop_quiet c
  | stopRead inLoop =>
    refine (assertAt_quiet c .stopRead (c.state == .kConnected)).trans ?_
    cases inLoop with
    | true => exact stopReadInLoop_quiet _
    | false => exact quiet_of_same_state rfl rfl rfl rfl
  | stopReadInLoop => exact stopReadInLoop_quiet c
  | connectionDestroyed => exact connectionDestroyed_quiet c

/-- Nothing is asked and nothing is posted by a quiet change. -/
theorem Quiet.graceful {c d : TcpConnection} (quiet : Quiet c d) {posted posted' : Nat}
    {asked : Bool} (graceful : Graceful ⟨c, posted, asked⟩) : Graceful ⟨d, posted', asked⟩ where
  completes := fun h isOpen empty => by
    change d.halfCloses ≠ []
    rw [quiet.halfCloses]
    exact graceful.completes h (quiet.stillOpen isOpen).1 (quiet.output ▸ empty)
  drained := fun n h => graceful.drained n (quiet.halfCloses ▸ h)

theorem Quiet.tracked {c d : TcpConnection} (quiet : Quiet c d) {posted : Nat} {asked : Bool}
    (tracked : Tracked ⟨c, posted, asked⟩) : Tracked ⟨d, posted, asked⟩ where
  writing := fun isOpen some => by
    have before := quiet.stillOpen isOpen
    change d.readWriteChannel.isWriting = true
    rw [before.2]
    exact tracked.writing before.1 (quiet.output ▸ some)
  fresh := fun connected => by
    have before := tracked.fresh (quiet.stillConnected connected)
    exact ⟨quiet.halfCloses.trans before.1, before.2⟩

/-! ## The steps that concern the output -/

section Steps
variable {s : Shutdown}

/-- Sending never removes output and asks for write events if it adds some. -/
theorem sendInLoop_keeps (graceful : Graceful s) (data : List UInt8) (o : WriteOutcome) :
    Graceful { s with conn := s.conn.sendInLoop data o } := by
  obtain ⟨loop, -, h⟩ := s.conn.sendInLoop_eq data o
  rw [h]
  split
  · exact ⟨graceful.completes, graceful.drained⟩
  · refine ⟨fun asked isOpen empty => ?_, graceful.drained⟩
    exact graceful.completes asked isOpen (List.append_eq_nil_iff.mp empty).1

theorem sendInLoop_tracked (tracked : Tracked s) (data : List UInt8) (o : WriteOutcome) :
    Tracked { s with conn := s.conn.sendInLoop data o } := by
  obtain ⟨loop, -, h⟩ := s.conn.sendInLoop_eq data o
  rw [h]
  split
  · exact ⟨tracked.writing, tracked.fresh⟩
  · exact ⟨fun _ _ => TcpConnection.isWriting_wantWrite _, tracked.fresh⟩

theorem handleWrite_tracked (tracked : Tracked s) (o : WriteOutcome) :
    Tracked { s with conn := s.conn.handleWrite o } := by
  obtain ⟨loop, channel, -, writing, h⟩ := s.conn.handleWrite_eq o
  rw [h]
  refine ⟨fun isOpen some => ?_, tracked.fresh⟩
  change channel.isWriting = true
  rw [writing]
  refine tracked.writing isOpen fun empty => some ?_
  simp [empty]

theorem flushed_pos {c : TcpConnection} {o : WriteOutcome} (some : c.flushed o ≠ 0) :
    c.readWriteChannel.isWriting = true ∧ o = .accepted (c.flushed o) := by
  cases writing : c.readWriteChannel.isWriting with
  | false => exact absurd (by simp [TcpConnection.flushed, writing]) some
  | true =>
    cases o with
    | failed errno => exact absurd (by simp [TcpConnection.flushed, writing]) some
    | accepted n => simp [TcpConnection.flushed, writing]

/-- A write event breaks the promise only by draining what the half-close waits for. -/
theorem handleWrite_graceful_iff (graceful : Graceful s) {o : WriteOutcome}
    (possible : o.Possible s.conn.outputBuffer.length) :
    Graceful { s with conn := s.conn.handleWrite o } ↔ NoDrain s (.handleWrite o) := by
  obtain ⟨loop, channel, -, -, h⟩ := s.conn.handleWrite_eq o
  rw [h]
  constructor
  · intro after
    cases o with
    | failed errno => trivial
    | accepted n =>
      rintro asked ⟨isOpen, notYet, writing⟩ rfl
      refine after.completes asked isOpen ?_ notYet
      simp [TcpConnection.flushed, writing]
  · intro noDrain
    refine ⟨fun asked isOpen empty notYet => ?_, graceful.drained⟩
    have some : s.conn.outputBuffer.length ≠ 0 := fun none =>
      graceful.completes asked isOpen (List.length_eq_zero_iff.mp none) notYet
    have all : s.conn.outputBuffer.length ≤ s.conn.flushed o := List.drop_eq_nil_iff.mp empty
    obtain ⟨writing, accepted⟩ := flushed_pos (c := s.conn) (o := o) (by omega)
    rw [accepted] at possible noDrain
    exact noDrain asked ⟨isOpen, notYet, writing⟩ (Nat.le_antisymm possible all)

theorem shutdownInLoop_graceful_iff {c : TcpConnection} (drained : ∀ n ∈ c.halfCloses, n = 0)
    (posted : Nat) :
    Graceful ⟨c.shutdownInLoop, posted, true⟩ ↔
      (Waiting c → c.outputBuffer ≠ []) ∧
      (c.readWriteChannel.isWriting = false → c.outputBuffer = []) := by
  rw [c.shutdownInLoop_eq]
  cases writing : c.readWriteChannel.isWriting with
  | true =>
    constructor
    · intro after
      refine ⟨?_, fun h => Bool.noConfusion h⟩
      rintro ⟨isOpen, notYet, -⟩ empty
      exact after.completes rfl isOpen empty notYet
    · rintro ⟨waits, -⟩
      exact ⟨fun _ isOpen empty notYet => waits ⟨isOpen, notYet, writing⟩ empty, drained⟩
  | false =>
    constructor
    · intro after
      refine ⟨fun waiting => ?_, fun _ => ?_⟩
      · rw [Waiting, writing] at waiting
        exact Bool.noConfusion waiting.2.2
      · have last := after.drained c.outputBuffer.length (by simp)
        exact List.length_eq_zero_iff.mp last
    · rintro ⟨-, empty⟩
      refine ⟨fun _ _ _ => by simp, fun n member => ?_⟩
      rcases List.mem_append.mp member with earlier | now
      · exact drained n earlier
      · rw [List.mem_singleton.mp now, empty rfl]
        rfl

theorem isConnected_shutdownInLoop (c : TcpConnection) :
    c.shutdownInLoop.isConnected = c.isConnected := by
  rw [c.shutdownInLoop_eq]
  rfl

/-- The half-close changes nothing the invariant speaks of once the connection is closing. -/
theorem shutdownInLoop_tracked {c : TcpConnection} (closing : c.isConnected = false)
    (writing : c.isOpen = true → c.outputBuffer ≠ [] → c.readWriteChannel.isWriting = true)
    (posted : Nat) (asked : Bool) : Tracked ⟨c.shutdownInLoop, posted, asked⟩ := by
  refine ⟨?_, fun connected => ?_⟩
  · rw [c.shutdownInLoop_eq]
    exact writing
  · change c.shutdownInLoop.isConnected = true at connected
    rw [isConnected_shutdownInLoop, closing] at connected
    cases connected

/-- In the loop thread the whole of `shutdown` happens at once. -/
theorem shutdown_graceful_iff (graceful : Graceful s) (tracked : Tracked s) :
    Graceful { s with conn := s.conn.shutdown true, asked := s.asked || s.conn.isConnected } ↔
      NoDrain s (.shutdown true) := by
  cases connected : s.conn.isConnected with
  | false =>
    rw [s.conn.shutdown_of_not_connected connected, Bool.or_false]
    refine ⟨fun _ held => ?_, fun _ => graceful⟩
    rw [connected] at held
    cases held
  | true =>
    have isOpen := s.conn.isOpen_of_connected connected
    rw [s.conn.shutdown_of_connected connected, Bool.or_true, if_pos rfl]
    refine (shutdownInLoop_graceful_iff (c := s.conn.setState .kDisconnecting)
      graceful.drained s.posted).trans ?_
    constructor
    · rintro ⟨waits, -⟩ - ⟨-, notYet, writing⟩
      exact waits ⟨rfl, notYet, writing⟩
    · intro noDrain
      refine ⟨fun waiting => noDrain connected ⟨isOpen, waiting.2⟩, fun idle => ?_⟩
      by_contra some
      have writing := tracked.writing isOpen some
      rw [show s.conn.readWriteChannel.isWriting = false from idle] at writing
      cases writing

theorem shutdown_quiet (c : TcpConnection) : Quiet c (c.shutdown false) := by
  cases connected : c.isConnected with
  | false =>
    rw [c.shutdown_of_not_connected connected]
    exact Quiet.refl c
  | true =>
    rw [c.shutdown_of_connected connected]
    exact quiet_of_disconnecting (c.isOpen_of_connected connected) rfl rfl rfl rfl

theorem shutdown_tracked (tracked : Tracked s) (inLoop : Bool) (posted : Nat) (asked : Bool) :
    Tracked ⟨s.conn.shutdown inLoop, posted, asked⟩ := by
  cases connected : s.conn.isConnected with
  | false =>
    rw [s.conn.shutdown_of_not_connected connected]
    exact ⟨tracked.writing, fun still => by simp [connected] at still⟩
  | true =>
    have writing := tracked.writing (s.conn.isOpen_of_connected connected)
    rw [s.conn.shutdown_of_connected connected]
    cases inLoop with
    | true =>
      exact shutdownInLoop_tracked (c := s.conn.setState .kDisconnecting) rfl (fun _ => writing) _ _
    | false => exact ⟨fun _ => writing, fun still => Bool.noConfusion still⟩

/-- A functor is posted only by a shutdown that has left `kConnected`. -/
theorem closing_of_posted (tracked : Tracked s) (posted : s.posted ≠ 0) :
    s.conn.isConnected = false := by
  by_contra connected
  exact posted (tracked.fresh (by simpa using connected)).2.1

theorem step_tracked (tracked : Tracked s) {a : Act} {t : Shutdown} (next : step s a = some t) :
    Tracked t := by
  cases a with
  | send data o =>
    simp only [step, TcpConnection.send] at next
    split at next
    · cases next
      split
      · exact sendInLoop_tracked tracked data o
      · exact tracked
    · cases next
  | sendInLoop data o =>
    simp only [step] at next
    split at next
    · cases next
      exact sendInLoop_tracked tracked data o
    · cases next
  | shutdown inLoop =>
    cases inLoop <;> cases next <;> exact shutdown_tracked tracked _ _ _
  | shutdownInLoop =>
    simp only [step] at next
    split at next
    · cases next
    · cases next
      exact shutdownInLoop_tracked (closing_of_posted tracked ‹_›) tracked.writing _ _
  | handleWrite o =>
    simp only [step] at next
    split at next
    · cases next
      exact handleWrite_tracked tracked o
    · cases next
  | call call =>
    cases next
    exact (call_quiet s.conn call).tracked tracked

/-- One step keeps the promise exactly when it meets the condition. -/
theorem step_graceful_iff (graceful : Graceful s) (tracked : Tracked s) (a : Act) :
    (∀ t, step s a = some t → Graceful t) ↔ NoDrain s a := by
  cases a with
  | send data o =>
    refine ⟨fun _ => trivial, fun _ t next => ?_⟩
    simp only [step, TcpConnection.send] at next
    split at next
    · cases next
      split
      · exact sendInLoop_keeps graceful data o
      · exact graceful
    · cases next
  | sendInLoop data o =>
    refine ⟨fun _ => trivial, fun _ t next => ?_⟩
    simp only [step] at next
    split at next
    · cases next
      exact sendInLoop_keeps graceful data o
    · cases next
  | shutdown inLoop =>
    cases inLoop with
    | true =>
      simp only [step, Option.some.injEq, forall_eq']
      exact shutdown_graceful_iff graceful tracked
    | false =>
      refine ⟨fun _ => trivial, fun _ t next => ?_⟩
      cases next
      exact (shutdown_quiet s.conn).graceful graceful
  | shutdownInLoop =>
    by_cases none : s.posted = 0
    · simp [step, NoDrain, none]
    · simp only [step, if_neg none, Option.some.injEq, forall_eq']
      rw [shutdownInLoop_graceful_iff graceful.drained]
      exact ⟨fun held _ => held, fun held => held none⟩
  | handleWrite o =>
    by_cases possible : o.Possible s.conn.outputBuffer.length
    · simp only [step, if_pos possible, Option.some.injEq, forall_eq']
      exact handleWrite_graceful_iff graceful possible
    · simp only [step, if_neg possible, reduceCtorEq, false_implies, implies_true, true_iff]
      cases o with
      | failed errno => trivial
      | accepted n =>
        intro _ _ all
        exact possible (Nat.le_of_eq all)
  | call call =>
    refine ⟨fun _ => trivial, fun _ t next => ?_⟩
    cases next
    exact (call_quiet s.conn call).graceful graceful

end Steps

/-- A run is graceful in every state exactly when `shutdownInLoop` never waits for a
drain: neither one that is over nor one that is to come. -/
theorem graceful_shutdown_iff (loop : EventLoop ConnFunctor) (sockfd : Int)
    (options : ConnOptions) (actions : List Act) :
    Throughout step Graceful (.start loop sockfd options) actions ↔
      Along step NoDrain (.start loop sockfd options) actions :=
  throughout_iff_along (R := fun _ _ => True)
    (fun _ a graceful tracked _ => step_graceful_iff graceful tracked a)
    (fun _ _ _ tracked _ next => step_tracked tracked next)
    (start_graceful loop sockfd options) (start_tracked loop sockfd options)
    (along_true _ actions)

/-- Two bytes are refused at first, the shutdown waits for them, and the write event
that takes them does not half-close. -/
theorem drain_after_shutdown_not_graceful :
    ¬ Throughout step Graceful (.start .new 7 {})
      [.send [97, 98] (.failed .EWOULDBLOCK), .shutdown true, .handleWrite (.accepted 2)] := by
  rintro ⟨-, sent⟩
  obtain ⟨-, asked⟩ := sent _ rfl
  obtain ⟨-, drained⟩ := asked _ rfl
  have graceful : Graceful _ := drained _ rfl
  exact graceful.completes rfl rfl rfl rfl

end GracefulShutdown
