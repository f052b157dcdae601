import Arale.Lib.Schedules
import Arale.Net.ServedConnection

/-!
# Sends from other threads

`send(const void*, size_t)` and `send(const std::string&)` bind the caller's address
into the posted functor, and the bytes are read when the functor runs. Along every
interleaving in which storage a waiting functor points to keeps its content, the
bytes handed to `sendInLoop` are those the callers had when they called `send`, in
order. `send(Buffer*)` binds a copy and is not concerned.
-/

namespace PostedSend

open Arale Schedules

/-- Each posted send that has run has handed over what it was given. -/
def Faithful (w : ServedConnection) : Prop := w.handed <+: w.given

instance (w : ServedConnection) : Decidable (Faithful w) :=
  inferInstanceAs (Decidable (w.handed <+: w.given))

/-- No thread changes storage that a waiting functor points to. -/
def StorageKept (w : ServedConnection) : ServedConnection.Act → Prop
  | .overwrite data bytes => ∀ d len, .sendInLoop d len ∈ w.conn.loop.queue →
      bytesAt (overwrite w.memory data bytes) d len = bytesAt w.memory d len
  | _ => True

/-- What a waiting functor would hand over now, if it is a posted send. -/
def pointee (memory : Nat → UInt8) : ConnFunctor → Option (List UInt8)
  | .sendInLoop data len => some (bytesAt memory data len)
  | _ => none

/-- What the waiting sends would hand over now. -/
def waiting (w : ServedConnection) : List (List UInt8) :=
  w.conn.loop.queue.filterMap (pointee w.memory)

structure Accounted (w : ServedConnection) : Prop where
  queued : w.conn.loop.Queued
  given : w.given = w.handed ++ waiting w

theorem start_accounted (sockfd : Int) (options : ConnOptions) (memory : Nat → UInt8)
    (sameLoop : Bool) : Accounted (.start sockfd options memory sameLoop) :=
  ⟨EventLoop.new_queued, rfl⟩

theorem Accounted.faithful {w : ServedConnection} (accounted : Accounted w) : Faithful w :=
  ⟨waiting w, accounted.given.symm⟩

/-! ## Calls that post no send -/

/-- At most one functor has been posted, and it points nowhere. -/
abbrev NoSend (c d : TcpConnection) : Prop :=
  EventLoop.Posted (fun f => ∀ memory, pointee memory f = none) c.loop d.loop

theorem noSend_of_gentle {c d : TcpConnection} (gentle : Gentle c d) : NoSend c d := by
  refine gentle.loop.mono fun f plain memory => ?_
  cases f with
  | sendInLoop data len => cases plain
  | _ => rfl

theorem noSend_of_same {c d : TcpConnection} (same : d.loop = c.loop) : NoSend c d := by
  rw [NoSend, same]
  exact .none

theorem forceClose_noSend (c : TcpConnection) (inLoop : Bool) : NoSend c (c.forceClose inLoop) := by
  cases isOpen : c.isOpen with
  | false =>
    rw [c.forceClose_of_closed isOpen]
    exact .none
  | true =>
    cases inLoop with
    | true =>
      rw [c.forceClose_of_open isOpen]
      exact .none
    | false =>
      rw [TcpConnection.forceClose, if_pos isOpen]
      exact .one false fun _ => rfl

theorem call_noSend (c : TcpConnection) (inLoop : Bool) (call : ConnCall) :
    NoSend c (call.run inLoop c) := by
  by_cases asks : call = .forceClose
  · subst asks
    exact forceClose_noSend c inLoop
  · exact noSend_of_gentle (Gentle.call c inLoop asks)

theorem handleClose_noSend (c : TcpConnection) : NoSend c c.handleClose := by
  rw [c.handleClose_eq]
  exact .none

theorem forceCloseInLoop_noSend (c : TcpConnection) : NoSend c c.forceCloseInLoop := by
  rw [c.forceCloseInLoop_eq]
  exact .none

theorem connectionDestroyed_noSend (c : TcpConnection) : NoSend c c.connectionDestroyed := by
  apply noSend_of_same
  unfold TcpConnection.connectionDestroyed
  split <;> rfl

theorem handleRead_noSend (c : TcpConnection) (r : ReadOutcome) : NoSend c (c.handleRead r) := by
  by_cases eof : r = .delivered []
  · subst eof
    rw [c.handleRead_eof]
    exact handleClose_noSend c
  · exact noSend_of_gentle (Gentle.handleRead c eof)

/-! ## Steps -/

section Steps
variable {w : ServedConnection}

theorem pointees_posted {P : ConnFunctor → Prop} {l l' : EventLoop ConnFunctor}
    {memory : Nat → UInt8} (posted : EventLoop.Posted P l l')
    (none : ∀ f, P f → pointee memory f = none) :
    l'.queue.filterMap (pointee memory) = l.queue.filterMap (pointee memory) := by
  obtain ⟨added, queue, kind⟩ := posted.queue
  have nothing : added.filterMap (pointee memory) = [] :=
    List.filterMap_eq_nil_iff.mpr fun f member => none f (kind f member)
  rw [queue, List.filterMap_append, nothing, List.append_nil]

/-- The account reads the storage, the histories and the sends in the queue. -/
theorem Accounted.of_same {t : ServedConnection} (accounted : Accounted w)
    (queued : t.conn.loop.Queued) (memory : t.memory = w.memory) (given : t.given = w.given)
    (handed : t.handed = w.handed)
    (pointees : t.conn.loop.queue.filterMap (pointee w.memory) =
      w.conn.loop.queue.filterMap (pointee w.memory)) : Accounted t := by
  refine ⟨queued, ?_⟩
  rw [given, handed, waiting, memory, pointees]
  exact accounted.given

theorem onConn_keeps (accounted : Accounted w) {f : TcpConnection → TcpConnection}
    (noSend : NoSend w.conn (f w.conn)) : Accounted (w.onConn f) := by
  obtain ⟨memory, given, handed, posted⟩ := w.onConn_frame f
  refine accounted.of_same (posted.queued (noSend.queued accounted.queued)) memory given handed ?_
  rw [pointees_posted posted (by rintro _ rfl; rfl),
    pointees_posted noSend fun f points => points w.memory]

theorem otherSend_keeps (accounted : Accounted w) (data len : Nat) :
    Accounted (w.otherSend data len) := by
  by_cases connected : w.conn.isConnected = true
  · have posted := w.conn.sendFromOther_of_connected connected data len
    have queue := w.conn.queue_post false (.sendInLoop data len)
    simp only [ServedConnection.otherSend, posted, if_pos connected]
    refine ⟨EventLoop.postFuntor_queued accounted.queued false (.sendInLoop data len), ?_⟩
    simp only [waiting, queue, List.filterMap_append, accounted.given, List.append_assoc]
    rfl
  · have same := w.conn.sendFromOther_of_not_connected connected data len
    simp only [ServedConnection.otherSend, same, if_neg connected]
    exact accounted

theorem overwrite_keeps (accounted : Accounted w) {data : Nat} {bytes : List UInt8}
    (kept : StorageKept w (.overwrite data bytes)) :
    Accounted { w with memory := overwrite w.memory data bytes } := by
  refine ⟨accounted.queued, ?_⟩
  have same : w.conn.loop.queue.filterMap (pointee (overwrite w.memory data bytes)) =
      w.conn.loop.queue.filterMap (pointee w.memory) := by
    refine List.filterMap_congr fun f member => ?_
    cases f with
    | sendInLoop d len => exact congrArg some (kept d len member)
    | _ => rfl
  simp only [waiting, same]
  exact accounted.given

/-- The functor at the head of the queue leaves it and runs. -/
theorem execute_keeps (accounted : Accounted w) {functor : ConnFunctor}
    {loop : EventLoop ConnFunctor} (queued : loop.Queued)
    (queue : w.conn.loop.queue = functor :: loop.queue) (o : WriteOutcome) :
    Accounted
      (ServedConnection.execute { w with conn := { w.conn with loop := loop } } o functor) := by
  have popped (none : pointee w.memory functor = none) :
      Accounted { w with conn := { w.conn with loop := loop } } :=
    accounted.of_same queued rfl rfl rfl (by rw [queue, List.filterMap_cons_none none])
  cases functor with
  | sendInLoop data len =>
    simp only [ServedConnection.execute]
    apply onConn_keeps
    · exact ⟨queued, by simp [accounted.given, waiting, queue, pointee]⟩
    · exact noSend_of_gentle (Gentle.sendInLoop _ _ o)
  | sendString msg => exact onConn_keeps (popped rfl) (noSend_of_gentle (Gentle.send _ msg o))
  | shutdownInLoop => exact onConn_keeps (popped rfl) (noSend_of_gentle (Gentle.shutdownInLoop _))
  | forceCloseInLoop => exact onConn_keeps (popped rfl) (forceCloseInLoop_noSend _)
  | startReadInLoop => exact onConn_keeps (popped rfl) (noSend_of_gentle (Gentle.startReadInLoop _))
  | stopReadInLoop => exact onConn_keeps (popped rfl) (noSend_of_gentle (Gentle.stopReadInLoop _))
  | connectionDestroyed => exact onConn_keeps (popped rfl) (connectionDestroyed_noSend _)
  | writeCompleteCallback => exact popped rfl
  | highWaterMarkCallback size => exact popped rfl

theorem handle_keeps (accounted : Accounted w) (handler : Handler) (rest : List Handler)
    (r : ReadOutcome) (o : WriteOutcome) :
    Accounted (ServedConnection.handle { w with handlers := rest } r o handler) := by
  have before : Accounted { w with handlers := rest } := ⟨accounted.queued, accounted.given⟩
  cases handler with
  | close => exact onConn_keeps before (handleClose_noSend _)
  | error => exact onConn_keeps before (noSend_of_same rfl)
  | read => exact onConn_keeps (f := fun c => c.handleRead r) before (handleRead_noSend _ r)
  | write => exact onConn_keeps before (noSend_of_gentle (Gentle.handleWrite _ o))

theorem step_accounted (accounted : Accounted w) {a : ServedConnection.Act}
    (kept : StorageKept w a) {t : ServedConnection} (next : w.step a = some t) :
    Accounted t := by
  cases ServedConnection.step_stepped accounted.queued next with
  | call inLoop call busy => exact onConn_keeps accounted (call_noSend _ inLoop call)
  | send data o busy => exact onConn_keeps accounted (noSend_of_gentle (Gentle.send _ data o))
  | otherSend data len => exact otherSend_keeps accounted data len
  | otherSendBuffer content =>
    exact onConn_keeps accounted (noSend_of_gentle (Gentle.sendBufferFromOther _ content))
  | overwrite data bytes => exact overwrite_keeps accounted kept
  | delayedClose fires => exact onConn_keeps accounted (forceClose_noSend w.conn.timerExpired true)
  | poll wakeup loop queued queue => exact accounted.of_same queued rfl rfl rfl (by rw [queue])
  | report wakeup revents may loop queued queue =>
    exact accounted.of_same queued rfl rfl rfl (by rw [queue])
  | advance a may loop queued queue => exact accounted.of_same queued rfl rfl rfl (by rw [queue])
  | handleEvent turn => exact ⟨accounted.queued, accounted.given⟩
  | runHandler r o handler rest handlers => exact handle_keeps accounted handler rest r o
  | runFunctor o functor loop first queued queue => exact execute_keeps accounted queued queue o
  | removeConnectionInLoop waiting =>
    exact accounted.of_same (EventLoop.postFuntor_queued accounted.queued _ _) rfl rfl rfl
      (pointees_posted (.one w.sameLoop rfl) (P := (· = .connectionDestroyed))
        (by rintro _ rfl; rfl))

end Steps

/-- Along every interleaving in which waiting sends keep their storage, what they hand
to `sendInLoop` is what their callers had when they called `send`. -/
theorem posted_sends_faithful (sockfd : Int) (options : ConnOptions) (memory : Nat → UInt8)
    (sameLoop : Bool) (actions : List ServedConnection.Act)
    (kept : Along ServedConnection.step StorageKept (.start sockfd options memory sameLoop)
      actions) :
    Throughout ServedConnection.step Faithful (.start sockfd options memory sameLoop) actions :=
  throughout_of_along (I := Accounted)
    (fun _ _ _ accounted kept next => step_accounted accounted kept next)
    (fun _ accounted => accounted.faithful) (start_accounted sockfd options memory sameLoop) kept

/-- While the functor waits, its caller reuses only the storage next to what it sent. -/
theorem reuse_elsewhere_faithful :
    let actions : List ServedConnection.Act := [.otherSend 0 2, .overwrite 2 [9],
      .advance .loop, .poll true none, .advance .handleWakeup, .advance .doPendingFunctors,
      .advance .swap, .runFunctor (.accepted 2)]
    Along ServedConnection.step StorageKept (.start 7 {} (fun _ => 97) false) actions ∧
      Throughout ServedConnection.step Faithful (.start 7 {} (fun _ => 97) false) actions := by
  have kept : Along ServedConnection.step StorageKept (.start 7 {} (fun _ => 97) false)
      [.otherSend 0 2, .overwrite 2 [9], .advance .loop, .poll true none,
        .advance .handleWakeup, .advance .doPendingFunctors, .advance .swap,
        .runFunctor (.accepted 2)] := by
    refine ⟨trivial, fun t sent => ⟨?_, fun _ _ => ⟨trivial, fun _ _ => ⟨trivial, fun _ _ =>
      ⟨trivial, fun _ _ => ⟨trivial, fun _ _ => ⟨trivial, fun _ _ => ⟨trivial, fun _ _ =>
        trivial⟩⟩⟩⟩⟩⟩⟩⟩
    cases sent
    intro d len waits
    cases List.mem_singleton.mp waits
    decide
  exact ⟨kept, posted_sends_faithful 7 {} (fun _ => 97) false _ kept⟩

/-- The caller reuses its storage as soon as `send` has returned. -/
theorem reuse_before_run_unfaithful :
    ∃ w, run ServedConnection.step (.start 7 {} (fun _ => 97) false)
        [.otherSend 0 2, .overwrite 0 [98, 98], .advance .loop, .poll true none,
          .advance .handleWakeup, .advance .doPendingFunctors, .advance .swap,
          .runFunctor (.accepted 2)] = some w ∧
      ¬ Faithful w := by
  refine ⟨_, rfl, ?_⟩
  decide

end PostedSend
