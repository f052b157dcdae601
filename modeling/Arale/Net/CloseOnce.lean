import Arale.Lib.Schedules
import Arale.Net.ServedConnection

/-!
# Closing a connection once

Posted functors, dispatched events and direct calls can each reach `handleClose`,
and the guards of the calls are evaluated when the call is made, not when its
functor runs. Along every run in which a connection has at most one closer at a
time, it is closed at most once and none of the assertions on the way fails. The
condition speaks of the queue of the loop and of the state before the step only.
-/

namespace CloseOnce

open Arale Schedules

/-- At most one close so far, without a failed assertion. -/
structure ClosedAtMostOnce (w : ServedConnection) : Prop where
  closeCallback : w.conn.notices.count .closeCallback ≤ 1
  down : w.conn.notices.count (.connectionCallback false) ≤ 1
  handleClose : .assertionFailed .handleClose ∉ w.conn.notices
  forceCloseInLoop : .assertionFailed .forceCloseInLoop ∉ w.conn.notices
  removeConnectionInLoop : w.removalFailures = 0

/-- No forced close is waiting in the queue of the loop. -/
def NoneWaiting (c : TcpConnection) : Prop := .forceCloseInLoop ∉ c.loop.queue

/-- The next callback of the channel is one that closes. -/
def CallbackCloses (w : ServedConnection) (r : ReadOutcome) : Prop :=
  w.handlers.head? = some .close ∨ (w.handlers.head? = some .read ∧ r = .delivered [])

/-- A forced close is asked for only while none is waiting, and a callback closes
only a connection that is open and that none is waiting for. -/
def SoleCloser (w : ServedConnection) : ServedConnection.Act → Prop
  | .call _ .forceClose => w.conn.isOpen = true → NoneWaiting w.conn
  | .delayedClose => w.conn.isOpen = true → NoneWaiting w.conn
  | .runHandler r _ => CallbackCloses w r → w.conn.isOpen = true ∧ NoneWaiting w.conn
  | _ => True

/-! ## The invariant -/

/-- A connection nobody has closed. -/
structure StillOpen (c : TcpConnection) (registered : Bool) (removals : Nat) : Prop where
  isOpen : c.isOpen = true
  closeCallback : c.notices.count .closeCallback = 0
  down : c.notices.count (.connectionCallback false) = 0
  registered : registered = true
  removals : removals = 0
  notDestroyed : .connectionDestroyed ∉ c.loop.queue
  single : c.loop.queue.count .forceCloseInLoop ≤ 1
  asked : .forceCloseInLoop ∈ c.loop.queue → c.state = .kDisconnecting

/-- A connection that has been closed once; the server may not know yet. -/
structure Closed (c : TcpConnection) (registered : Bool) (removals : Nat) : Prop where
  state : c.state = .kDisconnected
  closeCallback : c.notices.count .closeCallback = 1
  down : c.notices.count (.connectionCallback false) = 1
  noneWaiting : NoneWaiting c
  removal : removals = 0 ∨ (removals = 1 ∧ registered = true)

structure Orderly (w : ServedConnection) : Prop where
  queued : w.conn.loop.Queued
  clean : .assertionFailed .handleClose ∉ w.conn.notices ∧
    .assertionFailed .forceCloseInLoop ∉ w.conn.notices
  failures : w.removalFailures = 0
  stage : StillOpen w.conn w.registered w.removals ∨ Closed w.conn w.registered w.removals

theorem start_orderly (sockfd : Int) (options : ConnOptions) (memory : Nat → UInt8)
    (sameLoop : Bool) : Orderly (.start sockfd options memory sameLoop) := by
  have notices : (ServedConnection.start sockfd options memory sameLoop).conn.notices =
      [.connectionCallback true] := rfl
  have queue : (ServedConnection.start sockfd options memory sameLoop).conn.loop.queue = [] := rfl
  refine ⟨EventLoop.new_queued, by simp [notices], rfl, Or.inl ?_⟩
  exact ⟨rfl, by simp [notices], by simp [notices], rfl, rfl, by simp [queue], by simp [queue],
    by simp [queue]⟩

theorem Orderly.closedAtMostOnce {w : ServedConnection} (orderly : Orderly w) :
    ClosedAtMostOnce w := by
  refine ⟨?_, ?_, orderly.clean.1, orderly.clean.2, orderly.failures⟩
  · rcases orderly.stage with h | h <;> simp [h.closeCallback]
  · rcases orderly.stage with h | h <;> simp [h.down]

/-! ## What keeps it -/

section Steps
variable {w : ServedConnection}

/-- A gentle call on the connection. -/
theorem gentle_keeps (orderly : Orderly w) {d : TcpConnection} (gentle : Gentle w.conn d) :
    Orderly { w with conn := d } := by
  have close := gentle.count_notices (n := .closeCallback) rfl
  have down := gentle.count_notices (n := .connectionCallback false) rfl
  have waits := gentle.mem_queue (f := .forceCloseInLoop) rfl
  refine ⟨gentle.loop.queued orderly.queued, ?_, orderly.failures, ?_⟩
  · exact ⟨fun failed => orderly.clean.1 ((gentle.mem_notices rfl).mp failed),
      fun failed => orderly.clean.2 ((gentle.mem_notices rfl).mp failed)⟩
  rcases orderly.stage with h | h
  · refine Or.inl ⟨?_, close.trans h.closeCallback, down.trans h.down, h.registered, h.removals,
      fun member => h.notDestroyed ((gentle.mem_queue rfl).mp member),
      Nat.le_trans (Nat.le_of_eq (gentle.count_queue rfl)) h.single, fun member => ?_⟩
    · rcases gentle.state with same | ⟨-, closing⟩
      · simpa [TcpConnection.isOpen, same] using h.isOpen
      · simp [TcpConnection.isOpen, closing]
    · rcases gentle.state with same | ⟨-, closing⟩
      · exact same.trans (h.asked (waits.mp member))
      · exact closing
  · refine Or.inr ⟨?_, close.trans h.closeCallback, down.trans h.down,
      fun member => h.noneWaiting (waits.mp member), h.removal⟩
    rcases gentle.state with same | ⟨isOpen, -⟩
    · exact same.trans h.state
    · simp [TcpConnection.isOpen, h.state] at isOpen

theorem onConn_gentle_keeps (orderly : Orderly w) {f : TcpConnection → TcpConnection}
    (gentle : Gentle w.conn (f w.conn)) : Orderly (w.onConn f) := by
  rw [w.onConn_of_gentle gentle]
  exact gentle_keeps orderly gentle

theorem Orderly.stillOpen (orderly : Orderly w) (isOpen : w.conn.isOpen = true) :
    StillOpen w.conn w.registered w.removals := by
  rcases orderly.stage with h | h
  · exact h
  · simp [TcpConnection.isOpen, h.state] at isOpen

/-- A forced close is posted while none is waiting. -/
theorem posted_keeps (orderly : Orderly w) (isOpen : w.conn.isOpen = true)
    (free : NoneWaiting w.conn) : Orderly (w.onConn fun c => c.forceClose false) := by
  have h := orderly.stillOpen isOpen
  have posted : w.conn.forceClose false =
      (w.conn.setState .kDisconnecting).post false .forceCloseInLoop := by
    rw [TcpConnection.forceClose, if_pos isOpen]
    rfl
  have unseen : w.onConn (fun c => c.forceClose false) =
      { w with conn := w.conn.forceClose false } := by
    apply ServedConnection.onConn_of_not_closing
    rw [posted]
    rfl
  rw [unseen, posted]
  have queue : ((w.conn.setState .kDisconnecting).post false .forceCloseInLoop).loop.queue =
      w.conn.loop.queue ++ [.forceCloseInLoop] := TcpConnection.queue_post _ _ _
  refine ⟨EventLoop.postFuntor_queued orderly.queued false _, orderly.clean, orderly.failures,
    Or.inl ⟨rfl, h.closeCallback, h.down, h.registered, h.removals, ?_, ?_, fun _ => rfl⟩⟩
  · rw [queue]
    simpa using h.notDestroyed
  · rw [queue, List.count_append, List.count_eq_zero.mpr free]
    simp

theorem Orderly.closed (orderly : Orderly w) (closed : w.conn.isOpen = false) :
    Closed w.conn w.registered w.removals := by
  rcases orderly.stage with h | h
  · rw [h.isOpen] at closed
    cases closed
  · exact h

/-- The removal of a closed connection the server still holds. -/
theorem removeConnectionInLoop_keeps (orderly : Orderly w) (closed : w.conn.isOpen = false)
    (registered : w.registered = true) (last : w.removals = 0) :
    Orderly w.removeConnectionInLoop := by
  have h := orderly.closed closed
  have queue := w.conn.queue_post w.sameLoop .connectionDestroyed
  refine ⟨EventLoop.postFuntor_queued orderly.queued _ _, orderly.clean, ?_,
    Or.inr ⟨h.state, h.closeCallback, h.down, ?_, Or.inl last⟩⟩
  · simp [ServedConnection.removeConnectionInLoop, registered, orderly.failures]
  · change .forceCloseInLoop ∉ (w.conn.post w.sameLoop .connectionDestroyed).loop.queue
    rw [queue]
    simpa [NoneWaiting] using h.noneWaiting

/-- The one close: the state, the two callbacks and the way to the server. -/
theorem close_keeps (orderly : Orderly w) (isOpen : w.conn.isOpen = true)
    (free : NoneWaiting w.conn) {f : TcpConnection → TcpConnection}
    (state : (f w.conn).state = .kDisconnected)
    (notices : (f w.conn).notices = w.conn.notices ++ [.connectionCallback false, .closeCallback])
    (loop : (f w.conn).loop = w.conn.loop) : Orderly (w.onConn f) := by
  have h := orderly.stillOpen isOpen
  have close : (f w.conn).notices.count .closeCallback = 1 := by
    rw [notices, List.count_append, h.closeCallback]
    rfl
  have down : (f w.conn).notices.count (.connectionCallback false) = 1 := by
    rw [notices, List.count_append, h.down]
    rfl
  have closed (removals : Nat) (waits : removals = 0 ∨ (removals = 1 ∧ w.registered = true)) :
      Orderly { w with conn := f w.conn, removals := removals } := by
    refine ⟨?_, ?_, orderly.failures, Or.inr ⟨state, close, down, ?_, waits⟩⟩
    · change (f w.conn).loop.Queued
      rw [loop]
      exact orderly.queued
    · simpa [notices] using orderly.clean
    · change .forceCloseInLoop ∉ (f w.conn).loop.queue
      rw [loop]
      exact free
  rw [ServedConnection.onConn_of_closing (by
    change List.count _ _ < List.count _ _
    rw [close, h.closeCallback]
    exact Nat.zero_lt_one), ServedConnection.removeConnection]
  split
  · refine removeConnectionInLoop_keeps (w := { w with conn := f w.conn }) ?_ ?_ h.registered
      h.removals
    · simpa [h.removals] using closed w.removals (Or.inl h.removals)
    · simp [TcpConnection.isOpen, state]
  · exact closed (w.removals + 1) (Or.inr ⟨by rw [h.removals], h.registered⟩)

theorem handleClose_keeps (orderly : Orderly w) (isOpen : w.conn.isOpen = true)
    (free : NoneWaiting w.conn) : Orderly (w.onConn fun c => c.handleClose) := by
  apply close_keeps orderly isOpen free <;> rw [TcpConnection.handleClose_eq]
  simp [TcpConnection.failure, isOpen]

theorem forceClose_keeps (orderly : Orderly w)
    (sole : w.conn.isOpen = true → NoneWaiting w.conn) (inLoop : Bool) :
    Orderly (w.onConn fun c => c.forceClose inLoop) := by
  cases isOpen : w.conn.isOpen with
  | false =>
    apply onConn_gentle_keeps orderly
    rw [w.conn.forceClose_of_closed isOpen]
    exact .of_same rfl rfl rfl
  | true =>
    cases inLoop with
    | false => exact posted_keeps orderly isOpen (sole isOpen)
    | true =>
      apply close_keeps orderly isOpen (sole isOpen) <;> rw [w.conn.forceClose_of_open isOpen]

/-- A timer of `forceCloseWithDelay` does the same in the loop thread. -/
theorem delayedClose_keeps (orderly : Orderly w)
    (sole : w.conn.isOpen = true → NoneWaiting w.conn) :
    Orderly (w.onConn fun c => c.timerExpired.forceClose true) := by
  cases isOpen : w.conn.timerExpired.isOpen with
  | false =>
    apply onConn_gentle_keeps orderly
    rw [w.conn.timerExpired.forceClose_of_closed isOpen]
    exact .of_same rfl rfl rfl
  | true =>
    apply close_keeps orderly isOpen (sole isOpen) <;>
      rw [w.conn.timerExpired.forceClose_of_open isOpen] <;> rfl

/-- The posted close runs. -/
theorem forceCloseInLoop_keeps (orderly : Orderly w) (closing : w.conn.state = .kDisconnecting)
    (free : NoneWaiting w.conn) : Orderly (w.onConn fun c => c.forceCloseInLoop) := by
  have isOpen : w.conn.isOpen = true := by simp [TcpConnection.isOpen, closing]
  apply close_keeps orderly isOpen free <;> rw [TcpConnection.forceCloseInLoop_eq]
  simp [TcpConnection.failure, isOpen, closing]

/-- The invariant reads the state, the notices, the queue and the server's side. A
functor may have left the queue. -/
theorem Orderly.of_same (orderly : Orderly w) {t : ServedConnection} (queued : t.conn.loop.Queued)
    (queue : t.conn.loop.queue <:+ w.conn.loop.queue) (state : t.conn.state = w.conn.state)
    (notices : t.conn.notices = w.conn.notices) (registered : t.registered = w.registered)
    (removals : t.removals = w.removals) (failures : t.removalFailures = w.removalFailures) :
    Orderly t := by
  refine ⟨queued, by rw [notices]; exact orderly.clean, failures.trans orderly.failures, ?_⟩
  rw [registered, removals]
  rcases orderly.stage with h | h
  · refine Or.inl ⟨?_, notices ▸ h.closeCallback, notices ▸ h.down, h.registered, h.removals,
      fun member => h.notDestroyed (queue.subset member),
      Nat.le_trans (queue.sublist.count_le _) h.single,
      fun member => state.trans (h.asked (queue.subset member))⟩
    simpa [TcpConnection.isOpen, state] using h.isOpen
  · exact Or.inr ⟨state.trans h.state, notices ▸ h.closeCallback, notices ▸ h.down,
      fun member => h.noneWaiting (queue.subset member), h.removal⟩

/-- A functor that neither closes nor destroys is posted. -/
theorem otherSend_keeps (orderly : Orderly w) (data len : Nat) :
    Orderly (w.otherSend data len) := by
  by_cases connected : w.conn.isConnected = true
  · have posted := w.conn.sendFromOther_of_connected connected data len
    have queue := w.conn.queue_post false (.sendInLoop data len)
    have h := orderly.stillOpen (w.conn.isOpen_of_connected connected)
    simp only [ServedConnection.otherSend, posted]
    refine ⟨EventLoop.postFuntor_queued orderly.queued false (.sendInLoop data len),
      orderly.clean, orderly.failures,
      Or.inl ⟨h.isOpen, h.closeCallback, h.down, h.registered, h.removals, ?_, ?_, ?_⟩⟩
    · simpa [queue] using h.notDestroyed
    · simpa [queue] using h.single
    · intro member
      exact h.asked (by simpa [queue] using member)
  · have same := w.conn.sendFromOther_of_not_connected connected data len
    simp only [ServedConnection.otherSend, same]
    exact orderly.of_same orderly.queued List.suffix_rfl rfl rfl rfl rfl rfl

/-- The server's loop gets to a posted removal. -/
theorem posted_removal_keeps (orderly : Orderly w) (waiting : 0 < w.removals) :
    Orderly (ServedConnection.removeConnectionInLoop { w with removals := w.removals - 1 }) := by
  rcases orderly.stage with h | h
  · rw [h.removals] at waiting
    cases waiting
  · obtain ⟨one, registered⟩ : w.removals = 1 ∧ w.registered = true := by
      rcases h.removal with none | one
      · omega
      · exact one
    have last : w.removals - 1 = 0 := by omega
    refine removeConnectionInLoop_keeps (w := { w with removals := w.removals - 1 }) ?_ ?_
      registered last
    · exact ⟨orderly.queued, orderly.clean, orderly.failures,
        Or.inr ⟨h.state, h.closeCallback, h.down, h.noneWaiting, Or.inl last⟩⟩
    · simp [TcpConnection.isOpen, h.state]

/-- A connection that is not connected is destroyed without a callback. -/
theorem destroyed_gentle {c : TcpConnection} (closed : c.state = .kDisconnected) :
    Gentle c c.connectionDestroyed where
  state := by
    simp [TcpConnection.connectionDestroyed, closed, TcpConnection.notify, TcpConnection.onChannel]
  notices := by
    refine ⟨[.removeChannel c.readWriteChannel.isNoneEvent], ?_, by simp [Notice.isPlain]⟩
    simp [TcpConnection.connectionDestroyed, closed, TcpConnection.notify, TcpConnection.onChannel]
  loop := by
    simp only [TcpConnection.connectionDestroyed, closed]
    exact .none

theorem execute_keeps (orderly : Orderly w) {functor : ConnFunctor}
    {loop : EventLoop ConnFunctor} (queued : loop.Queued)
    (queue : w.conn.loop.queue = functor :: loop.queue) (o : WriteOutcome) :
    Orderly
      (ServedConnection.execute { w with conn := { w.conn with loop := loop } } o functor) := by
  have rest : loop.queue <:+ w.conn.loop.queue := ⟨[functor], by simp [queue]⟩
  have popped : Orderly { w with conn := { w.conn with loop := loop } } :=
    orderly.of_same queued rest rfl rfl rfl rfl rfl
  have member : functor ∈ w.conn.loop.queue := by simp [queue]
  cases functor with
  | sendInLoop data len =>
    simp only [ServedConnection.execute]
    apply onConn_gentle_keeps
    · exact popped.of_same queued List.suffix_rfl rfl rfl rfl rfl rfl
    · exact Gentle.sendInLoop _ _ o
  | sendString msg => exact onConn_gentle_keeps popped (Gentle.send _ msg o)
  | shutdownInLoop => exact onConn_gentle_keeps popped (Gentle.shutdownInLoop _)
  | startReadInLoop => exact onConn_gentle_keeps popped (Gentle.startReadInLoop _)
  | stopReadInLoop => exact onConn_gentle_keeps popped (Gentle.stopReadInLoop _)
  | writeCompleteCallback => exact popped
  | highWaterMarkCallback size => exact popped
  | connectionDestroyed =>
    rcases orderly.stage with h | h
    · exact absurd member h.notDestroyed
    · exact onConn_gentle_keeps popped (destroyed_gentle h.state)
  | forceCloseInLoop =>
    rcases orderly.stage with h | h
    · have free : .forceCloseInLoop ∉ loop.queue := by
        have single := h.single
        rw [queue, List.count_cons_self] at single
        exact List.count_eq_zero.mp (by omega)
      exact forceCloseInLoop_keeps popped (h.asked member) free
    · exact absurd member h.noneWaiting

theorem handle_keeps (orderly : Orderly w) {handler : Handler} {rest : List Handler}
    {r : ReadOutcome} (handlers : w.handlers = handler :: rest)
    (sole : CallbackCloses w r → w.conn.isOpen = true ∧ NoneWaiting w.conn) (o : WriteOutcome) :
    Orderly (ServedConnection.handle { w with handlers := rest } r o handler) := by
  have before : Orderly { w with handlers := rest } :=
    orderly.of_same orderly.queued List.suffix_rfl rfl rfl rfl rfl rfl
  cases handler with
  | error => exact onConn_gentle_keeps before (.of_same rfl rfl rfl)
  | write => exact onConn_gentle_keeps before (Gentle.handleWrite _ o)
  | close =>
    obtain ⟨isOpen, free⟩ := sole (Or.inl (by simp [handlers]))
    exact handleClose_keeps before isOpen free
  | read =>
    by_cases eof : r = .delivered []
    · obtain ⟨isOpen, free⟩ := sole (Or.inr ⟨by simp [handlers], eof⟩)
      subst eof
      have closes : ServedConnection.handle { w with handlers := rest } (.delivered []) o .read =
          ServedConnection.onConn { w with handlers := rest } fun c => c.handleClose := by
        simp [ServedConnection.handle, TcpConnection.handleRead_eof]
      rw [closes]
      exact handleClose_keeps before isOpen free
    · exact onConn_gentle_keeps (f := fun c => c.handleRead r) before (Gentle.handleRead _ eof)

/-- One step with a sole closer. -/
theorem step_orderly (orderly : Orderly w) {a : ServedConnection.Act} (sole : SoleCloser w a)
    {t : ServedConnection} (next : w.step a = some t) : Orderly t := by
  cases ServedConnection.step_stepped orderly.queued next with
  | call inLoop call busy =>
    by_cases asks : call = .forceClose
    · subst asks
      exact forceClose_keeps orderly sole inLoop
    · exact onConn_gentle_keeps orderly (Gentle.call _ inLoop asks)
  | send data o busy => exact onConn_gentle_keeps orderly (Gentle.send _ data o)
  | otherSend data len => exact otherSend_keeps orderly data len
  | otherSendBuffer content =>
    exact onConn_gentle_keeps orderly (Gentle.sendBufferFromOther _ content)
  | overwrite data bytes =>
    exact orderly.of_same orderly.queued List.suffix_rfl rfl rfl rfl rfl rfl
  | delayedClose fires => exact delayedClose_keeps orderly sole
  | poll wakeup loop queued queue =>
    exact orderly.of_same queued ⟨[], queue⟩ rfl rfl rfl rfl rfl
  | report wakeup revents may loop queued queue =>
    exact orderly.of_same queued ⟨[], queue⟩ rfl rfl rfl rfl rfl
  | advance a may loop queued queue =>
    exact orderly.of_same queued ⟨[], queue⟩ rfl rfl rfl rfl rfl
  | handleEvent turn => exact orderly.of_same orderly.queued List.suffix_rfl rfl rfl rfl rfl rfl
  | runHandler r o handler rest handlers => exact handle_keeps orderly handlers sole o
  | runFunctor o functor loop first queued queue => exact execute_keeps orderly queued queue o
  | removeConnectionInLoop waiting => exact posted_removal_keeps orderly waiting

end Steps

/-- Along every interleaving in which the connection has a sole closer at every step,
it is closed at most once and no assertion on the way fails. -/
theorem closed_at_most_once (sockfd : Int) (options : ConnOptions) (memory : Nat → UInt8)
    (sameLoop : Bool) (actions : List ServedConnection.Act)
    (sole : Along ServedConnection.step SoleCloser (.start sockfd options memory sameLoop)
      actions) :
    Throughout ServedConnection.step ClosedAtMostOnce (.start sockfd options memory sameLoop)
      actions :=
  throughout_of_along (I := Orderly)
    (fun _ _ _ orderly sole next => step_orderly orderly sole next)
    (fun _ orderly => orderly.closedAtMostOnce) (start_orderly sockfd options memory sameLoop) sole

/-- One `forceClose` from another thread, and the loop that runs it. -/
theorem single_forceClose_closes_once :
    let actions : List ServedConnection.Act := [.call false .forceClose, .advance .loop,
      .poll true none, .advance .handleWakeup, .advance .doPendingFunctors, .advance .swap,
      .runFunctor (.accepted 0)]
    Along ServedConnection.step SoleCloser (.start 7 {} (fun _ => 0) false) actions ∧
      Throughout ServedConnection.step ClosedAtMostOnce (.start 7 {} (fun _ => 0) false)
        actions := by
  have sole : Along ServedConnection.step SoleCloser (.start 7 {} (fun _ => 0) false)
      [.call false .forceClose, .advance .loop, .poll true none, .advance .handleWakeup,
        .advance .doPendingFunctors, .advance .swap, .runFunctor (.accepted 0)] :=
    ⟨fun _ => List.not_mem_nil, fun _ _ => ⟨trivial, fun _ _ => ⟨trivial, fun _ _ => ⟨trivial,
      fun _ _ => ⟨trivial, fun _ _ => ⟨trivial, fun _ _ => ⟨trivial, fun _ _ => trivial⟩⟩⟩⟩⟩⟩⟩
  exact ⟨sole, closed_at_most_once 7 {} (fun _ => 0) false _ sole⟩

/-- Two threads force the close before the loop runs either functor: the second one
finds the connection closed and closes it again. -/
theorem two_forceCloses_close_twice :
    ∃ w, run ServedConnection.step (.start 7 {} (fun _ => 0) false)
        [.call false .forceClose, .call false .forceClose, .advance .loop, .poll true none,
          .advance .handleWakeup, .advance .doPendingFunctors, .advance .swap,
          .runFunctor (.accepted 0), .runFunctor (.accepted 0)] = some w ∧
      ¬ ClosedAtMostOnce w := by
  refine ⟨_, rfl, fun once => ?_⟩
  have closes := once.closeCallback
  revert closes
  decide

end CloseOnce
