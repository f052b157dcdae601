import Arale.Lib.Schedules
import Arale.Net.TcpConnection

/-!
# A connection of a server, with all its threads

One connection as a `TcpServer` keeps it: its loop thread, which polls, dispatches
the channel's callbacks one at a time and runs posted functors; other threads, which
call the connection at any moment and own the storage they send from; and the
server's loop, which may be the connection's own. Every call is one step, and every
callback of the channel is one step, so that user code can act between them. What
the socket answers is a parameter of the step.
-/

namespace Arale

/-- The calls any thread may make, apart from sends. -/
inductive ConnCall where
  | shutdown
  | forceClose
  | forceCloseWithDelay
  | startRead
  | stopRead
  deriving DecidableEq, Repr

def ConnCall.run (inLoop : Bool) (c : TcpConnection) : ConnCall → TcpConnection
  | .shutdown => c.shutdown inLoop
  | .forceClose => c.forceClose inLoop
  | .forceCloseWithDelay => c.forceCloseWithDelay
  | .startRead => c.startRead inLoop
  | .stopRead => c.stopRead inLoop

/-- The bytes at an address of the other threads' storage. -/
def bytesAt (memory : Nat → UInt8) (data len : Nat) : List UInt8 :=
  (List.range len).map fun i => memory (data + i)

def overwrite (memory : Nat → UInt8) (data : Nat) (bytes : List UInt8) : Nat → UInt8 :=
  fun a => if data ≤ a then bytes.getD (a - data) (memory a) else memory a

structure ServedConnection where
  conn : TcpConnection
  memory : Nat → UInt8
  /-- whether `TcpServer::loop_` is the connection's own loop -/
  sameLoop : Bool
  /-- whether `connections_` holds the connection -/
  registered : Bool
  /-- `removeConnectionInLoop` functors waiting in the server's loop -/
  removals : Nat
  /-- calls of `removeConnectionInLoop` whose assertions failed -/
  removalFailures : Nat
  /-- the channel is in `activeChannels_` and its turn has not come -/
  active : Bool
  /-- the callbacks `handleEventWithGuard` has still to invoke -/
  handlers : List Handler
  /-- the caller's bytes at each `send` that was posted; a history -/
  given : List (List UInt8)
  /-- the bytes each posted send has handed to `sendInLoop`; a history -/
  handed : List (List UInt8)

namespace ServedConnection

def start (sockfd : Int) (options : ConnOptions) (memory : Nat → UInt8) (sameLoop : Bool) :
    ServedConnection where
  conn := .established .new sockfd options
  memory := memory
  sameLoop := sameLoop
  registered := true
  removals := 0
  removalFailures := 0
  active := false
  handlers := []
  given := []
  handed := []

/-- The assertions ask that the name is found and that one entry is erased. -/
def removeConnectionInLoop (w : ServedConnection) : ServedConnection :=
  { w with conn := w.conn.post w.sameLoop .connectionDestroyed
           registered := false
           removalFailures :=
             if w.registered then w.removalFailures else w.removalFailures + 1 }

/-- `closeCallback_` as the server sets it. -/
def removeConnection (w : ServedConnection) : ServedConnection :=
  if w.sameLoop then w.removeConnectionInLoop else { w with removals := w.removals + 1 }

def closeCallbacks (c : TcpConnection) : Nat := c.notices.count .closeCallback

/-- A member function of the connection runs; `closeCallback_` is the last thing any
of them does. -/
def onConn (w : ServedConnection) (f : TcpConnection → TcpConnection) : ServedConnection :=
  let after := { w with conn := f w.conn }
  if closeCallbacks w.conn < closeCallbacks after.conn then after.removeConnection else after

/-- User code can run on the loop thread. -/
def loopBusy (w : ServedConnection) : Bool :=
  w.conn.loop.phase == .handling || w.conn.loop.phase == .running

/-- What `poll` may report: a registered channel with some interest, and no bits but
those asked for and the three that are always reported. -/
def canReport (w : ServedConnection) (revents : BitVec 32) : Bool :=
  let ch := w.conn.readWriteChannel
  ch.isInLoop && !ch.isNoneEvent &&
    (revents &&& ~~~(ch.events ||| (POLLERR ||| POLLHUP ||| POLLNVAL))) == 0#32

inductive Act where
  | call (inLoop : Bool) (call : ConnCall)
  | send (data : List UInt8) (o : WriteOutcome)
  /-- `send(const void*, size_t)` or `send(const std::string&)` in another thread -/
  | otherSend (data len : Nat)
  | otherSendBuffer (content : List UInt8)
  /-- another thread reuses its storage -/
  | overwrite (data : Nat) (bytes : List UInt8)
  /-- a timer of `forceCloseWithDelay` fires -/
  | delayedClose
  | poll (wakeup : Bool) (revents : Option (BitVec 32))
  /-- the loop thread moves on inside `loop()` -/
  | advance (a : EventLoop.Act ConnFunctor)
  /-- the channel's turn in the batch -/
  | handleEvent
  /-- the next callback of `handleEventWithGuard` -/
  | runHandler (r : ReadOutcome) (o : WriteOutcome)
  /-- the next functor of `doPendingFunctors` -/
  | runFunctor (o : WriteOutcome)
  /-- the server's loop runs a posted removal -/
  | removeConnectionInLoop

/-- `poll` is a step of its own, and the batch is dispatched before the functors run. -/
def mayAdvance (w : ServedConnection) : EventLoop.Act ConnFunctor → Bool
  | .pollReturns _ => false
  | .doPendingFunctors => !w.active && w.handlers.isEmpty
  | a => a.silent

def onLoop (w : ServedConnection) (a : EventLoop.Act ConnFunctor) : Option ServedConnection :=
  (w.conn.loop.step a).map fun loop => { w with conn := { w.conn with loop := loop } }

def otherSend (w : ServedConnection) (data len : Nat) : ServedConnection :=
  { w with conn := w.conn.sendFromOther data len
           given := if w.conn.isConnected then w.given ++ [bytesAt w.memory data len]
             else w.given }

def handle (w : ServedConnection) (r : ReadOutcome) (o : WriteOutcome) :
    Handler → ServedConnection
  | .close => w.onConn fun c => c.handleClose
  | .error => w.onConn fun c => c.handleError
  | .read => w.onConn fun c => c.handleRead r
  | .write => w.onConn fun c => c.handleWrite o

def execute (w : ServedConnection) (o : WriteOutcome) : ConnFunctor → ServedConnection
  | .sendInLoop data len =>
    let bytes := bytesAt w.memory data len
    onConn { w with handed := w.handed ++ [bytes] } fun c => c.sendInLoop bytes o
  | .sendString msg => w.onConn fun c => c.send msg o
  | .shutdownInLoop => w.onConn fun c => c.shutdownInLoop
  | .forceCloseInLoop => w.onConn fun c => c.forceCloseInLoop
  | .startReadInLoop => w.onConn fun c => c.startReadInLoop
  | .stopReadInLoop => w.onConn fun c => c.stopReadInLoop
  | .connectionDestroyed => w.onConn fun c => c.connectionDestroyed
  | .writeCompleteCallback => w
  | .highWaterMarkCallback _ => w

def step (w : ServedConnection) : Act → Option ServedConnection
  | .call inLoop call =>
    if inLoop = true → w.loopBusy = true then some (w.onConn fun c => call.run inLoop c) else none
  | .send data o => if w.loopBusy then some (w.onConn fun c => c.send data o) else none
  | .otherSend data len => some (w.otherSend data len)
  | .otherSendBuffer content => some (w.onConn fun c => c.sendBufferFromOther content)
  | .overwrite data bytes => some { w with memory := Arale.overwrite w.memory data bytes }
  | .delayedClose =>
    if 0 < w.conn.delayedCloses ∧ w.conn.loop.phase = .handling then
      some (w.onConn fun c => c.timerExpired.forceClose true)
    else none
  | .poll wakeup revents =>
    match revents with
    | none => w.onLoop (.pollReturns wakeup)
    | some revents =>
      if w.canReport revents then
        (w.onLoop (.pollReturns wakeup)).map fun w =>
          { w with conn := w.conn.onChannel fun ch => ch.set_revents revents, active := true }
      else none
  | .advance a => if w.mayAdvance a then w.onLoop a else none
  | .handleEvent =>
    if w.active ∧ w.conn.loop.phase = .handling then
      some { w with active := false, handlers := w.conn.readWriteChannel.handleEvent true }
    else none
  | .runHandler r o =>
    match w.handlers with
    | [] => none
    | handler :: rest => some ({ w with handlers := rest }.handle r o handler)
  | .runFunctor o =>
    match w.conn.loop.functors with
    | [] => none
    | functor :: _ => (w.onLoop .runFunctor).map fun w => w.execute o functor
  | .removeConnectionInLoop =>
    if 0 < w.removals then some ({ w with removals := w.removals - 1 }.removeConnectionInLoop)
    else none

/-! ## Calls that neither close nor destroy

All functions but those that end a connection are alike in what they do to its
state, to its notices and to the queue of its loop. -/

end ServedConnection

/-- Notices that are not part of closing a connection. -/
def Notice.isPlain : Notice → Bool
  | .connectionCallback up => up
  | .closeCallback => false
  | .assertionFailed .handleClose => false
  | .assertionFailed .forceCloseInLoop => false
  | _ => true

/-- Functors that neither close, nor destroy, nor read another thread's storage. -/
def ConnFunctor.isPlain : ConnFunctor → Bool
  | .sendInLoop _ _ => false
  | .forceCloseInLoop => false
  | .connectionDestroyed => false
  | _ => true

/-- The connection may be asked to close, but is not closed. -/
structure Gentle (c d : TcpConnection) : Prop where
  state : d.state = c.state ∨ (c.isOpen = true ∧ d.state = .kDisconnecting)
  notices : ∃ added, d.notices = c.notices ++ added ∧ ∀ n ∈ added, n.isPlain = true
  loop : EventLoop.Posted (fun f => f.isPlain = true) c.loop d.loop

namespace Gentle

/-- A change of fields that no notice, functor or state is about. -/
theorem of_same {c d : TcpConnection} (state : d.state = c.state)
    (notices : d.notices = c.notices) (loop : d.loop = c.loop) : Gentle c d where
  state := Or.inl state
  notices := ⟨[], by simp [notices], by simp⟩
  loop := by
    rw [loop]
    exact .none

theorem of_posted {c d : TcpConnection} (state : d.state = c.state)
    (notices : d.notices = c.notices)
    (loop : EventLoop.Posted (fun f => f.isPlain = true) c.loop d.loop) : Gentle c d where
  state := Or.inl state
  notices := ⟨[], by simp [notices], by simp⟩
  loop := loop

theorem plain_of_callback (f : ConnFunctor) (user : f.isUserCallback = true) :
    f.isPlain = true := by
  cases f with
  | writeCompleteCallback => rfl
  | highWaterMarkCallback size => rfl
  | _ => cases user

theorem sendInLoop (c : TcpConnection) (data : List UInt8) (o : WriteOutcome) :
    Gentle c (c.sendInLoop data o) := by
  obtain ⟨loop, posts, h⟩ := c.sendInLoop_eq data o
  rw [h]
  split <;> exact of_posted rfl rfl (posts.mono plain_of_callback)

theorem send (c : TcpConnection) (data : List UInt8) (o : WriteOutcome) :
    Gentle c (c.send data o) := by
  unfold TcpConnection.send
  split
  · exact sendInLoop c data o
  · exact of_same rfl rfl rfl

theorem sendBufferFromOther (c : TcpConnection) (content : List UInt8) :
    Gentle c (c.sendBufferFromOther content) := by
  unfold TcpConnection.sendBufferFromOther
  split
  · exact of_posted rfl rfl (.one false rfl)
  · exact of_same rfl rfl rfl

theorem handleWrite (c : TcpConnection) (o : WriteOutcome) : Gentle c (c.handleWrite o) := by
  obtain ⟨loop, channel, posts, -, h⟩ := c.handleWrite_eq o
  rw [h]
  exact of_posted rfl rfl (posts.mono plain_of_callback)

theorem shutdownInLoop (c : TcpConnection) : Gentle c c.shutdownInLoop := by
  rw [c.shutdownInLoop_eq]
  exact of_same rfl rfl rfl

theorem startReadInLoop (c : TcpConnection) : Gentle c c.startReadInLoop := by
  unfold TcpConnection.startReadInLoop
  split <;> exact of_same rfl rfl rfl

theorem stopReadInLoop (c : TcpConnection) : Gentle c c.stopReadInLoop := by
  unfold TcpConnection.stopReadInLoop
  split <;> exact of_same rfl rfl rfl

/-- An effective `shutdown` or delayed close of an open connection. -/
theorem of_disconnecting {c d : TcpConnection} (isOpen : c.isOpen = true)
    (state : d.state = .kDisconnecting) (notices : d.notices = c.notices)
    (loop : EventLoop.Posted (fun f => f.isPlain = true) c.loop d.loop) : Gentle c d where
  state := Or.inr ⟨isOpen, state⟩
  notices := ⟨[], by simp [notices], by simp⟩
  loop := loop

theorem shutdown (c : TcpConnection) (inLoop : Bool) : Gentle c (c.shutdown inLoop) := by
  cases connected : c.isConnected with
  | false =>
    rw [c.shutdown_of_not_connected connected]
    exact of_same rfl rfl rfl
  | true =>
    have isOpen := c.isOpen_of_connected connected
    rw [c.shutdown_of_connected connected]
    cases inLoop with
    | true =>
      simp only [if_true, TcpConnection.shutdownInLoop_eq]
      exact of_disconnecting isOpen rfl rfl .none
    | false => exact of_disconnecting isOpen rfl rfl (.one false rfl)

theorem forceCloseWithDelay (c : TcpConnection) : Gentle c c.forceCloseWithDelay := by
  unfold TcpConnection.forceCloseWithDelay
  split
  · exact of_disconnecting ‹_› rfl rfl .none
  · exact of_same rfl rfl rfl

/-- A plain assertion before a gentle change. -/
theorem of_assertAt {c d : TcpConnection} {site : AssertSite} {cond : Bool}
    (plain : (Notice.assertionFailed site).isPlain = true)
    (gentle : Gentle (c.assertAt site cond) d) : Gentle c d := by
  obtain ⟨state, ⟨added, notices, hadded⟩, loop⟩ := gentle
  rw [c.assertAt_eq] at state notices loop
  refine ⟨state, ⟨TcpConnection.failure site cond ++ added, by simp [notices], ?_⟩, loop⟩
  intro n hn
  rcases List.mem_append.mp hn with hn | hn
  · cases cond with
    | true => cases hn
    | false => rwa [List.mem_singleton.mp hn]
  · exact hadded n hn

theorem startRead (c : TcpConnection) (inLoop : Bool) : Gentle c (c.startRead inLoop) := by
  refine @of_assertAt c _ .startRead (c.state == .kConnected) rfl ?_
  cases inLoop with
  | true => exact startReadInLoop _
  | false => exact of_posted rfl rfl (.one false rfl)

theorem stopRead (c : TcpConnection) (inLoop : Bool) : Gentle c (c.stopRead inLoop) := by
  refine @of_assertAt c _ .stopRead (c.state == .kConnected) rfl ?_
  cases inLoop with
  | true => exact stopReadInLoop _
  | false => exact of_posted rfl rfl (.one false rfl)

/-- Every call but `forceClose`. -/
theorem call (c : TcpConnection) (inLoop : Bool) {call : ConnCall} (asks : call ≠ .forceClose) :
    Gentle c (call.run inLoop c) := by
  cases call with
  | shutdown => exact shutdown c inLoop
  | forceClose => exact absurd rfl asks
  | forceCloseWithDelay => exact forceCloseWithDelay c
  | startRead => exact startRead c inLoop
  | stopRead => exact stopRead c inLoop

/-- Reading closes only at the end of the stream. -/
theorem handleRead (c : TcpConnection) {r : ReadOutcome} (more : r ≠ .delivered []) :
    Gentle c (c.handleRead r) := by
  have received (d : TcpConnection) (state : d.state = c.state) (notices : d.notices = c.notices)
      (loop : d.loop = c.loop) : Gentle c (d.notify .messageCallback) :=
    ⟨Or.inl state, ⟨[.messageCallback], by simp [TcpConnection.notify, notices],
      by simp [Notice.isPlain]⟩, (of_same state notices loop).loop⟩
  cases r with
  | failed errno => exact received c rfl rfl rfl
  | delivered bytes =>
    cases bytes with
    | nil => exact absurd rfl more
    | cons b rest => exact received _ rfl rfl rfl

end Gentle

section Traces
variable {c d : TcpConnection}

theorem Gentle.count_notices (gentle : Gentle c d) {n : Notice} (closing : n.isPlain = false) :
    d.notices.count n = c.notices.count n := by
  obtain ⟨added, h, plain⟩ := gentle.notices
  have none : n ∉ added := fun member => by
    rw [plain n member] at closing
    cases closing
  rw [h, List.count_append, List.count_eq_zero.mpr none, Nat.add_zero]

theorem Gentle.mem_notices (gentle : Gentle c d) {n : Notice} (closing : n.isPlain = false) :
    n ∈ d.notices ↔ n ∈ c.notices := by
  rw [← List.count_pos_iff, gentle.count_notices closing, List.count_pos_iff]

theorem Gentle.count_queue (gentle : Gentle c d) {f : ConnFunctor} (closing : f.isPlain = false) :
    d.loop.queue.count f = c.loop.queue.count f := by
  obtain ⟨added, h, plain⟩ := gentle.loop.queue
  have none : f ∉ added := fun member => by
    rw [plain f member] at closing
    cases closing
  rw [h, List.count_append, List.count_eq_zero.mpr none, Nat.add_zero]

theorem Gentle.mem_queue (gentle : Gentle c d) {f : ConnFunctor} (closing : f.isPlain = false) :
    f ∈ d.loop.queue ↔ f ∈ c.loop.queue := by
  rw [← List.count_pos_iff, gentle.count_queue closing, List.count_pos_iff]

end Traces

namespace ServedConnection
variable {w : ServedConnection} {f : TcpConnection → TcpConnection}

/-- A call without a close does not reach the server. -/
theorem onConn_of_not_closing (same : closeCallbacks (f w.conn) = closeCallbacks w.conn) :
    w.onConn f = { w with conn := f w.conn } :=
  if_neg (Nat.not_lt.mpr (Nat.le_of_eq same))

theorem onConn_of_gentle (gentle : Gentle w.conn (f w.conn)) :
    w.onConn f = { w with conn := f w.conn } :=
  onConn_of_not_closing (gentle.count_notices rfl)

theorem onConn_of_closing (more : closeCallbacks w.conn < closeCallbacks (f w.conn)) :
    w.onConn f = removeConnection { w with conn := f w.conn } :=
  if_pos more

/-- What a call leaves alone, and what the server may add to the queue. -/
theorem onConn_frame (w : ServedConnection) (f : TcpConnection → TcpConnection) :
    (w.onConn f).memory = w.memory ∧ (w.onConn f).given = w.given ∧
      (w.onConn f).handed = w.handed ∧
      EventLoop.Posted (· = .connectionDestroyed) (f w.conn).loop (w.onConn f).conn.loop := by
  unfold onConn removeConnection
  simp only
  split
  · split
    · exact ⟨rfl, rfl, rfl, .one w.sameLoop rfl⟩
    · exact ⟨rfl, rfl, rfl, .none⟩
  · exact ⟨rfl, rfl, rfl, .none⟩

/-- The loop moves on without posting or running anything. -/
theorem onLoop_silent {t : ServedConnection} {a : EventLoop.Act ConnFunctor}
    (queued : w.conn.loop.Queued) (silent : a.silent = true) (next : w.onLoop a = some t) :
    ∃ loop, loop.Queued ∧ loop.queue = w.conn.loop.queue ∧
      t = { w with conn := { w.conn with loop := loop } } := by
  obtain ⟨loop, stepped, rfl⟩ := Option.map_eq_some_iff.mp next
  exact ⟨loop, EventLoop.step_queued queued stepped,
    EventLoop.step_queue_of_silent queued silent stepped, rfl⟩

theorem silent_of_mayAdvance {a : EventLoop.Act ConnFunctor} (may : w.mayAdvance a = true) :
    a.silent = true := by
  cases a <;> first | rfl | exact may

/-- What each action leaves behind where it is possible. -/
inductive Stepped (w : ServedConnection) : Act → ServedConnection → Prop where
  | call (inLoop : Bool) (call : ConnCall) (busy : inLoop = true → w.loopBusy = true) :
    Stepped w (.call inLoop call) (w.onConn fun c => call.run inLoop c)
  | send (data : List UInt8) (o : WriteOutcome) (busy : w.loopBusy = true) :
    Stepped w (.send data o) (w.onConn fun c => c.send data o)
  | otherSend (data len : Nat) : Stepped w (.otherSend data len) (w.otherSend data len)
  | otherSendBuffer (content : List UInt8) :
    Stepped w (.otherSendBuffer content) (w.onConn fun c => c.sendBufferFromOther content)
  | overwrite (data : Nat) (bytes : List UInt8) :
    Stepped w (.overwrite data bytes) { w with memory := Arale.overwrite w.memory data bytes }
  | delayedClose (fires : 0 < w.conn.delayedCloses ∧ w.conn.loop.phase = .handling) :
    Stepped w .delayedClose (w.onConn fun c => c.timerExpired.forceClose true)
  /-- `poll` does not report the channel -/
  | poll (wakeup : Bool) (loop : EventLoop ConnFunctor) (queued : loop.Queued)
    (queue : loop.queue = w.conn.loop.queue) :
    Stepped w (.poll wakeup none) { w with conn := { w.conn with loop := loop } }
  | report (wakeup : Bool) (revents : BitVec 32) (may : w.canReport revents = true)
    (loop : EventLoop ConnFunctor) (queued : loop.Queued)
    (queue : loop.queue = w.conn.loop.queue) :
    Stepped w (.poll wakeup (some revents))
      { w with conn := { w.conn with
                 loop := loop, readWriteChannel := w.conn.readWriteChannel.set_revents revents }
               active := true }
  | advance (a : EventLoop.Act ConnFunctor) (may : w.mayAdvance a = true)
    (loop : EventLoop ConnFunctor) (queued : loop.Queued)
    (queue : loop.queue = w.conn.loop.queue) :
    Stepped w (.advance a) { w with conn := { w.conn with loop := loop } }
  | handleEvent (turn : w.active = true ∧ w.conn.loop.phase = .handling) :
    Stepped w .handleEvent
      { w with active := false, handlers := w.conn.readWriteChannel.handleEvent true }
  | runHandler (r : ReadOutcome) (o : WriteOutcome) (handler : Handler) (rest : List Handler)
    (handlers : w.handlers = handler :: rest) :
    Stepped w (.runHandler r o) ({ w with handlers := rest }.handle r o handler)
  | runFunctor (o : WriteOutcome) (functor : ConnFunctor) (loop : EventLoop ConnFunctor)
    (first : w.conn.loop.functors.head? = some functor) (queued : loop.Queued)
    (queue : w.conn.loop.queue = functor :: loop.queue) :
    Stepped w (.runFunctor o)
      ({ w with conn := { w.conn with loop := loop } }.execute o functor)
  | removeConnectionInLoop (waiting : 0 < w.removals) :
    Stepped w .removeConnectionInLoop
      ({ w with removals := w.removals - 1 }.removeConnectionInLoop)

theorem step_stepped {a : Act} {t : ServedConnection} (queued : w.conn.loop.Queued)
    (next : w.step a = some t) : Stepped w a t := by
  cases a with
  | otherSend data len =>
    cases next
    exact .otherSend data len
  | otherSendBuffer content =>
    cases next
    exact .otherSendBuffer content
  | overwrite data bytes =>
    cases next
    exact .overwrite data bytes
  | call inLoop call =>
    obtain ⟨busy, ⟨⟩⟩ := Option.ite_none_right_eq_some.mp next
    exact .call inLoop call busy
  | send data o =>
    obtain ⟨busy, ⟨⟩⟩ := Option.ite_none_right_eq_some.mp next
    exact .send data o busy
  | delayedClose =>
    obtain ⟨fires, ⟨⟩⟩ := Option.ite_none_right_eq_some.mp next
    exact .delayedClose fires
  | poll wakeup revents =>
    cases revents with
    | none =>
      obtain ⟨loop, h, same, rfl⟩ := onLoop_silent queued rfl next
      exact .poll wakeup loop h same
    | some revents =>
      obtain ⟨may, polled⟩ := Option.ite_none_right_eq_some.mp next
      obtain ⟨v, stepped, rfl⟩ := Option.map_eq_some_iff.mp polled
      obtain ⟨loop, h, same, rfl⟩ := onLoop_silent queued rfl stepped
      exact .report wakeup revents may loop h same
  | advance a =>
    obtain ⟨may, moved⟩ := Option.ite_none_right_eq_some.mp next
    obtain ⟨loop, h, same, rfl⟩ := onLoop_silent queued (silent_of_mayAdvance may) moved
    exact .advance a may loop h same
  | handleEvent =>
    obtain ⟨turn, ⟨⟩⟩ := Option.ite_none_right_eq_some.mp next
    exact .handleEvent turn
  | runHandler r o =>
    simp only [step] at next
    split at next
    · cases next
    · rename_i handler rest handlers
      cases next
      exact .runHandler r o handler rest handlers
  | runFunctor o =>
    simp only [step] at next
    split at next
    · cases next
    · rename_i functor rest first
      obtain ⟨v, popped, rfl⟩ := Option.map_eq_some_iff.mp next
      obtain ⟨loop, stepped, rfl⟩ := Option.map_eq_some_iff.mp popped
      obtain ⟨head, isHead, queue⟩ := EventLoop.queue_runFunctor stepped
      rw [first] at isHead
      cases isHead
      exact .runFunctor o functor loop (by rw [first]; rfl) (EventLoop.step_queued queued stepped)
        queue
  | removeConnectionInLoop =>
    obtain ⟨waiting, ⟨⟩⟩ := Option.ite_none_right_eq_some.mp next
    exact .removeConnectionInLoop waiting

end ServedConnection

end Arale
