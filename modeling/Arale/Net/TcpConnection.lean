import Arale.Net.Buffer
import Arale.Net.Channel
import Arale.Net.EventLoop

/-!
# One TCP connection

`TcpConnection` of `net/TcpConnection.cc` with its channel, its socket and the
queue of its loop. The two buffers are byte FIFOs here. System calls are answered
by an explicit outcome; pointers handed to a functor stay pointers until the
functor runs. A failed assertion is recorded and execution goes on, which is the
release build; user callbacks are recorded in the order they are invoked.
-/

namespace Arale

inductive ConnState where
  | kConnecting
  | kConnected
  | kDisconnecting
  | kDisconnected
  deriving DecidableEq, Repr

/-- The values of `errno` the connection tells apart. -/
inductive Errno where
  | EWOULDBLOCK
  | EPIPE
  | ECONNRESET
  | other (code : Int)
  deriving DecidableEq, Repr

/-- What `sockets::write` did. -/
inductive WriteOutcome where
  | accepted (n : Nat)
  | failed (errno : Errno)
  deriving DecidableEq, Repr

/-- A write accepts at most the bytes it was given. -/
def WriteOutcome.Possible (requested : Nat) : WriteOutcome → Prop
  | .accepted n => n ≤ requested
  | .failed _ => True

instance (requested : Nat) : (o : WriteOutcome) → Decidable (o.Possible requested)
  | .accepted n => inferInstanceAs (Decidable (n ≤ requested))
  | .failed _ => inferInstanceAs (Decidable True)

/-- The errors after which `sendInLoop` gives up on the data. -/
def WriteOutcome.peerGone : WriteOutcome → Bool
  | .accepted _ => false
  | .failed errno => errno == .EPIPE || errno == .ECONNRESET

/-- The functors a connection hands to its loop. `sendInLoop` holds what
`std::bind` was given, an address and a length; `sendString` holds its own copy. -/
inductive ConnFunctor where
  | sendInLoop (data len : Nat)
  | sendString (msg : List UInt8)
  | shutdownInLoop
  | forceCloseInLoop
  | startReadInLoop
  | stopReadInLoop
  | connectionDestroyed
  | writeCompleteCallback
  | highWaterMarkCallback (size : Nat)
  deriving DecidableEq, Repr

/-- Functors that run user code and touch the connection only through it. -/
def ConnFunctor.isUserCallback : ConnFunctor → Bool
  | .writeCompleteCallback => true
  | .highWaterMarkCallback _ => true
  | _ => false

/-- Where an `assert` on the connection's state stands. -/
inductive AssertSite where
  | connectionEstablished
  | handleClose
  | forceCloseInLoop
  | startRead
  | stopRead
  deriving DecidableEq, Repr

/-- What a connection does that others can see. -/
inductive Notice where
  /-- `connectionCallback_`, which reads `isConnected()` -/
  | connectionCallback (up : Bool)
  | messageCallback
  | closeCallback
  /-- `readWriteChannel_->remove()`, with `isNoneEvent()` at that moment -/
  | removeChannel (noneEvent : Bool)
  | assertionFailed (site : AssertSite)
  deriving DecidableEq, Repr

/-- What the owner of a connection configures before using it. -/
structure ConnOptions where
  highWaterMark : Nat := 64 * 1024 * 1024
  writeCompleteCallback : Bool := false
  highWaterMarkCallback : Bool := false

structure TcpConnection where
  loop : EventLoop ConnFunctor
  state : ConnState
  readWriteChannel : Channel
  highWaterMark : Nat
  inputBuffer : List UInt8
  outputBuffer : List UInt8
  reading : Bool
  /-- whether `writeCompleteCallback_` is set -/
  writeCompleteCallback : Bool
  /-- whether `highWaterMarkCallback_` is set -/
  highWaterMarkCallback : Bool
  /-- the bytes `sockets::write` has accepted so far -/
  accepted : List UInt8
  /-- readable bytes of `outputBuffer_` at each `socket_->shutDownWrite()` -/
  halfCloses : List Nat
  /-- timers of `forceCloseWithDelay` that have not fired -/
  delayedCloses : Nat
  notices : List Notice

namespace TcpConnection

def new (loop : EventLoop ConnFunctor) (sockfd : Int) (options : ConnOptions) :
    TcpConnection where
  loop := loop
  state := .kConnecting
  readWriteChannel := .new sockfd [.read, .write, .close, .error]
  highWaterMark := options.highWaterMark
  inputBuffer := []
  outputBuffer := []
  reading := false
  writeCompleteCallback := options.writeCompleteCallback
  highWaterMarkCallback := options.highWaterMarkCallback
  accepted := []
  halfCloses := []
  delayedCloses := 0
  notices := []

def setState (c : TcpConnection) (state : ConnState) : TcpConnection := { c with state := state }

def isConnected (c : TcpConnection) : Bool := c.state == .kConnected

def isReading (c : TcpConnection) : Bool := c.reading

def onChannel (c : TcpConnection) (f : Channel → Channel) : TcpConnection :=
  { c with readWriteChannel := f c.readWriteChannel }

def notify (c : TcpConnection) (n : Notice) : TcpConnection :=
  { c with notices := c.notices ++ [n] }

/-- `assert(cond)` of the release build: recorded, not enforced. -/
def assertAt (c : TcpConnection) (site : AssertSite) (cond : Bool) : TcpConnection :=
  if cond then c else c.notify (.assertionFailed site)

/-- `loop_->postFuntor(functor)`. -/
def post (c : TcpConnection) (inLoop : Bool) (functor : ConnFunctor) : TcpConnection :=
  { c with loop := c.loop.postFuntor inLoop functor }

/-- `connectionCallback_(shared_from_this())`. -/
def callConnectionCallback (c : TcpConnection) : TcpConnection :=
  c.notify (.connectionCallback c.isConnected)

def connectionEstablished (c : TcpConnection) : TcpConnection :=
  let c := c.assertAt .connectionEstablished (c.state == .kConnecting)
  let c := c.setState .kConnected
  let c := c.onChannel Channel.tieTo
  let c := c.onChannel Channel.enableRead
  c.callConnectionCallback

def connectionDestroyed (c : TcpConnection) : TcpConnection :=
  let c := if c.state == .kConnected then
      ((c.setState .kDisconnected).onChannel Channel.disableAll).callConnectionCallback
    else c
  let c := c.notify (.removeChannel c.readWriteChannel.isNoneEvent)
  c.onChannel Channel.remove

def handleClose (c : TcpConnection) : TcpConnection :=
  let c := c.assertAt .handleClose (c.state == .kConnected || c.state == .kDisconnecting)
  let c := c.setState .kDisconnected
  let c := c.onChannel Channel.disableAll
  let c := c.callConnectionCallback
  c.notify .closeCallback

/-- Only logs the socket's error. -/
def handleError (c : TcpConnection) : TcpConnection := c

/-- `readFd` on the FIFO, with its result converted to `size_t`. -/
def readInput (c : TcpConnection) : ReadOutcome → TcpConnection × Nat
  | .delivered bytes => ({ c with inputBuffer := c.inputBuffer ++ bytes }, bytes.length)
  | .failed _ => (c, 2 ^ 64 - 1)

def handleRead (c : TcpConnection) (o : ReadOutcome) : TcpConnection :=
  let (c, res) := c.readInput o
  if res > 0 then
    c.notify .messageCallback
  else if res = 0 then
    c.handleClose
  else
    c.handleError

def shutdownInLoop (c : TcpConnection) : TcpConnection :=
  if !c.readWriteChannel.isWriting then
    { c with halfCloses := c.halfCloses ++ [c.outputBuffer.length] }
  else c

def shutdown (c : TcpConnection) (inLoop : Bool) : TcpConnection :=
  if c.state == .kConnected then
    let c := c.setState .kDisconnecting
    if inLoop then c.shutdownInLoop else c.post false .shutdownInLoop
  else c

/-- The bytes leave for the socket. -/
def accept (c : TcpConnection) (bytes : List UInt8) : TcpConnection :=
  { c with accepted := c.accepted ++ bytes }

def postWriteComplete (c : TcpConnection) : TcpConnection :=
  if c.writeCompleteCallback then c.post true .writeCompleteCallback else c

/-- The drained branch of `handleWrite`. -/
def outputDrained (c : TcpConnection) : TcpConnection :=
  let c := c.onChannel Channel.disableWrite
  let c := c.postWriteComplete
  if c.state == .kDisconnecting then c.shutdownInLoop else c

def handleWrite (c : TcpConnection) (o : WriteOutcome) : TcpConnection :=
  if c.readWriteChannel.isWriting then
    match o with
    | .accepted n =>
      if n > 0 then
        let c := c.accept (c.outputBuffer.take n)
        let c := { c with outputBuffer := c.outputBuffer.drop n }
        if c.outputBuffer.length = 0 then c.outputDrained else c
      else c
    | .failed _ => c
  else c

/-- The direct write of `sendInLoop`: the connection after it, `left` and `error`. -/
def writeDirectly (c : TcpConnection) (data : List UInt8) :
    WriteOutcome → TcpConnection × Nat × Bool
  | .accepted nwrote =>
    let left := data.length - nwrote
    let c := c.accept (data.take nwrote)
    (if left = 0 then c.postWriteComplete else c, left, false)
  | .failed errno => (c, data.length, (WriteOutcome.failed errno).peerGone)

/-- The buffering half of `sendInLoop`: `outputBuffer_.append(data, left)` takes the
bytes at `data`, whatever the direct write has accepted of them. -/
def bufferRest (c : TcpConnection) (data : List UInt8) (left : Nat) : TcpConnection :=
  let having := c.outputBuffer.length
  let c := if having < c.highWaterMark ∧ having + left ≥ c.highWaterMark ∧
      c.highWaterMarkCallback = true then
      c.post true (.highWaterMarkCallback (having + left))
    else c
  let c := { c with outputBuffer := c.outputBuffer ++ data.take left }
  if !c.readWriteChannel.isWriting then c.onChannel Channel.enableWrite else c

/-- Whether `sendInLoop` writes to the socket at once. -/
def sendsDirectly (c : TcpConnection) : Bool :=
  !c.readWriteChannel.isWriting && c.outputBuffer.length == 0

def sendInLoop (c : TcpConnection) (data : List UInt8) (o : WriteOutcome) : TcpConnection :=
  let (c, left, error) :=
    if c.sendsDirectly then c.writeDirectly data o else (c, data.length, false)
  if !error && left > 0 then c.bufferRest data left else c

/-- `send` in the loop thread, where the three overloads do the same. -/
def send (c : TcpConnection) (data : List UInt8) (o : WriteOutcome) : TcpConnection :=
  if c.state == .kConnected then c.sendInLoop data o else c

/-- `send(const void*, size_t)` and `send(const std::string&)` in another thread. -/
def sendFromOther (c : TcpConnection) (data len : Nat) : TcpConnection :=
  if c.state == .kConnected then c.post false (.sendInLoop data len) else c

/-- `send(Buffer*)` in another thread: the bytes are moved into the functor. -/
def sendBufferFromOther (c : TcpConnection) (content : List UInt8) : TcpConnection :=
  if c.state == .kConnected then c.post false (.sendString content) else c

def forceCloseInLoop (c : TcpConnection) : TcpConnection :=
  let c := c.assertAt .forceCloseInLoop (c.state == .kDisconnecting)
  c.handleClose

/-- The guard of `forceClose` and `forceCloseWithDelay`. -/
def isOpen (c : TcpConnection) : Bool := c.state == .kConnected || c.state == .kDisconnecting

def forceClose (c : TcpConnection) (inLoop : Bool) : TcpConnection :=
  if c.isOpen then
    let c := c.setState .kDisconnecting
    if inLoop then c.forceCloseInLoop else c.post false .forceCloseInLoop
  else c

def forceCloseWithDelay (c : TcpConnection) : TcpConnection :=
  if c.isOpen then
    { c.setState .kDisconnecting with delayedCloses := c.delayedCloses + 1 }
  else c

/-- A timer of `forceCloseWithDelay` is used up; it calls `forceClose` next. -/
def timerExpired (c : TcpConnection) : TcpConnection :=
  { c with delayedCloses := c.delayedCloses - 1 }

def startReadInLoop (c : TcpConnection) : TcpConnection :=
  if !c.reading || !c.readWriteChannel.isReading then
    { c.onChannel Channel.enableRead with reading := true }
  else c

def startRead (c : TcpConnection) (inLoop : Bool) : TcpConnection :=
  let c := c.assertAt .startRead (c.state == .kConnected)
  if inLoop then c.startReadInLoop else c.post false .startReadInLoop

def stopReadInLoop (c : TcpConnection) : TcpConnection :=
  if c.reading || c.readWriteChannel.isReading then
    { c.onChannel Channel.disableRead with reading := false }
  else c

def stopRead (c : TcpConnection) (inLoop : Bool) : TcpConnection :=
  let c := c.assertAt .stopRead (c.state == .kConnected)
  if inLoop then c.stopReadInLoop else c.post false .stopReadInLoop

/-- A connection as `newConncetion` and its loop leave it. -/
def established (loop : EventLoop ConnFunctor) (sockfd : Int) (options : ConnOptions) :
    TcpConnection :=
  (new loop sockfd options).connectionEstablished

/-! ## What each function can do

Each function is described once, as an update of the fields it touches. Where it
only posts user callbacks, the loop after it is left open. -/

/-- What a checked assertion adds to the record. -/
def failure (site : AssertSite) (cond : Bool) : List Notice :=
  if cond then [] else [.assertionFailed site]

/-- At most one user callback has been handed to the loop. -/
abbrev CallbackPosted : EventLoop ConnFunctor → EventLoop ConnFunctor → Prop :=
  EventLoop.Posted fun functor => functor.isUserCallback = true

section Effects
variable (c : TcpConnection)

theorem assertAt_eq (site : AssertSite) (cond : Bool) :
    c.assertAt site cond = { c with notices := c.notices ++ failure site cond } := by
  cases cond <;> simp [assertAt, failure, notify]

theorem handleClose_eq :
    c.handleClose = { c with state := .kDisconnected
                             readWriteChannel := c.readWriteChannel.disableAll
                             notices := c.notices ++ (failure .handleClose c.isOpen ++
                               [.connectionCallback false, .closeCallback]) } := by
  simp [handleClose, assertAt_eq, setState, onChannel, callConnectionCallback, notify, isConnected,
    isOpen]

/-- Reading at the end of the stream. -/
theorem handleRead_eof : c.handleRead (.delivered []) = c.handleClose := by
  simp [handleRead, readInput]

theorem forceCloseInLoop_eq :
    c.forceCloseInLoop = { c with state := .kDisconnected
                                  readWriteChannel := c.readWriteChannel.disableAll
                                  notices := c.notices ++
                                    (failure .forceCloseInLoop (c.state == .kDisconnecting) ++
                                      (failure .handleClose c.isOpen ++
                                        [.connectionCallback false, .closeCallback])) } := by
  simp [forceCloseInLoop, assertAt_eq, handleClose_eq, isOpen]

/-- In the loop thread `forceClose` closes an open connection at once. -/
theorem forceClose_of_open (isOpen : c.isOpen = true) :
    c.forceClose true = { c with state := .kDisconnected
                                 readWriteChannel := c.readWriteChannel.disableAll
                                 notices := c.notices ++
                                   [.connectionCallback false, .closeCallback] } := by
  rw [forceClose, if_pos isOpen]
  simp [forceCloseInLoop_eq, failure, setState, TcpConnection.isOpen]

theorem forceClose_of_closed (closed : c.isOpen = false) (inLoop : Bool) :
    c.forceClose inLoop = c :=
  if_neg (Bool.not_eq_true _ ▸ closed)

theorem shutdown_of_connected (connected : c.isConnected = true) (inLoop : Bool) :
    c.shutdown inLoop = if inLoop then (c.setState .kDisconnecting).shutdownInLoop
      else (c.setState .kDisconnecting).post false .shutdownInLoop :=
  if_pos connected

theorem shutdown_of_not_connected (closing : c.isConnected = false) (inLoop : Bool) :
    c.shutdown inLoop = c :=
  if_neg (Bool.not_eq_true _ ▸ closing)

theorem queue_post (c : TcpConnection) (inLoop : Bool) (functor : ConnFunctor) :
    (c.post inLoop functor).loop.queue = c.loop.queue ++ [functor] :=
  EventLoop.queue_postFuntor c.loop inLoop functor

theorem sendFromOther_of_connected (connected : c.isConnected = true) (data len : Nat) :
    c.sendFromOther data len = c.post false (.sendInLoop data len) :=
  if_pos connected

theorem sendFromOther_of_not_connected (closing : ¬ c.isConnected = true) (data len : Nat) :
    c.sendFromOther data len = c :=
  if_neg closing

theorem isOpen_of_connected (connected : c.isConnected = true) : c.isOpen = true := by
  have : (c.state == .kConnected) = true := connected
  simp [isOpen, this]

theorem shutdownInLoop_eq :
    c.shutdownInLoop = { c with halfCloses := if c.readWriteChannel.isWriting then c.halfCloses
                                  else c.halfCloses ++ [c.outputBuffer.length] } := by
  cases h : c.readWriteChannel.isWriting <;> simp [shutdownInLoop, h]

theorem postWriteComplete_eq :
    ∃ loop, CallbackPosted c.loop loop ∧ c.postWriteComplete = { c with loop := loop } := by
  unfold postWriteComplete
  split
  · exact ⟨_, .one true rfl, rfl⟩
  · exact ⟨c.loop, .none, rfl⟩

/-- The channel after the write interest has been asked for. -/
def wantWrite (ch : Channel) : Channel := if ch.isWriting then ch else ch.enableWrite

@[simp] theorem isWriting_wantWrite (ch : Channel) : (wantWrite ch).isWriting = true := by
  unfold wantWrite
  split
  · assumption
  · exact ch.isWriting_enableWrite

theorem bufferRest_eq (data : List UInt8) (left : Nat) :
    ∃ loop, CallbackPosted c.loop loop ∧ c.bufferRest data left =
      { c with loop := loop
               outputBuffer := c.outputBuffer ++ data.take left
               readWriteChannel := wantWrite c.readWriteChannel } := by
  have posted : ∃ loop, CallbackPosted c.loop loop ∧ (if c.outputBuffer.length < c.highWaterMark ∧
      c.outputBuffer.length + left ≥ c.highWaterMark ∧ c.highWaterMarkCallback = true then
      c.post true (.highWaterMarkCallback (c.outputBuffer.length + left)) else c) =
      { c with loop := loop } := by
    split
    · exact ⟨_, .one true rfl, rfl⟩
    · exact ⟨c.loop, .none, rfl⟩
  obtain ⟨loop, posts, hloop⟩ := posted
  refine ⟨loop, posts, ?_⟩
  simp only [bufferRest, hloop, wantWrite, onChannel]
  cases c.readWriteChannel.isWriting <;> rfl

theorem outputDrained_eq :
    ∃ loop, CallbackPosted c.loop loop ∧ c.outputDrained =
      { c with loop := loop
               readWriteChannel := c.readWriteChannel.disableWrite
               halfCloses := if c.state = .kDisconnecting ∧
                   c.readWriteChannel.isWriting = false then
                 c.halfCloses ++ [c.outputBuffer.length] else c.halfCloses } := by
  obtain ⟨loop, posts, hloop⟩ := (c.onChannel Channel.disableWrite).postWriteComplete_eq
  refine ⟨loop, posts, ?_⟩
  unfold outputDrained
  simp only [hloop]
  simp only [onChannel, shutdownInLoop, Channel.isWriting_disableWrite]
  by_cases closing : c.state = .kDisconnecting
  · cases writing : c.readWriteChannel.isWriting <;> simp [closing]
  · simp [closing]

/-- How many bytes the direct write of `sendInLoop` hands to the socket. -/
def nwrote (o : WriteOutcome) : Nat :=
  match c.sendsDirectly, o with
  | true, .accepted n => n
  | _, _ => 0

/-- The `error` flag of `sendInLoop`. -/
def sendFails (o : WriteOutcome) : Bool := c.sendsDirectly && o.peerGone

/-- `sendInLoop` in one update: `nwrote` bytes to the socket, then, unless the peer is
gone or nothing is left, the first `len - nwrote` bytes to the buffer. -/
theorem sendInLoop_eq (data : List UInt8) (o : WriteOutcome) :
    ∃ loop, CallbackPosted c.loop loop ∧ c.sendInLoop data o =
      if c.sendFails o = true ∨ data.length ≤ c.nwrote o then
        { c with loop := loop, accepted := c.accepted ++ data.take (c.nwrote o) }
      else
        { c with loop := loop
                 accepted := c.accepted ++ data.take (c.nwrote o)
                 outputBuffer := c.outputBuffer ++ data.take (data.length - c.nwrote o)
                 readWriteChannel := wantWrite c.readWriteChannel } := by
  cases direct : c.sendsDirectly with
  | false =>
    by_cases empty : data.length = 0
    · exact ⟨c.loop, .none, by simp [sendInLoop, nwrote, direct, empty]⟩
    · obtain ⟨loop, posts, h⟩ := c.bufferRest_eq data data.length
      refine ⟨loop, posts, ?_⟩
      simp [sendInLoop, sendFails, nwrote, direct, h, Nat.pos_of_ne_zero empty, empty]
  | true =>
    cases o with
    | accepted n =>
      by_cases all : data.length ≤ n
      · obtain ⟨loop, posts, h⟩ := (c.accept (data.take n)).postWriteComplete_eq
        refine ⟨loop, posts, ?_⟩
        simp only [sendInLoop, writeDirectly, nwrote, direct, h, all, Nat.sub_eq_zero_of_le all]
        simp [accept]
      · obtain ⟨loop, posts, h⟩ := (c.accept (data.take n)).bufferRest_eq data (data.length - n)
        refine ⟨loop, posts, ?_⟩
        have left : n < data.length := by omega
        have more : data.length - n ≠ 0 := by omega
        have fine : c.sendFails (.accepted n) = false := by simp [sendFails, WriteOutcome.peerGone]
        simp only [sendInLoop, writeDirectly, nwrote, direct, fine, if_true, if_neg more]
        rw [if_pos (by simpa using Nat.sub_pos_of_lt left), h, if_neg (by simpa using left)]
        rfl
    | failed errno =>
      by_cases stop : c.sendFails (.failed errno) = true ∨ data.length = 0
      · refine ⟨c.loop, .none, ?_⟩
        simp only [sendFails, direct, Bool.true_and] at stop
        simp only [sendInLoop, writeDirectly, nwrote, sendFails, direct]
        rcases stop with stop | stop <;> simp [stop]
      · obtain ⟨loop, posts, h⟩ := c.bufferRest_eq data data.length
        refine ⟨loop, posts, ?_⟩
        simp only [sendFails, direct, Bool.true_and, not_or, Bool.not_eq_true] at stop
        simp [sendInLoop, writeDirectly, nwrote, sendFails, direct, h, stop.1, stop.2,
          Nat.pos_of_ne_zero stop.2]

/-- How many bytes `handleWrite` moves from the buffer to the socket. -/
def flushed (o : WriteOutcome) : Nat :=
  match c.readWriteChannel.isWriting, o with
  | true, .accepted n => n
  | _, _ => 0

/-- `handleWrite` in one update. The half-close after a drain never happens: it asks
for a write interest that `disableWrite` has not taken away. -/
theorem handleWrite_eq (o : WriteOutcome) :
    ∃ loop channel, CallbackPosted c.loop loop ∧
      channel.isWriting = c.readWriteChannel.isWriting ∧ c.handleWrite o =
        { c with loop := loop
                 readWriteChannel := channel
                 accepted := c.accepted ++ c.outputBuffer.take (c.flushed o)
                 outputBuffer := c.outputBuffer.drop (c.flushed o) } := by
  cases writing : c.readWriteChannel.isWriting with
  | false =>
    refine ⟨c.loop, c.readWriteChannel, .none, writing, ?_⟩
    simp [handleWrite, flushed, writing]
  | true =>
    cases o with
    | failed errno =>
      refine ⟨c.loop, c.readWriteChannel, .none, writing, ?_⟩
      simp [handleWrite, flushed, writing]
    | accepted n =>
      by_cases some : n > 0
      · by_cases drained : (c.outputBuffer.drop n).length = 0
        · obtain ⟨loop, posts, h⟩ := outputDrained_eq
            { c.accept (c.outputBuffer.take n) with outputBuffer := c.outputBuffer.drop n }
          refine ⟨loop, c.readWriteChannel.disableWrite, posts, by simp [writing], ?_⟩
          simp only [handleWrite, flushed, writing, if_true, if_pos some]
          rw [if_pos (by simpa [accept] using drained)]
          simpa [accept, writing] using h
        · refine ⟨c.loop, c.readWriteChannel, .none, writing, ?_⟩
          simp only [handleWrite, flushed, writing, if_true, if_pos some]
          rw [if_neg (by simpa [accept] using drained)]
          rfl
      · obtain rfl : n = 0 := by omega
        refine ⟨c.loop, c.readWriteChannel, .none, writing, ?_⟩
        simp [handleWrite, flushed, writing]

end Effects

end TcpConnection

end Arale
