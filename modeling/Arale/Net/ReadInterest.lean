import Arale.Lib.Schedules
import Arale.Net.TcpConnection

/-!
# What `isReading()` of a connection reports

`reading_` stands beside the read interest of the channel. The functions of a
connection that touch the channel are written here once more over any five
interest calls; with the calls of the header they are the connection's own.
For calls that touch only their own bits, every run on the loop thread from
`connectionEstablished` until the connection is closed is followed.
-/

namespace ReadInterest

open Arale Schedules

/-- The five calls of a channel on its mask. -/
structure ChannelCalls where
  enableRead : Channel → Channel
  disableRead : Channel → Channel
  enableWrite : Channel → Channel
  disableWrite : Channel → Channel
  disableAll : Channel → Channel

/-- The calls as the header has them. -/
def written : ChannelCalls where
  enableRead := .enableRead
  disableRead := .disableRead
  enableWrite := .enableWrite
  disableWrite := .disableWrite
  disableAll := .disableAll

/-- The calls with a `disableWrite` that takes the write bit away. -/
def repaired : ChannelCalls :=
  { written with
    disableWrite := fun ch => .update { ch with events := ch.events &&& ~~~kWriteEvent } }

/-- Each call affects its own bits and no others. -/
structure OwnBits (calls : ChannelCalls) : Prop where
  enableRead : ∀ ch, (calls.enableRead ch).isReading = true ∧
    (calls.enableRead ch).isWriting = ch.isWriting
  disableRead : ∀ ch, (calls.disableRead ch).isReading = false ∧
    (calls.disableRead ch).isWriting = ch.isWriting
  enableWrite : ∀ ch, (calls.enableWrite ch).isReading = ch.isReading ∧
    (calls.enableWrite ch).isWriting = true
  disableWrite : ∀ ch, (calls.disableWrite ch).isReading = ch.isReading ∧
    (calls.disableWrite ch).isWriting = false
  disableAll : ∀ ch, (calls.disableAll ch).isReading = false ∧
    (calls.disableAll ch).isWriting = false

theorem ownBits_repaired : OwnBits repaired where
  enableRead := fun ch => ⟨ch.isReading_enableRead, ch.isWriting_enableRead⟩
  disableRead := fun ch => ⟨ch.isReading_disableRead, ch.isWriting_disableRead⟩
  enableWrite := fun ch => ⟨ch.isReading_enableWrite, ch.isWriting_enableWrite⟩
  disableWrite := by
    have kept : ~~~kWriteEvent &&& kReadEvent = kReadEvent := by decide
    have cleared : ~~~kWriteEvent &&& kWriteEvent = 0#32 := by decide
    intro ch
    constructor
    · simp only [repaired, Channel.isReading, Channel.update, BitVec.and_assoc, kept]
    · simp only [repaired, Channel.isWriting, Channel.update, BitVec.and_assoc, cleared,
        BitVec.and_zero]
      decide
  disableAll := fun ch => ⟨ch.isReading_disableAll, ch.isWriting_disableAll⟩

/-! ## The connection over given calls -/

section Functions
variable (calls : ChannelCalls)

def connectionEstablished (c : TcpConnection) : TcpConnection :=
  let c := c.assertAt .connectionEstablished (c.state == .kConnecting)
  let c := c.setState .kConnected
  let c := c.onChannel Channel.tieTo
  let c := c.onChannel calls.enableRead
  c.callConnectionCallback

def handleClose (c : TcpConnection) : TcpConnection :=
  let c := c.assertAt .handleClose (c.state == .kConnected || c.state == .kDisconnecting)
  let c := c.setState .kDisconnected
  let c := c.onChannel calls.disableAll
  let c := c.callConnectionCallback
  c.notify .closeCallback

def handleRead (c : TcpConnection) (o : ReadOutcome) : TcpConnection :=
  let (c, res) := c.readInput o
  if res > 0 then
    c.notify .messageCallback
  else if res = 0 then
    handleClose calls c
  else
    c.handleError

/-- The drained branch of `handleWrite`. -/
def outputDrained (c : TcpConnection) : TcpConnection :=
  let c := c.onChannel calls.disableWrite
  let c := c.postWriteComplete
  if c.state == .kDisconnecting then c.shutdownInLoop else c

def handleWrite (c : TcpConnection) (o : WriteOutcome) : TcpConnection :=
  if c.readWriteChannel.isWriting then
    match o with
    | .accepted n =>
      if n > 0 then
        let c := c.accept (c.outputBuffer.take n)
        let c := { c with outputBuffer := c.outputBuffer.drop n }
        if c.outputBuffer.length = 0 then outputDrained calls c else c
      else c
    | .failed _ => c
  else c

/-- The buffering half of `sendInLoop`. -/
def bufferRest (c : TcpConnection) (data : List UInt8) (left : Nat) : TcpConnection :=
  let having := c.outputBuffer.length
  let c := if having < c.highWaterMark ∧ having + left ≥ c.highWaterMark ∧
      c.highWaterMarkCallback = true then
      c.post true (.highWaterMarkCallback (having + left))
    else c
  let c := { c with outputBuffer := c.outputBuffer ++ data.take left }
  if !c.readWriteChannel.isWriting then c.onChannel calls.enableWrite else c

def sendInLoop (c : TcpConnection) (data : List UInt8) (o : WriteOutcome) : TcpConnection :=
  let (c, left, error) :=
    if c.sendsDirectly then c.writeDirectly data o else (c, data.length, false)
  if !error && left > 0 then bufferRest calls c data left else c

def send (c : TcpConnection) (data : List UInt8) (o : WriteOutcome) : TcpConnection :=
  if c.state == .kConnected then sendInLoop calls c data o else c

def startReadInLoop (c : TcpConnection) : TcpConnection :=
  if !c.reading || !c.readWriteChannel.isReading then
    { c.onChannel calls.enableRead with reading := true }
  else c

/-- `startRead` in the loop thread. -/
def startRead (c : TcpConnection) : TcpConnection :=
  startReadInLoop calls (c.assertAt .startRead (c.state == .kConnected))

def stopReadInLoop (c : TcpConnection) : TcpConnection :=
  if c.reading || c.readWriteChannel.isReading then
    { c.onChannel calls.disableRead with reading := false }
  else c

/-- `stopRead` in the loop thread. -/
def stopRead (c : TcpConnection) : TcpConnection :=
  stopReadInLoop calls (c.assertAt .stopRead (c.state == .kConnected))

end Functions

inductive Act where
  | startRead
  | stopRead
  | send (data : List UInt8) (o : WriteOutcome)
  | handleRead (o : ReadOutcome)
  | handleWrite (o : WriteOutcome)
  | handleClose
  deriving DecidableEq, Repr

def Act.apply (calls : ChannelCalls) (c : TcpConnection) : Act → TcpConnection
  | .startRead => ReadInterest.startRead calls c
  | .stopRead => ReadInterest.stopRead calls c
  | .send data o => ReadInterest.send calls c data o
  | .handleRead o => ReadInterest.handleRead calls c o
  | .handleWrite o => ReadInterest.handleWrite calls c o
  | .handleClose => ReadInterest.handleClose calls c

/-- The same six calls of the connection itself. -/
def Act.onConnection (c : TcpConnection) : Act → TcpConnection
  | .startRead => c.startRead true
  | .stopRead => c.stopRead true
  | .send data o => c.send data o
  | .handleRead o => c.handleRead o
  | .handleWrite o => c.handleWrite o
  | .handleClose => c.handleClose

/-- With the calls of the header these are the functions of the connection. -/
theorem apply_written (c : TcpConnection) (a : Act) : a.apply written c = a.onConnection c := by
  cases a <;> rfl

/-- The two calls that ask for a read interest. -/
def Act.asks : Act → Bool
  | .startRead => true
  | .stopRead => true
  | _ => false

/-- `handleClose`, or an event that finds the end of the stream. -/
def Act.closes : Act → Bool
  | .handleClose => true
  | .handleRead o => o == .delivered []
  | _ => false

def established (calls : ChannelCalls) (loop : EventLoop ConnFunctor) (sockfd : Int)
    (options : ConnOptions) : TcpConnection :=
  connectionEstablished calls (.new loop sockfd options)

theorem established_written (loop : EventLoop ConnFunctor) (sockfd : Int)
    (options : ConnOptions) :
    established written loop sockfd options = .established loop sockfd options :=
  rfl

/-- A run ends when the connection is closed. -/
def step (calls : ChannelCalls) (c : TcpConnection) (a : Act) : Option TcpConnection :=
  if c.state == .kDisconnected then none else some (a.apply calls c)

/-! ## What each function does to the flag and to the interest -/

/-- The state, the flag and the read interest a call leaves. -/
structure Leaves (d : TcpConnection) (state : ConnState) (flag interest : Bool) : Prop where
  state : d.state = state
  flag : d.reading = flag
  channel : d.readWriteChannel.isReading = interest

/-- A call leaves all three as they were. -/
abbrev Untouched (c d : TcpConnection) : Prop :=
  Leaves d c.state c.reading c.readWriteChannel.isReading

theorem Untouched.refl (c : TcpConnection) : Untouched c c := ⟨rfl, rfl, rfl⟩

theorem Untouched.trans {c d e : TcpConnection} (first : Untouched c d) (last : Untouched d e) :
    Untouched c e where
  state := last.state.trans first.state
  flag := last.flag.trans first.flag
  channel := last.channel.trans first.channel

theorem assertAt_untouched (c : TcpConnection) (site : AssertSite) (cond : Bool) :
    Untouched c (c.assertAt site cond) := by
  rw [c.assertAt_eq]
  exact ⟨rfl, rfl, rfl⟩

theorem shutdownInLoop_untouched (c : TcpConnection) : Untouched c c.shutdownInLoop := by
  rw [c.shutdownInLoop_eq]
  exact ⟨rfl, rfl, rfl⟩

theorem postWriteComplete_untouched (c : TcpConnection) : Untouched c c.postWriteComplete := by
  obtain ⟨loop, -, posted⟩ := c.postWriteComplete_eq
  rw [posted]
  exact ⟨rfl, rfl, rfl⟩

theorem writeDirectly_untouched (c : TcpConnection) (data : List UInt8) (o : WriteOutcome) :
    Untouched c (c.writeDirectly data o).1 := by
  cases o with
  | accepted nwrote =>
    have accepted : Untouched c (c.accept (data.take nwrote)) := ⟨rfl, rfl, rfl⟩
    simp only [TcpConnection.writeDirectly]
    split
    · exact accepted.trans (postWriteComplete_untouched _)
    · exact accepted
  | failed errno => exact .refl c

section Effects
variable {calls : ChannelCalls} (own : OwnBits calls)
include own

theorem outputDrained_untouched (c : TcpConnection) : Untouched c (outputDrained calls c) := by
  have asked : Untouched c (c.onChannel calls.disableWrite) :=
    ⟨rfl, rfl, (own.disableWrite c.readWriteChannel).1⟩
  have posted := asked.trans (postWriteComplete_untouched _)
  simp only [outputDrained]
  split
  · exact posted.trans (shutdownInLoop_untouched _)
  · exact posted

theorem handleWrite_untouched (c : TcpConnection) (o : WriteOutcome) :
    Untouched c (handleWrite calls c o) := by
  unfold handleWrite
  split
  · cases o with
    | accepted n =>
      have sent : Untouched c { c.accept (c.outputBuffer.take n) with
          outputBuffer := c.outputBuffer.drop n } := ⟨rfl, rfl, rfl⟩
      dsimp only
      split
      · split
        · exact sent.trans (outputDrained_untouched own _)
        · exact sent
      · exact .refl c
    | failed errno => exact .refl c
  · exact .refl c

theorem bufferRest_untouched (c : TcpConnection) (data : List UInt8) (left : Nat) :
    Untouched c (bufferRest calls c data left) := by
  have wanted (d : TcpConnection) : Untouched d
      (if !d.readWriteChannel.isWriting then d.onChannel calls.enableWrite else d) := by
    split
    · exact ⟨rfl, rfl, (own.enableWrite d.readWriteChannel).1⟩
    · exact .refl d
  unfold bufferRest
  refine .trans ?_ (wanted _)
  split <;> exact ⟨rfl, rfl, rfl⟩

theorem sendInLoop_untouched (c : TcpConnection) (data : List UInt8) (o : WriteOutcome) :
    Untouched c (sendInLoop calls c data o) := by
  have begun : Untouched c
      (if c.sendsDirectly then c.writeDirectly data o else (c, data.length, false)).1 := by
    split
    · exact writeDirectly_untouched c data o
    · exact .refl c
  unfold sendInLoop
  split
  next d left error direct =>
    rw [direct] at begun
    split
    · exact begun.trans (bufferRest_untouched own d data left)
    · exact begun

theorem send_untouched (c : TcpConnection) (data : List UInt8) (o : WriteOutcome) :
    Untouched c (send calls c data o) := by
  unfold send
  split
  · exact sendInLoop_untouched own c data o
  · exact .refl c

theorem startRead_leaves (c : TcpConnection) :
    Leaves (startRead calls c) c.state true true := by
  have checked := assertAt_untouched c .startRead (c.state == .kConnected)
  unfold startRead startReadInLoop
  split
  next => exact ⟨checked.state, rfl, (own.enableRead _).1⟩
  next both =>
    simp only [Bool.or_eq_true, Bool.not_eq_true', not_or, Bool.not_eq_false] at both
    exact ⟨checked.state, both.1, both.2⟩

theorem stopRead_leaves (c : TcpConnection) :
    Leaves (stopRead calls c) c.state false false := by
  have checked := assertAt_untouched c .stopRead (c.state == .kConnected)
  unfold stopRead stopReadInLoop
  split
  next => exact ⟨checked.state, rfl, (own.disableRead _).1⟩
  next neither =>
    simp only [Bool.or_eq_true, not_or, Bool.not_eq_true] at neither
    exact ⟨checked.state, neither.1, neither.2⟩

/-- Closing takes the interest away and leaves the flag. -/
theorem handleClose_leaves (c : TcpConnection) :
    Leaves (handleClose calls c) .kDisconnected c.reading false := by
  have checked := assertAt_untouched c .handleClose
    (c.state == .kConnected || c.state == .kDisconnecting)
  exact ⟨rfl, checked.flag, (own.disableAll _).1⟩

/-- Establishing asks for the interest and leaves the flag. -/
theorem established_leaves (loop : EventLoop ConnFunctor) (sockfd : Int)
    (options : ConnOptions) :
    Leaves (established calls loop sockfd options) .kConnected false true := by
  have checked := assertAt_untouched (.new loop sockfd options) .connectionEstablished true
  exact ⟨rfl, checked.flag, (own.enableRead _).1⟩

theorem handleRead_leaves (c : TcpConnection) (o : ReadOutcome) :
    if o == .delivered [] then Leaves (handleRead calls c o) .kDisconnected c.reading false
      else Untouched c (handleRead calls c o) := by
  cases o with
  | delivered bytes =>
    cases bytes with
    | nil => exact handleClose_leaves own _
    | cons byte bytes => exact ⟨rfl, rfl, rfl⟩
  | failed errno => exact ⟨rfl, rfl, rfl⟩

/-! ## What one step does, and what a run does -/

/-- The flag follows the two asking calls; the interest follows them and the close. -/
theorem apply_leaves (c : TcpConnection) (a : Act) :
    Leaves (a.apply calls c) (if a.closes then .kDisconnected else c.state)
      (if a.asks then decide (a = .startRead) else c.reading)
      (!a.closes && if a.asks then decide (a = .startRead) else c.readWriteChannel.isReading) := by
  cases a with
  | startRead => exact startRead_leaves own c
  | stopRead => exact stopRead_leaves own c
  | send data o => exact send_untouched own c data o
  | handleRead o =>
    have left := handleRead_leaves own c o
    cases eof : o == .delivered [] with
    | true => simpa [Act.apply, Act.asks, Act.closes, eof] using left
    | false => simpa [Act.apply, Act.asks, Act.closes, eof] using left
  | handleWrite o => exact handleWrite_untouched own c o
  | handleClose => exact handleClose_leaves own c

/-- What the calls made so far say of the connection they have led to. -/
theorem run_leaves (loop : EventLoop ConnFunctor) (sockfd : Int) (options : ConnOptions)
    {acts : List Act} {c : TcpConnection}
    (done : run (step calls) (established calls loop sockfd options) acts = some c) :
    Leaves c (if acts.any Act.closes then .kDisconnected else .kConnected)
      (decide (lastAmong Act.asks acts = some .startRead))
      (!acts.any Act.closes && decide (lastAmong Act.asks acts ≠ some .stopRead)) := by
  induction acts using List.reverseRecOn generalizing c with
  | nil =>
    cases done
    exact established_leaves own loop sockfd options
  | append_singleton acts a ih =>
    obtain ⟨m, before, next⟩ := run_concat_eq_some.mp done
    have tracked := ih before
    have isOpen : m.state ≠ .kDisconnected ∧ a.apply calls m = c := by
      simpa [step] using next
    obtain ⟨isOpen, rfl⟩ := isOpen
    have unclosed : acts.any Act.closes = false := by
      cases closed : acts.any Act.closes with
      | false => rfl
      | true => exact absurd (by simpa [closed] using tracked.state) isOpen
    have left := apply_leaves own m a
    rw [tracked.state, tracked.flag, tracked.channel] at left
    rw [List.any_append, lastAmong_concat]
    cases a <;> simpa [unclosed, Act.asks, Act.closes] using left

end Effects

/-- Only the two asking calls can be the last of them. -/
theorem lastAmong_asks (acts : List Act) :
    lastAmong Act.asks acts = none ∨ lastAmong Act.asks acts = some .startRead ∨
      lastAmong Act.asks acts = some .stopRead := by
  cases last : lastAmong Act.asks acts with
  | none => exact .inl rfl
  | some a =>
    have asks : a.asks = true := (lastAmong_eq_some.mp last).1
    cases a with
    | startRead => exact .inr (.inl rfl)
    | stopRead => exact .inr (.inr rfl)
    | _ => cases asks

/-- While the connection is open the flag agrees with the channel exactly when it has
been set by `startRead` or `stopRead` at all; once it is closed, exactly when the last
of these calls, if any, was not `startRead`. -/
theorem reading_flag_agrees_iff {calls : ChannelCalls} (own : OwnBits calls)
    (loop : EventLoop ConnFunctor) (sockfd : Int) (options : ConnOptions) (acts : List Act)
    {c : TcpConnection}
    (done : run (step calls) (established calls loop sockfd options) acts = some c) :
    c.isReading = c.readWriteChannel.isReading ↔
      if acts.any Act.closes then lastAmong Act.asks acts ≠ some .startRead
        else lastAmong Act.asks acts ≠ none := by
  have left := run_leaves own loop sockfd options done
  rw [TcpConnection.isReading, left.flag, left.channel]
  obtain never | started | stopped := lastAmong_asks acts
  · cases acts.any Act.closes <;> simp [never]
  · cases acts.any Act.closes <;> simp [started]
  · cases acts.any Act.closes <;> simp [stopped]

/-- A pause, and reading again while output waits. -/
theorem reading_flag_agrees_after_pause :
    ∃ c, run (step repaired) (established repaired .new 7 {})
        [.stopRead, .send [97, 98] (.accepted 1), .startRead, .handleWrite (.accepted 1)] =
          some c ∧
      c.isReading = c.readWriteChannel.isReading :=
  ⟨_, rfl, (reading_flag_agrees_iff ownBits_repaired .new 7 {}
    [.stopRead, .send [97, 98] (.accepted 1), .startRead, .handleWrite (.accepted 1)]
    rfl).mpr (by decide)⟩

/-- A connection that has only been established and has read one byte. -/
theorem established_flag_disagrees :
    OwnBits repaired ∧
      ∃ c, run (step repaired) (established repaired .new 7 {})
          [.handleRead (.delivered [97])] = some c ∧
        c.isReading = false ∧ c.readWriteChannel.isReading = true :=
  ⟨ownBits_repaired, _, rfl, rfl, rfl⟩

end ReadInterest
