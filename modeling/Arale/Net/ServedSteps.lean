import Arale.Net.ServedConnection

/-!
# What a step makes a connection do

Every step of a served connection takes at most one functor from the queue, runs at
most one member function of the connection and lets the server post its
`connectionDestroyed`. The member function is the `Deed` of the step; it is described
by its effect on the state, on the notices, on the queue and on the channel.
-/

namespace Arale

/-- The member functions the steps of a connection run. -/
inductive Deed where
  | idle
  | call (inLoop : Bool) (call : ConnCall)
  | send (data : List UInt8) (o : WriteOutcome)
  | sendFromOther (data len : Nat)
  | sendBufferFromOther (content : List UInt8)
  | delayedClose
  | handleClose
  | handleError
  | handleRead (r : ReadOutcome)
  | handleWrite (o : WriteOutcome)
  | sendInLoop (data : List UInt8) (o : WriteOutcome)
  | shutdownInLoop
  | forceCloseInLoop
  | startReadInLoop
  | stopReadInLoop
  | connectionDestroyed

/-- The write that lets `handleWrite` find the buffer empty. -/
def TcpConnection.drains (c : TcpConnection) : WriteOutcome → Bool
  | .accepted n => c.readWriteChannel.isWriting && 0 < n && c.outputBuffer.length ≤ n
  | .failed _ => false

namespace Deed

def run (c : TcpConnection) : Deed → TcpConnection
  | .idle => c
  | .call inLoop asked => asked.run inLoop c
  | .send data o => c.send data o
  | .sendFromOther data len => c.sendFromOther data len
  | .sendBufferFromOther content => c.sendBufferFromOther content
  | .delayedClose => c.timerExpired.forceClose true
  | .handleClose => c.handleClose
  | .handleError => c.handleError
  | .handleRead r => c.handleRead r
  | .handleWrite o => c.handleWrite o
  | .sendInLoop data o => c.sendInLoop data o
  | .shutdownInLoop => c.shutdownInLoop
  | .forceCloseInLoop => c.forceCloseInLoop
  | .startReadInLoop => c.startReadInLoop
  | .stopReadInLoop => c.stopReadInLoop
  | .connectionDestroyed => c.connectionDestroyed

def ofHandler (r : ReadOutcome) (o : WriteOutcome) : Handler → Deed
  | .close => .handleClose
  | .error => .handleError
  | .read => .handleRead r
  | .write => .handleWrite o

def ofFunctor (memory : Nat → UInt8) (o : WriteOutcome) : ConnFunctor → Deed
  | .sendInLoop data len => .sendInLoop (bytesAt memory data len) o
  | .sendString msg => .send msg o
  | .shutdownInLoop => .shutdownInLoop
  | .forceCloseInLoop => .forceCloseInLoop
  | .startReadInLoop => .startReadInLoop
  | .stopReadInLoop => .stopReadInLoop
  | .connectionDestroyed => .connectionDestroyed
  | .writeCompleteCallback => .idle
  | .highWaterMarkCallback _ => .idle

/-! ## The effect of a deed -/

/-- What a close that is not guarded by the caller notes. -/
def closing (c : TcpConnection) : List Notice :=
  TcpConnection.failure .handleClose c.isOpen ++ [.connectionCallback false, .closeCallback]

/-- The notices a deed adds. -/
def notices (c : TcpConnection) : Deed → List Notice
  | .call true .forceClose | .delayedClose =>
    if c.isOpen then [.connectionCallback false, .closeCallback] else []
  | .call _ .startRead => TcpConnection.failure .startRead (c.state == .kConnected)
  | .call _ .stopRead => TcpConnection.failure .stopRead (c.state == .kConnected)
  | .handleClose => closing c
  | .handleRead r => if r = .delivered [] then closing c else [.messageCallback]
  | .forceCloseInLoop =>
    TcpConnection.failure .forceCloseInLoop (c.state == .kDisconnecting) ++ closing c
  | .connectionDestroyed =>
    if c.isConnected then [.connectionCallback false, .removeChannel true]
    else [.removeChannel c.readWriteChannel.isNoneEvent]
  | _ => []

/-- The state after a deed. -/
def state (c : TcpConnection) : Deed → ConnState
  | .call _ .shutdown => if c.isConnected then .kDisconnecting else c.state
  | .call false .forceClose | .call _ .forceCloseWithDelay =>
    if c.isOpen then .kDisconnecting else c.state
  | .call true .forceClose | .delayedClose => if c.isOpen then .kDisconnected else c.state
  | .handleClose | .forceCloseInLoop => .kDisconnected
  | .handleRead r => if r = .delivered [] then .kDisconnected else c.state
  | .connectionDestroyed => if c.isConnected then .kDisconnected else c.state
  | _ => c.state

/-- The functors a deed may post. -/
def mayPost (c : TcpConnection) : Deed → ConnFunctor → Prop
  | .call false .shutdown, f => c.isConnected = true ∧ f = .shutdownInLoop
  | .call false .forceClose, f => c.isOpen = true ∧ f = .forceCloseInLoop
  | .call false .startRead, f => f = .startReadInLoop
  | .call false .stopRead, f => f = .stopReadInLoop
  | .sendFromOther data len, f => c.isConnected = true ∧ f = .sendInLoop data len
  | .sendBufferFromOther content, f => c.isConnected = true ∧ f = .sendString content
  | .send _ _, f | .sendInLoop _ _, f | .handleWrite _, f => f.isUserCallback = true
  | _, _ => False

/-- What `sendInLoop` asks of the channel. -/
def buffering (c : TcpConnection) (data : List UInt8) (o : WriteOutcome) : List InterestCall :=
  if (c.sendFails o = true ∨ data.length ≤ c.nwrote o) ∨ c.readWriteChannel.isWriting = true then []
  else [.enableWrite]

/-- The calls a deed makes on the channel. -/
def interest (c : TcpConnection) : Deed → List InterestCall
  | .startReadInLoop | .call true .startRead =>
    if !c.reading || !c.readWriteChannel.isReading then [.enableRead] else []
  | .stopReadInLoop | .call true .stopRead =>
    if c.reading || c.readWriteChannel.isReading then [.disableRead] else []
  | .sendInLoop data o => buffering c data o
  | .send data o => if c.isConnected then buffering c data o else []
  | .handleWrite o => if c.drains o then [.disableWrite] else []
  | .call true .forceClose | .delayedClose => if c.isOpen then [.disableAll] else []
  | .handleClose | .forceCloseInLoop => [.disableAll]
  | .handleRead r => if r = .delivered [] then [.disableAll] else []
  | .connectionDestroyed => if c.isConnected then [.disableAll] else []
  | _ => []

section Effects
variable (c : TcpConnection)

theorem handleRead_more {r : ReadOutcome} (more : r ≠ .delivered []) :
    ∃ input, c.handleRead r = { c with inputBuffer := input
                                       notices := c.notices ++ [.messageCallback] } := by
  cases r with
  | failed errno => exact ⟨_, rfl⟩
  | delivered bytes =>
    cases bytes with
    | nil => exact absurd rfl more
    | cons b rest => exact ⟨_, rfl⟩

theorem forceClose_other_of_open (isOpen : c.isOpen = true) :
    c.forceClose false = (c.setState .kDisconnecting).post false .forceCloseInLoop := by
  rw [TcpConnection.forceClose, if_pos isOpen]
  rfl

/-- Destroying a connection nobody has closed. -/
theorem connectionDestroyed_of_connected (connected : c.isConnected = true) :
    c.connectionDestroyed =
      { c with state := .kDisconnected
               readWriteChannel := c.readWriteChannel.disableAll.remove
               notices := c.notices ++ [.connectionCallback false, .removeChannel true] } := by
  have state : (c.state == .kConnected) = true := connected
  have none : c.readWriteChannel.disableAll.isNoneEvent = true := rfl
  simp [TcpConnection.connectionDestroyed, state, TcpConnection.setState, TcpConnection.onChannel,
    TcpConnection.callConnectionCallback, TcpConnection.notify, TcpConnection.isConnected, none]

theorem connectionDestroyed_of_not_connected (closing : c.isConnected = false) :
    c.connectionDestroyed =
      { c with readWriteChannel := c.readWriteChannel.remove
               notices := c.notices ++ [.removeChannel c.readWriteChannel.isNoneEvent] } := by
  have state : (c.state == .kConnected) = false := closing
  simp [TcpConnection.connectionDestroyed, state, TcpConnection.onChannel, TcpConnection.notify]

theorem handleRead_effect (r : ReadOutcome) :
    (c.handleRead r).state = (if r = .delivered [] then .kDisconnected else c.state) ∧
      (c.handleRead r).notices =
        c.notices ++ (if r = .delivered [] then closing c else [.messageCallback]) ∧
      (c.handleRead r).loop = c.loop := by
  by_cases eof : r = .delivered []
  · subst eof
    rw [c.handleRead_eof, c.handleClose_eq]
    exact ⟨rfl, rfl, rfl⟩
  · obtain ⟨input, h⟩ := handleRead_more c eof
    rw [h, if_neg eof, if_neg eof]
    exact ⟨rfl, rfl, rfl⟩

/-- A forced close in the loop thread, by a call or by a timer. -/
theorem forceClose_effect :
    (c.forceClose true).state = (if c.isOpen then .kDisconnected else c.state) ∧
      (c.forceClose true).notices =
        c.notices ++ (if c.isOpen then [.connectionCallback false, .closeCallback] else []) ∧
      (c.forceClose true).loop = c.loop := by
  cases isOpen : c.isOpen with
  | false =>
    rw [c.forceClose_of_closed isOpen]
    simp
  | true =>
    rw [c.forceClose_of_open isOpen]
    exact ⟨rfl, rfl, rfl⟩

theorem connectionDestroyed_effect :
    c.connectionDestroyed.state = (if c.isConnected then .kDisconnected else c.state) ∧
      c.connectionDestroyed.notices = c.notices ++ notices c .connectionDestroyed ∧
      c.connectionDestroyed.loop = c.loop := by
  cases connected : c.isConnected with
  | false =>
    rw [connectionDestroyed_of_not_connected c connected]
    simp [notices, connected]
  | true =>
    rw [connectionDestroyed_of_connected c connected]
    simp [notices, connected]

theorem sendInLoop_effect (data : List UInt8) (o : WriteOutcome) :
    (c.sendInLoop data o).state = c.state ∧ (c.sendInLoop data o).notices = c.notices ∧
      TcpConnection.CallbackPosted c.loop (c.sendInLoop data o).loop := by
  obtain ⟨loop, posts, h⟩ := c.sendInLoop_eq data o
  rw [h]
  split <;> exact ⟨rfl, rfl, posts⟩

theorem send_effect (data : List UInt8) (o : WriteOutcome) :
    (c.send data o).state = c.state ∧ (c.send data o).notices = c.notices ∧
      TcpConnection.CallbackPosted c.loop (c.send data o).loop := by
  unfold TcpConnection.send
  split
  · exact sendInLoop_effect c data o
  · exact ⟨rfl, rfl, .none⟩

theorem handleWrite_effect (o : WriteOutcome) :
    (c.handleWrite o).state = c.state ∧ (c.handleWrite o).notices = c.notices ∧
      TcpConnection.CallbackPosted c.loop (c.handleWrite o).loop := by
  obtain ⟨loop, channel, posts, -, h⟩ := c.handleWrite_eq o
  rw [h]
  exact ⟨rfl, rfl, posts⟩

/-- The three effects of a deed, in one place; `Effect` is read through its fields. -/
structure Effect (d : Deed) : Prop where
  state : (d.run c).state = d.state c
  notices : (d.run c).notices = c.notices ++ d.notices c
  posted : EventLoop.Posted (d.mayPost c) c.loop (d.run c).loop

theorem effect_of_same {d : Deed} (state : (d.run c).state = d.state c)
    (notices : (d.run c).notices = c.notices ++ d.notices c) (loop : (d.run c).loop = c.loop) :
    Effect c d := by
  refine ⟨state, notices, ?_⟩
  rw [loop]
  exact .none

/-- A deed that hands one functor to the loop. -/
theorem effect_of_post {d : Deed} {before : TcpConnection} {functor : ConnFunctor}
    (posts : d.run c = before.post false functor) (loop : before.loop = c.loop)
    (state : before.state = d.state c) (notices : before.notices = c.notices ++ d.notices c)
    (may : d.mayPost c functor) : Effect c d := by
  refine ⟨?_, ?_, ?_⟩
  · rw [posts]
    exact state
  · rw [posts]
    exact notices
  · rw [posts, ← loop]
    exact .one false may

theorem call_effect (inLoop : Bool) (asked : ConnCall) : Effect c (.call inLoop asked) := by
  cases asked with
  | shutdown =>
    cases connected : c.isConnected with
    | false =>
      have same := c.shutdown_of_not_connected connected inLoop
      apply effect_of_same <;> simp [run, ConnCall.run, state, notices, same, connected]
    | true =>
      have same := c.shutdown_of_connected connected inLoop
      cases inLoop with
      | true =>
        rw [if_pos rfl, TcpConnection.shutdownInLoop_eq] at same
        apply effect_of_same <;>
          simp [run, ConnCall.run, state, notices, same, connected, TcpConnection.setState]
      | false =>
        refine effect_of_post c same rfl ?_ ?_ ⟨connected, rfl⟩
        · simp [state, connected, TcpConnection.setState]
        · simp [notices, TcpConnection.setState]
  | forceClose =>
    cases inLoop with
    | true =>
      obtain ⟨state, notices, loop⟩ := forceClose_effect c
      exact effect_of_same c state notices loop
    | false =>
      cases isOpen : c.isOpen with
      | false =>
        have same := c.forceClose_of_closed isOpen false
        apply effect_of_same <;> simp [run, ConnCall.run, state, notices, same, isOpen]
      | true =>
        have same := forceClose_other_of_open c isOpen
        refine effect_of_post c same rfl ?_ ?_ ⟨isOpen, rfl⟩
        · simp [state, isOpen, TcpConnection.setState]
        · simp [notices, TcpConnection.setState]
  | forceCloseWithDelay =>
    cases isOpen : c.isOpen <;> apply effect_of_same <;>
      simp [run, ConnCall.run, state, notices, TcpConnection.forceCloseWithDelay, isOpen,
        TcpConnection.setState]
  | startRead =>
    cases inLoop with
    | true =>
      apply effect_of_same <;>
        simp only [run, ConnCall.run, state, notices, TcpConnection.startRead, c.assertAt_eq,
          TcpConnection.startReadInLoop, if_true] <;> split <;> rfl
    | false =>
      have posts : run c (.call false .startRead) =
          (c.assertAt .startRead (c.state == .kConnected)).post false .startReadInLoop := rfl
      rw [c.assertAt_eq] at posts
      exact effect_of_post c posts rfl rfl rfl rfl
  | stopRead =>
    cases inLoop with
    | true =>
      apply effect_of_same <;>
        simp only [run, ConnCall.run, state, notices, TcpConnection.stopRead, c.assertAt_eq,
          TcpConnection.stopReadInLoop, if_true] <;> split <;> rfl
    | false =>
      have posts : run c (.call false .stopRead) =
          (c.assertAt .stopRead (c.state == .kConnected)).post false .stopReadInLoop := rfl
      rw [c.assertAt_eq] at posts
      exact effect_of_post c posts rfl rfl rfl rfl

theorem effect (d : Deed) : Effect c d := by
  cases d with
  | idle => exact effect_of_same c rfl (by simp [run, notices]) rfl
  | call inLoop asked => exact call_effect c inLoop asked
  | send data o =>
    obtain ⟨state, notices, posts⟩ := send_effect c data o
    exact ⟨state, by simpa [Deed.notices, run] using notices, posts⟩
  | sendFromOther data len =>
    cases connected : c.isConnected with
    | false =>
      have same := c.sendFromOther_of_not_connected (by simp [connected]) data len
      apply effect_of_same <;> simp [run, state, notices, same]
    | true =>
      have same := c.sendFromOther_of_connected connected data len
      exact effect_of_post c same rfl rfl (by simp [notices]) ⟨connected, rfl⟩
  | sendBufferFromOther content =>
    cases connected : c.isConnected with
    | false =>
      have same : c.sendBufferFromOther content = c := if_neg (by simpa [TcpConnection.isConnected]
        using connected)
      apply effect_of_same <;> simp [run, state, notices, same]
    | true =>
      have same : c.sendBufferFromOther content = c.post false (.sendString content) :=
        if_pos connected
      exact effect_of_post c same rfl rfl (by simp [notices]) ⟨connected, rfl⟩
  | delayedClose =>
    obtain ⟨state, notices, loop⟩ := forceClose_effect c.timerExpired
    exact effect_of_same c state notices loop
  | handleClose =>
    apply effect_of_same <;> simp only [run, c.handleClose_eq] <;> rfl
  | handleError =>
    exact effect_of_same c rfl (by simp [run, notices, TcpConnection.handleError]) rfl
  | handleRead r =>
    obtain ⟨state, notices, loop⟩ := handleRead_effect c r
    exact effect_of_same c state notices loop
  | handleWrite o =>
    obtain ⟨state, notices, posts⟩ := handleWrite_effect c o
    exact ⟨state, by simpa [Deed.notices, run] using notices, posts⟩
  | sendInLoop data o =>
    obtain ⟨state, notices, posts⟩ := sendInLoop_effect c data o
    exact ⟨state, by simpa [Deed.notices, run] using notices, posts⟩
  | shutdownInLoop =>
    apply effect_of_same <;> simp [run, state, notices, c.shutdownInLoop_eq]
  | forceCloseInLoop =>
    apply effect_of_same <;> simp only [run, c.forceCloseInLoop_eq] <;> rfl
  | startReadInLoop =>
    apply effect_of_same <;> simp only [run, state, notices, TcpConnection.startReadInLoop] <;>
      split <;> simp [TcpConnection.onChannel]
  | stopReadInLoop =>
    apply effect_of_same <;> simp only [run, state, notices, TcpConnection.stopReadInLoop] <;>
      split <;> simp [TcpConnection.onChannel]
  | connectionDestroyed =>
    obtain ⟨state, notices, loop⟩ := connectionDestroyed_effect c
    exact effect_of_same c state notices loop

/-- Two channels that differ at most in being known to the poller. -/
def SameInterest (ch ch' : Channel) : Prop := ∃ inLoop, ch' = { ch with isInLoop := inLoop }

theorem SameInterest.refl (ch : Channel) : SameInterest ch ch := ⟨ch.isInLoop, rfl⟩

theorem sendInLoop_channel (data : List UInt8) (o : WriteOutcome) :
    (c.sendInLoop data o).readWriteChannel =
      (buffering c data o).foldl Channel.apply c.readWriteChannel := by
  obtain ⟨loop, -, h⟩ := c.sendInLoop_eq data o
  rw [h, buffering]
  by_cases kept : c.sendFails o = true ∨ data.length ≤ c.nwrote o
  · rw [if_pos kept, if_pos (.inl kept)]
    rfl
  · rw [if_neg kept]
    cases writing : c.readWriteChannel.isWriting with
    | true => simp [TcpConnection.wantWrite, writing]
    | false =>
      rw [if_neg (by simpa using kept)]
      simp [TcpConnection.wantWrite, writing, Channel.apply]

theorem outputDrained_channel :
    c.outputDrained.readWriteChannel = c.readWriteChannel.disableWrite := by
  obtain ⟨loop, -, h⟩ := c.outputDrained_eq
  rw [h]

theorem handleWrite_channel (o : WriteOutcome) :
    (c.handleWrite o).readWriteChannel =
      (if c.drains o then [.disableWrite] else []).foldl Channel.apply c.readWriteChannel := by
  cases o with
  | failed errno =>
    simp only [TcpConnection.handleWrite, TcpConnection.drains]
    split <;> rfl
  | accepted n =>
    cases writing : c.readWriteChannel.isWriting with
    | false => simp [TcpConnection.handleWrite, TcpConnection.drains, writing]
    | true =>
      by_cases some : 0 < n
      · by_cases drained : c.outputBuffer.length ≤ n
        · have drops : (c.outputBuffer.drop n).length = 0 := by simp; omega
          simp only [TcpConnection.handleWrite, TcpConnection.drains, writing, some, drained,
            TcpConnection.accept, if_true, drops, outputDrained_channel]
          rfl
        · have stays : (c.outputBuffer.drop n).length ≠ 0 := by simp; omega
          have kept : c.drains (.accepted n) = false := by simp [TcpConnection.drains, drained]
          simp only [TcpConnection.handleWrite, writing, if_true, if_pos some, kept]
          rw [if_neg (by simpa [TcpConnection.accept] using stays)]
          rfl
      · simp [TcpConnection.handleWrite, TcpConnection.drains, writing, some]

theorem call_channel (inLoop : Bool) (asked : ConnCall) :
    (asked.run inLoop c).readWriteChannel =
      (interest c (.call inLoop asked)).foldl Channel.apply c.readWriteChannel := by
  cases asked with
  | shutdown =>
    have same : interest c (.call inLoop .shutdown) = [] := by cases inLoop <;> rfl
    rw [same]
    cases connected : c.isConnected with
    | false => simp [ConnCall.run, c.shutdown_of_not_connected connected]
    | true =>
      cases inLoop <;> simp [ConnCall.run, c.shutdown_of_connected connected, TcpConnection.post,
        TcpConnection.setState, TcpConnection.shutdownInLoop_eq]
  | forceClose =>
    cases isOpen : c.isOpen with
    | false =>
      cases inLoop <;> simp [ConnCall.run, c.forceClose_of_closed isOpen, interest, isOpen]
    | true =>
      cases inLoop with
      | true => simp [ConnCall.run, c.forceClose_of_open isOpen, interest, isOpen, Channel.apply]
      | false => simp [ConnCall.run, forceClose_other_of_open c isOpen, interest,
          TcpConnection.post, TcpConnection.setState]
  | forceCloseWithDelay =>
    have same : interest c (.call inLoop .forceCloseWithDelay) = [] := by cases inLoop <;> rfl
    rw [same, ConnCall.run, TcpConnection.forceCloseWithDelay]
    split <;> rfl
  | startRead =>
    cases inLoop with
    | true =>
      simp only [ConnCall.run, TcpConnection.startRead, c.assertAt_eq, if_true,
        TcpConnection.startReadInLoop, interest]
      split <;> rfl
    | false =>
      simp [ConnCall.run, TcpConnection.startRead, c.assertAt_eq, TcpConnection.post, interest]
  | stopRead =>
    cases inLoop with
    | true =>
      simp only [ConnCall.run, TcpConnection.stopRead, c.assertAt_eq, if_true,
        TcpConnection.stopReadInLoop, interest]
      split <;> rfl
    | false =>
      simp [ConnCall.run, TcpConnection.stopRead, c.assertAt_eq, TcpConnection.post, interest]

/-- The channel after a deed, by the calls the deed makes. -/
theorem channel_effect (d : Deed) :
    SameInterest ((d.interest c).foldl Channel.apply c.readWriteChannel)
      (d.run c).readWriteChannel := by
  cases d with
  | idle | handleError => exact .refl _
  | call inLoop asked =>
    rw [run, call_channel]
    exact .refl _
  | send data o =>
    cases connected : c.isConnected with
    | false =>
      have same : c.send data o = c := if_neg (by simpa [TcpConnection.isConnected] using connected)
      simp only [run, same, interest, connected]
      exact .refl _
    | true =>
      have same : c.send data o = c.sendInLoop data o := if_pos connected
      simp only [run, same, interest, connected, sendInLoop_channel]
      exact .refl _
  | sendFromOther | sendBufferFromOther =>
    simp only [run, TcpConnection.sendFromOther, TcpConnection.sendBufferFromOther]
    split <;> exact .refl _
  | delayedClose =>
    have closes := call_channel c.timerExpired true .forceClose
    simp only [run, interest]
    exact ⟨_, closes⟩
  | handleClose | forceCloseInLoop =>
    simp only [run, c.handleClose_eq, c.forceCloseInLoop_eq]
    exact .refl _
  | handleRead r =>
    by_cases eof : r = .delivered []
    · simp only [run, eof, c.handleRead_eof, c.handleClose_eq]
      exact .refl _
    · obtain ⟨input, h⟩ := handleRead_more c eof
      simp only [run, h, interest, if_neg eof]
      exact .refl _
  | handleWrite o =>
    rw [run, handleWrite_channel]
    exact .refl _
  | sendInLoop data o =>
    rw [run, sendInLoop_channel]
    exact .refl _
  | shutdownInLoop =>
    rw [run, c.shutdownInLoop_eq]
    exact .refl _
  | startReadInLoop | stopReadInLoop =>
    simp only [run, TcpConnection.startReadInLoop, TcpConnection.stopReadInLoop, interest]
    split <;> exact .refl _
  | connectionDestroyed =>
    cases connected : c.isConnected with
    | false =>
      simp only [run, connectionDestroyed_of_not_connected c connected, interest, connected]
      exact ⟨false, rfl⟩
    | true =>
      simp only [run, connectionDestroyed_of_connected c connected, interest, connected]
      exact ⟨false, rfl⟩

end Effects
end Deed

namespace ServedConnection

/-- The member function an action runs. -/
def deed (w : ServedConnection) : Act → Deed
  | .call inLoop call => .call inLoop call
  | .send data o => .send data o
  | .otherSend data len => .sendFromOther data len
  | .otherSendBuffer content => .sendBufferFromOther content
  | .delayedClose => .delayedClose
  | .runHandler r o =>
    match w.handlers with
    | [] => .idle
    | handler :: _ => .ofHandler r o handler
  | .runFunctor o =>
    match w.conn.loop.functors with
    | [] => .idle
    | functor :: _ => .ofFunctor w.memory o functor
  | .overwrite _ _ | .poll _ _ | .advance _ | .handleEvent | .removeConnectionInLoop => .idle

/-- The functor an action takes from the queue. -/
def taken (w : ServedConnection) : Act → List ConnFunctor
  | .runFunctor _ => w.conn.loop.functors.take 1
  | _ => []

/-- The channel as `poll` leaves it. -/
def polled (w : ServedConnection) : Act → Channel
  | .poll _ (some revents) => w.conn.readWriteChannel.set_revents revents
  | _ => w.conn.readWriteChannel

/-- The connection when the member function starts, and when it has returned. -/
def ready (w : ServedConnection) (a : Act) (loop : EventLoop ConnFunctor) : TcpConnection :=
  { w.conn with loop := loop, readWriteChannel := w.polled a }

def done (w : ServedConnection) (a : Act) (loop : EventLoop ConnFunctor) : TcpConnection :=
  (w.deed a).run (w.ready a loop)

def activeAfter (w : ServedConnection) : Act → Bool
  | .poll _ (some _) => true
  | .handleEvent => false
  | _ => w.active

def handlersAfter (w : ServedConnection) : Act → List Handler
  | .handleEvent => w.conn.readWriteChannel.handleEvent true
  | .runHandler _ _ => w.handlers.tail
  | _ => w.handlers

/-- One step, as its deed; the server posts `connectionDestroyed` and counts removals
only after a `closeCallback_` or when a removal was waiting. -/
structure Performed (w : ServedConnection) (a : Act) (t : ServedConnection)
    (loop : EventLoop ConnFunctor) : Prop where
  queued : loop.Queued
  queue : w.conn.loop.queue = w.taken a ++ loop.queue
  conn : t.conn = { w.done a loop with loop := t.conn.loop }
  posted : EventLoop.Posted (· = .connectionDestroyed) (w.done a loop).loop t.conn.loop
  told : (t.conn.loop = (w.done a loop).loop ∧ t.removals = w.removals) ∨ 0 < w.removals ∨
    .closeCallback ∈ (w.deed a).notices w.conn
  active : t.active = w.activeAfter a
  handlers : t.handlers = w.handlersAfter a

section Steps
variable {w t : ServedConnection}

theorem polled_events (w : ServedConnection) (a : Act) :
    (w.polled a).events = w.conn.readWriteChannel.events := by
  unfold polled
  split <;> rfl

/-- What a deed notes does not depend on the queue, nor on what `poll` found. -/
theorem notices_ready (w : ServedConnection) (a : Act) (loop : EventLoop ConnFunctor) (d : Deed) :
    d.notices (w.ready a loop) = d.notices w.conn := by
  have none : (w.polled a).isNoneEvent = w.conn.readWriteChannel.isNoneEvent := by
    rw [Channel.isNoneEvent, Channel.isNoneEvent, w.polled_events]
  unfold Deed.notices
  simp only [ready, none]
  rfl

/-- A member function that runs through `onConn`, whatever the step did before. -/
theorem onConn_performed {v : ServedConnection} {a : Act} {loop : EventLoop ConnFunctor}
    (queued : loop.Queued) (queue : w.conn.loop.queue = w.taken a ++ loop.queue)
    (conn : v.conn = w.ready a loop) (removals : v.removals = w.removals)
    (active : v.active = w.activeAfter a) (handlers : v.handlers = w.handlersAfter a) :
    Performed w a (v.onConn fun c => (w.deed a).run c) loop := by
  have effect := Deed.effect (w.ready a loop) (w.deed a)
  by_cases closes : closeCallbacks v.conn < closeCallbacks ((w.deed a).run v.conn)
  · have told : .closeCallback ∈ (w.deed a).notices w.conn := by
      rw [conn, closeCallbacks, closeCallbacks, effect.notices, notices_ready,
        List.count_append] at closes
      exact List.count_pos_iff.mp (by omega)
    rw [v.onConn_of_closing closes, removeConnection]
    split
    · refine ⟨queued, queue, ?_, ?_, .inr (.inr told), active, handlers⟩
      · simp [removeConnectionInLoop, TcpConnection.post, done, conn]
      · rw [done, ← conn]
        exact .one v.sameLoop rfl
    · refine ⟨queued, queue, ?_, ?_, .inr (.inr told), active, handlers⟩
      · simp [done, conn]
      · rw [done, ← conn]
        exact .none
  · have same : v.onConn (fun c => (w.deed a).run c) = { v with conn := (w.deed a).run v.conn } :=
      if_neg closes
    rw [same]
    refine ⟨queued, queue, ?_, ?_, .inl ⟨?_, removals⟩, active, handlers⟩
    · simp [done, conn]
    · rw [done, ← conn]
      exact .none
    · simp [done, conn]

/-- A step that runs no member function. -/
theorem idle_performed {a : Act} (idle : w.deed a = .idle) (queued : t.conn.loop.Queued)
    (queue : w.conn.loop.queue = w.taken a ++ t.conn.loop.queue)
    (conn : t.conn = w.ready a t.conn.loop) (removals : t.removals = w.removals)
    (active : t.active = w.activeAfter a) (handlers : t.handlers = w.handlersAfter a) :
    Performed w a t t.conn.loop := by
  have same : w.done a t.conn.loop = w.ready a t.conn.loop := by rw [done, idle, Deed.run]
  refine ⟨queued, queue, ?_, ?_, .inl ⟨?_, removals⟩, active, handlers⟩
  · rw [same]
    exact conn
  · rw [same]
    exact .none
  · rw [same]
    rfl

/-- The functor at the head of the queue is the one that runs. -/
theorem execute_performed (o : WriteOutcome) {functor : ConnFunctor}
    {loop : EventLoop ConnFunctor} (first : w.conn.loop.functors.head? = some functor)
    (queued : loop.Queued) (queue : w.conn.loop.queue = functor :: loop.queue) :
    w.deed (.runFunctor o) = .ofFunctor w.memory o functor ∧
      Performed w (.runFunctor o)
        (execute { w with conn := { w.conn with loop := loop } } o functor) loop := by
  obtain ⟨rest, functors⟩ := List.head?_eq_some_iff.mp first
  have deed : w.deed (.runFunctor o) = .ofFunctor w.memory o functor := by
    simp [ServedConnection.deed, functors]
  have taken : w.conn.loop.queue = w.taken (.runFunctor o) ++ loop.queue := by
    rw [queue, ServedConnection.taken, functors]
    rfl
  refine ⟨deed, ?_⟩
  cases functor with
  | writeCompleteCallback | highWaterMarkCallback =>
    exact idle_performed (t := { w with conn := { w.conn with loop := loop } }) deed queued taken
      rfl rfl rfl rfl
  | sendInLoop data len =>
    have performed := onConn_performed (a := .runFunctor o) queued taken rfl
      (v := { w with conn := { w.conn with loop := loop }
                     handed := w.handed ++ [bytesAt w.memory data len] }) rfl rfl rfl
    rw [deed] at performed
    exact performed
  | sendString | shutdownInLoop | forceCloseInLoop | startReadInLoop | stopReadInLoop
  | connectionDestroyed =>
    have performed := onConn_performed (a := .runFunctor o) queued taken rfl
      (v := { w with conn := { w.conn with loop := loop } }) rfl rfl rfl
    rw [deed] at performed
    exact performed

theorem runFunctor_performed {o : WriteOutcome} (queued : w.conn.loop.Queued)
    (next : w.step (.runFunctor o) = some t) :
    ∃ functor loop, w.conn.loop.queue = functor :: loop.queue ∧
      w.deed (.runFunctor o) = .ofFunctor w.memory o functor ∧
      Performed w (.runFunctor o) t loop := by
  cases step_stepped queued next with
  | runFunctor _ functor loop first queued queue =>
    exact ⟨functor, loop, queue, execute_performed o first queued queue⟩

theorem handle_performed (r : ReadOutcome) (o : WriteOutcome) {handler : Handler}
    {rest : List Handler} (queued : w.conn.loop.Queued) (handlers : w.handlers = handler :: rest) :
    Performed w (.runHandler r o) (handle { w with handlers := rest } r o handler) w.conn.loop := by
  have deed : w.deed (.runHandler r o) = .ofHandler r o handler := by
    simp [ServedConnection.deed, handlers]
  have left : rest = w.handlersAfter (.runHandler r o) := by
    simp [handlersAfter, handlers]
  have performed := onConn_performed (a := .runHandler r o) (v := { w with handlers := rest })
    queued rfl rfl rfl rfl left
  rw [deed] at performed
  cases handler <;> exact performed

/-- Every step is the step of its deed. -/
theorem step_performed {a : Act} (queued : w.conn.loop.Queued) (next : w.step a = some t) :
    ∃ loop, Performed w a t loop := by
  cases step_stepped queued next with
  | call inLoop call _ =>
    exact ⟨_, onConn_performed (a := .call inLoop call) queued rfl rfl rfl rfl rfl⟩
  | send data o _ => exact ⟨_, onConn_performed (a := .send data o) queued rfl rfl rfl rfl rfl⟩
  | otherSend data len =>
    exact ⟨w.conn.loop, queued, rfl, rfl, .none, .inl ⟨rfl, rfl⟩, rfl, rfl⟩
  | otherSendBuffer content =>
    exact ⟨_, onConn_performed (a := .otherSendBuffer content) queued rfl rfl rfl rfl rfl⟩
  | overwrite data bytes =>
    exact ⟨_, idle_performed (a := .overwrite data bytes) rfl queued rfl rfl rfl rfl rfl⟩
  | delayedClose _ =>
    exact ⟨_, onConn_performed (a := .delayedClose) queued rfl rfl rfl rfl rfl⟩
  | poll wakeup loop hq same =>
    exact ⟨_, idle_performed (a := .poll wakeup none) rfl hq same.symm rfl rfl rfl rfl⟩
  | report wakeup revents _ loop hq same =>
    exact ⟨_, idle_performed (a := .poll wakeup (some revents)) rfl hq same.symm rfl rfl rfl rfl⟩
  | advance a _ loop hq same =>
    exact ⟨_, idle_performed (a := .advance a) rfl hq same.symm rfl rfl rfl rfl⟩
  | handleEvent _ =>
    exact ⟨_, idle_performed (a := .handleEvent) rfl queued rfl rfl rfl rfl rfl⟩
  | runHandler r o handler rest handlers => exact ⟨_, handle_performed r o queued handlers⟩
  | runFunctor o functor loop first hq queue =>
    exact ⟨loop, (execute_performed o first hq queue).2⟩
  | removeConnectionInLoop waiting =>
    exact ⟨w.conn.loop, queued, rfl, rfl, .one w.sameLoop rfl, .inr (.inl waiting), rfl, rfl⟩

section Performed
variable {a : Act} {loop : EventLoop ConnFunctor}

theorem Performed.state (p : Performed w a t loop) :
    t.conn.state = (w.deed a).state w.conn := by
  rw [p.conn]
  exact (Deed.effect _ _).state

theorem Performed.notices (p : Performed w a t loop) :
    t.conn.notices = w.conn.notices ++ (w.deed a).notices w.conn := by
  rw [p.conn, ← w.notices_ready a loop]
  exact (Deed.effect _ _).notices

theorem Performed.loop_queued (p : Performed w a t loop) : t.conn.loop.Queued :=
  p.posted.queued ((Deed.effect _ _).posted.queued p.queued)

/-- What a step adds to the queue. -/
theorem Performed.queue_after (p : Performed w a t loop) :
    ∃ added, t.conn.loop.queue = loop.queue ++ added ∧
      ∀ f ∈ added, (w.deed a).mayPost w.conn f ∨ f = .connectionDestroyed := by
  obtain ⟨own, queue, fromDeed⟩ := (Deed.effect (w.ready a loop) (w.deed a)).posted.queue
  obtain ⟨server, queue', fromServer⟩ := p.posted.queue
  refine ⟨own ++ server, ?_, ?_⟩
  · rw [queue', done, queue, List.append_assoc]
    rfl
  · intro f member
    rcases List.mem_append.mp member with member | member
    · exact .inl (fromDeed f member)
    · exact .inr (fromServer f member)

theorem Performed.rest_subset (p : Performed w a t loop) : loop.queue ⊆ w.conn.loop.queue := by
  rw [p.queue]
  exact List.subset_append_right _ _

end Performed

end Steps
end ServedConnection

namespace Deed

/-- A closed connection stays closed. -/
theorem state_of_disconnected {c : TcpConnection} (closed : c.state = .kDisconnected) (d : Deed) :
    d.state c = .kDisconnected := by
  have isOpen : c.isOpen = false := by simp [TcpConnection.isOpen, closed]
  have connected : c.isConnected = false := by simp [TcpConnection.isConnected, closed]
  unfold Deed.state
  simp only [isOpen, connected, closed]
  split <;> simp

/-- Nothing connects a connection again. -/
theorem connected_of_state {c : TcpConnection} {d : Deed} (after : d.state c = .kConnected) :
    c.state = .kConnected := by
  unfold Deed.state at after
  split at after <;> first | exact after | (split at after <;> first | exact after | cases after) |
    cases after

/-- A connection that says good-bye has just been closed. -/
theorem state_of_farewell {c : TcpConnection} {d : Deed} {notice : Notice}
    (farewell : notice = .connectionCallback false ∨ notice = .closeCallback)
    (told : notice ∈ d.notices c) : d.state c = .kDisconnected := by
  cases d with
  | call inLoop asked =>
    cases asked <;> cases inLoop <;> simp_all [notices, state, TcpConnection.failure]
  | delayedClose => simp_all [notices, state]
  | handleClose | forceCloseInLoop => rfl
  | handleRead r =>
    by_cases eof : r = .delivered []
    · simp [state, eof]
    · rcases farewell with rfl | rfl <;> simp [notices, eof] at told
  | connectionDestroyed =>
    simp only [notices] at told
    split at told
    · simp_all [state]
    · rcases farewell with rfl | rfl <;> simp at told
  | idle | send | sendFromOther | sendBufferFromOther | handleError | handleWrite | sendInLoop
  | shutdownInLoop | startReadInLoop | stopReadInLoop =>
    rcases farewell with rfl | rfl <;> cases told

/-- The DOWN callback is called by a connection that has just been closed. -/
theorem state_of_down {c : TcpConnection} {d : Deed}
    (down : .connectionCallback false ∈ d.notices c) : d.state c = .kDisconnected :=
  state_of_farewell (.inl rfl) down

/-- `closeCallback_` is called by a connection that has just been closed. -/
theorem state_of_closeCallback {c : TcpConnection} {d : Deed}
    (closes : .closeCallback ∈ d.notices c) : d.state c = .kDisconnected :=
  state_of_farewell (.inr rfl) closes

/-- Whatever closes a connection takes all its events. -/
theorem interest_of_closes {c : TcpConnection} {d : Deed} (before : c.state ≠ .kDisconnected)
    (after : d.state c = .kDisconnected) : d.interest c = [.disableAll] := by
  cases d with
  | call inLoop asked =>
    cases asked with
    | forceClose =>
      cases inLoop <;> simp only [state] at after <;> split at after
      · cases after
      · exact absurd after before
      · rename_i isOpen
        simp [interest, isOpen]
      · exact absurd after before
    | shutdown | forceCloseWithDelay =>
      simp only [state] at after
      split at after
      · cases after
      · exact absurd after before
    | startRead | stopRead => exact absurd after before
  | delayedClose | connectionDestroyed | handleRead =>
    simp only [state] at after
    split at after
    · rename_i closes
      simp [interest, closes]
    · exact absurd after before
  | handleClose | forceCloseInLoop => rfl
  | idle | send | sendFromOther | sendBufferFromOther | handleError | handleWrite | sendInLoop
  | shutdownInLoop | startReadInLoop | stopReadInLoop => exact absurd after before

end Deed
end Arale
