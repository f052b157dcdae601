import Arale.Net.Backpressure

/-!
# Sending a file piece by piece

`Download2.cc` and `Download3.cc` of `examples/simple/filetransfer`: a piece of the file is
sent when the connection comes up, the next one whenever the user is told that the last is
written. The pieces follow each other through a connection of the library on its loop. The
two servers differ in what they keep in the context: a plain `FILE *`, or a shared pointer
that closes the file.
-/

namespace Arale

open Schedules Backpressure

namespace Download

def kBufsize : Nat := 64 * 1024

inductive Server where
  | download2
  | download3
  deriving DecidableEq, Repr

/-- What the context of the connection holds: nothing, an open file, a file that has been
closed, or the null pointer that stands for a finished one. -/
inductive Context where
  | empty
  | opened
  | closed
  | null
  deriving DecidableEq, Repr

/-- `unread` is the file from the position of the stream on. Histories: the bytes handed to
`sendInLoop`, and whether a closed or null `FILE *` has been read from. -/
structure Transfer where
  conn : TcpConnection
  context : Context
  unread : List UInt8
  sent : List UInt8
  misused : Bool

/-- `fread` of a full buffer and `conn->send(buf, nread)`. -/
def sendPiece (t : Transfer) (o : WriteOutcome) : Transfer :=
  { t with
    conn := t.conn.send (t.unread.take kBufsize) o
    unread := t.unread.drop kBufsize
    sent := if t.conn.isConnected then t.sent ++ t.unread.take kBufsize else t.sent }

/-- `onConnection`, UP; `file` is what `fopen` opens. -/
def onConnectionUp (conn : TcpConnection) (file : Option (List UInt8)) (o : WriteOutcome) :
    Transfer :=
  match file with
  | some content => sendPiece ⟨conn, .opened, content, [], false⟩ o
  | none => ⟨conn.shutdown true, .empty, [], [], false⟩

/-- `onConnection`, DOWN: only `Download2.cc` closes the file here, and leaves the context. -/
def onConnectionDown (server : Server) (t : Transfer) : Transfer :=
  match server, t.context with
  | .download2, .opened => { t with context := .closed }
  | _, _ => t

def onWriteComplete (server : Server) (t : Transfer) (o : WriteOutcome) : Transfer :=
  match t.context with
  | .empty => t
  | .opened =>
    if (t.unread.take kBufsize).length > 0 then sendPiece t o
    else
      match server with
      | .download2 => { t with context := .null, conn := t.conn.shutdown true }
      | .download3 => { t with conn := t.conn.shutdown true }
  | .closed => { t with misused := true }
  | .null => { t with misused := true }

inductive Act where
  /-- whatever the loop does apart from running functors -/
  | loopActs (a : EventLoop.Act ConnFunctor)
  | runFunctor (o : WriteOutcome)
  | handleWrite (o : WriteOutcome)
  /-- `handleRead`; the default message callback drops what it reads -/
  | handleRead (r : ReadOutcome)

/-- A closed connection is not read any more; its loop goes on. -/
def step (server : Server) (t : Transfer) : Act → Option Transfer
  | .loopActs a =>
    if a.silent = true then
      (t.conn.loop.step a).map fun loop => { t with conn := { t.conn with loop := loop } }
    else none
  | .runFunctor o =>
    match t.conn.loop.functors, t.conn.loop.step .runFunctor with
    | functor :: _, some loop =>
      let t := { t with conn := { t.conn with loop := loop } }
      if o.Possible (t.unread.take kBufsize).length then
        if functor = .writeCompleteCallback then some (onWriteComplete server t o) else some t
      else none
    | _, _ => none
  | .handleWrite o =>
    if t.conn.loop.phase = .handling ∧ o.Possible t.conn.outputBuffer.length then
      some { t with conn := t.conn.handleWrite o }
    else none
  | .handleRead r =>
    if t.conn.loop.phase = .handling ∧ t.conn.state ≠ .kDisconnected then
      let t := { t with conn := t.conn.handleRead r }
      if r = .delivered [] then some (onConnectionDown server t)
      else some { t with conn := { t.conn with inputBuffer := [] } }
    else none

/-- The options of the server: `onConnection` sets the mark, `main` the write callback. -/
def options : ConnOptions := ⟨kBufsize + 1, true, true⟩

/-- A connection that has come up. -/
def start (loop : EventLoop ConnFunctor) (sockfd : Int) (file : Option (List UInt8))
    (o : WriteOutcome) : Transfer :=
  onConnectionUp (.established loop sockfd options) file o

/-! ## What one call does to the connection -/

/-- Completions that wait in the loop, and one to come while bytes are buffered. -/
def outstanding (c : TcpConnection) : Nat := c.loop.queue.length + if 0 < backlog c then 1 else 0

/-- How a piece may be received. -/
inductive Sent (c d : TcpConnection) (size : Nat) : Prop where
  | written (queue : d.loop.queue = c.loop.queue ++ [.writeCompleteCallback])
    (empty : backlog d = 0) (all : d.accepted.length = c.accepted.length + size)
  | buffered (queue : d.loop.queue = c.loop.queue) (waits : 0 < backlog d)
    (small : backlog d ≤ size) (all : d.accepted.length + backlog d = c.accepted.length + size)
  | refused (queue : d.loop.queue = c.loop.queue) (empty : backlog d = 0)
    (none : d.accepted.length = c.accepted.length)

/-- The state, the settings and the soundness of the loop are kept. -/
structure Settled (c d : TcpConnection) : Prop where
  state : d.state = c.state
  complete : d.writeCompleteCallback = c.writeCompleteCallback
  mark : d.highWaterMark = c.highWaterMark
  queued : c.loop.Queued → d.loop.Queued

/-- What a read leaves alone. -/
structure Kept (c d : TcpConnection) (r : ReadOutcome) : Prop where
  loop : d.loop = c.loop
  complete : d.writeCompleteCallback = c.writeCompleteCallback
  mark : d.highWaterMark = c.highWaterMark
  output : d.outputBuffer = c.outputBuffer
  accepted : d.accepted = c.accepted
  closes : r = .delivered [] → d.state = .kDisconnected ∧ d.readWriteChannel.isWriting = false
  stays : r ≠ .delivered [] → d.state = c.state ∧ d.readWriteChannel = c.readWriteChannel

section Calls
variable {c : TcpConnection}

theorem backlog_of_outstanding (zero : outstanding c = 0) : backlog c = 0 := by
  by_contra waits
  rw [outstanding, if_pos (Nat.pos_of_ne_zero waits)] at zero
  omega

/-- Below the mark only a completion is announced. -/
theorem notices_of_low (complete : c.writeCompleteCallback = true) {a : Backpressure.Act}
    (low : backlog (perform c a) < c.highWaterMark) :
    notices c a = if Completes c a then [.writeCompleteCallback] else [] := by
  have below : ¬ (c.highWaterMarkCallback = true ∧ backlog c < c.highWaterMark ∧
      c.highWaterMark ≤ backlog (perform c a)) := fun reached => by omega
  rw [notices, if_neg below, List.append_nil]
  simp only [complete, true_and]

theorem nwrote_of_not_completes (connected : c.isConnected = true) {data : List UInt8}
    {o : WriteOutcome} (possible : o.Possible data.length) (gone : c.sendFails o = true ∨
      data.length ≤ c.nwrote o) (short : ¬ Completes c (.send data o)) :
    (data.take (c.nwrote o)).length = 0 := by
  cases direct : c.sendsDirectly with
  | false => simp [TcpConnection.nwrote, direct]
  | true =>
    cases o with
    | failed errno => simp [TcpConnection.nwrote, direct]
    | accepted n =>
      have le : n ≤ data.length := possible
      have fine : c.sendFails (.accepted n) = false := by
        simp [TcpConnection.sendFails, WriteOutcome.peerGone]
      have written : c.nwrote (.accepted n) = n := by simp [TcpConnection.nwrote, direct]
      rw [fine, written] at gone
      have all : n = data.length := by
        rcases gone with gone | gone
        · cases gone
        · omega
      exact absurd ⟨connected, direct, congrArg _ all⟩ short

theorem send_sent (connected : c.isConnected = true) (complete : c.writeCompleteCallback = true)
    (empty : backlog c = 0) {data : List UInt8} (fits : data.length < c.highWaterMark)
    {o : WriteOutcome} (possible : o.Possible data.length) :
    Settled c (c.send data o) ∧ Sent c (c.send data o) data.length := by
  have sends : c.send data o = c.sendInLoop data o := if_pos connected
  have announced (low : backlog (c.send data o) < c.highWaterMark) :
      (c.send data o).loop.queue = c.loop.queue ++
        if Completes c (.send data o) then [.writeCompleteCallback] else [] := by
    rw [← @notices_of_low c complete (.send data o) low, sends]
    exact sendInLoop_notices connected possible
  obtain ⟨loop, posted, same⟩ := c.sendInLoop_eq data o
  by_cases gone : c.sendFails o = true ∨ data.length ≤ c.nwrote o
  · rw [if_pos gone] at same
    have after : backlog (c.send data o) = 0 := by
      rw [sends, same]
      exact empty
    have queue := announced (by omega)
    have taken : (c.send data o).accepted.length =
        c.accepted.length + (data.take (c.nwrote o)).length := by
      rw [sends, same]
      exact List.length_append
    refine ⟨?_, ?_⟩
    · rw [sends, same]
      exact ⟨rfl, rfl, rfl, posted.queued⟩
    · by_cases completes : Completes c (.send data o)
      · rw [if_pos completes] at queue
        obtain ⟨-, direct, rfl⟩ := completes
        have all : c.nwrote (.accepted data.length) = data.length := by
          simp [TcpConnection.nwrote, direct]
        rw [all, List.take_length] at taken
        exact .written queue after taken
      · rw [if_neg completes, List.append_nil] at queue
        rw [nwrote_of_not_completes connected possible gone completes] at taken
        exact .refused queue after taken
  · rw [if_neg gone] at same
    obtain ⟨-, more⟩ := not_or.mp gone
    have waits : backlog (c.send data o) = data.length - c.nwrote o := by
      have none : c.outputBuffer = [] := List.length_eq_zero_iff.mp empty
      rw [sends, same]
      simp only [backlog, none, List.nil_append, List.length_take]
      omega
    have short : ¬ Completes c (.send data o) := by
      rintro ⟨-, direct, rfl⟩
      apply more
      simp [TcpConnection.nwrote, direct]
    have queue := announced (by omega)
    rw [if_neg short, List.append_nil] at queue
    have taken : (c.send data o).accepted.length = c.accepted.length + c.nwrote o := by
      rw [sends, same]
      simp only [List.length_append, List.length_take]
      omega
    refine ⟨?_, .buffered queue (by omega) (by omega) (by omega)⟩
    rw [sends, same]
    exact ⟨rfl, rfl, rfl, posted.queued⟩

theorem Sent.outstanding {d : TcpConnection} {size : Nat} (sent : Sent c d size)
    (idle : c.loop.queue = []) :
    (∀ f ∈ d.loop.queue, f = .writeCompleteCallback) ∧ backlog d ≤ size ∧
      (Download.outstanding d = 1 ∧
          d.accepted.length + backlog d = c.accepted.length + size ∨
        Download.outstanding d = 0 ∧ d.accepted.length = c.accepted.length) := by
  cases sent with
  | written queue empty all =>
    rw [idle] at queue
    simp [Download.outstanding, queue, empty, all]
  | buffered queue waits small all =>
    rw [idle] at queue
    simp [Download.outstanding, queue, waits, small, all]
  | refused queue empty none =>
    rw [idle] at queue
    simp [Download.outstanding, queue, empty, none]

/-- Writing from the buffer moves bytes, and one completion when the last of them goes. -/
theorem handleWrite_sent (complete : c.writeCompleteCallback = true)
    (low : backlog c < c.highWaterMark) {o : WriteOutcome}
    (possible : o.Possible c.outputBuffer.length) :
    Settled c (c.handleWrite o) ∧
      (c.handleWrite o).accepted.length + backlog (c.handleWrite o) =
        c.accepted.length + backlog c ∧ backlog (c.handleWrite o) ≤ backlog c ∧
      (c.handleWrite o).loop.queue = c.loop.queue ++
        if 0 < backlog c ∧ backlog (c.handleWrite o) = 0 then [.writeCompleteCallback] else [] := by
  obtain ⟨loop, channel, posted, -, same⟩ := c.handleWrite_eq o
  have size : backlog (c.handleWrite o) = backlog c - c.flushed o := by
    rw [same]
    exact List.length_drop
  have taken : (c.handleWrite o).accepted.length =
      c.accepted.length + min (c.flushed o) (backlog c) := by
    rw [same]
    simp [backlog]
  refine ⟨?_, by omega, by omega, ?_⟩
  · rw [same]
    exact ⟨rfl, rfl, rfl, posted.queued⟩
  · rw [handleWrite_notices possible, notices_of_low complete]
    · rfl
    · exact Nat.lt_of_le_of_lt (size ▸ Nat.sub_le _ _) low

theorem handleRead_kept (c : TcpConnection) (r : ReadOutcome) : Kept c (c.handleRead r) r := by
  have message (bytes : List UInt8) (more : r ≠ .delivered []) (read : c.handleRead r =
      TcpConnection.notify { c with inputBuffer := c.inputBuffer ++ bytes } .messageCallback) :
      Kept c (c.handleRead r) r := by
    rw [read]
    exact ⟨rfl, rfl, rfl, rfl, rfl, fun eof => absurd eof more, fun _ => ⟨rfl, rfl⟩⟩
  cases r with
  | failed errno =>
    refine message [] (by simp) ?_
    simp [TcpConnection.handleRead, TcpConnection.readInput]
  | delivered bytes =>
    cases bytes with
    | nil =>
      rw [c.handleRead_eof, c.handleClose_eq]
      exact ⟨rfl, rfl, rfl, rfl, rfl, fun _ => ⟨rfl, by simp⟩, fun more => absurd rfl more⟩
    | cons byte bytes =>
      refine message (byte :: bytes) (by simp) ?_
      simp [TcpConnection.handleRead, TcpConnection.readInput]

end Calls

/-! ## The transfer -/

/-- What holds whatever the state of the connection is. -/
structure Sound (file : List UInt8) (t : Transfer) : Prop where
  queued : t.conn.loop.Queued
  complete : t.conn.writeCompleteCallback = true
  mark : t.conn.highWaterMark = kBufsize + 1
  only : ∀ f ∈ t.conn.loop.queue, f = .writeCompleteCallback
  small : backlog t.conn ≤ kBufsize
  before : t.sent <+: file

/-- Either one completion is outstanding and nothing is lost, or the socket has refused the
last piece. -/
structure Sending (file : List UInt8) (t : Transfer) : Prop extends Sound file t where
  atMostOne : outstanding t.conn ≤ 1
  connected : t.conn.state = .kConnected → t.context = .opened ∧ t.sent ++ t.unread = file ∧
    (outstanding t.conn = 1 ∧ t.conn.accepted.length + backlog t.conn = t.sent.length ∨
      outstanding t.conn = 0 ∧ (t.conn.accepted.length < t.sent.length ∨ file = []))
  finished : t.conn.state = .kDisconnecting →
    outstanding t.conn = 0 ∧ t.sent = file ∧ t.conn.accepted.length = file.length

/-- Everything sent has been written, and the next piece is due. -/
structure Due (file : List UInt8) (t : Transfer) : Prop extends Sound file t where
  idle : t.conn.loop.queue = []
  empty : backlog t.conn = 0
  connected : t.conn.state = .kConnected →
    t.context = .opened ∧ t.sent ++ t.unread = file ∧ t.conn.accepted.length = t.sent.length
  notFinished : t.conn.state ≠ .kDisconnecting

section Transfers
variable {server : Server} {file : List UInt8} {t t' : Transfer}

theorem Due.outstanding (h : Due file t) : outstanding t.conn = 0 := by
  simp [Download.outstanding, h.idle, h.empty]

/-- Nothing is sent once the connection is closed. -/
theorem Due.sending (h : Due file t) (closed : t.conn.state ≠ .kConnected)
    (conn : t'.conn = t.conn) (sent : t'.sent = t.sent) : Sending file t' := by
  have zero : Download.outstanding t'.conn = 0 := conn ▸ h.outstanding
  refine ⟨⟨?_, ?_, ?_, ?_, ?_, sent ▸ h.before⟩, ?_, ?_, ?_⟩
  · exact conn ▸ h.queued
  · exact conn ▸ h.complete
  · exact conn ▸ h.mark
  · exact conn ▸ h.only
  · exact conn ▸ h.small
  · exact Nat.le_trans (Nat.le_of_eq zero) (Nat.zero_le 1)
  · exact fun on => absurd (conn ▸ on) closed
  · exact fun finished => absurd (conn ▸ finished) h.notFinished

theorem sendPiece_sending (h : Due file t) (some : 0 < (t.unread.take kBufsize).length ∨ file = [])
    {o : WriteOutcome} (possible : o.Possible (t.unread.take kBufsize).length) :
    Sending file (sendPiece t o) := by
  by_cases connected : t.conn.state = .kConnected
  · have on : t.conn.isConnected = true := by simp [TcpConnection.isConnected, connected]
    obtain ⟨opened, split, all⟩ := h.connected connected
    have size : (t.unread.take kBufsize).length ≤ kBufsize := List.length_take_le _ _
    have mark := h.mark
    obtain ⟨settled, sent⟩ := send_sent on h.complete h.empty (by omega) possible
    obtain ⟨only, small, outcome⟩ := sent.outstanding h.idle
    have now : (sendPiece t o).sent = t.sent ++ t.unread.take kBufsize := if_pos on
    have whole : (sendPiece t o).sent ++ (sendPiece t o).unread = file := by
      rw [now, List.append_assoc, ← split]
      exact congrArg _ (List.take_append_drop _ _)
    have length : (sendPiece t o).sent.length =
        t.conn.accepted.length + (t.unread.take kBufsize).length := by
      rw [now, all, List.length_append]
    refine ⟨⟨settled.queued h.queued, settled.complete.trans h.complete,
      settled.mark.trans h.mark, only, Nat.le_trans small size, ⟨_, whole⟩⟩, ?_,
      fun _ => ⟨opened, whole, ?_⟩, fun finished => ?_⟩
    · rcases outcome with ⟨one, -⟩ | ⟨zero, -⟩
      · exact Nat.le_of_eq one
      · exact Nat.le_trans (Nat.le_of_eq zero) (Nat.zero_le 1)
    · rw [length]
      refine outcome.imp_right fun refused => ⟨refused.1, some.imp_left fun some => ?_⟩
      exact Nat.lt_of_le_of_lt (Nat.le_of_eq refused.2) (Nat.lt_add_of_pos_right some)
    · exact absurd (settled.state.symm.trans finished) h.notFinished
  · have off : t.conn.isConnected = false := by simp [TcpConnection.isConnected, connected]
    have keeps : t.conn.send (t.unread.take kBufsize) o = t.conn := by
      simp [TcpConnection.send, connected]
    have same : sendPiece t o = { t with unread := t.unread.drop kBufsize } := by
      simp [sendPiece, keeps, off]
    rw [same]
    exact h.sending connected rfl rfl

/-- `shutdown()` of a connection of which everything is written. -/
theorem shutdown_sending (h : Due file t) (rest : t.unread = []) (context : Context) :
    Sending file { t with context := context, conn := t.conn.shutdown true } := by
  by_cases connected : t.conn.state = .kConnected
  · have on : t.conn.isConnected = true := by simp [TcpConnection.isConnected, connected]
    obtain ⟨-, split, all⟩ := h.connected connected
    rw [rest, List.append_nil] at split
    have same : t.conn.shutdown true = { t.conn with
        state := .kDisconnecting
        halfCloses := if t.conn.readWriteChannel.isWriting then t.conn.halfCloses
          else t.conn.halfCloses ++ [t.conn.outputBuffer.length] } := by
      rw [t.conn.shutdown_of_connected on, if_pos rfl, TcpConnection.shutdownInLoop_eq]
      rfl
    rw [same]
    refine ⟨⟨h.queued, h.complete, h.mark, h.only, h.small, h.before⟩, ?_, ?_, fun _ => ?_⟩
    · exact Nat.le_trans (Nat.le_of_eq h.outstanding) (Nat.zero_le 1)
    · intro on
      cases on
    · exact ⟨h.outstanding, split, by rw [← split]; exact all⟩
  · have off : t.conn.isConnected = false := by simp [TcpConnection.isConnected, connected]
    rw [t.conn.shutdown_of_not_connected off]
    exact h.sending connected rfl rfl

theorem onWriteComplete_sending (h : Due file t) {o : WriteOutcome}
    (possible : o.Possible (t.unread.take kBufsize).length) :
    Sending file (onWriteComplete server t o) := by
  have unopened (other : t.context ≠ .opened) : t.conn.state ≠ .kConnected :=
    fun connected => other (h.connected connected).1
  cases context : t.context with
  | empty =>
    simp only [onWriteComplete, context]
    exact h.sending (unopened (by simp [context])) rfl rfl
  | opened =>
    by_cases some : 0 < (t.unread.take kBufsize).length
    · simp only [onWriteComplete, context, if_pos some]
      exact sendPiece_sending h (Or.inl some) possible
    · have rest : t.unread = [] := by
        cases unread : t.unread with
        | nil => rfl
        | cons byte bytes => simp [unread, kBufsize] at some
      simp only [onWriteComplete, context, if_neg some]
      cases server with
      | download2 => exact shutdown_sending h rest .null
      | download3 =>
        have kept := shutdown_sending h rest t.context
        exact context ▸ kept
  | closed | null =>
    simp only [onWriteComplete, context]
    exact h.sending (unopened (by simp [context])) rfl rfl

/-- The loop takes the completion out of its queue. -/
theorem due_of_runFunctor (h : Sending file t) {functor : ConnFunctor} {rest : List ConnFunctor}
    (first : t.conn.loop.functors = functor :: rest) {loop : EventLoop ConnFunctor}
    (next : t.conn.loop.step .runFunctor = some loop) :
    functor = .writeCompleteCallback ∧
      Due file { t with conn := { t.conn with loop := loop } } := by
  obtain ⟨f, head, queue⟩ := EventLoop.queue_runFunctor next
  rw [first] at head
  cases head
  have one := h.atMostOne
  rw [outstanding, queue, List.length_cons] at one
  have idle : loop.queue = [] := List.length_eq_zero_iff.mp (by omega)
  have empty : backlog t.conn = 0 := by
    by_contra waits
    rw [if_pos (Nat.pos_of_ne_zero waits)] at one
    omega
  have now : outstanding t.conn = 1 := by
    rw [outstanding, queue, idle, empty]
    rfl
  refine ⟨h.only _ (queue ▸ List.mem_cons_self), ⟨⟨EventLoop.step_queued h.queued next, h.complete,
    h.mark, ?_, h.small, h.before⟩, idle, empty, fun connected => ?_, fun finished => ?_⟩⟩
  · intro f here
    rw [show ({ t.conn with loop := loop } : TcpConnection).loop.queue = [] from idle] at here
    cases here
  · obtain ⟨opened, split, written | refused⟩ := h.connected connected
    · rw [empty] at written
      exact ⟨opened, split, written.2⟩
    · omega
  · have zero := (h.finished finished).1
    omega

/-- The loop acts silently, or a read leaves the output alone: a connection that is not
connected any more than before keeps what it has. -/
theorem Sending.of_frame (h : Sending file t) {c : TcpConnection} (queued : c.loop.Queued)
    (queue : c.loop.queue = t.conn.loop.queue)
    (complete : c.writeCompleteCallback = t.conn.writeCompleteCallback)
    (mark : c.highWaterMark = t.conn.highWaterMark)
    (output : c.outputBuffer = t.conn.outputBuffer) (accepted : c.accepted = t.conn.accepted)
    (state : c.state = t.conn.state ∨ c.state = .kDisconnected) {context : Context}
    (kept : c.state = .kConnected → context = t.context) :
    Sending file { t with conn := c, context := context } := by
  have size : backlog c = backlog t.conn := congrArg List.length output
  have same : outstanding c = outstanding t.conn := by rw [outstanding, queue, size, outstanding]
  refine ⟨⟨queued, complete.trans h.complete, mark.trans h.mark, queue ▸ h.only,
    size ▸ h.small, h.before⟩, same ▸ h.atMostOne, fun on => ?_, fun finished => ?_⟩
  · rcases state with state | closed
    · obtain ⟨opened, split, outcome⟩ := h.connected (state ▸ on)
      exact ⟨(kept on).trans opened, split, by rw [same, size, accepted]; exact outcome⟩
    · rw [closed] at on
      cases on
  · rcases state with state | closed
    · obtain ⟨zero, whole, all⟩ := h.finished (state ▸ finished)
      exact ⟨same.trans zero, whole, by rw [accepted]; exact all⟩
    · rw [closed] at finished
      cases finished

theorem outstanding_handleWrite (h : Sound file t) {o : WriteOutcome}
    (possible : o.Possible t.conn.outputBuffer.length) :
    outstanding (t.conn.handleWrite o) = outstanding t.conn := by
  have low : backlog t.conn < t.conn.highWaterMark := by
    rw [h.mark]
    exact Nat.lt_succ_of_le h.small
  obtain ⟨-, -, shrinks, queue⟩ := handleWrite_sent h.complete low possible
  rw [outstanding, queue, List.length_append, outstanding]
  split <;> split <;> split <;> simp <;> omega

theorem handleWrite_sending (h : Sending file t) {o : WriteOutcome}
    (possible : o.Possible t.conn.outputBuffer.length) :
    Sending file { t with conn := t.conn.handleWrite o } := by
  have low : backlog t.conn < t.conn.highWaterMark := by
    rw [h.mark]
    exact Nat.lt_succ_of_le h.small
  obtain ⟨settled, all, shrinks, queue⟩ := handleWrite_sent h.complete low possible
  have same := outstanding_handleWrite h.toSound possible
  have taken (empty : backlog t.conn = 0) :
      (t.conn.handleWrite o).accepted.length = t.conn.accepted.length := by omega
  refine ⟨⟨settled.queued h.queued, settled.complete.trans h.complete,
    settled.mark.trans h.mark, ?_, Nat.le_trans shrinks h.small, h.before⟩,
    same ▸ h.atMostOne, fun on => ?_, fun finished => ?_⟩
  · intro f here
    rw [queue, List.mem_append] at here
    rcases here with here | here
    · exact h.only f here
    · split at here
      · exact List.mem_singleton.mp here
      · cases here
  · obtain ⟨opened, split, outcome⟩ := h.connected (settled.state ▸ on)
    refine ⟨opened, split, ?_⟩
    rw [same, all]
    refine outcome.imp_right fun refused => ⟨refused.1, refused.2.imp_left fun short => ?_⟩
    exact Nat.lt_of_le_of_lt (Nat.le_of_eq (taken (backlog_of_outstanding refused.1))) short
  · obtain ⟨zero, whole, written⟩ := h.finished (settled.state ▸ finished)
    exact ⟨same.trans zero, whole, (taken (backlog_of_outstanding zero)).trans written⟩

/-- What one step can be. -/
inductive Takes (server : Server) (t : Transfer) : Act → Transfer → Prop where
  | loopActs {a : EventLoop.Act ConnFunctor} {loop : EventLoop ConnFunctor}
    (silent : a.silent = true) (moves : t.conn.loop.step a = some loop) :
    Takes server t (.loopActs a) { t with conn := { t.conn with loop := loop } }
  | runFunctor {functor : ConnFunctor} {rest : List ConnFunctor} {loop : EventLoop ConnFunctor}
    {o : WriteOutcome} (first : t.conn.loop.functors = functor :: rest)
    (moves : t.conn.loop.step .runFunctor = some loop)
    (possible : o.Possible (t.unread.take kBufsize).length) :
    Takes server t (.runFunctor o) (if functor = .writeCompleteCallback then
        onWriteComplete server { t with conn := { t.conn with loop := loop } } o
      else { t with conn := { t.conn with loop := loop } })
  | handleWrite {o : WriteOutcome} (possible : o.Possible t.conn.outputBuffer.length) :
    Takes server t (.handleWrite o) { t with conn := t.conn.handleWrite o }
  | closes (live : t.conn.state ≠ .kDisconnected) :
    Takes server t (.handleRead (.delivered []))
      (onConnectionDown server { t with conn := t.conn.handleRead (.delivered []) })
  | reads {r : ReadOutcome} (more : r ≠ .delivered []) :
    Takes server t (.handleRead r)
      { t with conn := { t.conn.handleRead r with inputBuffer := [] } }

theorem takes_of_step {a : Act} (next : step server t a = some t') : Takes server t a t' := by
  cases a with
  | loopActs a =>
    simp only [step] at next
    split at next
    · rename_i silent
      obtain ⟨loop, moves, rfl⟩ := Option.map_eq_some_iff.mp next
      exact .loopActs silent moves
    · cases next
  | runFunctor o =>
    simp only [step] at next
    split at next
    · rename_i functor rest loop first moves
      split at next
      · rename_i possible
        rw [← apply_ite some] at next
        cases next
        exact .runFunctor first moves possible
      · cases next
    · cases next
  | handleWrite o =>
    simp only [step] at next
    split at next
    · rename_i possible
      cases next
      exact .handleWrite possible.2
    · cases next
  | handleRead r =>
    simp only [step] at next
    split at next
    · rename_i live
      split at next
      · rename_i eof
        subst eof
        cases next
        exact .closes live.2
      · rename_i more
        cases next
        exact .reads more
    · cases next

/-- The handler of the close changes the context only. -/
theorem onConnectionDown_eq (server : Server) (t : Transfer) : onConnectionDown server t =
    { t with context :=
        if server = .download2 ∧ t.context = .opened then .closed else t.context } := by
  cases t with
  | mk conn context unread sent misused => cases server <;> cases context <;> rfl

theorem Sending.step (h : Sending file t) {a : Act} (next : step server t a = some t') :
    Sending file t' := by
  cases takes_of_step next with
  | @loopActs _ loop silent moves =>
    exact h.of_frame (c := { t.conn with loop := loop }) (EventLoop.step_queued h.queued moves)
      (EventLoop.step_queue_of_silent h.queued silent moves) rfl rfl rfl rfl (Or.inl rfl)
      fun _ => rfl
  | runFunctor first moves possible =>
    obtain ⟨rfl, due⟩ := due_of_runFunctor h first moves
    rw [if_pos rfl]
    exact onWriteComplete_sending due possible
  | handleWrite possible => exact handleWrite_sending h possible
  | closes =>
    have kept := handleRead_kept t.conn (.delivered [])
    obtain ⟨down, -⟩ := kept.closes rfl
    rw [onConnectionDown_eq]
    exact h.of_frame (kept.loop ▸ h.queued) (congrArg _ kept.loop) kept.complete kept.mark
      kept.output kept.accepted (Or.inr down) fun on => absurd (down.symm.trans on) (by decide)
  | @reads r more =>
    have kept := handleRead_kept t.conn r
    exact h.of_frame (c := { t.conn.handleRead r with inputBuffer := [] })
      (by rw [kept.loop]; exact h.queued) (congrArg _ kept.loop) kept.complete kept.mark
      kept.output kept.accepted (Or.inl (kept.stays more).1) fun _ => rfl

/-! ## The closed file -/

/-- What the context says about the connection. -/
structure Held (server : Server) (t : Transfer) : Prop where
  writes : t.conn.state = .kDisconnected → t.conn.readWriteChannel.isWriting = false
  quiet : t.context = .empty ∨ t.context = .null → outstanding t.conn = 0
  closed : t.context = .closed → t.conn.state = .kDisconnected
  shared : server = .download3 → (t.context = .empty ∨ t.context = .opened) ∧ t.misused = false

/-- A closed file has been read from, or will be. -/
def Damaged (t : Transfer) : Prop :=
  t.misused = true ∨ t.context = .closed ∧ t.conn.loop.queue ≠ []

/-- The connection does not close while a completion waits. -/
def ClosesIdle (t : Transfer) (a : Act) : Prop :=
  a = .handleRead (.delivered []) → t.conn.loop.queue = []

theorem sendPiece_frame (t : Transfer) (o : WriteOutcome) :
    (sendPiece t o).conn.state = t.conn.state ∧
      (t.conn.state ≠ .kConnected → (sendPiece t o).conn = t.conn) := by
  by_cases connected : t.conn.state = .kConnected
  · have sends : (sendPiece t o).conn = t.conn.sendInLoop (t.unread.take kBufsize) o := by
      simp [sendPiece, TcpConnection.send, connected]
    obtain ⟨loop, -, same⟩ := t.conn.sendInLoop_eq (t.unread.take kBufsize) o
    refine ⟨?_, fun other => absurd connected other⟩
    rw [sends, same]
    split <;> rfl
  · have keeps : (sendPiece t o).conn = t.conn := by
      simp [sendPiece, TcpConnection.send, connected]
    exact ⟨congrArg _ keeps, fun _ => keeps⟩

theorem shutdown_frame (c : TcpConnection) :
    (c.shutdown true).loop = c.loop ∧ (c.shutdown true).outputBuffer = c.outputBuffer ∧
      (c.shutdown true).state ≠ .kConnected ∧
      (c.state ≠ .kConnected → c.shutdown true = c) ∧
      (c.state = .kConnected → (c.shutdown true).state = .kDisconnecting) := by
  by_cases connected : c.state = .kConnected
  · have on : c.isConnected = true := by simp [TcpConnection.isConnected, connected]
    rw [c.shutdown_of_connected on, if_pos rfl, TcpConnection.shutdownInLoop_eq]
    exact ⟨rfl, rfl, by simp [TcpConnection.setState], fun other => absurd connected other,
      fun _ => rfl⟩
  · have off : c.isConnected = false := by simp [TcpConnection.isConnected, connected]
    rw [c.shutdown_of_not_connected off]
    exact ⟨rfl, rfl, connected, fun _ => rfl, fun on => absurd on connected⟩

theorem onWriteComplete_held (h : Held server t) (due : Due file t) (o : WriteOutcome)
    (held : ¬ (t.context = .empty ∨ t.context = .null)) :
    Held server (onWriteComplete server t o) := by
  cases context : t.context with
  | empty => exact absurd (Or.inl context) held
  | opened =>
    simp only [onWriteComplete, context]
    split
    · obtain ⟨state, same⟩ := sendPiece_frame t o
      refine ⟨fun down => ?_, fun quiet => ?_, fun closed => ?_, h.shared⟩
      · have down' : t.conn.state = .kDisconnected := state ▸ down
        rw [same (by simp [down'])]
        exact h.writes down'
      · exact absurd quiet held
      · exact absurd (context.symm.trans closed) (by decide)
    · obtain ⟨loop, output, -, other, on⟩ := shutdown_frame t.conn
      have writes : (t.conn.shutdown true).state = .kDisconnected →
          (t.conn.shutdown true).readWriteChannel.isWriting = false := by
        intro down
        by_cases connected : t.conn.state = .kConnected
        · exact absurd ((on connected).symm.trans down) (by decide)
        · rw [other connected] at down ⊢
          exact h.writes down
      have zero : outstanding (t.conn.shutdown true) = 0 := by
        rw [outstanding, backlog, loop, output]
        exact due.outstanding
      cases server with
      | download2 =>
        exact ⟨writes, fun _ => zero, fun closed => (by cases closed), fun s => by cases s⟩
      | download3 =>
        refine ⟨writes, fun _ => zero, fun closed => (by cases closed), fun third => ?_⟩
        exact ⟨Or.inr rfl, (h.shared third).2⟩
  | closed =>
    simp only [onWriteComplete, context]
    refine ⟨h.writes, fun quiet => (by simp at quiet), fun _ => h.closed context, fun third => ?_⟩
    have held := (h.shared third).1
    simp [context] at held
  | null => exact absurd (Or.inr context) held

theorem queue_of_outstanding {c : TcpConnection} (zero : outstanding c = 0) :
    c.loop.queue = [] := by
  rw [outstanding] at zero
  exact List.length_eq_zero_iff.mp (by omega)

/-- A completion that waits finds a file. -/
theorem Held.not_quiet (h : Held server t) {loop : EventLoop ConnFunctor}
    (moves : t.conn.loop.step .runFunctor = some loop) :
    ¬ (t.context = .empty ∨ t.context = .null) := by
  intro quiet
  obtain ⟨f, -, queue⟩ := EventLoop.queue_runFunctor moves
  rw [queue_of_outstanding (h.quiet quiet)] at queue
  cases queue

theorem Held.step (h : Held server t) (sending : Sending file t) {a : Act}
    (next : step server t a = some t') : Held server t' := by
  cases takes_of_step next with
  | @loopActs _ loop silent moves =>
    have queue := EventLoop.step_queue_of_silent sending.queued silent moves
    refine ⟨h.writes, fun quiet => ?_, h.closed, h.shared⟩
    have same : outstanding { t.conn with loop := loop } = outstanding t.conn := by
      rw [outstanding, outstanding]
      exact congrArg (fun q => q.length + _) queue
    exact same.trans (h.quiet quiet)
  | @runFunctor functor rest loop o first moves possible =>
    obtain ⟨rfl, due⟩ := due_of_runFunctor sending first moves
    have held := h.not_quiet moves
    rw [if_pos rfl]
    have after : Held server { t with conn := { t.conn with loop := loop } } :=
      ⟨h.writes, fun quiet => absurd quiet held, h.closed, h.shared⟩
    exact onWriteComplete_held after due o held
  | @handleWrite o possible =>
    have same := outstanding_handleWrite sending.toSound possible
    obtain ⟨loop, channel, -, writing, eq⟩ := t.conn.handleWrite_eq o
    have state : (t.conn.handleWrite o).state = t.conn.state := by rw [eq]
    refine ⟨fun down => ?_, fun quiet => same.trans (h.quiet quiet),
      fun closed => state.trans (h.closed closed), h.shared⟩
    rw [eq]
    exact writing.trans (h.writes (state.symm.trans down))
  | closes =>
    have kept := handleRead_kept t.conn (.delivered [])
    obtain ⟨down, silent⟩ := kept.closes rfl
    have same : outstanding (t.conn.handleRead (.delivered [])) = outstanding t.conn := by
      rw [outstanding, backlog, kept.loop, kept.output, outstanding, backlog]
    rw [onConnectionDown_eq]
    refine ⟨fun _ => silent, fun quiet => ?_, fun _ => down, fun third => ?_⟩
    · dsimp only at quiet
      split at quiet
      · simp at quiet
      · exact same.trans (h.quiet quiet)
    · subst third
      exact h.shared rfl
  | @reads r more =>
    have kept := handleRead_kept t.conn r
    obtain ⟨state, channel⟩ := kept.stays more
    have same : outstanding { t.conn.handleRead r with inputBuffer := [] } =
        outstanding t.conn := by
      simp only [outstanding, backlog, kept.loop, kept.output]
      rfl
    refine ⟨fun down => ?_, fun quiet => same.trans (h.quiet quiet),
      fun closed => state.trans (h.closed closed), h.shared⟩
    exact (congrArg _ channel).trans (h.writes (state.symm.trans down))

/-- A read of a closed file comes about exactly when `Download2.cc` closes it while a
completion waits. -/
theorem damaged_step (h : Held server t) (sending : Sending file t) {a : Act}
    (next : step server t a = some t') :
    Damaged t' ↔ Damaged t ∨ server = .download2 ∧ ¬ ClosesIdle t a := by
  have other (kind : a ≠ .handleRead (.delivered [])) (same : Damaged t' ↔ Damaged t) :
      Damaged t' ↔ Damaged t ∨ server = .download2 ∧ ¬ ClosesIdle t a := by
    have idle : ClosesIdle t a := fun eof => absurd eof kind
    rw [same]
    simp [idle]
  cases takes_of_step next with
  | @loopActs _ loop silent moves =>
    have queue := EventLoop.step_queue_of_silent sending.queued silent moves
    refine other (by simp) ?_
    simp only [Damaged, queue]
  | runFunctor first moves possible =>
    obtain ⟨rfl, due⟩ := due_of_runFunctor sending first moves
    obtain ⟨f, -, queue⟩ := EventLoop.queue_runFunctor moves
    refine other (by simp) ?_
    rw [if_pos rfl]
    cases context : t.context with
    | empty => simp [Damaged, onWriteComplete, context]
    | opened =>
      simp only [Damaged, onWriteComplete, context]
      split
      · simp [sendPiece]
      · cases server <;> simp
    | closed => simp [Damaged, onWriteComplete, context, queue]
    | null => exact absurd (Or.inr context) (h.not_quiet moves)
  | @handleWrite o possible =>
    refine other (by simp) ?_
    by_cases closed : t.context = .closed
    · have silent := h.writes (h.closed closed)
      have keeps : t.conn.handleWrite o = t.conn := by simp [TcpConnection.handleWrite, silent]
      rw [keeps]
    · simp [Damaged, closed]
  | closes live =>
    have kept := handleRead_kept t.conn (.delivered [])
    have unclosed : t.context ≠ .closed := fun closed => live (h.closed closed)
    have queue : (t.conn.handleRead (.delivered [])).loop.queue = t.conn.loop.queue :=
      congrArg _ kept.loop
    rw [onConnectionDown_eq]
    by_cases closes : server = .download2 ∧ t.context = .opened
    · simp [Damaged, ClosesIdle, closes, queue]
    · have idle : server = .download2 → t.conn.loop.queue = [] := by
        intro second
        apply queue_of_outstanding
        apply h.quiet
        cases context : t.context with
        | empty => exact Or.inl rfl
        | opened => exact absurd ⟨second, context⟩ closes
        | closed => exact absurd context unclosed
        | null => exact Or.inr rfl
      simp only [Damaged, ClosesIdle, if_neg closes, unclosed, false_and, true_implies, or_false]
      refine ⟨Or.inl, fun damaged => damaged.resolve_right ?_⟩
      exact fun busy => busy.2 (idle busy.1)
  | @reads r more =>
    have kept := handleRead_kept t.conn r
    refine other (by simpa using more) ?_
    simp only [Damaged, kept.loop]

end Transfers

/-! ## Whole transfers -/

section Runs
variable {server : Server} {loop : EventLoop ConnFunctor} {sockfd : Int}
  {file : Option (List UInt8)} {o : WriteOutcome} {actions : List Act} {t : Transfer}

theorem established_due (queued : loop.Queued) (idle : loop.queue = []) (content : List UInt8) :
    Due content ⟨.established loop sockfd options, .opened, content, [], false⟩ := by
  refine ⟨⟨queued, rfl, rfl, ?_, Nat.zero_le _, List.nil_prefix⟩, idle, rfl,
    fun _ => ⟨rfl, rfl, rfl⟩, fun finished => by cases finished⟩
  intro f here
  rw [show (TcpConnection.established loop sockfd options).loop.queue = [] from idle] at here
  cases here

theorem start_sending (queued : loop.Queued) (idle : loop.queue = [])
    (possible : o.Possible ((file.getD []).take kBufsize).length) :
    Sending (file.getD []) (start loop sockfd file o) := by
  cases file with
  | none => exact shutdown_sending (established_due queued idle []) rfl .empty
  | some content =>
    refine sendPiece_sending (established_due queued idle content) ?_ possible
    cases content with
    | nil => exact Or.inr rfl
    | cons byte rest => exact Or.inl (by simp [kBufsize])

theorem start_held (idle : loop.queue = []) : Held server (start loop sockfd file o) := by
  cases file with
  | none =>
    have zero : outstanding (TcpConnection.established loop sockfd options) = 0 := by
      have nothing : (TcpConnection.established loop sockfd options).loop.queue = [] := idle
      rw [outstanding, nothing]
      rfl
    obtain ⟨loop', output, -, -, on⟩ := shutdown_frame (.established loop sockfd options)
    have state := on rfl
    refine ⟨fun down => ?_, fun _ => ?_, fun closed => (by cases closed),
      fun _ => ⟨Or.inl rfl, rfl⟩⟩
    · exact absurd (state.symm.trans down) (by decide)
    · have same : outstanding (start loop sockfd none o).conn =
          outstanding (TcpConnection.established loop sockfd options) := by
        rw [outstanding, backlog, outstanding, backlog, ← loop', ← output]
        rfl
      exact same.trans zero
  | some content =>
    have state : (start loop sockfd (some content) o).conn.state = .kConnected :=
      (sendPiece_frame ⟨.established loop sockfd options, .opened, content, [], false⟩ o).1
    refine ⟨fun down => ?_, fun quiet => ?_, fun closed => (by cases closed),
      fun _ => ⟨Or.inr rfl, rfl⟩⟩
    · exact absurd (state.symm.trans down) (by decide)
    · rcases quiet with quiet | quiet <;> cases quiet

theorem damaged_run_iff (held : Held server t) {content : List UInt8} (sending : Sending content t)
    {t' : Transfer} (done : run (step server) t actions = some t') :
    Damaged t' ↔ Damaged t ∨ server = .download2 ∧ ¬ Along (step server) ClosesIdle t actions := by
  induction actions generalizing t with
  | nil =>
    cases done
    simp [Along]
  | cons a rest ih =>
    obtain ⟨m, next, later⟩ := run_cons_eq_some.mp done
    have along : Along (step server) ClosesIdle t (a :: rest) ↔
        ClosesIdle t a ∧ Along (step server) ClosesIdle m rest := by
      simp [Along, next]
    rw [ih (held.step sending next) (sending.step next) later, damaged_step held sending next,
      along]
    tauto

/-- Once no completion waits, a closed file has been read from exactly if the server is that
of `Download2.cc` and the connection closed at some time while one waited. -/
theorem reads_closed_file_iff (queued : loop.Queued) (idle : loop.queue = [])
    (possible : o.Possible ((file.getD []).take kBufsize).length)
    (done : run (step server) (start loop sockfd file o) actions = some t)
    (drained : t.conn.loop.queue = []) :
    t.misused = true ↔ server = .download2 ∧
      ¬ Along (step server) ClosesIdle (start loop sockfd file o) actions := by
  have whole : ¬ Damaged (start loop sockfd file o) := by
    cases file <;> simp [Damaged, start, onConnectionUp, sendPiece]
  have now : Damaged t ↔ t.misused = true := by simp [Damaged, drained]
  rw [← now, damaged_run_iff (start_held idle) (start_sending queued idle possible) done]
  exact or_iff_right whole

/-- The peer closes before the loop runs the completion. -/
theorem reads_closed_file_three :
    ∃ t, run (step .download2) (start .new 5 (some [1, 2, 3]) (.accepted 3)) [.loopActs .loop,
        .loopActs (.pollReturns false), .handleRead (.delivered []), .loopActs .doPendingFunctors,
        .loopActs .swap, .runFunctor (.accepted 0)] = some t ∧ t.misused = true ∧
      ¬ Along (step .download2) ClosesIdle (start .new 5 (some [1, 2, 3]) (.accepted 3))
        [.loopActs .loop, .loopActs (.pollReturns false), .handleRead (.delivered []),
          .loopActs .doPendingFunctors, .loopActs .swap, .runFunctor (.accepted 0)] := by
  refine ⟨_, rfl, rfl, ?_⟩
  have exact_iff := @reads_closed_file_iff .download2 .new 5 (some [1, 2, 3]) (.accepted 3)
    [.loopActs .loop, .loopActs (.pollReturns false), .handleRead (.delivered []),
      .loopActs .doPendingFunctors, .loopActs .swap, .runFunctor (.accepted 0)] _
    EventLoop.new_queued rfl (by decide) rfl rfl
  exact (exact_iff.mp rfl).2

end Runs

end Download
end Arale
