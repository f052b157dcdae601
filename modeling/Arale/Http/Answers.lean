import Arale.Http.Segmentation
import Arale.Net.OutputStream

/-!
# The answers of the HTTP server

What one connection of `HttpServer` writes for the requests that its callback is given: the
answers in the order of the requests, up to the first that closes the connection, and a 400
where the server comes upon a bad request line. The events of a connection are reads, write
events and the end of the stream, in any order.
-/

namespace HttpAnswers

open Arale Schedules HttpConnection

/-! ## What a client is owed -/

/-- The bytes of `onMessage` for a bad request line. -/
def badRequestText : List UInt8 := bytes "HTTP/1.1 400 Bad Request\r\n\r\n"

/-- Whether `onRequest` closes unless the callback decides otherwise. -/
def closes (req : HttpRequest) : Bool :=
  req.getHeader (bytes "Connection") == bytes "close" ||
    (req.version == .kHttp10 && req.getHeader (bytes "Connection") != bytes "Keep-Alive")

section
variable (callback : HttpCallback)

/-- The answer to a request after some others. -/
def answer (before : List HttpRequest) (req : HttpRequest) : HttpResponse :=
  callback before req { closeConnection := closes req }

/-- The bytes that answer some requests up to the first answer that closes, and whether there
is none. -/
def answers (before : List HttpRequest) : List HttpRequest → List UInt8 × Bool
  | [] => ([], true)
  | req :: rest =>
    let response := answer callback before req
    if response.closeConnection then (response.appendToBuffer, false)
    else
      let (later, stays) := answers (before ++ [req]) rest
      (response.appendToBuffer ++ later, stays)

/-! ## Runs -/

/-- A connection, with whether the server has refused a request line and whether the stream of
the client has ended. -/
structure Exchange where
  http : HttpConnection
  refused : Bool
  ended : Bool

inductive Act where
  | read (r : Read)
  | handleWrite (o : WriteOutcome)
  /-- `handleRead` of no bytes -/
  | endOfStream

/-- What the parser finds in a read. -/
inductive Found where
  | request (req : HttpRequest)
  | badLine
  | nothing

def foundIn : ParseResult → Found
  | .returned context _ true => if context.isGotAll then .request context.request else .nothing
  | .returned _ _ false => .badLine
  | .raised => .nothing
  | .diverged => .nothing

def found (h : HttpConnection) (r : Read) : Found :=
  if h.stuck then .nothing
  else foundIn (h.context.parseRequest (h.conn.inputBuffer ++ r.data) r.receiveTime)

/-- What `onMessage` sends. -/
def reply (h : HttpConnection) : Found → Option (List UInt8)
  | .request req => some (answer callback h.dispatched req).appendToBuffer
  | .badLine => some badRequestText
  | .nothing => none

/-- A write accepts at most what it was given. -/
def ReadPossible (h : HttpConnection) (r : Read) : Prop :=
  ∀ data ∈ reply callback h (found h r), r.o.Possible data.length

instance (h : HttpConnection) (r : Read) : Decidable (ReadPossible callback h r) :=
  inferInstanceAs (Decidable (∀ data ∈ reply callback h (found h r), _))

def readStep (s : Exchange) (r : Read) : Exchange :=
  { s with
    http := s.http.receive callback r
    refused := s.refused || found s.http r matches .badLine }

def step (s : Exchange) : Act → Option Exchange
  | .read r =>
    if r.data ≠ [] ∧ s.http.conn.state ≠ .kDisconnected ∧ ReadPossible callback s.http r then
      some (readStep callback s r)
    else none
  | .handleWrite o =>
    if o.Possible s.http.conn.outputBuffer.length then
      some { s with http := { s.http with conn := s.http.conn.handleWrite o } }
    else none
  | .endOfStream =>
    if s.http.conn.state ≠ .kDisconnected then
      some { s with
        http := { s.http with conn := s.http.conn.handleRead (.delivered []) }
        ended := true }
    else none

def start (loop : EventLoop ConnFunctor) (sockfd : Int) (options : ConnOptions) : Exchange :=
  ⟨.start loop sockfd options, false, false⟩

/-- What the client is owed for the requests dispatched and a refused line behind them. -/
def owed (s : Exchange) : List UInt8 :=
  (answers callback [] s.http.dispatched).1 ++
    if (answers callback [] s.http.dispatched).2 && s.refused then badRequestText else []

/-- The bytes written, and those that wait to be, are the ones owed. -/
def Paid (s : Exchange) : Prop :=
  s.http.conn.accepted ++ s.http.conn.outputBuffer = owed callback s

/-- The connection is open for sending until an answer closes, a line is refused or the stream
of the client ends. -/
def OpenUntilClosed (s : Exchange) : Prop :=
  s.http.conn.isConnected =
    ((answers callback [] s.http.dispatched).2 && !s.refused && !s.ended)

end

/-- Bytes that are written at once are written whole, or the part that is not happens to
repeat the front of them, and the client is there to take them. -/
def Whole (c : TcpConnection) (data : List UInt8) (o : WriteOutcome) : Prop :=
  c.sendsDirectly = true →
    match o with
    | .accepted n => data.take (data.length - n) = data.drop n
    | .failed errno => (WriteOutcome.failed errno).peerGone = false

/-- What a read answers while the connection is open is written whole. -/
def WritesWhole (callback : HttpCallback) (s : Exchange) : Act → Prop
  | .read r => r.data ≠ [] → s.http.conn.isConnected = true →
      ∀ data ∈ reply callback s.http (found s.http r), Whole s.http.conn data r.o
  | _ => True

/-! ## What one call does to the output -/

section Output
variable {c : TcpConnection}

/-- The bytes written and those that wait to be. -/
def output (c : TcpConnection) : List UInt8 := c.accepted ++ c.outputBuffer

theorem output_sendInLoop_iff {data : List UInt8} (some : data ≠ []) (o : WriteOutcome) :
    output (c.sendInLoop data o) = output c ++ data ↔ Whole c data o := by
  cases gone : o.peerGone with
  | false =>
    have intact := OutputStream.sendInLoop_intact_iff (s := ⟨c, output c⟩) rfl data gone
    refine intact.trans ?_
    cases o with
    | accepted n => exact Iff.rfl
    | failed errno => exact ⟨fun _ _ => gone, fun _ => trivial⟩
  | true =>
    cases o with
    | accepted n => cases gone
    | failed errno =>
      cases direct : c.sendsDirectly with
      | false =>
        obtain ⟨loop, -, sent⟩ := c.sendInLoop_eq data (.failed errno)
        have waits : ¬ (c.sendFails (.failed errno) = true ∨
            data.length ≤ c.nwrote (.failed errno)) := by
          rintro (fails | short)
          · rw [TcpConnection.sendFails, direct] at fails
            cases fails
          · simp only [TcpConnection.nwrote, direct] at short
            exact some (List.length_eq_zero_iff.mp (Nat.le_zero.mp short))
        rw [if_neg waits] at sent
        refine iff_of_true ?_ fun directly => ?_
        · rw [sent]
          simp [output, TcpConnection.nwrote, direct]
        · rw [direct] at directly
          cases directly
      | true =>
        obtain ⟨loop, -, sent⟩ := c.sendInLoop_eq data (.failed errno)
        have fails : c.sendFails (.failed errno) = true := by
          rw [TcpConnection.sendFails, direct, gone]
          rfl
        rw [if_pos (.inl fails)] at sent
        refine iff_of_false ?_ fun whole => ?_
        · rw [sent]
          simpa [output, TcpConnection.nwrote, direct] using some
        · have there : (WriteOutcome.failed errno).peerGone = false := whole direct
          rw [gone] at there
          cases there

theorem output_send (data : List UInt8) (o : WriteOutcome) :
    output (c.send data o) = if c.isConnected then output (c.sendInLoop data o) else output c := by
  rw [TcpConnection.send]
  exact apply_ite output _ _ _

theorem state_send (data : List UInt8) (o : WriteOutcome) : (c.send data o).state = c.state := by
  unfold TcpConnection.send
  split
  · obtain ⟨loop, -, sent⟩ := c.sendInLoop_eq data o
    rw [sent]
    split <;> rfl
  · rfl

theorem output_shutdown : output (c.shutdown true) = output c := by
  cases connected : c.isConnected with
  | false => rw [c.shutdown_of_not_connected connected]
  | true => rw [c.shutdown_of_connected connected, if_pos rfl, TcpConnection.shutdownInLoop_eq]; rfl

theorem isConnected_shutdown : (c.shutdown true).isConnected = false := by
  cases connected : c.isConnected with
  | false => rw [c.shutdown_of_not_connected connected, connected]
  | true => rw [c.shutdown_of_connected connected, if_pos rfl, TcpConnection.shutdownInLoop_eq]; rfl

theorem shutdown_disconnected_iff :
    (c.shutdown true).state = .kDisconnected ↔ c.state = .kDisconnected := by
  cases connected : c.isConnected with
  | false => rw [c.shutdown_of_not_connected connected]
  | true =>
    have up : c.state = .kConnected := by simpa [TcpConnection.isConnected] using connected
    rw [c.shutdown_of_connected connected, if_pos rfl, TcpConnection.shutdownInLoop_eq, up]
    simp [TcpConnection.setState]

/-- Two connections of one state with the same output. -/
structure SameOutput (c d : TcpConnection) : Prop where
  state : d.state = c.state
  channel : d.readWriteChannel = c.readWriteChannel
  accepted : d.accepted = c.accepted
  outputBuffer : d.outputBuffer = c.outputBuffer

theorem SameOutput.isConnected {d : TcpConnection} (same : SameOutput c d) :
    d.isConnected = c.isConnected := by
  rw [TcpConnection.isConnected, TcpConnection.isConnected, same.state]

theorem SameOutput.output_send {d : TcpConnection} (same : SameOutput c d) (data : List UInt8)
    (o : WriteOutcome) : output (d.send data o) = output (c.send data o) := by
  have direct : d.sendsDirectly = c.sendsDirectly := by
    rw [TcpConnection.sendsDirectly, TcpConnection.sendsDirectly, same.channel, same.outputBuffer]
  have fails : d.sendFails o = c.sendFails o := by
    rw [TcpConnection.sendFails, TcpConnection.sendFails, direct]
  have nwrote : d.nwrote o = c.nwrote o := by
    simp only [TcpConnection.nwrote, direct]
  have connected := same.isConnected
  obtain ⟨loop, -, sent⟩ := c.sendInLoop_eq data o
  obtain ⟨loop', -, sent'⟩ := d.sendInLoop_eq data o
  rw [HttpAnswers.output_send, HttpAnswers.output_send, connected, sent, sent', fails, nwrote]
  by_cases all : c.sendFails o = true ∨ data.length ≤ c.nwrote o
  · simp only [if_pos all, output, same.accepted, same.outputBuffer]
  · simp only [if_neg all, output, same.accepted, same.outputBuffer]

end Output

/-! ## What one read does -/

section Reads
variable {callback : HttpCallback} {h : HttpConnection} {r : Read}

/-- The connection has sent a text, and has been shut down if it is the last one. -/
structure Said (c d : TcpConnection) (text : List UInt8) (o : WriteOutcome) (last : Bool) :
    Prop where
  output : output d = output (c.send text o)
  connected : d.isConnected = (c.isConnected && !last)
  gone : d.state = .kDisconnected ↔ c.state = .kDisconnected

theorem said_of_send {c d : TcpConnection} (same : SameOutput c d) (text : List UInt8)
    (o : WriteOutcome) (last : Bool) :
    Said c (if last then (d.send text o).shutdown true else d.send text o) text o last := by
  have state : (d.send text o).state = c.state := (state_send text o).trans same.state
  cases last with
  | false =>
    refine ⟨same.output_send text o, ?_, ?_⟩
    · rw [if_neg Bool.false_ne_true, TcpConnection.isConnected, TcpConnection.isConnected, state,
        Bool.not_false, Bool.and_true]
    · rw [if_neg Bool.false_ne_true, state]
  | true =>
    refine ⟨?_, ?_, ?_⟩
    · rw [if_pos rfl, output_shutdown, same.output_send]
    · rw [if_pos rfl, isConnected_shutdown, Bool.not_true, Bool.and_false]
    · rw [if_pos rfl, shutdown_disconnected_iff, state]

theorem handleRead_some (c : TcpConnection) {data : List UInt8} (some : data ≠ []) :
    c.handleRead (.delivered data) =
      ({ c with inputBuffer := c.inputBuffer ++ data } : TcpConnection).notify
        .messageCallback := by
  have positive : 0 < data.length := List.length_pos_iff.mpr some
  simp [TcpConnection.handleRead, TcpConnection.readInput, positive]

/-- What a read does to the connection and to the requests dispatched. -/
inductive Received (callback : HttpCallback) (h : HttpConnection) (r : Read)
    (h' : HttpConnection) : Prop where
  | answered (req : HttpRequest) (finds : found h r = .request req)
    (dispatched : h'.dispatched = h.dispatched ++ [req])
    (said : Said h.conn h'.conn (answer callback h.dispatched req).appendToBuffer r.o
      (answer callback h.dispatched req).closeConnection)
  | refused (finds : found h r = .badLine) (dispatched : h'.dispatched = h.dispatched)
    (said : Said h.conn h'.conn badRequestText r.o true)
    (left : h.context.parseRequest (h.conn.inputBuffer ++ r.data) r.receiveTime =
      .returned h'.context h'.conn.inputBuffer false) (running : h'.stuck = false)
  | silent (finds : found h r = .nothing) (dispatched : h'.dispatched = h.dispatched)
    (same : SameOutput h.conn h'.conn)

theorem receive_received (callback : HttpCallback) (h : HttpConnection) (some : r.data ≠ []) :
    Received callback h r (h.receive callback r) := by
  by_cases halted : h.stuck = true
  · rw [receive, if_pos halted]
    exact .silent (if_pos halted) rfl ⟨rfl, rfl, rfl, rfl⟩
  · have finds : found h r =
        foundIn (h.context.parseRequest (h.conn.inputBuffer ++ r.data) r.receiveTime) :=
      if_neg halted
    have notified := handleRead_some h.conn some
    have parsed : (h.handleRead r.data).context.parseRequest (h.handleRead r.data).conn.inputBuffer
        r.receiveTime = h.context.parseRequest (h.conn.inputBuffer ++ r.data) r.receiveTime := by
      rw [handleRead, notified]
      rfl
    rw [receive, if_neg halted, onMessage, parsed]
    have same (input : List UInt8) :
        SameOutput h.conn { (h.handleRead r.data).conn with inputBuffer := input } := by
      rw [handleRead, notified]
      exact ⟨rfl, rfl, rfl, rfl⟩
    have whole : SameOutput h.conn (h.handleRead r.data).conn := same _
    generalize result_eq : h.context.parseRequest (h.conn.inputBuffer ++ r.data) r.receiveTime =
      result at finds
    cases result with
    | raised => exact .silent finds rfl whole
    | diverged => exact .silent finds rfl whole
    | returned context buf ok =>
      cases ok with
      | false =>
        refine .refused finds rfl (said_of_send (same buf) badRequestText r.o true) ?_
          (Bool.not_eq_true _ ▸ halted)
        simp only [result_eq, Bool.false_eq_true, if_false, inputBuffer_badRequest]
        rfl
      | true =>
        cases all : context.isGotAll with
        | false =>
          simp only [foundIn, all, Bool.false_eq_true, if_false] at finds
          simp only [all, if_true, Bool.false_eq_true, if_false]
          exact .silent finds rfl (same buf)
        | true =>
          simp only [foundIn, all, if_true] at finds
          simp only [all, if_true]
          exact .answered context.request finds rfl (said_of_send (same buf) _ r.o _)

/-- A refused line stays in front of the input, and no request is found any more. -/
theorem parseLoop_refused {fuel : Nat} {c c' : HttpContext} {buf buf' : List UInt8}
    (expects : c.expectsLine = true) {receiveTime : Int}
    (refuses : HttpContext.parseLoop fuel c buf receiveTime = .returned c' buf' false)
    (more : List UInt8) : Segmentation.requestsFrom c' (buf' ++ more) = [] := by
  induction fuel generalizing c buf with
  | zero => cases refuses
  | succ fuel ih =>
    rw [HttpContext.parseLoop, if_pos expects] at refuses
    cases crlf : findCRLF buf with
    | none =>
      rw [crlf] at refuses
      cases refuses
    | some i =>
      simp only [crlf] at refuses
      cases line : c.parseLine (buf.take i) receiveTime with
      | raised =>
        rw [line] at refuses
        cases refuses
      | rejected c'' =>
        rw [line] at refuses
        cases refuses
        obtain ⟨-, again, rejected⟩ := Segmentation.rejected_again line
        rw [Segmentation.requestsFrom, Lines.complete_append_of_some crlf,
          Segmentation.emit_cons _ _ _ receiveTime, rejected]
      | consumed c'' =>
        rw [line] at refuses
        cases all : c''.isGotAll with
        | true =>
          simp only [all, if_true] at refuses
          cases refuses
        | false =>
          simp only [all, Bool.false_eq_true, if_false] at refuses
          exact ih (HttpContext.expectsLine_of_consumed expects line all) refuses

end Reads

/-! ## Runs -/

section Runs
variable {callback : HttpCallback} {s t : Exchange}

theorem answers_concat (before reqs : List HttpRequest) (req : HttpRequest) :
    answers callback before (reqs ++ [req]) =
      if (answers callback before reqs).2 then
        ((answers callback before reqs).1 ++
          (answer callback (before ++ reqs) req).appendToBuffer,
          !(answer callback (before ++ reqs) req).closeConnection)
      else answers callback before reqs := by
  induction reqs generalizing before with
  | nil =>
    rw [List.append_nil, List.nil_append, answers, answers, answers]
    cases closing : (answer callback before req).closeConnection <;> simp
  | cons first reqs ih =>
    have rest := ih (before ++ [first])
    rw [List.append_assoc, List.singleton_append] at rest
    rw [List.cons_append, answers, answers]
    cases closing : (answer callback before first).closeConnection with
    | true => simp
    | false =>
      rw [rest]
      cases stays : (answers callback (before ++ [first]) reqs).2 <;> simp [stays]

/-- What holds of a run whatever the writes do. -/
structure Sound (callback : HttpCallback) (s : Exchange) : Prop where
  expects : Segmentation.Expects s.http
  isOpen : OpenUntilClosed callback s
  final : s.refused = true → ∀ more, Segmentation.undispatched s.http more = []
  ended : s.ended = true → s.http.conn.state = .kDisconnected

theorem start_sound (loop : EventLoop ConnFunctor) (sockfd : Int) (options : ConnOptions) :
    Sound callback (start loop sockfd options) where
  expects _ := rfl
  isOpen := rfl
  final refused := absurd refused Bool.false_ne_true
  ended gone := absurd gone Bool.false_ne_true

theorem Sound.isConnected_of_open (sound : Sound callback s)
    (up : s.http.conn.isConnected = true) :
    (answers callback [] s.http.dispatched).2 = true ∧ s.refused = false ∧ s.ended = false := by
  have isOpen := sound.isOpen
  rw [OpenUntilClosed, up] at isOpen
  simpa [and_assoc] using isOpen.symm

/-- A request is not found behind a refused line. -/
theorem Sound.unrefused (sound : Sound callback s) {r : Read} (some : r.data ≠ [])
    {req : HttpRequest}
    (grows : (s.http.receive callback r).dispatched = s.http.dispatched ++ [req]) :
    s.refused = false := by
  by_contra refused
  have none := sound.final (Bool.not_eq_false _ ▸ refused)
  obtain ⟨-, dispatches⟩ := Segmentation.receive_dispatches callback sound.expects some
  cases dispatches with
  | none same => simp [grows] at same
  | one req' dispatched rest =>
    have first := rest []
    rw [none] at first
    cases first

/-- A read of a connection that is not closed finds the stream of the client not ended. -/
theorem Sound.going (sound : Sound callback s) (there : s.http.conn.state ≠ .kDisconnected) :
    s.ended = false := by
  by_contra gone
  exact there (sound.ended (Bool.not_eq_false _ ▸ gone))

theorem read_sound (sound : Sound callback s) {r : Read} (some : r.data ≠ [])
    (there : s.http.conn.state ≠ .kDisconnected) :
    Sound callback (readStep callback s r) := by
  obtain ⟨expects, dispatches⟩ := Segmentation.receive_dispatches callback sound.expects some
  have going := sound.going there
  have isOpen := sound.isOpen
  rw [OpenUntilClosed, going, Bool.not_false, Bool.and_true] at isOpen
  have final (refused : s.refused = true) (more : List UInt8) :
      Segmentation.undispatched (s.http.receive callback r) more = [] := by
    have none := sound.final refused
    cases dispatches with
    | none same caughtUp rest => rw [← rest, none]
    | one req dispatched rest =>
      have first := rest more
      rw [none] at first
      cases first
  cases receive_received callback s.http some with
  | answered req finds dispatched said =>
    have unrefused := sound.unrefused some dispatched
    rw [unrefused, Bool.not_false, Bool.and_true] at isOpen
    simp only [readStep, finds, unrefused, Bool.or_false]
    refine ⟨expects, ?_, fun refused => absurd refused Bool.false_ne_true,
      fun gone => absurd (going.symm.trans gone) Bool.false_ne_true⟩
    rw [OpenUntilClosed, going, dispatched, answers_concat, said.connected, isOpen,
      List.nil_append]
    cases stays : (answers callback [] s.http.dispatched).2 <;> simp [stays]
  | refused finds dispatched said left running =>
    simp only [readStep, finds, Bool.or_true]
    refine ⟨expects, ?_, fun _ more => ?_,
      fun gone => absurd (going.symm.trans gone) Bool.false_ne_true⟩
    · rw [OpenUntilClosed, said.connected]
      simp
    · have began : s.http.stuck = false := by
        by_contra halted
        rw [found, if_pos (Bool.not_eq_false _ ▸ halted)] at finds
        cases finds
      rw [Segmentation.undispatched_of_running running rfl rfl]
      exact parseLoop_refused (sound.expects began) left more
  | silent finds dispatched same =>
    simp only [readStep, finds, Bool.or_false]
    refine ⟨expects, ?_, final, fun gone => absurd (going.symm.trans gone) Bool.false_ne_true⟩
    rw [OpenUntilClosed, dispatched, going, same.isConnected]
    simpa using isOpen

theorem handleWrite_same (c : TcpConnection) (o : WriteOutcome) :
    output (c.handleWrite o) = output c ∧ (c.handleWrite o).state = c.state ∧
      (c.handleWrite o).inputBuffer = c.inputBuffer := by
  obtain ⟨loop, channel, -, -, wrote⟩ := c.handleWrite_eq o
  rw [wrote]
  exact ⟨by simp [output], rfl, rfl⟩

theorem handleClose_same (c : TcpConnection) :
    output c.handleClose = output c ∧ c.handleClose.state = .kDisconnected ∧
      c.handleClose.inputBuffer = c.inputBuffer := by
  rw [c.handleClose_eq]
  exact ⟨rfl, rfl, rfl⟩

/-- Another connection under the same parser. -/
theorem undispatched_of_input {d : TcpConnection} {h : HttpConnection}
    (same : d.inputBuffer = h.conn.inputBuffer) (more : List UInt8) :
    Segmentation.undispatched { h with conn := d } more = Segmentation.undispatched h more := by
  rw [Segmentation.undispatched, Segmentation.undispatched, same]

theorem step_sound (sound : Sound callback s) {a : Act} (next : step callback s a = some t) :
    Sound callback t := by
  cases a with
  | read r =>
    obtain ⟨⟨some, there, -⟩, same⟩ := Option.ite_none_right_eq_some.mp next
    cases same
    exact read_sound sound some there
  | handleWrite o =>
    obtain ⟨-, same⟩ := Option.ite_none_right_eq_some.mp next
    cases same
    obtain ⟨-, state, input⟩ := handleWrite_same s.http.conn o
    refine ⟨sound.expects, ?_, fun refused more => ?_, fun gone => ?_⟩
    · have isOpen := sound.isOpen
      rw [OpenUntilClosed, TcpConnection.isConnected] at isOpen ⊢
      rw [state]
      exact isOpen
    · rw [undispatched_of_input input]
      exact sound.final refused more
    · rw [state]
      exact sound.ended gone
  | endOfStream =>
    obtain ⟨-, same⟩ := Option.ite_none_right_eq_some.mp next
    cases same
    obtain ⟨-, state, input⟩ := handleClose_same s.http.conn
    rw [← TcpConnection.handleRead_eof] at state input
    refine ⟨sound.expects, ?_, fun refused more => ?_, fun _ => state⟩
    · rw [OpenUntilClosed, TcpConnection.isConnected, state]
      simp
    · rw [undispatched_of_input input]
      exact sound.final refused more

theorem appendToBuffer_ne_nil (response : HttpResponse) : response.appendToBuffer ≠ [] := by
  have ending : bytes "\r\n" ≠ [] := by decide
  rw [HttpResponse.appendToBuffer, List.append_assoc _ (bytes "\r\n")]
  exact List.append_ne_nil_of_right_ne_nil _ (List.append_ne_nil_of_left_ne_nil ending _)

/-- A text that is said while the connection is open is paid exactly if it is written whole. -/
theorem said_paid_iff {c d : TcpConnection} {text before : List UInt8} {o : WriteOutcome}
    {last : Bool} (said : Said c d text o last) (paid : output c = before) (some : text ≠ [])
    (connected : c.isConnected = true) : output d = before ++ text ↔ Whole c text o := by
  rw [said.output, output_send, if_pos connected, ← paid]
  exact output_sendInLoop_iff some o

theorem said_closed {c d : TcpConnection} {text : List UInt8} {o : WriteOutcome} {last : Bool}
    (said : Said c d text o last) (closed : c.isConnected = false) : output d = output c := by
  rw [said.output, output_send, closed]
  rfl

theorem owed_of_unrefused (unrefused : s.refused = false) :
    owed callback s = (answers callback [] s.http.dispatched).1 := by
  rw [owed, unrefused, Bool.and_false, if_neg Bool.false_ne_true, List.append_nil]

/-- One read keeps the client paid exactly if its answer is written whole. -/
theorem read_paid_iff (sound : Sound callback s) (paid : Paid callback s) {r : Read}
    (some : r.data ≠ []) (there : s.http.conn.state ≠ .kDisconnected) :
    Paid callback (readStep callback s r) ↔ WritesWhole callback s (.read r) := by
  have going := sound.going there
  have isOpen := sound.isOpen
  rw [OpenUntilClosed, going, Bool.not_false, Bool.and_true] at isOpen
  change output s.http.conn = owed callback s at paid
  change output (s.http.receive callback r).conn = owed callback (readStep callback s r) ↔ _
  cases receive_received callback s.http some with
  | answered req finds dispatched said =>
    have unrefused := sound.unrefused some dispatched
    have unrefused' : (readStep callback s r).refused = false := by
      simp only [readStep, finds, unrefused, Bool.or_false]
    have dispatched' : (readStep callback s r).http.dispatched = s.http.dispatched ++ [req] :=
      dispatched
    rw [unrefused, Bool.not_false, Bool.and_true] at isOpen
    rw [owed_of_unrefused unrefused] at paid
    rw [owed_of_unrefused unrefused', dispatched', answers_concat, List.nil_append]
    cases connected : s.http.conn.isConnected with
    | true =>
      rw [connected] at isOpen
      rw [if_pos isOpen.symm, said_paid_iff said paid (appendToBuffer_ne_nil _) connected]
      simp [WritesWhole, finds, reply, some, connected]
    | false =>
      rw [connected] at isOpen
      rw [← isOpen, if_neg Bool.false_ne_true, said_closed said connected, paid]
      simp [WritesWhole, connected]
  | refused finds dispatched said =>
    have owes : owed callback (readStep callback s r) =
        (answers callback [] s.http.dispatched).1 ++
          if (answers callback [] s.http.dispatched).2 then badRequestText else [] := by
      simp only [owed, readStep, finds, Bool.or_true, Bool.and_true, dispatched]
    rw [owes]
    cases connected : s.http.conn.isConnected with
    | true =>
      obtain ⟨stays, unrefused, -⟩ := sound.isConnected_of_open connected
      rw [owed_of_unrefused unrefused] at paid
      rw [if_pos stays, said_paid_iff said paid (by decide) connected]
      simp [WritesWhole, finds, reply, some, connected]
    | false =>
      -- an answer has closed the connection, or a line was refused before
      have same : ((answers callback [] s.http.dispatched).2 && s.refused) =
          (answers callback [] s.http.dispatched).2 := by
        rw [connected] at isOpen
        cases refused : s.refused with
        | true => exact Bool.and_true _
        | false =>
          rw [refused, Bool.not_false, Bool.and_true] at isOpen
          rw [← isOpen]
          rfl
      rw [said_closed said connected, paid, owed, same]
      simp [WritesWhole, connected]
  | silent finds dispatched same =>
    have owes : owed callback (readStep callback s r) = owed callback s := by
      simp only [owed, readStep, finds, Bool.or_false, dispatched]
    have unchanged : output (s.http.receive callback r).conn = output s.http.conn := by
      rw [output, output, same.accepted, same.outputBuffer]
    rw [owes, unchanged]
    exact iff_of_true paid fun _ _ data mem => by simp [finds, reply] at mem

theorem step_paid_iff (sound : Sound callback s) (paid : Paid callback s) (a : Act) :
    (∀ t, step callback s a = some t → Paid callback t) ↔ WritesWhole callback s a := by
  cases a with
  | read r =>
    by_cases possible :
        r.data ≠ [] ∧ s.http.conn.state ≠ .kDisconnected ∧ ReadPossible callback s.http r
    · simp only [step, if_pos possible, Option.some.injEq, forall_eq']
      exact read_paid_iff sound paid possible.1 possible.2.1
    · refine iff_of_true (fun t next => ?_) fun some connected data mem => ?_
      · rw [step, if_neg possible] at next
        cases next
      · have there : s.http.conn.state ≠ .kDisconnected := by
          intro gone
          rw [TcpConnection.isConnected, gone] at connected
          cases connected
        have tooMuch : ¬ r.o.Possible data.length := fun fits =>
          possible ⟨some, there, fun other mem' => by
            rw [Option.mem_def.mp mem] at mem'
            cases mem'
            exact fits⟩
        intro _
        cases outcome : r.o with
        | accepted n =>
          have beyond : data.length ≤ n := by
            rw [outcome] at tooMuch
            exact Nat.le_of_not_le tooMuch
          simp [Nat.sub_eq_zero_of_le beyond, List.drop_eq_nil_of_le beyond]
        | failed errno =>
          rw [outcome] at tooMuch
          exact absurd trivial tooMuch
  | handleWrite o =>
    refine iff_of_true (fun t next => ?_) trivial
    obtain ⟨-, same⟩ := Option.ite_none_right_eq_some.mp next
    cases same
    exact (handleWrite_same s.http.conn o).1.trans paid
  | endOfStream =>
    refine iff_of_true (fun t next => ?_) trivial
    obtain ⟨-, same⟩ := Option.ite_none_right_eq_some.mp next
    cases same
    have closed := (handleClose_same s.http.conn).1
    rw [← TcpConnection.handleRead_eof] at closed
    exact closed.trans paid

/-- In every run of a connection of the HTTP server it is open for sending until an answer
closes it, a request line is refused or the stream of the client ends. The client has been
written, or is to be written, the answers to the requests dispatched up to the first that
closes and a 400 behind them for a refused line, throughout the run exactly if every text that
is written at once is written whole. -/
theorem answers_in_order_iff (callback : HttpCallback) (loop : EventLoop ConnFunctor)
    (sockfd : Int) (options : ConnOptions) (acts : List Act) :
    Throughout (step callback) (OpenUntilClosed callback) (start loop sockfd options) acts ∧
      (Throughout (step callback) (Paid callback) (start loop sockfd options) acts ↔
        Along (step callback) (WritesWhole callback) (start loop sockfd options) acts) := by
  have sound : Sound callback (start loop sockfd options) := start_sound loop sockfd options
  constructor
  · exact throughout_of_along (P := fun _ _ => True)
      (fun _ _ _ sound _ next => step_sound sound next) (fun _ sound => sound.isOpen) sound
      (along_true _ acts)
  · exact throughout_iff_along (J := Sound callback) (R := fun _ _ => True)
      (fun _ a paid sound _ => step_paid_iff sound paid a)
      (fun _ _ _ sound _ next => step_sound sound next) rfl sound (along_true _ acts)

end Runs

end HttpAnswers
