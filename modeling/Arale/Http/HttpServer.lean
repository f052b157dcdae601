import Arale.Http.HttpContext
import Arale.Net.TcpConnection

/-!
# The HTTP server on one connection

`HttpServer` of `net/http/HttpServer.cc` as it serves one connection, on the loop
thread. Each non-empty read is appended to the input buffer by `handleRead`, which
then calls `onMessage` once. An exception leaves `onMessage` through the event loop,
and a parse without end never gives the loop back: nothing is served after either.
-/

namespace Arale

/-- `HttpCallback`. What it answers may depend on the requests it was given before. -/
abbrev HttpCallback := List HttpRequest → HttpRequest → HttpResponse → HttpResponse

def defaultHttpCallback : HttpCallback := fun _ _ resp =>
  { resp with statusCode := 404
              statusMessage := bytes "Not Found"
              closeConnection := true }

/-- One non-empty read, and what the socket makes of a response sent meanwhile. -/
structure Read where
  data : List UInt8
  receiveTime : Int
  o : WriteOutcome
  deriving DecidableEq, Repr

structure HttpConnection where
  conn : TcpConnection
  /-- the connection's `context_` -/
  context : HttpContext
  /-- the requests given to `httpCallback_` -/
  dispatched : List HttpRequest
  /-- `onMessage` has not returned -/
  stuck : Bool

namespace HttpConnection

def onConnection (h : HttpConnection) : HttpConnection :=
  if h.conn.isConnected then { h with context := {} } else h

/-- The connection once `connectionEstablished` has called `onConnection`. -/
def start (loop : EventLoop ConnFunctor) (sockfd : Int) (options : ConnOptions) :
    HttpConnection :=
  onConnection ⟨.established loop sockfd options, {}, [], false⟩

def onRequest (callback : HttpCallback) (h : HttpConnection) (req : HttpRequest)
    (o : WriteOutcome) : HttpConnection :=
  let connection := req.getHeader (bytes "Connection")
  let close := connection == bytes "close" ||
    (req.version == .kHttp10 && connection != bytes "Keep-Alive")
  let response := callback h.dispatched req { closeConnection := close }
  let conn := h.conn.send response.appendToBuffer o
  { h with conn := if response.closeConnection then conn.shutdown true else conn
           dispatched := h.dispatched ++ [req] }

def badRequest (h : HttpConnection) (o : WriteOutcome) : HttpConnection :=
  let conn := h.conn.send (bytes "HTTP/1.1 400 Bad Request\r\n\r\n") o
  { h with conn := conn.shutdown true }

def onMessage (callback : HttpCallback) (h : HttpConnection) (receiveTime : Int)
    (o : WriteOutcome) : HttpConnection :=
  match h.context.parseRequest h.conn.inputBuffer receiveTime with
  | .returned context buf ok =>
    let h := { h with conn := { h.conn with inputBuffer := buf }, context := context }
    if ok then
      if context.isGotAll then
        let h := h.onRequest callback context.request o
        { h with context := h.context.reset }
      else h
    else h.badRequest o
  | .raised => { h with stuck := true }
  | .diverged => { h with stuck := true }

/-- `TcpConnection::handleRead` up to its call of `messageCallback_`. -/
def handleRead (h : HttpConnection) (data : List UInt8) : HttpConnection :=
  { h with conn := h.conn.handleRead (.delivered data) }

def receive (callback : HttpCallback) (h : HttpConnection) (read : Read) : HttpConnection :=
  if h.stuck then h else (h.handleRead read.data).onMessage callback read.receiveTime read.o

def serve (callback : HttpCallback) (h : HttpConnection) (reads : List Read) : HttpConnection :=
  reads.foldl (receive callback) h

end HttpConnection

namespace TcpConnection

variable (c : TcpConnection)

@[simp] theorem inputBuffer_send (data : List UInt8) (o : WriteOutcome) :
    (c.send data o).inputBuffer = c.inputBuffer := by
  unfold send
  split
  · obtain ⟨loop, -, sent⟩ := c.sendInLoop_eq data o
    rw [sent]
    split <;> rfl
  · rfl

@[simp] theorem inputBuffer_shutdown (inLoop : Bool) :
    (c.shutdown inLoop).inputBuffer = c.inputBuffer := by
  cases connected : c.isConnected with
  | false => rw [c.shutdown_of_not_connected connected]
  | true =>
    rw [c.shutdown_of_connected connected]
    cases inLoop with
    | false => rfl
    | true => simp [shutdownInLoop_eq, setState]

theorem inputBuffer_handleRead {data : List UInt8} (some : data ≠ []) :
    (c.handleRead (.delivered data)).inputBuffer = c.inputBuffer ++ data := by
  have positive : 0 < data.length := List.length_pos_iff.mpr some
  simp [handleRead, readInput, positive, notify]

end TcpConnection

namespace HttpConnection

variable (callback : HttpCallback) (h : HttpConnection)

@[simp] theorem inputBuffer_onRequest (req : HttpRequest) (o : WriteOutcome) :
    (h.onRequest callback req o).conn.inputBuffer = h.conn.inputBuffer := by
  simp only [onRequest]
  split <;> simp

@[simp] theorem inputBuffer_badRequest (o : WriteOutcome) :
    (h.badRequest o).conn.inputBuffer = h.conn.inputBuffer := by
  simp [badRequest]

end HttpConnection

end Arale
