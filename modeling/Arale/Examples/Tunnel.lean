import Mathlib.Algebra.Group.Nat.Defs
import Arale.Lib.Schedules
import Arale.Net.TcpConnection

/-!
# The relay's tunnel

`Tunnel` of `examples/socks4a/Tunnel.h` between two connections of one loop, with the
callbacks that `TcpRelay.cc` and `Socks4a.cc` set on the server side. Bytes are passed on in
both directions as they came, whatever the order of events is. When one side closes the
other is shut down, unless it comes up only then.
-/

namespace Arale

open Schedules

/-- The bytes that a read brought. -/
def ReadOutcome.bytes : ReadOutcome → List UInt8
  | .delivered bytes => bytes
  | .failed _ => []

/-- `client` is the connection of `client_` once it is made, `context` says whether the context
of `serverConnection_` holds it. The bytes read on either side and those handed to the other
side's `sendInLoop` are histories. -/
structure Tunnel where
  serverConnection : TcpConnection
  client : Option TcpConnection
  context : Bool
  serverBytes : List UInt8
  clientBytes : List UInt8
  toClient : List UInt8
  toServer : List UInt8

namespace Tunnel

/-- `target->send(source->getInputBuffer())` in the loop thread, and the bytes sent. -/
def sendBuffer (target source : TcpConnection) (o : WriteOutcome) :
    TcpConnection × TcpConnection × List UInt8 :=
  if target.state == .kConnected then
    (target.sendInLoop source.inputBuffer o, { source with inputBuffer := [] }, source.inputBuffer)
  else (target, source, [])

/-- `client_.disconnect()`. -/
def disconnect (t : Tunnel) : Tunnel := { t with client := t.client.map (·.shutdown true) }

def teardown (t : Tunnel) : Tunnel :=
  { t with context := false, serverConnection := t.serverConnection.shutdown true }

/-- `clientConn->send(buf)` with the buffer of the server connection. -/
def forward (t : Tunnel) (client : TcpConnection) (o : WriteOutcome) : Tunnel :=
  let (client, server, sent) := sendBuffer client t.serverConnection o
  { t with serverConnection := server, client := some client, toClient := t.toClient ++ sent }

def onServerMessage (t : Tunnel) (o : WriteOutcome) : Tunnel :=
  match t.context, t.client with
  | true, some client => t.forward client o
  | _, _ => t

/-- `onClientConneciont`, UP. -/
def onClientUp (t : Tunnel) (client : TcpConnection) (o : WriteOutcome) : Tunnel :=
  let t := { t with client := some client, context := true }
  if t.serverConnection.inputBuffer.length > 0 then t.forward client o else t

def onClientMessage (t : Tunnel) (client : TcpConnection) (o : WriteOutcome) : Tunnel :=
  let (server, client, sent) := sendBuffer t.serverConnection client o
  { t with serverConnection := server, client := some client, toServer := t.toServer ++ sent }

inductive Act where
  /-- `handleRead` of the server connection; its callback may write to the other side -/
  | serverReads (r : ReadOutcome) (o : WriteOutcome)
  | serverWrites (o : WriteOutcome)
  /-- `client_` has made its connection -/
  | clientUp (loop : EventLoop ConnFunctor) (sockfd : Int) (o : WriteOutcome)
  | clientReads (r : ReadOutcome) (o : WriteOutcome)
  | clientWrites (o : WriteOutcome)
  /-- a posted `onHighWaterMark` -/
  | onHighWaterMark

/-- A closed connection has no events. -/
def step (t : Tunnel) : Act → Option Tunnel
  | .serverReads r o =>
    if t.serverConnection.state = .kDisconnected then none
    else
      let t := { t with
        serverConnection := t.serverConnection.handleRead r
        serverBytes := t.serverBytes ++ r.bytes }
      if r = .delivered [] then some t.disconnect else some (t.onServerMessage o)
  | .serverWrites o =>
    if t.serverConnection.state = .kDisconnected then none
    else some { t with serverConnection := t.serverConnection.handleWrite o }
  | .clientUp loop sockfd o =>
    match t.client with
    | some _ => none
    | none =>
      let options := { highWaterMark := 10 * 1024 * 1024, highWaterMarkCallback := true }
      some (t.onClientUp (.established loop sockfd options) o)
  | .clientReads r o =>
    match t.client with
    | some client =>
      if client.state = .kDisconnected then none
      else
        let t := { t with clientBytes := t.clientBytes ++ r.bytes }
        if r = .delivered [] then some { t.teardown with client := some (client.handleRead r) }
        else some (t.onClientMessage (client.handleRead r) o)
    | none => none
  | .clientWrites o =>
    match t.client with
    | some client =>
      if client.state = .kDisconnected then none
      else some { t with client := some (client.handleWrite o) }
    | none => none
  | .onHighWaterMark => some t.disconnect

/-- The tunnel as it is made for a connection, which may have sent something already. -/
def start (server : TcpConnection) : Tunnel :=
  ⟨server, none, false, server.inputBuffer, [], [], []⟩

/-- The bytes of the client side that wait. -/
def clientInput (t : Tunnel) : List UInt8 :=
  match t.client with
  | some client => client.inputBuffer
  | none => []

/-! ## What the calls leave alone -/

section Frames
variable (c : TcpConnection)

theorem sendInLoop_frame (data : List UInt8) (o : WriteOutcome) :
    (c.sendInLoop data o).state = c.state ∧ (c.sendInLoop data o).inputBuffer = c.inputBuffer := by
  obtain ⟨loop, -, same⟩ := c.sendInLoop_eq data o
  rw [same]
  split <;> exact ⟨rfl, rfl⟩

theorem handleWrite_frame (o : WriteOutcome) :
    (c.handleWrite o).state = c.state ∧ (c.handleWrite o).inputBuffer = c.inputBuffer := by
  obtain ⟨loop, channel, -, -, same⟩ := c.handleWrite_eq o
  rw [same]
  exact ⟨rfl, rfl⟩

theorem shutdown_frame :
    (c.shutdown true).state = (if c.state = .kConnected then .kDisconnecting else c.state) ∧
      (c.shutdown true).inputBuffer = c.inputBuffer := by
  by_cases connected : c.state = .kConnected
  · have on : c.isConnected = true := by simp [TcpConnection.isConnected, connected]
    rw [c.shutdown_of_connected on, if_pos rfl, TcpConnection.shutdownInLoop_eq, if_pos connected]
    exact ⟨rfl, rfl⟩
  · have off : c.isConnected = false := by simp [TcpConnection.isConnected, connected]
    rw [c.shutdown_of_not_connected off, if_neg connected]
    exact ⟨rfl, rfl⟩

theorem handleRead_frame (r : ReadOutcome) :
    (c.handleRead r).state = (if r = .delivered [] then .kDisconnected else c.state) ∧
      (c.handleRead r).inputBuffer = c.inputBuffer ++ r.bytes := by
  cases r with
  | failed errno =>
    have read : c.handleRead (.failed errno) = c.notify .messageCallback := rfl
    rw [read]
    exact ⟨rfl, (List.append_nil _).symm⟩
  | delivered bytes =>
    cases bytes with
    | nil =>
      rw [c.handleRead_eof, c.handleClose_eq]
      exact ⟨rfl, (List.append_nil _).symm⟩
    | cons byte bytes =>
      have read : c.handleRead (.delivered (byte :: bytes)) =
          TcpConnection.notify { c with inputBuffer := c.inputBuffer ++ byte :: bytes }
            .messageCallback := rfl
      rw [read]
      exact ⟨rfl, rfl⟩

end Frames

/-- Sending a buffer moves all of it or nothing. -/
theorem sendBuffer_spec (target source : TcpConnection) (o : WriteOutcome) :
    ∃ target' source' sent, sendBuffer target source o = (target', source', sent) ∧
      target'.state = target.state ∧ target'.inputBuffer = target.inputBuffer ∧
      source'.state = source.state ∧ source.inputBuffer = sent ++ source'.inputBuffer ∧
      (target.state = .kConnected → source'.inputBuffer = []) := by
  by_cases connected : target.state = .kConnected
  · obtain ⟨state, input⟩ := sendInLoop_frame target source.inputBuffer o
    refine ⟨_, _, _, if_pos (by simp [connected]), state, input, rfl, ?_, fun _ => rfl⟩
    exact (List.append_nil _).symm
  · exact ⟨_, _, _, if_neg (by simp [connected]), rfl, rfl, rfl, rfl,
      fun on => absurd on connected⟩

/-! ## The streams -/

/-- What has been read has been handed on, in order, or waits in the buffer. -/
structure Accounted (t : Tunnel) : Prop where
  fromServer : t.serverBytes = t.toClient ++ t.serverConnection.inputBuffer
  fromClient : t.clientBytes = t.toServer ++ t.clientInput
  context : t.context = true ↔ ∃ c, t.client = some c ∧ c.state ≠ .kDisconnected

/-- Nothing waits for a side that is connected. -/
structure Relayed (t : Tunnel) : Prop extends Accounted t where
  serverPrompt : ∀ c, t.client = some c → c.state = .kConnected →
    t.serverConnection.inputBuffer = []
  clientPrompt : t.serverConnection.state = .kConnected → t.clientInput = []

section Steps
variable {t t' : Tunnel} {client : TcpConnection}

theorem forward_relayed (h : Accounted t) (here : t.client = some client)
    (clientPrompt : t.serverConnection.state = .kConnected → t.clientInput = [])
    (o : WriteOutcome) : Relayed (t.forward client o) := by
  obtain ⟨client', server', sent, done, state, input, serverState, moved, all⟩ :=
    sendBuffer_spec client t.serverConnection o
  have same : t.forward client o = { t with
      serverConnection := server', client := some client', toClient := t.toClient ++ sent } := by
    simp only [forward, done]
  have waits : t.clientInput = client'.inputBuffer := by
    rw [clientInput, here, input]
  rw [same]
  refine ⟨⟨?_, ?_, ?_⟩, ?_, ?_⟩
  · rw [h.fromServer, moved, List.append_assoc]
  · rw [h.fromClient, waits]
    rfl
  · rw [h.context, here]
    simp [state]
  · intro c now connected
    cases now
    exact all (state ▸ connected)
  · intro connected
    have nothing := clientPrompt (serverState ▸ connected)
    rwa [waits] at nothing

theorem onClientMessage_relayed (h : Accounted { t with client := some client })
    (serverPrompt : client.state = .kConnected → t.serverConnection.inputBuffer = [])
    (o : WriteOutcome) : Relayed (t.onClientMessage client o) := by
  obtain ⟨server', client', sent, done, state, input, clientState, moved, all⟩ :=
    sendBuffer_spec t.serverConnection client o
  have same : t.onClientMessage client o = { t with
      serverConnection := server', client := some client', toServer := t.toServer ++ sent } := by
    simp only [onClientMessage, done]
  have read : t.clientBytes = t.toServer ++ client.inputBuffer := h.fromClient
  rw [same]
  refine ⟨⟨?_, ?_, ?_⟩, ?_, ?_⟩
  · rw [input]
    exact h.fromServer
  · rw [read, moved, ← List.append_assoc]
    rfl
  · have context := h.context
    simpa [clientState] using context
  · intro c now connected
    cases now
    rw [input]
    exact serverPrompt (clientState ▸ connected)
  · exact fun connected => all (state ▸ connected)

theorem disconnect_relayed (h : Relayed t) : Relayed t.disconnect := by
  cases here : t.client with
  | none =>
    have same : t.disconnect = t := by
      cases t
      simp_all [disconnect]
    rwa [same]
  | some client =>
    obtain ⟨state, input⟩ := shutdown_frame client
    have same : t.disconnect = { t with client := some (client.shutdown true) } := by
      simp [disconnect, here]
    have waits : t.clientInput = (client.shutdown true).inputBuffer := by
      rw [clientInput, here, input]
    rw [same]
    refine ⟨⟨h.fromServer, ?_, ?_⟩, ?_, ?_⟩
    · rw [h.fromClient, waits]
      rfl
    · rw [h.context, here]
      by_cases connected : client.state = .kConnected <;> simp [state, connected]
    · intro c now connected
      cases now
      rw [state] at connected
      split at connected
      · cases connected
      · exact absurd connected (by assumption)
    · intro connected
      have nothing := h.clientPrompt connected
      rwa [waits] at nothing

/-- Reads change the input of the server side only. -/
theorem serverReads_accounted (h : Relayed t) (r : ReadOutcome) :
    Accounted { t with
      serverConnection := t.serverConnection.handleRead r
      serverBytes := t.serverBytes ++ r.bytes } := by
  obtain ⟨-, input⟩ := handleRead_frame t.serverConnection r
  refine ⟨?_, h.fromClient, h.context⟩
  rw [input, h.fromServer, List.append_assoc]

theorem onServerMessage_relayed (h : Accounted t)
    (clientPrompt : t.serverConnection.state = .kConnected → t.clientInput = [])
    (o : WriteOutcome) : Relayed (t.onServerMessage o) := by
  rw [onServerMessage]
  split
  · rename_i client _ here
    exact forward_relayed h here clientPrompt o
  · rename_i neither
    refine ⟨h, fun c here connected => ?_, clientPrompt⟩
    have context : t.context = true := h.context.mpr ⟨c, here, by simp [connected]⟩
    exact absurd here (neither c context)

/-- The client side has been closed by its peer. -/
theorem clientEof_relayed (h : Relayed t) (here : t.client = some client) {closed : TcpConnection}
    (down : closed.state = .kDisconnected) (input : closed.inputBuffer = client.inputBuffer) :
    Relayed { t.teardown with client := some closed } := by
  obtain ⟨state, same⟩ := shutdown_frame t.serverConnection
  have read := h.fromClient
  rw [clientInput, here] at read
  refine ⟨⟨?_, ?_, ?_⟩, ?_, ?_⟩
  · exact h.fromServer.trans (congrArg _ same.symm)
  · exact read.trans (congrArg _ input.symm)
  · simp [teardown, down]
  · intro c now connected
    cases now
    rw [down] at connected
    cases connected
  · intro connected
    have was := state.symm.trans connected
    split at was
    · cases was
    · exact absurd was (by assumption)

theorem clientUp_relayed (h : Relayed t) (fresh : t.client = none)
    (up : client.state = .kConnected) (empty : client.inputBuffer = []) (o : WriteOutcome) :
    Relayed (t.onClientUp client o) := by
  have none : t.clientInput = [] := by rw [clientInput, fresh]
  have accounted : Accounted { t with client := some client, context := true } := by
    refine ⟨h.fromServer, ?_, by simp [up]⟩
    have read := h.fromClient
    rw [none] at read
    simpa [clientInput, empty] using read
  have prompt : clientInput { t with client := some client, context := true } = [] := empty
  rw [onClientUp]
  split
  · exact forward_relayed accounted rfl (fun _ => prompt) o
  · rename_i nothing
    refine ⟨accounted, fun c now connected => ?_, fun _ => prompt⟩
    exact List.length_eq_zero_iff.mp (Nat.eq_zero_of_not_pos nothing)

theorem Relayed.step (h : Relayed t) {a : Act} (next : step t a = some t') : Relayed t' := by
  cases a with
  | serverReads r o =>
    simp only [Tunnel.step] at next
    split at next
    · cases next
    · have accounted := serverReads_accounted h r
      obtain ⟨state, -⟩ := handleRead_frame t.serverConnection r
      split at next
      · rename_i eof
        cases next
        subst eof
        rw [if_pos rfl] at state
        apply disconnect_relayed
        refine ⟨accounted, fun c here connected => ?_, fun connected => ?_⟩
        · obtain ⟨-, input⟩ := handleRead_frame t.serverConnection (.delivered [])
          exact input.trans ((List.append_nil _).trans (h.serverPrompt c here connected))
        · rw [state] at connected
          cases connected
      · rename_i more
        cases next
        rw [if_neg more] at state
        exact onServerMessage_relayed accounted
          (fun connected => h.clientPrompt (state ▸ connected)) o
  | serverWrites o =>
    simp only [Tunnel.step] at next
    split at next
    · cases next
    · cases next
      obtain ⟨state, input⟩ := handleWrite_frame t.serverConnection o
      refine ⟨⟨?_, h.fromClient, h.context⟩, ?_, ?_⟩
      · rw [input]
        exact h.fromServer
      · rw [input]
        exact h.serverPrompt
      · rw [state]
        exact h.clientPrompt
  | clientUp loop sockfd o =>
    simp only [Tunnel.step] at next
    split at next
    · cases next
    · rename_i fresh
      cases next
      exact clientUp_relayed h fresh rfl rfl o
  | clientReads r o =>
    simp only [Tunnel.step] at next
    split at next
    · rename_i client here
      split at next
      · cases next
      · rename_i live
        obtain ⟨state, input⟩ := handleRead_frame client r
        split at next
        · rename_i eof
          cases next
          subst eof
          rw [if_pos rfl] at state
          have grown : Relayed { t with clientBytes := t.clientBytes ++ [] } := by
            rw [List.append_nil]
            exact h
          exact clientEof_relayed grown here state (input.trans (List.append_nil _))
        · rename_i more
          cases next
          rw [if_neg more] at state
          have read := h.fromClient
          rw [clientInput, here] at read
          refine onClientMessage_relayed (t := { t with clientBytes := t.clientBytes ++ r.bytes })
            ⟨h.fromServer, ?_, ?_⟩ ?_ o
          · rw [read, List.append_assoc]
            exact congrArg _ input.symm
          · rw [h.context, here]
            simp [state]
          · exact fun connected => h.serverPrompt client here (state ▸ connected)
    · cases next
  | clientWrites o =>
    simp only [Tunnel.step] at next
    split at next
    · rename_i client here
      split at next
      · cases next
      · cases next
        obtain ⟨state, input⟩ := handleWrite_frame client o
        have waits : t.clientInput = (client.handleWrite o).inputBuffer := by
          rw [clientInput, here, input]
        refine ⟨⟨h.fromServer, ?_, ?_⟩, ?_, ?_⟩
        · rw [h.fromClient, waits]
          rfl
        · rw [h.context, here]
          simp [state]
        · intro c now connected
          cases now
          exact h.serverPrompt client here (state ▸ connected)
        · intro connected
          have nothing := h.clientPrompt connected
          rwa [waits] at nothing
    · cases next
  | onHighWaterMark =>
    cases next
    exact disconnect_relayed h

end Steps

theorem start_relayed {server : TcpConnection} : Relayed (start server) := by
  refine ⟨⟨rfl, rfl, by simp [start]⟩, ?_, fun _ => rfl⟩
  intro c here
  cases here

/-- Whatever the order of events, the bytes read on one side are those handed to the other, in
order, and those that wait in the buffer; and nothing waits for a side that is connected. -/
theorem relays_streams {server : TcpConnection} {actions : List Act} {t : Tunnel}
    (done : run step (start server) actions = some t) :
    t.serverBytes = t.toClient ++ t.serverConnection.inputBuffer ∧
      t.clientBytes = t.toServer ++ t.clientInput ∧
      (∀ c, t.client = some c → c.isConnected = true → t.serverConnection.inputBuffer = []) ∧
      (t.serverConnection.isConnected = true → t.clientInput = []) := by
  have relayed : Relayed t :=
    run_invariant (P := fun _ _ => True) (fun _ _ _ h _ next => h.step next) start_relayed
      (along_true _ _) done
  refine ⟨relayed.fromServer, relayed.fromClient, fun c here connected => ?_, fun connected => ?_⟩
  · exact relayed.serverPrompt c here (by simpa [TcpConnection.isConnected] using connected)
  · exact relayed.clientPrompt (by simpa [TcpConnection.isConnected] using connected)

/-- Two bytes wait for the client side to come up, one comes back. -/
theorem relays_streams_three :
    ∃ t, run step (start (.established .new 5 {})) [.serverReads (.delivered [1, 2]) (.accepted 0),
        .clientUp .new 6 (.accepted 2), .clientReads (.delivered [3]) (.accepted 1)] = some t ∧
      t.toClient = [1, 2] ∧ t.toServer = [3] ∧
      (t.serverBytes = t.toClient ++ t.serverConnection.inputBuffer ∧
        t.clientBytes = t.toServer ++ t.clientInput ∧
        (∀ c, t.client = some c → c.isConnected = true → t.serverConnection.inputBuffer = []) ∧
        (t.serverConnection.isConnected = true → t.clientInput = [])) := by
  refine ⟨_, rfl, rfl, rfl, ?_⟩
  exact @relays_streams (.established .new 5 {}) [.serverReads (.delivered [1, 2]) (.accepted 0),
    .clientUp .new 6 (.accepted 2), .clientReads (.delivered [3]) (.accepted 1)] _ rfl

/-! ## Closing -/

/-- The states of the two sides. -/
def sides (t : Tunnel) : ConnState × Option ConnState :=
  (t.serverConnection.state, t.client.map (·.state))

/-- The state after `shutdown()`. -/
def afterShutdown (s : ConnState) : ConnState := if s = .kConnected then .kDisconnecting else s

/-- What an action does to the states of the two sides. -/
def turn (p : ConnState × Option ConnState) : Act → ConnState × Option ConnState
  | .serverReads r _ => if r = .delivered [] then (.kDisconnected, p.2.map afterShutdown) else p
  | .clientUp _ _ _ => (p.1, some .kConnected)
  | .clientReads r _ =>
    if r = .delivered [] then (afterShutdown p.1, some .kDisconnected) else p
  | .onHighWaterMark => (p.1, p.2.map afterShutdown)
  | .serverWrites _ | .clientWrites _ => p

/-- Neither side stays connected when the other has closed. -/
def ClosesBoth (t : Tunnel) : Prop :=
  (t.sides.2 = some .kDisconnected → t.sides.1 ≠ .kConnected) ∧
    (t.sides.1 = .kDisconnected → t.sides.2 ≠ some .kConnected)

/-- The client side does not come up behind a server side that has closed. -/
def InTime (t : Tunnel) : Act → Prop
  | .clientUp _ _ _ => t.client = none → t.serverConnection.state ≠ .kDisconnected
  | _ => True

section Closing
variable {t t' : Tunnel} {client : TcpConnection}

theorem sides_forward (t : Tunnel) (client : TcpConnection) (o : WriteOutcome) :
    (t.forward client o).sides = (t.serverConnection.state, some client.state) := by
  obtain ⟨client', server', sent, done, state, -, serverState, -⟩ :=
    sendBuffer_spec client t.serverConnection o
  simp only [forward, done, sides, Option.map_some, state, serverState]

theorem sides_onServerMessage (t : Tunnel) (o : WriteOutcome) :
    (t.onServerMessage o).sides = t.sides := by
  rw [onServerMessage]
  split
  · rename_i client _ here
    rw [sides_forward, sides, here]
    rfl
  · rfl

theorem sides_onClientMessage (t : Tunnel) (client : TcpConnection) (o : WriteOutcome) :
    (t.onClientMessage client o).sides = (t.serverConnection.state, some client.state) := by
  obtain ⟨server', client', sent, done, state, -, clientState, -⟩ :=
    sendBuffer_spec t.serverConnection client o
  simp only [onClientMessage, done, sides, Option.map_some, state, clientState]

theorem sides_disconnect (t : Tunnel) :
    t.disconnect.sides = (t.sides.1, t.sides.2.map afterShutdown) := by
  cases here : t.client with
  | none => simp [sides, disconnect, here]
  | some client => simp [sides, disconnect, here, shutdown_frame, afterShutdown]

/-- Every action moves the states of the two sides as `turn` says. -/
theorem sides_step {a : Act} (next : step t a = some t') : t'.sides = turn t.sides a := by
  cases a with
  | serverReads r o =>
    obtain ⟨state, -⟩ := handleRead_frame t.serverConnection r
    simp only [step] at next
    split at next
    · cases next
    · split at next
      · rename_i eof
        cases next
        rw [if_pos eof] at state
        rw [sides_disconnect, turn, if_pos eof, sides, state]
        rfl
      · rename_i more
        cases next
        rw [if_neg more] at state
        rw [sides_onServerMessage, turn, if_neg more, sides, state]
        rfl
  | serverWrites o =>
    simp only [step] at next
    split at next
    · cases next
    · cases next
      simp only [sides, turn, handleWrite_frame]
  | clientUp loop sockfd o =>
    simp only [step] at next
    split at next
    · cases next
    · cases next
      rw [onClientUp, turn]
      split
      · rw [sides_forward]
        rfl
      · rfl
  | clientReads r o =>
    simp only [step] at next
    split at next
    · rename_i client here
      obtain ⟨state, -⟩ := handleRead_frame client r
      split at next
      · cases next
      · split at next
        · rename_i eof
          cases next
          rw [if_pos eof] at state
          rw [turn, if_pos eof, sides, Option.map_some, state]
          exact Prod.ext (shutdown_frame t.serverConnection).1 rfl
        · rename_i more
          cases next
          rw [if_neg more] at state
          rw [sides_onClientMessage, turn, if_neg more, sides, here, state]
          rfl
    · cases next
  | clientWrites o =>
    simp only [step] at next
    split at next
    · rename_i client here
      split at next
      · cases next
      · cases next
        simp [sides, turn, here, handleWrite_frame]
    · cases next
  | onHighWaterMark =>
    cases next
    exact sides_disconnect t

theorem afterShutdown_ne (s : ConnState) : afterShutdown s ≠ .kConnected := by
  cases s <;> decide

/-- A step leaves no side connected behind the other one exactly if the client side comes up
in time. -/
theorem closesBoth_step_iff (closes : ClosesBoth t) (a : Act) :
    (∀ t', step t a = some t' → ClosesBoth t') ↔ InTime t a := by
  constructor
  · intro kept
    cases a with
    | clientUp loop sockfd o =>
      intro fresh down
      have next : ∃ t', step t (.clientUp loop sockfd o) = some t' := by
        simp only [step, fresh]
        exact ⟨_, rfl⟩
      obtain ⟨t', next⟩ := next
      have both := (kept t' next).2
      rw [sides_step next, turn] at both
      exact both down rfl
    | serverReads | serverWrites | clientReads | clientWrites | onHighWaterMark => trivial
  · intro inTime t' next
    have moved := sides_step next
    rw [ClosesBoth, moved]
    obtain ⟨afterClient, afterServer⟩ := closes
    cases a with
    | serverReads r o =>
      rw [turn]
      split
      · refine ⟨fun _ => by simp, fun _ => ?_⟩
        intro connected
        obtain ⟨s, -, same⟩ := Option.map_eq_some_iff.mp connected
        exact afterShutdown_ne s same
      · exact ⟨afterClient, afterServer⟩
    | serverWrites o => exact ⟨afterClient, afterServer⟩
    | clientUp loop sockfd o =>
      have fresh : t.client = none := by
        simp only [step] at next
        split at next
        · cases next
        · assumption
      refine ⟨fun down => by simp [turn] at down, fun down => absurd down (inTime fresh)⟩
    | clientReads r o =>
      rw [turn]
      split
      · exact ⟨fun _ => afterShutdown_ne _, fun _ => by simp⟩
      · exact ⟨afterClient, afterServer⟩
    | clientWrites o => exact ⟨afterClient, afterServer⟩
    | onHighWaterMark =>
      refine ⟨fun down => ?_, fun _ connected => ?_⟩
      · obtain ⟨s, here, same⟩ := Option.map_eq_some_iff.mp down
        have closed : s = .kDisconnected := by
          cases s <;> simp_all [afterShutdown]
        exact afterClient (closed ▸ here)
      · obtain ⟨s, -, same⟩ := Option.map_eq_some_iff.mp connected
        exact afterShutdown_ne s same

end Closing

/-- Throughout a run no side stays connected when the other has closed, exactly if the client
side does not come up after the server side has closed: `disconnect()` has nothing to shut
down by then, and does not stop the connector. -/
theorem closes_both_iff_in_time {server : TcpConnection} (actions : List Act) :
    Throughout step ClosesBoth (start server) actions ↔
      Along step InTime (start server) actions := by
  have begun : ClosesBoth (start server) := by
    constructor
    · intro down
      cases down
    · intro _ connected
      cases connected
  exact throughout_iff_along (J := fun _ => True) (R := fun _ _ => True)
    (fun t a closes _ _ => closesBoth_step_iff closes a) (fun _ _ _ _ _ _ => trivial) begun trivial
    (along_true _ _)

end Tunnel
end Arale
