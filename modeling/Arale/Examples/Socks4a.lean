import Arale.Examples.Tunnel
import Arale.Lib.Framing
import Arale.Net.BufferInts

/-!
# The socks4a server

`onServerMessage` of `examples/socks4a/Socks4a.cc`. A client asks for an address or a host
name. Its request is read again from the front of the input buffer with every message until
it is complete. Then the connection becomes one side of a tunnel to the target, or is
refused and shut down.
-/

namespace Arale

open ByteOrder Framing Schedules

namespace Socks4a

/-- `sin_port` and `s_addr` as they lie in memory. -/
structure Target where
  port : List UInt8
  ip : List UInt8
  deriving DecidableEq, Repr

/-- `std::find(buf + start, end, '\0')`. -/
def findZero (buf : List UInt8) (start : Nat) : Nat := start + (buf.drop start).idxOf 0

/-- The bytes from `first` up to `last`. -/
def slice (buf : List UInt8) (first last : Nat) : List UInt8 :=
  (buf.drop first).take (last - first)

/-- The checks of a request that ends at `last`; `ip` is there if it is `okay`. -/
def answer (buf : List UInt8) (ip : Option (List UInt8)) (last : Nat) : Front Target :=
  let ver := buf.getD 0 0
  let cmd := buf.getD 1 0
  match ip with
  | some ip => if ver = 4 ∧ cmd = 1 then .frame ⟨slice buf 2 4, ip⟩ (last + 1) else .bad
  | none => .bad

/-- What `InetAddress::resolve` says of a host name. -/
abbrev Resolver := List UInt8 → Option (List UInt8)

/-- What a buffer of at most 128 bytes begins with. -/
def parse (order : Order) (resolve : Resolver) (buf : List UInt8) : Front Target :=
  if buf.length > 8 then
    let userEnd := findZero buf 8
    if userEnd ≠ buf.length then
      let ip := slice buf 4 8
      if sockets.networkToHost32 order (.ofNat (order.load ip)) < 256 then
        let endOfHostName := findZero buf (userEnd + 1)
        if endOfHostName ≠ buf.length then
          let hostname := slice buf (userEnd + 1) endOfHostName
          answer buf (resolve hostname) endOfHostName
        else .short
      else answer buf (some ip) userEnd
    else .short
  else .short

/-- A connection without an entry in `g_tunnels`, or with one behind a request. -/
inductive Stage where
  | waiting (conn : TcpConnection)
  | tunnelled (request : List UInt8) (tunnel : Tunnel)

/-- `replies` are those that were sent. -/
structure Session where
  stage : Stage
  replies : List (List UInt8)

/-- `\000\x5aUVWXYZ` with the target copied in. -/
def granted (target : Target) : List UInt8 := [0, 0x5a] ++ target.port ++ target.ip

/-- `\000\x5bUVWXYZ`. -/
def refused : List UInt8 := [0, 0x5b, 85, 86, 87, 88, 89, 90]

/-- What `Tunnel::setup` does to the server connection. -/
def setup (conn : TcpConnection) : TcpConnection :=
  { conn with highWaterMark := 10 * 1024 * 1024, highWaterMarkCallback := true }

/-- `conn->send(response, 8)` is recorded if it is not dropped. -/
def Session.reply (s : Session) (conn : TcpConnection) (response : List UInt8) :
    List (List UInt8) :=
  if conn.isConnected then s.replies ++ [response] else s.replies

/-- `onServerMessage` of a connection that is not in `g_tunnels`. -/
def onServerMessage (order : Order) (resolve : Resolver) (s : Session) (conn : TcpConnection)
    (o : WriteOutcome) : Session :=
  if conn.inputBuffer.length > 128 then { s with stage := .waiting (conn.shutdown true) }
  else match parse order resolve conn.inputBuffer with
    | .short => { s with stage := .waiting conn }
    | .bad => ⟨.waiting ((conn.send refused o).shutdown true), s.reply conn refused⟩
    | .frame target size =>
      let request := conn.inputBuffer.take size
      let conn := { setup conn with inputBuffer := conn.inputBuffer.drop size }
      ⟨.tunnelled request (.start (conn.send (granted target) o)), s.reply conn (granted target)⟩

/-- An event, with what the resolver knows by then. -/
structure Act where
  event : Tunnel.Act
  resolve : Resolver

/-- There is no client side before there is a tunnel. -/
def step (order : Order) (s : Session) (a : Act) : Option Session :=
  match s.stage with
  | .tunnelled request tunnel =>
    (tunnel.step a.event).map fun tunnel => { s with stage := .tunnelled request tunnel }
  | .waiting conn =>
    if conn.state = .kDisconnected then none
    else match a.event with
      | .serverReads r o =>
        if r = .delivered [] then some { s with stage := .waiting (conn.handleRead r) }
        else some (onServerMessage order a.resolve s (conn.handleRead r) o)
      | .serverWrites o => some { s with stage := .waiting (conn.handleWrite o) }
      | .clientUp _ _ _ | .clientReads _ _ | .clientWrites _ | .onHighWaterMark => none

def accepted (loop : EventLoop ConnFunctor) (sockfd : Int) (options : ConnOptions) : Session :=
  ⟨.waiting (.established loop sockfd options), []⟩

/-- What an event reads from the client. -/
def Act.bytes (a : Act) : List UInt8 :=
  match a.event with
  | .serverReads r _ => r.bytes
  | _ => []

/-- Whether an event of the client's connection calls `onServerMessage`. -/
def Act.isMessage (a : Act) : Bool :=
  match a.event with
  | .serverReads r _ => r ≠ .delivered []
  | _ => false

/-- All that has been read from the client. -/
def bytesRead (actions : List Act) : List UInt8 := actions.flatMap Act.bytes

/-! ## The format -/

section Zeros
variable {buf : List UInt8} {start : Nat}

theorem findZero_le (inside : start ≤ buf.length) : findZero buf start ≤ buf.length := by
  have least : (buf.drop start).idxOf 0 ≤ (buf.drop start).length := List.idxOf_le_length
  rw [List.length_drop] at least
  rw [findZero]
  omega

theorem findZero_lt (inside : start ≤ buf.length) (found : findZero buf start ≠ buf.length) :
    findZero buf start < buf.length :=
  Nat.lt_of_le_of_ne (findZero_le inside) found

/-- A zero that has been found stays where it is. -/
theorem findZero_append (inside : start ≤ buf.length) (found : findZero buf start ≠ buf.length)
    (more : List UInt8) : findZero (buf ++ more) start = findZero buf start := by
  have there : 0 ∈ buf.drop start := by
    rw [← List.idxOf_lt_length_iff, List.length_drop]
    have least := findZero_lt inside found
    rw [findZero] at least
    omega
  rw [findZero, List.drop_append_of_le_length inside, List.idxOf_append_of_mem there, findZero]

theorem slice_append {first last : Nat} (ordered : first ≤ last) (inside : last ≤ buf.length)
    (more : List UInt8) : slice (buf ++ more) first last = slice buf first last := by
  rw [slice, List.drop_append_of_le_length (by omega),
    List.take_append_of_le_length (by rw [List.length_drop]; omega), slice]

end Zeros

section Parse
variable {order : Order} {resolve : Resolver} {buf : List UInt8}

theorem answer_append (enough : 8 < buf.length) (more : List UInt8) (ip : Option (List UInt8))
    (last : Nat) : answer (buf ++ more) ip last = answer buf ip last := by
  have port := slice_append (show 2 ≤ 4 by decide) (show 4 ≤ buf.length by omega) more
  have byte (i : Nat) (inside : i < 8) : (buf ++ more).getD i 0 = buf.getD i 0 := by
    rw [List.getD_eq_getElem?_getD, List.getElem?_append_left (by omega),
      List.getD_eq_getElem?_getD]
  simp only [answer, port, byte 0 (by decide), byte 1 (by decide)]

theorem answer_ne_short (ip : Option (List UInt8)) (last : Nat) : answer buf ip last ≠ .short := by
  cases ip with
  | none => simp [answer]
  | some ip =>
    rw [answer]
    split <;> simp

theorem answer_frame {ip : Option (List UInt8)} {last size : Nat} {target : Target}
    (found : answer buf ip last = .frame target size) : size = last + 1 := by
  cases ip with
  | none => cases found
  | some ip =>
    simp only [answer] at found
    split at found
    · cases found
      rfl
    · cases found

/-- A buffer that is not short holds a request that ends at `last`, whatever follows. -/
theorem parse_complete (final : parse order resolve buf ≠ .short) :
    8 < buf.length ∧ ∃ ip last, last < buf.length ∧
      ∀ more, parse order resolve (buf ++ more) = answer (buf ++ more) ip last := by
  rw [parse] at final
  split at final
  · rename_i enough
    have longer (more : List UInt8) : buf.length ≤ (buf ++ more).length := by simp
    have bytes (more : List UInt8) := slice_append (show 4 ≤ 8 by decide) (Nat.le_of_lt enough) more
    simp only at final
    split at final
    · rename_i user
      have userEnd := findZero_append (by omega) user
      have userInside := findZero_lt (by omega) user
      split at final
      · rename_i small
        split at final
        · rename_i host
          have hostEnd := findZero_append (by omega) host
          have hostInside := findZero_lt (by omega) host
          have first : findZero buf 8 + 1 ≤ findZero buf (findZero buf 8 + 1) :=
            Nat.le_add_right _ _
          have name (more : List UInt8) := slice_append first (Nat.le_of_lt hostInside) more
          refine ⟨enough,
            resolve (slice buf (findZero buf 8 + 1) (findZero buf (findZero buf 8 + 1))),
            _, hostInside, fun more => ?_⟩
          have still := longer more
          simp only [parse, userEnd, bytes, if_pos small, hostEnd, name]
          rw [if_pos (by omega), if_pos (by omega), if_pos (by omega)]
        · exact absurd rfl final
      · rename_i large
        refine ⟨enough, some (slice buf 4 8), _, userInside, fun more => ?_⟩
        have still := longer more
        simp only [parse, userEnd, bytes, if_neg large]
        rw [if_pos (by omega), if_pos (by omega)]
    · exact absurd rfl final
  · exact absurd rfl final

end Parse

def reader (order : Order) (resolve : Resolver) : Reader UInt8 Target where
  front := parse order resolve
  fits := by
    intro xs target size found
    obtain ⟨-, ip, last, inside, read⟩ := parse_complete (by rw [found]; simp)
    have here := read []
    rw [List.append_nil, found] at here
    have size := answer_frame here.symm
    omega
  settled := by
    intro xs final more
    obtain ⟨enough, ip, last, -, read⟩ := parse_complete final
    have here := read []
    rw [List.append_nil] at here
    rw [read more, here, answer_append enough]

/-! ## What decides -/

/-- The message `a` finds a request that is granted, in at most 128 bytes. -/
def Grants (order : Order) (earlier : List Act) (a : Act) (target : Target) (size : Nat) : Prop :=
  a.isMessage = true ∧ (bytesRead (earlier ++ [a])).length ≤ 128 ∧
    parse order a.resolve (bytesRead (earlier ++ [a])) = .frame target size

def GrantsSome (order : Order) (earlier : List Act) (a : Act) : Prop :=
  ∃ target size, Grants order earlier a target size

/-- The message `a` finds one that is not. -/
def Refuses (order : Order) (earlier : List Act) (a : Act) : Prop :=
  a.isMessage = true ∧ (bytesRead (earlier ++ [a])).length ≤ 128 ∧
    parse order a.resolve (bytesRead (earlier ++ [a])) = .bad

/-- The message `a` finds too much. -/
def Overflows (earlier : List Act) (a : Act) : Prop :=
  a.isMessage = true ∧ 128 < (bytesRead (earlier ++ [a])).length

/-- The client has been told what was decided, the first time. -/
structure Told (refusal : Prop) (replies : List (List UInt8)) (response : List (List UInt8)) :
    Prop where
  earlier : refusal → replies = [refused]
  now : ¬ refusal → replies = response

/-- A connection without a tunnel, after these events. -/
structure Waits (order : Order) (actions : List Act) (replies : List (List UInt8))
    (conn : TcpConnection) : Prop where
  input : conn.inputBuffer = bytesRead actions
  ungranted : ¬ Happened (GrantsSome order) actions
  told : Told (Happened (Refuses order) actions) replies []
  connected : conn.state ≠ .kDisconnected → (conn.state = .kConnected ↔
    ¬ Happened (Refuses order) actions ∧ ¬ Happened Overflows actions)

/-- A connection with one. -/
structure Tunnels (order : Order) (actions : List Act) (replies : List (List UInt8))
    (request : List UInt8) (tunnel : Tunnel) : Prop where
  granted : ∃ first a later target, actions = first ++ a :: later ∧
    Grants order first a target request.length ∧
    Told (Happened (Refuses order) first) replies [Socks4a.granted target]
  arrived : bytesRead actions = request ++ tunnel.serverBytes
  relayed : tunnel.Relayed

def Tells (order : Order) (actions : List Act) (s : Session) : Prop :=
  match s.stage with
  | .waiting conn => Waits order actions s.replies conn
  | .tunnelled request tunnel => Tunnels order actions s.replies request tunnel

section Runs
variable {order : Order} {actions : List Act} {a : Act} {s t : Session} {conn : TcpConnection}

theorem bytesRead_concat : bytesRead (actions ++ [a]) = bytesRead actions ++ a.bytes := by
  simp [bytesRead]

/-- What has been read only grows. -/
theorem length_bytesRead_of_happened {P : List Act → Act → Prop}
    (happened : Happened P actions) :
    ∃ first b, P first b ∧ ∃ more, bytesRead actions = bytesRead (first ++ [b]) ++ more := by
  obtain ⟨first, b, later, rfl, here⟩ := happened
  refine ⟨first, b, here, bytesRead later, ?_⟩
  simp [bytesRead]

theorem not_overflows (few : (bytesRead actions).length ≤ 128) : ¬ Happened Overflows actions := by
  intro happened
  obtain ⟨first, b, ⟨-, much⟩, more, grown⟩ := length_bytesRead_of_happened happened
  rw [grown, List.length_append] at few
  omega

theorem send_frame (conn : TcpConnection) (data : List UInt8) (o : WriteOutcome) :
    (conn.send data o).state = conn.state ∧ (conn.send data o).inputBuffer = conn.inputBuffer := by
  rw [TcpConnection.send]
  split
  · exact Tunnel.sendInLoop_frame conn data o
  · exact ⟨rfl, rfl⟩

/-- An event of the connection that is no message. -/
theorem Waits.quiet {replies : List (List UInt8)} (h : Waits order actions replies conn)
    {conn' : TcpConnection} (quiet : ¬ a.isMessage = true) (nothing : a.bytes = [])
    (input : conn'.inputBuffer = conn.inputBuffer)
    (state : conn'.state = conn.state ∨ conn'.state = .kDisconnected)
    (live : conn.state ≠ .kDisconnected) : Waits order (actions ++ [a]) replies conn' := by
  have grants := happened_concat_of_not (GrantsSome order) actions a
    fun ⟨_, _, message, _⟩ => quiet message
  have refusals := happened_concat_of_not (Refuses order) actions a
    fun ⟨message, _⟩ => quiet message
  have overflows := happened_concat_of_not Overflows actions a
    fun ⟨message, _⟩ => quiet message
  refine ⟨?_, mt grants.mp h.ungranted, ?_, fun up => ?_⟩
  · rw [input, h.input, bytesRead_concat, nothing, List.append_nil]
  · rw [refusals]
    exact h.told
  · obtain same | down := state
    · rw [same, refusals, overflows]
      exact h.connected live
    · exact absurd down up

theorem not_connected_of_shutdown (conn : TcpConnection) :
    (conn.shutdown true).state ≠ .kConnected := by
  rw [(Tunnel.shutdown_frame conn).1]
  split
  · simp
  · assumption

/-- What `onServerMessage` finds. -/
structure Called (order : Order) (actions : List Act) (a : Act) (replies : List (List UInt8))
    (conn : TcpConnection) : Prop where
  message : a.isMessage = true
  arrived : conn.inputBuffer = bytesRead (actions ++ [a])
  ungranted : ¬ Happened (GrantsSome order) actions
  told : Told (Happened (Refuses order) actions) replies []
  connected : conn.state = .kConnected ↔
    ¬ Happened (Refuses order) actions ∧ ¬ Happened Overflows actions

section Calls
variable (h : Called order actions a s.replies conn) (o : WriteOutcome)
include h

theorem Called.overflow (much : 128 < (bytesRead (actions ++ [a])).length) :
    Waits order (actions ++ [a]) s.replies (conn.shutdown true) := by
  have grants := happened_concat_of_not (GrantsSome order) actions a
    fun ⟨_, _, _, few, _⟩ => by omega
  have refusals := happened_concat_of_not (Refuses order) actions a
    fun ⟨_, few, _⟩ => by omega
  obtain ⟨down, kept⟩ := Tunnel.shutdown_frame conn
  refine ⟨kept.trans h.arrived, mt grants.mp h.ungranted, ?_, fun _ => ?_⟩
  · rw [refusals]
    exact h.told
  · refine ⟨fun up => absurd up ?_, fun ⟨_, fits⟩ => ?_⟩
    · exact not_connected_of_shutdown conn
    · exact absurd (happened_concat.mpr (.inr ⟨h.message, much⟩)) fits

theorem Called.short (few : (bytesRead (actions ++ [a])).length ≤ 128)
    (short : parse order a.resolve (bytesRead (actions ++ [a])) = .short) :
    Waits order (actions ++ [a]) s.replies conn := by
  have grants := happened_concat_of_not (GrantsSome order) actions a
    fun ⟨_, _, _, _, found⟩ => by simp [short] at found
  have refusals := happened_concat_of_not (Refuses order) actions a
    fun ⟨_, _, found⟩ => by simp [short] at found
  have overflows := happened_concat_of_not Overflows actions a
    fun ⟨_, much⟩ => by omega
  refine ⟨h.arrived, mt grants.mp h.ungranted, ?_, fun _ => ?_⟩
  · rw [refusals]
    exact h.told
  · rw [refusals, overflows]
    exact h.connected

/-- The response is sent unless an earlier one was. -/
theorem Called.reply (few : (bytesRead (actions ++ [a])).length ≤ 128) (response : List UInt8) :
    Told (Happened (Refuses order) actions) (s.reply conn response) [response] := by
  have fits : ¬ Happened Overflows actions := by
    apply not_overflows
    rw [bytesRead_concat, List.length_append] at few
    omega
  constructor
  · intro before
    have down : conn.state ≠ .kConnected := fun up => (h.connected.mp up).1 before
    rw [Session.reply, if_neg (by simpa [TcpConnection.isConnected] using down)]
    exact h.told.earlier before
  · intro before
    have up := h.connected.mpr ⟨before, fits⟩
    rw [Session.reply, if_pos (by simpa [TcpConnection.isConnected] using up), h.told.now before,
      List.nil_append]

theorem Called.refuse (few : (bytesRead (actions ++ [a])).length ≤ 128)
    (bad : parse order a.resolve (bytesRead (actions ++ [a])) = .bad) :
    Waits order (actions ++ [a]) (s.reply conn refused) ((conn.send refused o).shutdown true) := by
  have grants := happened_concat_of_not (GrantsSome order) actions a
    fun ⟨_, _, _, _, found⟩ => by simp [bad] at found
  have here : Happened (Refuses order) (actions ++ [a]) :=
    happened_concat.mpr (.inr ⟨h.message, few, bad⟩)
  obtain ⟨-, kept⟩ := Tunnel.shutdown_frame (conn.send refused o)
  obtain ⟨-, same⟩ := send_frame conn refused o
  refine ⟨?_, mt grants.mp h.ungranted, ⟨fun _ => ?_, fun no => absurd here no⟩, fun _ => ?_⟩
  · rw [kept, same, h.arrived]
  · have told := h.reply few refused
    by_cases before : Happened (Refuses order) actions
    · exact told.earlier before
    · exact told.now before
  · exact ⟨fun up => absurd up (not_connected_of_shutdown _), fun ⟨no, _⟩ => absurd here no⟩

theorem Called.grant {target : Target} {size : Nat}
    (few : (bytesRead (actions ++ [a])).length ≤ 128)
    (found : parse order a.resolve (bytesRead (actions ++ [a])) = .frame target size) :
    Tunnels order (actions ++ [a]) (s.reply conn (granted target)) (conn.inputBuffer.take size)
      (.start (TcpConnection.send { setup conn with
        inputBuffer := conn.inputBuffer.drop size } (granted target) o)) := by
  have fits := (reader order a.resolve).fits found
  obtain ⟨-, same⟩ := send_frame { setup conn with inputBuffer := conn.inputBuffer.drop size }
    (granted target) o
  have length : (conn.inputBuffer.take size).length = size := by
    rw [List.length_take, h.arrived]
    omega
  refine ⟨⟨actions, a, [], target, rfl, ?_, h.reply few _⟩, ?_, Tunnel.start_relayed⟩
  · rw [length]
    exact ⟨h.message, few, found⟩
  · rw [← h.arrived, Tunnel.start]
    simp only [same, List.take_append_drop]

end Calls

/-- A message to a connection without a tunnel. -/
theorem Called.tells (h : Called order actions a s.replies conn) (o : WriteOutcome) :
    Tells order (actions ++ [a]) (onServerMessage order a.resolve s conn o) := by
  rw [onServerMessage]
  split
  · rename_i much
    rw [h.arrived] at much
    exact h.overflow much
  · rename_i few
    rw [h.arrived, Nat.not_lt] at few
    split
    · rename_i short
      rw [h.arrived] at short
      exact h.short few short
    · rename_i bad
      rw [h.arrived] at bad
      exact h.refuse o few bad
    · rename_i target size found
      rw [h.arrived] at found
      exact h.grant o few found

/-- What a tunnel has read from the client. -/
theorem serverBytes_step {tunnel tunnel' : Tunnel} (moved : tunnel.step a.event = some tunnel') :
    tunnel'.serverBytes = tunnel.serverBytes ++ a.bytes := by
  rw [Act.bytes]
  cases event : a.event with
  | serverReads r o =>
    simp only [event, Tunnel.step] at moved
    split at moved
    · cases moved
    · split at moved
      · cases moved
        rfl
      · cases moved
        rw [Tunnel.onServerMessage]
        split <;> rfl
  | serverWrites o =>
    simp only [event, Tunnel.step] at moved
    split at moved
    · cases moved
    · cases moved
      exact (List.append_nil _).symm
  | clientUp loop sockfd o =>
    simp only [event, Tunnel.step] at moved
    split at moved
    · cases moved
    · cases moved
      rw [List.append_nil, Tunnel.onClientUp]
      split <;> rfl
  | clientReads r o =>
    simp only [event, Tunnel.step] at moved
    split at moved
    · split at moved
      · cases moved
      · split at moved
        · cases moved
          exact (List.append_nil _).symm
        · cases moved
          exact (List.append_nil _).symm
    · cases moved
  | clientWrites o =>
    simp only [event, Tunnel.step] at moved
    split at moved
    · split at moved
      · cases moved
      · cases moved
        exact (List.append_nil _).symm
    · cases moved
  | onHighWaterMark =>
    rw [event] at moved
    cases moved
    exact (List.append_nil _).symm

/-- Every event keeps what the history tells of a session. -/
theorem step_tells (tells : Tells order actions s) (next : step order s a = some t) :
    Tells order (actions ++ [a]) t := by
  rw [step] at next
  rw [Tells] at tells
  split at next
  · rename_i request tunnel stage
    rw [stage] at tells
    obtain ⟨tunnel', moved, rfl⟩ := Option.map_eq_some_iff.mp next
    obtain ⟨⟨first, b, later, target, split, grants, told⟩, arrived, relayed⟩ := tells
    refine ⟨⟨first, b, later ++ [a], target, by simp [split], grants, told⟩, ?_, ?_⟩
    · rw [bytesRead_concat, arrived, List.append_assoc, serverBytes_step moved]
    · exact relayed.step moved
  · rename_i conn stage
    rw [stage] at tells
    split at next
    · cases next
    · rename_i live
      split at next
      · rename_i r o event
        obtain ⟨state, input⟩ := Tunnel.handleRead_frame conn r
        have bytes : a.bytes = r.bytes := by simp [Act.bytes, event]
        split at next
        · rename_i eof
          cases next
          rw [if_pos eof] at state
          subst eof
          have quiet : ¬ a.isMessage = true := by simp [Act.isMessage, event]
          exact tells.quiet quiet bytes (input.trans (List.append_nil _)) (.inr state) live
        · rename_i more
          cases next
          rw [if_neg more] at state
          have message : a.isMessage = true := by simp [Act.isMessage, event, more]
          have arrived : (conn.handleRead r).inputBuffer = bytesRead (actions ++ [a]) := by
            rw [input, tells.input, bytesRead_concat, bytes]
          have connected := tells.connected live
          rw [← state] at connected
          exact Called.tells ⟨message, arrived, tells.ungranted, tells.told, connected⟩ o
      · rename_i o event
        cases next
        obtain ⟨state, input⟩ := Tunnel.handleWrite_frame conn o
        have quiet : ¬ a.isMessage = true := by simp [Act.isMessage, event]
        exact tells.quiet quiet (by simp [Act.bytes, event]) input (.inl state) live
      all_goals cases next

theorem run_tells {loop : EventLoop ConnFunctor} {sockfd : Int} {options : ConnOptions}
    (done : run (step order) (accepted loop sockfd options) actions = some s) :
    Tells order actions s := by
  refine run_history (I := Tells order) (fun _ _ _ _ tells next => step_tells tells next) ?_ done
  have none (P : List Act → Act → Prop) := not_happened_nil P
  exact ⟨rfl, none _, ⟨fun before => absurd before (none _), fun _ => rfl⟩,
    fun _ => ⟨fun _ => ⟨none _, none _⟩, fun _ => rfl⟩⟩

end Runs

/-- A connection has a tunnel exactly if some message found a request that is granted in at
most 128 bytes. The client's bytes behind that request are those relayed, in order, and those
that wait. The client is answered once: about the first request that was refused, if one was
before (a host name may resolve only later), else with the address of the target. -/
theorem tunnels_iff_granted {order : Order} {loop : EventLoop ConnFunctor} {sockfd : Int}
    {options : ConnOptions} {actions : List Act} {s : Session}
    (done : run (step order) (accepted loop sockfd options) actions = some s) :
    ((∃ request tunnel, s.stage = .tunnelled request tunnel) ↔
        Happened (GrantsSome order) actions) ∧
      (∀ conn, s.stage = .waiting conn → conn.inputBuffer = bytesRead actions ∧
        Told (Happened (Refuses order) actions) s.replies []) ∧
      ∀ request tunnel, s.stage = .tunnelled request tunnel →
        bytesRead actions =
            request ++ (tunnel.toClient ++ tunnel.serverConnection.inputBuffer) ∧
          tunnel.clientBytes = tunnel.toServer ++ tunnel.clientInput ∧
          ∃ first a later target, actions = first ++ a :: later ∧
            Grants order first a target request.length ∧
            Told (Happened (Refuses order) first) s.replies [granted target] := by
  have tells := run_tells done
  rw [Tells] at tells
  split at tells
  · rename_i conn stage
    refine ⟨⟨?_, fun granted => absurd granted tells.ungranted⟩, ?_, ?_⟩
    · rintro ⟨request, tunnel, other⟩
      cases stage.symm.trans other
    · intro conn' here
      cases stage.symm.trans here
      exact ⟨tells.input, tells.told⟩
    · intro request tunnel other
      cases stage.symm.trans other
  · rename_i request tunnel stage
    obtain ⟨first, a, later, target, split, grants, told⟩ := tells.granted
    refine ⟨⟨fun _ => ?_, fun _ => ⟨request, tunnel, stage⟩⟩, ?_, ?_⟩
    · exact ⟨first, a, later, split, target, request.length, grants⟩
    · intro conn other
      cases stage.symm.trans other
    · intro request' tunnel' here
      cases stage.symm.trans here
      refine ⟨?_, tells.relayed.fromClient, first, a, later, target, split, grants, told⟩
      rw [tells.arrived, tells.relayed.fromServer]

/-- A host name that resolves only when the client sends one byte more: the client has been
refused, and has a tunnel. -/
theorem tunnels_iff_granted_late :
    ∃ s tunnel, run (step .little) (accepted .new 5 {})
        [⟨.serverReads (.delivered [4, 1, 0, 80, 0, 0, 0, 1, 0, 97, 0]) (.accepted 8),
            fun _ => none⟩,
          ⟨.serverReads (.delivered [7]) (.accepted 0), fun _ => some [1, 2, 3, 4]⟩] = some s ∧
      s.stage = .tunnelled [4, 1, 0, 80, 0, 0, 0, 1, 0, 97, 0] tunnel ∧
      s.replies = [refused] ∧
      Happened (GrantsSome .little)
        [⟨.serverReads (.delivered [4, 1, 0, 80, 0, 0, 0, 1, 0, 97, 0]) (.accepted 8),
            fun _ => none⟩,
          ⟨.serverReads (.delivered [7]) (.accepted 0), fun _ => some [1, 2, 3, 4]⟩] := by
  refine ⟨_, _, rfl, rfl, rfl, ?_⟩
  exact (@tunnels_iff_granted .little .new 5 {}
    [⟨.serverReads (.delivered [4, 1, 0, 80, 0, 0, 0, 1, 0, 97, 0]) (.accepted 8), fun _ => none⟩,
      ⟨.serverReads (.delivered [7]) (.accepted 0), fun _ => some [1, 2, 3, 4]⟩] _ rfl).1.mp
    ⟨_, _, rfl⟩

/-! ## Requests -/

/-- A request for an address, or for a host name behind an address below 0.0.1.0. -/
structure Request where
  port : List UInt8
  ip : List UInt8
  user : List UInt8
  hostname : Option (List UInt8)
  portTwo : port.length = 2
  ipFour : ip.length = 4
  userFree : 0 ∉ user
  named : hostname.isSome = true ↔ value ip < 256
  hostnameFree : ∀ name, hostname = some name → 0 ∉ name

namespace Request
variable (request : Request)

/-- What goes behind the user name and its zero. -/
def last : List UInt8 :=
  match request.hostname with
  | some name => name ++ [0]
  | none => []

def bytes : List UInt8 :=
  [4, 1] ++ request.port ++ request.ip ++ (request.user ++ 0 :: request.last)

/-- The address that is connected to. -/
def address (resolve : Resolver) : Option (List UInt8) :=
  match request.hostname with
  | some name => resolve name
  | none => some request.ip

end Request

section Request
variable {order : Order} {resolve : Resolver} (request : Request)

end Request

/-- The message `a` completes the request, with at most 128 bytes in all. -/
def Completes (request : Request) (earlier : List Act) (a : Act) : Prop :=
  a.isMessage = true ∧ request.bytes.length ≤ (bytesRead (earlier ++ [a])).length ∧
    (bytesRead (earlier ++ [a])).length ≤ 128

end Socks4a
end Arale
