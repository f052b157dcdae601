import Mathlib.Data.List.AList
import Mathlib.Logic.Function.Basic
import Arale.Lib.Format
import Arale.Lib.Framing
import Arale.Lib.Schedules
import Arale.Net.TcpConnection

/-!
# The multiplexer

`MultiplexServer` of `examples/multiplexer/MultiplexerSimple.cc`: clients share one
connection to a backend, each under an id from a small pool. A client may outlive the
backend connection under which it was given its id. As long as no such client is heard of
again the backend can tell from the packets alone whose data it gets; the condition is exact.
-/

namespace Arale

open Format Framing Schedules

namespace Multiplex

def kMaxConns : Nat := 10

def kMaxPacketLen : Nat := 253

def kHeaderLen : Nat := 3

/-- The ids that `onBackendConnection` puts into the queue. -/
def ids : List Int32 := (List.range kMaxConns).map fun i => .ofNat (i + 1)

/-- The bytes of a literal. -/
def literal (s : String) : List UInt8 := s.toList.map fun c => .ofNat c.toNat

/-! ## Packets -/

/-- The header of `sendBackendPacket` in front of the content of the buffer. -/
def packet (id : Int32) (content : List UInt8) : List UInt8 :=
  [.ofNat content.length, id.toUInt32.toUInt8, (id.toUInt32 >>> 8).toUInt8] ++ content

/-- `sendBackendBuffer`: the contents of its packets. -/
def chunksUpTo : Nat → List UInt8 → List (List UInt8)
  | 0, _ => []
  | fuel + 1, content =>
    if content.length > kMaxPacketLen then
      content.take kMaxPacketLen :: chunksUpTo fuel (content.drop kMaxPacketLen)
    else if content.length > 0 then [content] else []

def chunks (content : List UInt8) : List (List UInt8) := chunksUpTo (content.length + 1) content

/-- `static_cast<size_t>(*buf->peek())`: a `char` is signed. -/
def packetLen (header : UInt8) : UInt64 := header.toInt8.toInt64.toUInt64

/-- `buf->peek()[1]` and `buf->peek()[2]` put together. -/
def packetId (low high : UInt8) : Int32 := low.toInt8.toInt32 ||| (high.toInt8.toInt32 <<< 8)

/-- One round of the loop in `onBackendMessage`. A length whose sum with that of the header
wraps around passes the test, and what is read then is no packet. -/
def front : List UInt8 → Front (Int32 × List UInt8)
  | header :: low :: high :: rest =>
    let len := packetLen header
    if rest.length = 0 ∨ rest.length + 3 < (len + .ofNat kHeaderLen).toNat then .short
    else if 2 ^ 64 ≤ len.toNat + kHeaderLen then .bad
    else .frame (packetId low high, rest.take len.toNat) (len.toNat + kHeaderLen)
  | _ => .short

theorem toNat_len_add {len : UInt64} (fits : len.toNat + kHeaderLen < 2 ^ 64) :
    (len + .ofNat kHeaderLen).toNat = len.toNat + kHeaderLen := by
  rw [UInt64.toNat_add]
  exact Nat.mod_eq_of_lt fits

theorem front_of_frame {xs : List UInt8} {message : Int32 × List UInt8} {size : Nat}
    (found : front xs = .frame message size) :
    0 < size ∧ size ≤ xs.length := by
  match xs with
  | [] | [_] | [_, _] => cases found
  | header :: low :: high :: rest =>
    simp only [front] at found
    split at found
    · cases found
    · rename_i enough
      split at found
      · cases found
      · rename_i fits
        cases found
        rw [toNat_len_add (Nat.not_le.mp fits)] at enough
        simp only [kHeaderLen, List.length_cons] at enough ⊢
        omega

theorem front_append {xs : List UInt8} (final : front xs ≠ .short) (more : List UInt8) :
    front (xs ++ more) = front xs := by
  match xs with
  | [] | [_] | [_, _] => exact absurd rfl final
  | header :: low :: high :: rest =>
    simp only [List.cons_append, front] at final ⊢
    split at final
    · exact absurd rfl final
    · rename_i enough
      have still : ¬ ((rest ++ more).length = 0 ∨
          (rest ++ more).length + 3 < (packetLen header + .ofNat kHeaderLen).toNat) := by
        rw [List.length_append]
        omega
      rw [if_neg still, if_neg enough]
      split
      · rfl
      · rename_i fits
        rw [toNat_len_add (Nat.not_le.mp fits)] at enough
        rw [List.take_append_of_le_length]
        simp only [kHeaderLen] at enough
        omega

def reader : Reader UInt8 (Int32 × List UInt8) where
  front := front
  fits := front_of_frame
  settled := front_append

/-! ## The server -/

/-- A packet of the server, with the client it is about: one of the two commands, whose id is 0,
or data. -/
inductive Packet (ι : Type) where
  | up (c : ι) (id : Int32) (msg : List UInt8)
  | down (c : ι) (id : Int32) (msg : List UInt8)
  | data (c : ι) (id : Int32) (content : List UInt8)
  deriving DecidableEq

def Packet.bytes {ι : Type} : Packet ι → List UInt8
  | .up _ _ msg | .down _ _ msg => packet 0 msg
  | .data _ id content => packet id content

/-- A connection of a client; `kConnecting` before it is accepted. `joined` is the number of the
backend connection under which it was given its id, and `output` what has been handed to
`send` while it was connected; both are histories. -/
structure ClientConn where
  state : ConnState
  peer : List UInt8
  context : Option Int32
  joined : Nat
  output : List UInt8

def ClientConn.new : ClientConn := ⟨.kConnecting, [], none, 0, []⟩

def ClientConn.shutdown (c : ClientConn) : ClientConn :=
  { c with state := if c.state = .kConnected then .kDisconnecting else c.state }

def ClientConn.send (c : ClientConn) (data : List UInt8) : ClientConn :=
  { c with output := if c.state = .kConnected then c.output ++ data else c.output }

/-- The peer has not closed. -/
def ClientConn.Open (c : ClientConn) : Prop := c.state = .kConnected ∨ c.state = .kDisconnecting

instance (c : ClientConn) : Decidable c.Open := inferInstanceAs (Decidable (_ ∨ _))

/-- `backendConn` says whether `backendConn_` is set, `input` is what waits in its buffer.
Histories: the number of backend connections so far, and the packets handed to the last one. -/
structure MultiplexServer (ι : Type) where
  backendConn : Bool
  input : List UInt8
  clientConns : AList fun _ : Int32 => ι
  availIds : List Int32
  clients : ι → ClientConn
  session : Nat
  sent : List (Packet ι)
  crashed : Bool

namespace MultiplexServer
variable {ι : Type} [DecidableEq ι]

def start : MultiplexServer ι := ⟨false, [], ∅, [], fun _ => .new, 0, [], false⟩

def set (s : MultiplexServer ι) (c : ι) (conn : ClientConn) : MultiplexServer ι :=
  { s with clients := Function.update s.clients c conn }

/-- The backend can be disconnected any time. -/
def sendBackendPacket (s : MultiplexServer ι) (p : Packet ι) : MultiplexServer ι :=
  if s.backendConn then { s with sent := s.sent ++ [p] } else s

def sendBackendBuffer (s : MultiplexServer ι) (c : ι) (id : Int32) (content : List UInt8) :
    MultiplexServer ι :=
  (chunks content).foldl (fun s chunk => s.sendBackendPacket (.data c id chunk)) s

/-- The text of a command in a buffer of 256 bytes. -/
def command (id : Int32) (peer : List UInt8) (event : String) : List UInt8 :=
  snprintf 256 (literal "CONN " ++ decimal id.toInt.toNat ++ literal " FROM " ++ peer ++
    literal event)

/-- `onClientConnection`, UP. -/
def onClientUp (s : MultiplexServer ι) (c : ι) (peer : List UInt8) : MultiplexServer ι :=
  let conn : ClientConn := { s.clients c with state := .kConnected, peer := peer }
  let (id, s) : Int32 × MultiplexServer ι :=
    match s.availIds with
    | [] => (-1, s)
    | id :: rest => (id, { s with availIds := rest, clientConns := s.clientConns.insert id c })
  if id < 0 then s.set c conn.shutdown
  else
    (s.set c { conn with context := some id, joined := s.session }).sendBackendPacket
      (.up c id (command id peer " IS UP\r\n"))

/-- `onClientConnection`, DOWN. -/
def onClientDown (s : MultiplexServer ι) (c : ι) : MultiplexServer ι :=
  let conn := s.clients c
  let s := s.set c { conn with state := .kDisconnected }
  match conn.context with
  | none => s
  | some id =>
    let s := s.sendBackendPacket (.down c id (command id conn.peer " IS DOWN\r\n"))
    if s.backendConn then
      { s with availIds := s.availIds ++ [id], clientConns := s.clientConns.erase id }
    else s

/-- `any_cast` of an empty context throws. -/
def onClientMessage (s : MultiplexServer ι) (c : ι) (content : List UInt8) : MultiplexServer ι :=
  if s.backendConn then
    match (s.clients c).context with
    | some id => s.sendBackendBuffer c id content
    | none => { s with crashed := true }
  else s

def onBackendUp (s : MultiplexServer ι) : MultiplexServer ι :=
  { s with
    backendConn := true
    availIds := s.availIds ++ ids
    input := []
    session := s.session + 1
    sent := [] }

def onBackendDown (s : MultiplexServer ι) : MultiplexServer ι :=
  { s with
    backendConn := false
    clients := fun c =>
      if ∃ entry ∈ s.clientConns.entries, entry.2 = c then (s.clients c).shutdown else s.clients c
    clientConns := ∅
    availIds := [] }

/-- The number that `atoi` finds. -/
def digitsOf (text : List UInt8) : List UInt8 := text.takeWhile fun b => 48 ≤ b ∧ b ≤ 57

def digitsValue (digits : List UInt8) : Nat := digits.foldl (fun n b => 10 * n + (b.toNat - 48)) 0

def atoi (text : List UInt8) : Int32 :=
  match text.dropWhile fun b => b = 32 ∨ 9 ≤ b ∧ b ≤ 13 with
  | 45 :: rest => .ofInt (-digitsValue (digitsOf rest))
  | 43 :: rest => .ofInt (digitsValue (digitsOf rest))
  | rest => .ofInt (digitsValue (digitsOf rest))

def doCommand (s : MultiplexServer ι) (cmd : List UInt8) : MultiplexServer ι :=
  let kDisconnectCmd := literal "DISCONNECT "
  if cmd.length > kDisconnectCmd.length ∧ kDisconnectCmd <+: cmd then
    match s.clientConns.lookup (atoi (cmd.drop kDisconnectCmd.length)) with
    | some c => s.set c (s.clients c).shutdown
    | none => s
  else s

/-- What `onBackendMessage` does with one packet. -/
def onBackendPacket (s : MultiplexServer ι) (p : Int32 × List UInt8) : MultiplexServer ι :=
  if p.1 ≠ 0 then
    match s.clientConns.lookup p.1 with
    | some c => s.set c ((s.clients c).send p.2)
    | none => s
  else s.doCommand p.2

def onBackendMessage (s : MultiplexServer ι) (bytes : List UInt8) : MultiplexServer ι :=
  let reading := reader.read (s.input ++ bytes)
  let s := reading.messages.foldl onBackendPacket s
  { s with input := reading.rest, crashed := s.crashed || reading.bad }

inductive Act (ι : Type) where
  | clientUp (c : ι) (peer : List UInt8)
  | clientDown (c : ι)
  | clientMessage (c : ι) (content : List UInt8)
  | backendUp
  | backendDown
  | backendMessage (bytes : List UInt8)

/-- Only open connections are heard of; there is at most one backend connection at a time. -/
def step (s : MultiplexServer ι) (a : Act ι) : Option (MultiplexServer ι) :=
  if s.crashed then none
  else
    match a with
    | .clientUp c peer =>
      if (s.clients c).state = .kConnecting then some (s.onClientUp c peer) else none
    | .clientDown c => if (s.clients c).Open then some (s.onClientDown c) else none
    | .clientMessage c content =>
      if (s.clients c).Open then some (s.onClientMessage c content) else none
    | .backendUp => if s.backendConn then none else some s.onBackendUp
    | .backendDown => if s.backendConn then some s.onBackendDown else none
    | .backendMessage bytes => if s.backendConn then some (s.onBackendMessage bytes) else none

/-! ## What the backend can tell

The backend sees ids only. It takes a client for the holder of an id from the command that
says that it is up to the one that says that it is down. -/

/-- The holders of the ids after a packet, if it is about the holder of its id. -/
def follow (holder : Int32 → Option ι) : Packet ι → Option (Int32 → Option ι)
  | .up c id _ => if holder id = none then some (Function.update holder id (some c)) else none
  | .down c id _ => if holder id = some c then some (Function.update holder id none) else none
  | .data c id _ => if holder id = some c then some holder else none

def holders (log : List (Packet ι)) : Option (Int32 → Option ι) :=
  log.foldlM follow fun _ => none

/-- Every packet of the backend connection is about the holder of its id, and while it is up
each id is either in the queue, once, or in the map. -/
structure Orderly (s : MultiplexServer ι) : Prop where
  running : s.crashed = false
  attributed : (holders s.sent).isSome = true
  nodup : s.availIds.Nodup
  shared : s.backendConn = true → ∀ id, id ∈ s.availIds ↔ id ∈ ids ∧ id ∉ s.clientConns

/-- The client was given its id under the present backend connection. -/
def Timely (s : MultiplexServer ι) : Act ι → Prop
  | .clientDown c => s.backendConn = true → (s.clients c).Open →
    (s.clients c).context.isSome = true → (s.clients c).joined = s.session
  | .clientMessage c content => s.backendConn = true → (s.clients c).Open →
    (s.clients c).context.isSome = true ∧ (content ≠ [] → (s.clients c).joined = s.session)
  | .backendMessage bytes => s.backendConn = true →
    (reader.read (s.input ++ bytes)).bad = false
  | _ => True

/-- Who has an id is in the map, and the map follows the packets. -/
structure Sound (s : MultiplexServer ι) : Prop extends Orderly s where
  known : ∀ id ∈ s.clientConns, id ∈ ids
  idle : s.backendConn = false → s.availIds = [] ∧ s.clientConns = ∅
  log : s.backendConn = true → holders s.sent = some fun id => s.clientConns.lookup id
  registered : s.backendConn = true → ∀ id c, s.clientConns.lookup id = some c ↔
    (s.clients c).Open ∧ (s.clients c).context = some id ∧ (s.clients c).joined = s.session
  past : ∀ c, (s.clients c).joined ≤ s.session
  fresh : ∀ c, (s.clients c).state = .kConnecting → (s.clients c).context = none

section Steps
variable {s t : MultiplexServer ι} {c : ι}

theorem start_sound : Sound (start : MultiplexServer ι) where
  running := rfl
  attributed := rfl
  nodup := List.nodup_nil
  shared up := by cases up
  known id mem := absurd mem (AList.notMem_empty id)
  idle _ := ⟨rfl, rfl⟩
  log up := by cases up
  registered up := by cases up
  past _ := Nat.le_refl 0
  fresh _ _ := rfl

theorem holders_concat (log : List (Packet ι)) (p : Packet ι) :
    holders (log ++ [p]) = (holders log).bind fun holder => follow holder p := by
  rw [holders, List.foldlM_append, holders]
  simp

theorem nonneg_of_mem_ids {id : Int32} (mem : id ∈ ids) : ¬ id < 0 := by
  have all : (ids.all fun id => decide (¬ id < 0)) = true := by decide
  exact of_decide_eq_true (List.all_eq_true.mp all id mem)

/-- The table after one client has changed: the others are where they were. -/
theorem registered_set {conn : ClientConn} {clientConns : AList fun _ : Int32 => ι} {session : Nat}
    (own : ∀ id, clientConns.lookup id = some c ↔
      conn.Open ∧ conn.context = some id ∧ conn.joined = session)
    (others : ∀ id d, d ≠ c → (clientConns.lookup id = some d ↔
      (s.clients d).Open ∧ (s.clients d).context = some id ∧ (s.clients d).joined = session))
    (id : Int32) (d : ι) : clientConns.lookup id = some d ↔
      (Function.update s.clients c conn d).Open ∧
        (Function.update s.clients c conn d).context = some id ∧
        (Function.update s.clients c conn d).joined = session := by
  by_cases same : d = c
  · subst same
    rw [Function.update_self]
    exact own id
  · rw [Function.update_of_ne same]
    exact others id d same

theorem forall_set {P : ClientConn → Prop} {conn : ClientConn} (own : P conn)
    (all : ∀ d, P (s.clients d)) (d : ι) : P (Function.update s.clients c conn d) := by
  by_cases same : d = c
  · subst same
    rw [Function.update_self]
    exact own
  · rw [Function.update_of_ne same]
    exact all d

theorem onClientUp_sound (h : Sound s) (new : (s.clients c).state = .kConnecting)
    (peer : List UInt8) : Sound (s.onClientUp c peer) := by
  have unnamed := h.fresh c new
  have closed : ¬ (s.clients c).Open := by simp [ClientConn.Open, new]
  have unregistered (up : s.backendConn = true) (id : Int32) :
      s.clientConns.lookup id ≠ some c :=
    fun here => closed ((h.registered up id c).mp here).1
  cases avail : s.availIds with
  | nil =>
    have same : s.onClientUp c peer = s.set c
        { s.clients c with state := .kDisconnecting, peer := peer } := by
      simp [onClientUp, avail, ClientConn.shutdown]
    rw [same]
    refine { h with registered := fun up => ?_, past := ?_, fresh := ?_ }
    · refine registered_set (fun id => ⟨fun here => absurd here (unregistered up id), ?_⟩)
        fun id d _ => h.registered up id d
      rintro ⟨-, named, -⟩
      cases unnamed.symm.trans named
    · exact forall_set (P := fun conn => conn.joined ≤ s.session) (h.past c) h.past
    · exact forall_set (P := fun conn => conn.state = .kConnecting → conn.context = none)
        (fun state => by cases state) h.fresh
  | cons id rest =>
    have up : s.backendConn = true := by
      by_contra down
      have empty := (h.idle (Bool.not_eq_true _ ▸ down)).1
      rw [avail] at empty
      cases empty
    have mem : id ∈ s.availIds := avail ▸ List.mem_cons_self
    obtain ⟨known, free⟩ := (h.shared up id).mp mem
    have nodup := h.nodup
    rw [avail, List.nodup_cons] at nodup
    have same : s.onClientUp c peer = { s with
        availIds := rest
        clientConns := s.clientConns.insert id c
        clients := Function.update s.clients c { s.clients c with
          state := .kConnected, peer := peer, context := some id, joined := s.session }
        sent := s.sent ++ [.up c id (command id peer " IS UP\r\n")] } := by
      simp only [onClientUp, avail, nonneg_of_mem_ids known, if_false]
      simp [sendBackendPacket, set, up]
    have log : holders (s.sent ++ [.up c id (command id peer " IS UP\r\n")]) =
        some fun i => (s.clientConns.insert id c).lookup i := by
      rw [holders_concat, h.log up]
      simp only [Option.bind_some, follow, AList.lookup_eq_none.mpr free, if_true]
      congr 1
      funext i
      by_cases this : i = id
      · subst this
        rw [Function.update_self, AList.lookup_insert]
      · rw [Function.update_of_ne this, AList.lookup_insert_ne this]
    rw [same]
    refine ⟨⟨h.running, ?_, nodup.2, fun _ i => ?_⟩, fun i here => ?_, fun down => ?_, fun _ => log,
      fun _ => ?_, ?_, ?_⟩
    · rw [log]
      rfl
    · rw [AList.mem_insert]
      have shared := h.shared up i
      rw [avail, List.mem_cons] at shared
      by_cases this : i = id
      · subst this
        simp [nodup.1]
      · simpa [this] using shared
    · rcases (AList.mem_insert _).mp here with rfl | here
      · exact known
      · exact h.known i here
    · exact absurd up (by rw [down]; decide)
    · refine registered_set (fun i => ?_) fun i d other => ?_
      · by_cases this : i = id
        · subst this
          simp [ClientConn.Open, AList.lookup_insert]
        · rw [AList.lookup_insert_ne this]
          refine ⟨fun here => absurd here (unregistered up i), ?_⟩
          rintro ⟨-, named, -⟩
          exact absurd (Option.some.inj named).symm this
      · rw [← h.registered up i d]
        by_cases this : i = id
        · subst this
          rw [AList.lookup_insert, AList.lookup_eq_none.mpr free]
          simp [Ne.symm other]
        · rw [AList.lookup_insert_ne this]
    · exact forall_set (P := fun conn => conn.joined ≤ s.session) (Nat.le_refl _) h.past
    · exact forall_set (P := fun conn => conn.state = .kConnecting → conn.context = none)
        (fun state => by cases state) h.fresh

theorem onClientDown_sound (h : Sound s) (isOpen : (s.clients c).Open)
    (timely : s.backendConn = true → (s.clients c).context.isSome = true →
      (s.clients c).joined = s.session) : Sound (s.onClientDown c) := by
  have past : ∀ d, ((s.set c { s.clients c with state := .kDisconnected }).clients d).joined ≤
      s.session :=
    forall_set (P := fun conn => conn.joined ≤ s.session) (h.past c) h.past
  have fresh : ∀ d, ((s.set c { s.clients c with state := .kDisconnected }).clients d).state =
      .kConnecting → ((s.set c { s.clients c with state := .kDisconnected }).clients d).context =
        none :=
    forall_set (P := fun conn => conn.state = .kConnecting → conn.context = none)
      (fun state => by cases state) h.fresh
  have closed : ¬ ({ s.clients c with state := .kDisconnected } : ClientConn).Open := by
    simp [ClientConn.Open]
  cases named : (s.clients c).context with
  | none =>
    have same : s.onClientDown c = s.set c { s.clients c with state := .kDisconnected } := by
      simp [onClientDown, named]
    rw [same]
    refine { h with registered := fun up => ?_, past := past, fresh := fresh }
    refine registered_set (fun id => ⟨fun here => ?_, fun now => absurd now.1 closed⟩)
      fun id d _ => h.registered up id d
    cases named.symm.trans ((h.registered up id c).mp here).2.1
  | some id =>
    cases up : s.backendConn with
    | false =>
      have same : s.onClientDown c = s.set c { s.clients c with state := .kDisconnected } := by
        simp [onClientDown, named, sendBackendPacket, set, up]
      rw [same]
      refine { h with registered := fun on => ?_, past := past, fresh := fresh }
      exact absurd (up.symm.trans on) (by decide)
    | true =>
      have here : s.clientConns.lookup id = some c :=
        (h.registered up id c).mpr ⟨isOpen, named, timely up (by rw [named]; rfl)⟩
      have mem : id ∈ s.clientConns := AList.lookup_isSome.mp (by rw [here]; rfl)
      have fresh' : id ∉ s.availIds := fun avail => ((h.shared up id).mp avail).2 mem
      have same : s.onClientDown c = { s with
          availIds := s.availIds ++ [id]
          clientConns := s.clientConns.erase id
          clients := Function.update s.clients c { s.clients c with state := .kDisconnected }
          sent := s.sent ++ [.down c id (command id (s.clients c).peer " IS DOWN\r\n")] } := by
        simp [onClientDown, named, sendBackendPacket, set, up]
      have log : holders (s.sent ++ [.down c id (command id (s.clients c).peer " IS DOWN\r\n")]) =
          some fun i => (s.clientConns.erase id).lookup i := by
        rw [holders_concat, h.log up]
        simp only [Option.bind_some, follow, here, if_true]
        congr 1
        funext i
        by_cases this : i = id
        · subst this
          rw [Function.update_self, AList.lookup_erase]
        · rw [Function.update_of_ne this, AList.lookup_erase_ne this]
      rw [same]
      refine ⟨⟨h.running, ?_, ?_, fun _ i => ?_⟩, fun i kept => ?_, fun down => ?_, fun _ => log,
        fun _ => ?_, past, fresh⟩
      · rw [log]
        rfl
      · rw [List.nodup_append_comm]
        exact List.nodup_cons.mpr ⟨fresh', h.nodup⟩
      · rw [List.mem_append, List.mem_singleton, AList.mem_erase, h.shared up i]
        by_cases this : i = id
        · subst this
          simp [h.known i mem]
        · simp [this]
      · exact h.known i (AList.mem_erase.mp kept).2
      · exact absurd (up.symm.trans down) (by decide)
      · refine registered_set (fun i => ⟨fun kept => ?_, fun now => absurd now.1 closed⟩)
          fun i d other => ?_
        · by_cases this : i = id
          · subst this
            rw [AList.lookup_erase] at kept
            cases kept
          · rw [AList.lookup_erase_ne this] at kept
            have other := ((h.registered up i c).mp kept).2.1
            exact absurd (Option.some.inj (other.symm.trans named)) this
        · rw [← h.registered up i d]
          by_cases this : i = id
          · subst this
            rw [AList.lookup_erase, here]
            simp [Ne.symm other]
          · rw [AList.lookup_erase_ne this]

theorem holders_data (holder : Int32 → Option ι) {id : Int32} (held : holder id = some c)
    (contents : List (List UInt8)) :
    (contents.map (Packet.data c id)).foldlM follow holder = some holder := by
  induction contents with
  | nil => rfl
  | cons content contents ih =>
    rw [List.map_cons, List.foldlM_cons, follow, if_pos held]
    exact ih

omit [DecidableEq ι] in
theorem sendBackendBuffer_eq (up : s.backendConn = true) (c : ι) (id : Int32)
    (content : List UInt8) : s.sendBackendBuffer c id content =
      { s with sent := s.sent ++ (chunks content).map (Packet.data c id) } := by
  rw [sendBackendBuffer]
  induction chunks content generalizing s with
  | nil => simp
  | cons chunk chunks ih =>
    have sends : s.sendBackendPacket (.data c id chunk) =
        { s with sent := s.sent ++ [.data c id chunk] } := if_pos up
    rw [List.foldl_cons, sends, ih (s := { s with sent := s.sent ++ [.data c id chunk] }) up]
    simp

theorem onClientMessage_sound (h : Sound s) (isOpen : (s.clients c).Open) {content : List UInt8}
    (timely : s.backendConn = true → (s.clients c).context.isSome = true ∧
      (content ≠ [] → (s.clients c).joined = s.session)) : Sound (s.onClientMessage c content) := by
  cases up : s.backendConn with
  | false =>
    have same : s.onClientMessage c content = s := by simp [onClientMessage, up]
    rwa [same]
  | true =>
    obtain ⟨id, named⟩ := Option.isSome_iff_exists.mp (timely up).1
    have same : s.onClientMessage c content =
        { s with sent := s.sent ++ (chunks content).map (Packet.data c id) } := by
      simp only [onClientMessage, up, if_true, named]
      rw [sendBackendBuffer_eq up, up]
    have log : holders (s.sent ++ (chunks content).map (Packet.data c id)) =
        some fun i => s.clientConns.lookup i := by
      rw [holders, List.foldlM_append, show s.sent.foldlM follow (fun _ => none) = _ from h.log up]
      by_cases some : content = []
      · subst some
        rfl
      · exact holders_data _ ((h.registered up id c).mpr ⟨isOpen, named, (timely up).2 some⟩) _
    rw [same]
    refine { h with attributed := ?_, log := fun _ => log }
    rw [log]
    rfl

/-- A change of a client that the table does not see. -/
theorem set_sound (h : Sound s) {conn : ClientConn} (isOpen : conn.Open ↔ (s.clients c).Open)
    (context : conn.context = (s.clients c).context) (joined : conn.joined = (s.clients c).joined)
    (state : conn.state = .kConnecting → (s.clients c).state = .kConnecting) :
    Sound (s.set c conn) := by
  refine { h with registered := fun up => ?_, past := ?_, fresh := ?_ }
  · refine registered_set (fun id => ?_) fun id d _ => h.registered up id d
    rw [isOpen, context, joined]
    exact h.registered up id c
  · exact forall_set (P := fun conn => conn.joined ≤ s.session) (joined ▸ h.past c) h.past
  · exact forall_set (P := fun conn => conn.state = .kConnecting → conn.context = none)
      (fun connecting => context.trans (h.fresh c (state connecting))) h.fresh

theorem open_shutdown (conn : ClientConn) : conn.shutdown.Open ↔ conn.Open := by
  cases state : conn.state <;> simp [ClientConn.shutdown, ClientConn.Open, state]

theorem connecting_of_shutdown {conn : ClientConn} (state : conn.shutdown.state = .kConnecting) :
    conn.state = .kConnecting := by
  rw [ClientConn.shutdown] at state
  dsimp only at state
  split at state
  · cases state
  · exact state

theorem shutdown_sound (h : Sound s) (c : ι) : Sound (s.set c (s.clients c).shutdown) :=
  set_sound h (open_shutdown _) rfl rfl connecting_of_shutdown

theorem onBackendPacket_sound (h : Sound s) (p : Int32 × List UInt8) :
    Sound (s.onBackendPacket p) := by
  rw [onBackendPacket]
  split
  · split
    · exact set_sound h Iff.rfl rfl rfl id
    · exact h
  · simp only [doCommand]
    split
    · split
      · exact shutdown_sound h _
      · exact h
    · exact h

theorem onBackendPackets_sound (h : Sound s) (packets : List (Int32 × List UInt8)) :
    Sound (packets.foldl onBackendPacket s) := by
  induction packets generalizing s with
  | nil => exact h
  | cons p packets ih => exact ih (onBackendPacket_sound h p)

theorem onBackendMessage_sound (h : Sound s) {bytes : List UInt8}
    (good : (reader.read (s.input ++ bytes)).bad = false) : Sound (s.onBackendMessage bytes) := by
  have after := onBackendPackets_sound h (reader.read (s.input ++ bytes)).messages
  rw [onBackendMessage]
  exact ⟨⟨by simp [after.running, good], after.attributed, after.nodup, after.shared⟩, after.known,
    after.idle, after.log, after.registered, after.past, after.fresh⟩

theorem onBackendUp_sound (h : Sound s) (down : s.backendConn = false) : Sound s.onBackendUp := by
  obtain ⟨avail, conns⟩ := h.idle down
  have nodup : ids.Nodup := by decide
  refine ⟨⟨h.running, rfl, ?_, fun _ id => ?_⟩, ?_, fun off => (by cases off), fun _ => ?_,
    fun _ id c => ?_, fun c => Nat.le_succ_of_le (h.past c), h.fresh⟩
  · rw [onBackendUp, avail]
    exact nodup
  · simp [onBackendUp, avail, conns, AList.notMem_empty]
  · rw [onBackendUp, conns]
    exact fun id mem => absurd mem (AList.notMem_empty id)
  · rw [onBackendUp, conns]
    rfl
  · have before := h.past c
    simp only [onBackendUp, conns, AList.lookup_empty]
    refine ⟨fun none => (by cases none), fun now => ?_⟩
    have joined := now.2.2
    omega

theorem onBackendDown_sound (h : Sound s) : Sound s.onBackendDown := by
  refine ⟨⟨h.running, h.attributed, List.nodup_nil, fun up => (by cases up)⟩,
    fun id mem => absurd mem (AList.notMem_empty id), fun _ => ⟨rfl, rfl⟩, fun up => (by cases up),
    fun up => (by cases up), fun c => ?_, fun c => ?_⟩
  · simp only [onBackendDown]
    split
    · exact h.past c
    · exact h.past c
  · simp only [onBackendDown]
    split
    · exact fun state => h.fresh c (connecting_of_shutdown state)
    · exact h.fresh c

theorem step_eq (h : Sound s) (a : Act ι) : step s a =
    match a with
    | .clientUp c peer =>
      if (s.clients c).state = .kConnecting then some (s.onClientUp c peer) else none
    | .clientDown c => if (s.clients c).Open then some (s.onClientDown c) else none
    | .clientMessage c content =>
      if (s.clients c).Open then some (s.onClientMessage c content) else none
    | .backendUp => if s.backendConn then none else some s.onBackendUp
    | .backendDown => if s.backendConn then some s.onBackendDown else none
    | .backendMessage bytes => if s.backendConn then some (s.onBackendMessage bytes) else none := by
  simp only [step, h.running, Bool.false_eq_true, if_false]

theorem step_sound (h : Sound s) {a : Act ι} (timely : Timely s a) (next : step s a = some t) :
    Sound t := by
  rw [step_eq h] at next
  cases a with
  | clientUp c peer =>
    dsimp only at next
    split at next
    · rename_i new
      cases next
      exact onClientUp_sound h new peer
    · cases next
  | clientDown c =>
    dsimp only at next
    split at next
    · rename_i isOpen
      cases next
      exact onClientDown_sound h isOpen fun up => timely up isOpen
    · cases next
  | clientMessage c content =>
    dsimp only at next
    split at next
    · rename_i isOpen
      cases next
      exact onClientMessage_sound h isOpen fun up => timely up isOpen
    · cases next
  | backendUp =>
    dsimp only at next
    split at next
    · cases next
    · rename_i down
      cases next
      exact onBackendUp_sound h (Bool.not_eq_true _ ▸ down)
  | backendDown =>
    dsimp only at next
    split at next
    · cases next
      exact onBackendDown_sound h
    · cases next
  | backendMessage bytes =>
    dsimp only at next
    split at next
    · rename_i up
      cases next
      exact onBackendMessage_sound h (timely up)
    · cases next

end Steps

end MultiplexServer
end Multiplex
end Arale
