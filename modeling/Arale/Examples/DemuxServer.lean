import Arale.Examples.MultiplexServer

/-!
# Reading the multiplexer's packets

The loop of `DemuxServer::onServerMessage` in `examples/multiplexer/Demux.cc`, run on the
packets of a multiplexer as they arrive in pieces. It waits for as many bytes as the content
has, without those of the header, and takes the length for a signed one. Where that shows is
said exactly.
-/

namespace Arale

open Schedules

namespace Demux

open Multiplex

/-- A packet that has been taken from the buffer, by its id and its content. -/
abbrev Taken := Int32 × List UInt8

/-- `buf->peek()[1]` and `buf->peek()[2]` put together, as unsigned bytes. -/
def packetId (low high : UInt8) : Int32 :=
  (low.toUInt32 ||| (high.toUInt32 <<< 8)).toInt32

/-- The loop of `onServerMessage`: the packets it takes and what it leaves in the buffer.
`beyond` is the memory behind the readable bytes. -/
def readPackets (beyond : List UInt8) : Nat → List UInt8 → List Taken × List UInt8
  | 0, buf => ([], buf)
  | fuel + 1, buf =>
    match buf with
    | header :: low :: high :: rest =>
      let len := (packetLen header).toNat
      if rest.length = 0 ∨ buf.length < len then ([], buf)
      else
        let (taken, left) := readPackets beyond fuel (rest.drop len)
        ((packetId low high, (rest ++ beyond).take len) :: taken, left)
    | _ => ([], buf)

/-- The reading side of the server; `arrived` is the history of the bytes received. -/
structure Input where
  buf : List UInt8
  taken : List Taken
  arrived : List UInt8

def Input.start : Input := ⟨[], [], []⟩

/-- Each round takes a header at least. -/
def onServerMessage (s : Input) (piece beyond : List UInt8) : Input :=
  let (taken, left) := readPackets beyond (s.buf.length + piece.length + 1) (s.buf ++ piece)
  ⟨left, s.taken ++ taken, s.arrived ++ piece⟩

/-- The bytes of a sequence of packets. -/
def wire (packets : List Taken) : List UInt8 := packets.flatMap fun p => packet p.1 p.2

/-- A piece of what the multiplexer has written arrives. -/
structure Piece where
  bytes : List UInt8
  beyond : List UInt8

def step (packets : List Taken) (s : Input) (piece : Piece) : Option Input :=
  if s.arrived ++ piece.bytes <+: wire packets then
    some (onServerMessage s piece.bytes piece.beyond)
  else none

/-! ## What can be read -/

def size (p : Taken) : Nat := p.2.length + kHeaderLen

/-- The packets that have arrived whole when `n` bytes have. -/
def whole : List Taken → Nat → List Taken
  | [], _ => []
  | p :: packets, n => if size p ≤ n then p :: whole packets (n - size p) else []

/-- Packets as `sendBackendPacket` writes them. -/
structure Sendable (p : Taken) : Prop where
  some : 0 < p.2.length
  short : p.2.length ≤ kMaxPacketLen
  id : p.1.toUInt32.toNat < 2 ^ 16

/-! ## The bytes of a packet -/

theorem length_packet (p : Taken) : (packet p.1 p.2).length = size p := by
  simp [packet, size, kHeaderLen]

section Loop
variable (beyond : List UInt8) {p : Taken} {packets : List Taken}

/-- What is left when the packets `done` have been taken. -/
structure Split (packets : List Taken) (xs : List UInt8) (done later : List Taken)
    (left : List UInt8) : Prop where
  packets : packets = done ++ later
  bytes : xs = wire done ++ left
  rest : whole later left.length = []
  short : ∀ p ∈ done, p.2.length < 128

theorem wire_cons (p : Taken) (packets : List Taken) :
    wire (p :: packets) = packet p.1 p.2 ++ wire packets := rfl

theorem length_wire_cons (p : Taken) (packets : List Taken) :
    (wire (p :: packets)).length = size p + (wire packets).length := by
  rw [wire_cons, List.length_append, length_packet]

end Loop

/-! ## Whole connections -/

section Runs
variable {packets : List Taken}

theorem whole_append (done later : List Taken) (n : Nat) :
    whole (done ++ later) ((wire done).length + n) = done ++ whole later n := by
  induction done with
  | nil => rw [List.nil_append, show (wire []).length = 0 from rfl, Nat.zero_add, List.nil_append]
  | cons p done ih =>
    have more : size p ≤ size p + (wire done).length + n := by omega
    have rest : size p + (wire done).length + n - size p = (wire done).length + n := by omega
    rw [length_wire_cons, List.cons_append, whole, if_pos more, rest, ih, List.cons_append]

/-- What has been taken is what has arrived whole. -/
def Exact (packets : List Taken) (s : Input) : Prop :=
  s.taken = whole packets s.arrived.length

/-- The buffer holds the part that has arrived of the next packet. -/
def Follows (packets : List Taken) (s : Input) : Prop :=
  ∃ later, Split packets s.arrived s.taken later s.buf

theorem Follows.exact {s : Input} (h : Follows packets s) : Exact packets s := by
  obtain ⟨later, split⟩ := h
  rw [Exact, split.bytes, split.packets, List.length_append, whole_append, split.rest,
    List.append_nil]

end Runs

/-! ## The packets of a multiplexer -/

section Multiplexer
variable {ι : Type}

/-- A packet by its id and its content. -/
def content : Packet ι → Taken
  | .up _ _ msg | .down _ _ msg => (0, msg)
  | .data _ id content => (id, content)

/-- Ids come from the pool, and all packets can be sent. -/
structure Named (s : MultiplexServer ι) : Prop where
  avail : ∀ id ∈ s.availIds, id ∈ ids
  context : ∀ c id, (s.clients c).context = some id → id ∈ ids
  peer : ∀ c, (s.clients c).peer.length < 64
  sendable : ∀ p ∈ s.sent, Sendable (content p)

section Steps
variable {s t : MultiplexServer ι} {c : ι}

variable [DecidableEq ι]

end Steps

end Multiplexer

end Demux
end Arale
