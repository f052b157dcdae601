import Arale.Lib.Memory
import Arale.Net.Connector

/-!
# Self-connected sockets

`sockets::isSelfConnect` on the two addresses of a connected socket, and what
`Connector::handleWrite` makes of its answer. `getsockname` and `getpeername` fill the
front of a zeroed `sockaddr_in6`, which is read through that layout or as a
`sockaddr_in`. The branch for IPv6 tests for the family the first branch has taken, so
that an IPv6 socket is never found to be connected to itself.
-/

namespace Arale
namespace SelfConnect

open Memory

def AF_INET : UInt8 := 2
def AF_INET6 : UInt8 := 10

/-- The address of one end of a socket: ports and addresses in network order, the others
as they lie in memory. -/
inductive SocketAddress where
  | inet (sin_port : Vector UInt8 2) (sin_addr : Vector UInt8 4)
  | inet6 (sin6_port : Vector UInt8 2) (sin6_flowinfo : Vector UInt8 4)
      (sin6_addr : Vector UInt8 16) (sin6_scope_id : Vector UInt8 4)
  deriving DecidableEq, Repr

namespace SocketAddress

def isInet6 : SocketAddress → Bool
  | inet _ _ => false
  | inet6 _ _ _ _ => true

/-- The structure the kernel copies out. -/
def structBytes : SocketAddress → List UInt8
  | inet sin_port sin_addr =>
    [AF_INET, 0] ++ sin_port.toList ++ sin_addr.toList ++ List.replicate 8 0
  | inet6 sin6_port sin6_flowinfo sin6_addr sin6_scope_id =>
    [AF_INET6, 0] ++ sin6_port.toList ++ sin6_flowinfo.toList ++ sin6_addr.toList ++
      sin6_scope_id.toList

/-- The same address and port. -/
def SameEndpoint : SocketAddress → SocketAddress → Prop
  | inet sin_port sin_addr, inet sin_port' sin_addr' => sin_port = sin_port' ∧ sin_addr = sin_addr'
  | inet6 sin6_port _ sin6_addr _, inet6 sin6_port' _ sin6_addr' _ =>
    sin6_port = sin6_port' ∧ sin6_addr = sin6_addr'
  | _, _ => False

instance : (a b : SocketAddress) → Decidable (SameEndpoint a b)
  | inet _ _, inet _ _ => inferInstanceAs (Decidable (_ ∧ _))
  | inet6 _ _ _ _, inet6 _ _ _ _ => inferInstanceAs (Decidable (_ ∧ _))
  | inet _ _, inet6 _ _ _ _ => inferInstanceAs (Decidable False)
  | inet6 _ _ _ _, inet _ _ => inferInstanceAs (Decidable False)

end SocketAddress

def sizeofSockaddrIn6 : Nat := 28

/-- `getLocalAddr` and `getPeerAddr`: the structure over a zeroed `sockaddr_in6`. -/
def getAddr (a : SocketAddress) : List UInt8 :=
  a.structBytes ++ (List.replicate sizeofSockaddrIn6 0).drop a.structBytes.length

/-! The fields of the two layouts; scalars compare as their bytes do. -/

def sin6_family (addr : List UInt8) : List UInt8 := slice addr 0 2
def sin6_addr (addr : List UInt8) : List UInt8 := slice addr 8 24
def sin_port (addr : List UInt8) : List UInt8 := slice addr 2 4
def sin_addr (addr : List UInt8) : List UInt8 := slice addr 4 8

def isSelfConnect (localaddr peeraddr : List UInt8) : Bool :=
  if sin6_family localaddr = [AF_INET, 0] then
    sin_port localaddr == sin_port peeraddr && sin_addr localaddr == sin_addr peeraddr
  else if sin6_family localaddr = [AF_INET, 0] then
    sin6_family localaddr == sin6_family peeraddr && sin6_addr localaddr == sin6_addr peeraddr
  else false

/-- `isSelfConnect` is right about a socket between two addresses. -/
def Recognised (here peer : SocketAddress) : Prop :=
  isSelfConnect (getAddr here) (getAddr peer) = true ↔ here.SameEndpoint peer

/-- In no state of any run is a socket between two addresses that are the same handed over
by `handleWrite`, whatever its pending error and the callback. -/
def NeverHanded (here peer : SocketAddress) : Prop :=
  ∀ actions s, Schedules.run Connector.step .new actions = some s →
    ∀ (err : Int) (restart : Option Attempt),
      (s.handleWrite ⟨err, isSelfConnect (getAddr here) (getAddr peer), restart⟩).handed ≠
        s.handed → ¬ here.SameEndpoint peer

section Addresses
variable {here peer : SocketAddress}

theorem sin6_family_getAddr (a : SocketAddress) :
    sin6_family (getAddr a) = if a.isInet6 then [AF_INET6, 0] else [AF_INET, 0] := by
  cases a <;> rfl

theorem sin_port_inet (port : Vector UInt8 2) (addr : Vector UInt8 4) :
    sin_port (getAddr (.inet port addr)) = port.toList := by
  simp [sin_port, getAddr, SocketAddress.structBytes, slice]

theorem sin_addr_inet (port : Vector UInt8 2) (addr : Vector UInt8 4) :
    sin_addr (getAddr (.inet port addr)) = addr.toList := by
  simp [sin_addr, getAddr, SocketAddress.structBytes, slice, List.take_append]

/-- Two IPv4 addresses are compared as they should be. -/
theorem isSelfConnect_inet (port port' : Vector UInt8 2) (addr addr' : Vector UInt8 4) :
    isSelfConnect (getAddr (.inet port addr)) (getAddr (.inet port' addr')) =
      decide (port = port' ∧ addr = addr') := by
  have family : sin6_family (getAddr (.inet port addr)) = [AF_INET, 0] :=
    sin6_family_getAddr (.inet port addr)
  rw [isSelfConnect, if_pos family, sin_port_inet, sin_port_inet, sin_addr_inet, sin_addr_inet,
    Bool.eq_iff_iff]
  simp

/-- No branch is left for an IPv6 address. -/
theorem isSelfConnect_inet6 (here : SocketAddress) (inet6 : here.isInet6 = true)
    (peeraddr : List UInt8) : isSelfConnect (getAddr here) peeraddr = false := by
  have family := sin6_family_getAddr here
  rw [if_pos inet6] at family
  simp [isSelfConnect, family, AF_INET, AF_INET6]

theorem recognised_iff (sameFamily : here.isInet6 = peer.isInet6) :
    Recognised here peer ↔ ¬ (here.isInet6 = true ∧ here.SameEndpoint peer) := by
  cases here with
  | inet port addr =>
    cases peer with
    | inet port' addr' =>
      simp [Recognised, isSelfConnect_inet, SocketAddress.isInet6, SocketAddress.SameEndpoint]
    | inet6 port' flowinfo' addr' scope' => cases sameFamily
  | inet6 port flowinfo addr scope =>
    have unseen := isSelfConnect_inet6 (.inet6 port flowinfo addr scope) rfl (getAddr peer)
    simp [Recognised, unseen, SocketAddress.isInet6]

/-- Only a socket taken for a connection to another end is handed over. -/
theorem handed_of_handleWrite {s : Connector} {answer : Answer}
    (handed : (s.handleWrite answer).handed ≠ s.handed) : answer.selfConnect = false := by
  by_contra self
  rw [Bool.not_eq_false] at self
  refine handed ?_
  simp only [Connector.handleWrite, Connector.removeAndResetChannel, self]
  split
  · cases s.connectChannel with
    | none => simp [Connector.check_eq]
    | some sock => simp [Connector.retry_eq, Connector.postFuntor]
  · simp [Connector.check_eq]

/-- A connector with a socket that is being connected. -/
theorem connecting_reached :
    ∃ s, Schedules.run Connector.step .new [.start true ⟨.EINPROGRESS, false⟩] = some s ∧
      (s.handleWrite ⟨0, false, none⟩).handed = [0] ∧ s.handed = [] :=
  ⟨_, rfl, rfl, rfl⟩

theorem neverHanded_iff (sameFamily : here.isInet6 = peer.isInet6) :
    NeverHanded here peer ↔ ¬ (here.isInet6 = true ∧ here.SameEndpoint peer) := by
  constructor
  · rintro never ⟨inet6, same⟩
    obtain ⟨s, reached, handed, before⟩ := connecting_reached
    have unseen := isSelfConnect_inet6 here inet6 (getAddr peer)
    refine never _ s reached 0 none ?_ same
    rw [unseen, handed, before]
    exact List.cons_ne_nil 0 []
  · intro apart actions s _ err restart handed same
    have recognised := (recognised_iff sameFamily).mpr apart
    have unseen := handed_of_handleWrite handed
    rw [recognised.mpr same] at unseen
    cases unseen

end Addresses

/-- Both hold of all addresses but two IPv6 ones that are the same endpoint. -/
theorem self_connect_iff {here peer : SocketAddress} (sameFamily : here.isInet6 = peer.isInet6) :
    (Recognised here peer ↔ ¬ (here.isInet6 = true ∧ here.SameEndpoint peer)) ∧
      (NeverHanded here peer ↔ ¬ (here.isInet6 = true ∧ here.SameEndpoint peer)) :=
  ⟨recognised_iff sameFamily, neverHanded_iff sameFamily⟩

/-- `[::1]:40000` connected to itself. -/
def loopback : SocketAddress :=
  .inet6 #v[156, 64] #v[0, 0, 0, 0] #v[0, 0, 0, 0, 0, 0, 0, 0, 0, 0, 0, 0, 0, 0, 0, 1]
    #v[0, 0, 0, 0]

theorem loopback_handed_over :
    ¬ Recognised loopback loopback ∧ ¬ NeverHanded loopback loopback := by
  have same : loopback.SameEndpoint loopback := ⟨rfl, rfl⟩
  have unseen := isSelfConnect_inet6 loopback rfl (getAddr loopback)
  constructor
  · intro recognised
    rw [recognised.mpr same] at unseen
    cases unseen
  · exact fun never => (neverHanded_iff rfl).mp never ⟨rfl, same⟩

/-- `127.0.0.1:40000` connected to itself is retried. -/
theorem loopback_v4_recognised :
    Recognised (.inet #v[156, 64] #v[127, 0, 0, 1]) (.inet #v[156, 64] #v[127, 0, 0, 1]) :=
  (self_connect_iff rfl).1.mpr fun inet6 => by cases inet6.1

end SelfConnect
end Arale
