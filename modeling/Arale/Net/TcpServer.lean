import Mathlib.Data.List.Nodup
import Arale.Lib.Format
import Arale.Lib.Schedules

/-!
# The connection registry of the server

`TcpServer` of `net/TcpServer.cc` with its `connections_`, keyed by names that are
formatted into a buffer of 64 bytes. Connection objects are numbered in the order in
which they are accepted. `removeConnection` is called on a connection's own loop: on the
server's loop, number 0, the removal is made at once, from any other one it is posted
and waits there. Establishing and destroying connections is not part of this module, nor
is the order in which loops are handed out.
-/

namespace Arale

open Format

/-- `sockets::toIpPort` into a buffer of 64 bytes; `ip` is what `inet_ntop` has written. -/
def toIpPort (ip : List UInt8) (port : UInt16) : List UInt8 :=
  ip ++ snprintf (64 - ip.length) (58 :: decimal port.toNat)

structure AcceptedConnection where
  name : List UInt8
  ioLoop : Nat
  deriving DecidableEq, Repr

/-- Where an `assert` of `removeConnectionInLoop` stands. -/
inductive RegistryAssert where
  | found
  | erased
  | getName
  deriving DecidableEq, Repr

structure TcpServer where
  name : List UInt8
  ipPort : List UInt8
  nextConnId : Nat
  connections : Std.TreeMap (List UInt8) Nat compare
  /-- the connection objects -/
  accepted : List AcceptedConnection
  /-- connections whose `closeCallback_` has been invoked -/
  closed : List Nat
  /-- the removals posted to the server's loop -/
  removals : List Nat
  /-- connections whose `connectionDestroyed` has been posted, with the loop it went to -/
  destroyed : List (Nat × Nat)
  /-- names under which an insertion found an entry -/
  overwritten : List (List UInt8)
  failures : List RegistryAssert

namespace TcpServer

def new (name ip : List UInt8) (port : UInt16) : TcpServer where
  name := name
  ipPort := toIpPort ip port
  nextConnId := 1
  connections := ∅
  accepted := []
  closed := []
  removals := []
  destroyed := []
  overwritten := []
  failures := []

/-- What `snprintf` is given for the next connection. -/
def text (s : TcpServer) : List UInt8 := 45 :: s.ipPort ++ 35 :: decimal s.nextConnId

def connName (s : TcpServer) : List UInt8 := s.name ++ snprintf 64 s.text

def newConncetion (s : TcpServer) (ioLoop : Nat) : TcpServer :=
  { s with
    nextConnId := s.nextConnId + 1
    overwritten := s.overwritten ++
      if s.connections[s.connName]?.isSome then [s.connName] else []
    connections := s.connections.insert s.connName s.accepted.length
    accepted := s.accepted ++ [⟨s.connName, ioLoop⟩] }

def check (s : TcpServer) (site : RegistryAssert) (cond : Bool) : TcpServer :=
  if cond then s else { s with failures := s.failures ++ [site] }

def removeConnectionInLoop (s : TcpServer) (conn : Nat) : TcpServer :=
  match s.accepted[conn]? with
  | none => s.check .getName false
  | some object =>
    let s := s.check .found s.connections[object.name]?.isSome
    let s := { s with connections := s.connections.erase object.name }.check .erased
      s.connections[object.name]?.isSome
    { s with destroyed := s.destroyed ++ [(object.ioLoop, conn)] }

def removeConnection (s : TcpServer) (conn : Nat) : TcpServer :=
  if (s.accepted[conn]?.map AcceptedConnection.ioLoop) = some 0 then s.removeConnectionInLoop conn
  else { s with removals := s.removals ++ [conn] }

inductive Act where
  | accept (ioLoop : Nat)
  | close (conn : Nat)
  | removal
  deriving DecidableEq, Repr

/-- Connection ids are positive `int`s. A connection's close callback is invoked at most
once, on an accepted connection. -/
def step (s : TcpServer) : Act → Option TcpServer
  | .accept ioLoop => if s.nextConnId < 2 ^ 31 then some (s.newConncetion ioLoop) else none
  | .close conn =>
    if conn < s.accepted.length ∧ conn ∉ s.closed then
      some ({ s with closed := s.closed ++ [conn] }.removeConnection conn)
    else none
  | .removal =>
    match s.removals with
    | [] => none
    | conn :: rest => some ({ s with removals := rest }.removeConnectionInLoop conn)

/-! ## Names -/

/-- The name of the connection accepted with an id, if nothing is cut. -/
def nameOf (s : TcpServer) (id : Nat) : List UInt8 :=
  s.name ++ (45 :: s.ipPort ++ 35 :: decimal id)

theorem nameOf_injective (s : TcpServer) : Function.Injective s.nameOf := by
  intro a b same
  have texts := List.append_cancel_left same
  have tails := List.append_cancel_left texts
  exact decimal_injective (List.cons.inj tails).2

/-- Address and port in text. -/
theorem length_toIpPort {ip : List UInt8} (short : ip.length ≤ 45) (port : UInt16) :
    (toIpPort ip port).length ≤ 51 := by
  have digits : (decimal port.toNat).length ≤ 5 :=
    length_decimal_le (by decide) (Nat.lt_of_lt_of_le port.toNat_lt (by decide))
  have cut : (snprintf (64 - ip.length) (58 :: decimal port.toNat)).length ≤
      (58 :: decimal port.toNat).length := by
    rw [snprintf, List.length_take]
    exact Nat.min_le_right _ _
  rw [toIpPort, List.length_append]
  rw [List.length_cons] at cut
  omega

/-- Sixty-three characters at most: a dash, the address, a hash and ten digits. -/
theorem length_text {s : TcpServer} (address : s.ipPort.length ≤ 51)
    (positive : s.nextConnId < 2 ^ 31) : s.text.length ≤ 63 := by
  have digits : (decimal s.nextConnId).length ≤ 10 :=
    length_decimal_le (by decide) (Nat.lt_trans positive (by decide))
  simp only [text, List.length_append, List.length_cons]
  omega

theorem connName_eq {s : TcpServer} (address : s.ipPort.length ≤ 51)
    (positive : s.nextConnId < 2 ^ 31) : s.connName = s.nameOf s.nextConnId := by
  have fits := length_text address positive
  rw [connName, snprintf_of_lt (by omega)]
  rfl

end TcpServer

end Arale

namespace ServerRegistry

open Arale Schedules TcpServer

/-- `removeConnectionInLoop` has been executed on the connection. -/
def Removed (s : TcpServer) (conn : Nat) : Prop := conn ∈ s.closed ∧ conn ∉ s.removals

/-- The names are uncut and distinct, the map has the connections that are accepted and
not removed, and a removal is made once and goes on to the connection's own loop. -/
structure Registry (s : TcpServer) : Prop where
  uncut : ∀ (i : Nat) (a : AcceptedConnection), s.accepted[i]? = some a →
    a.name = s.nameOf (i + 1)
  distinct : ∀ (i j : Nat) (a b : AcceptedConnection), s.accepted[i]? = some a →
    s.accepted[j]? = some b → a.name = b.name → i = j
  maps : ∀ (name : List UInt8) (conn : Nat), s.connections[name]? = some conn ↔
    ∃ a, s.accepted[conn]? = some a ∧ a.name = name ∧ ¬ Removed s conn
  kept : s.overwritten = []
  found : s.failures = []
  destroyed : ∀ loop conn, (loop, conn) ∈ s.destroyed ↔
    (∃ a, s.accepted[conn]? = some a ∧ a.ioLoop = loop) ∧ Removed s conn
  once : (s.destroyed.map Prod.snd).Nodup

/-- The invariant of every run. -/
structure Kept (s : TcpServer) : Prop where
  address : s.ipPort.length ≤ 51
  ids : s.nextConnId = s.accepted.length + 1
  closed : ∀ conn ∈ s.closed, conn < s.accepted.length
  pending : ∀ conn ∈ s.removals, conn ∈ s.closed
  single : s.removals.Nodup
  registry : Registry s

theorem kept_new (name : List UInt8) {ip : List UInt8} (short : ip.length ≤ 45) (port : UInt16) :
    Kept (.new name ip port) where
  address := length_toIpPort short port
  ids := rfl
  closed := fun conn mem => by cases mem
  pending := fun conn mem => by cases mem
  single := List.nodup_nil
  registry :=
    { uncut := fun i a slot => by cases slot
      distinct := fun i j a b slot => by cases slot
      maps := fun name conn => by simp [new]
      kept := rfl
      found := rfl
      destroyed := fun loop conn => by simp [new]
      once := List.nodup_nil }

section Steps
variable {s : TcpServer}

theorem distinct_of_uncut
    (uncut : ∀ (i : Nat) (a : AcceptedConnection), s.accepted[i]? = some a →
      a.name = s.nameOf (i + 1)) (i j : Nat) (a b : AcceptedConnection)
    (first : s.accepted[i]? = some a) (second : s.accepted[j]? = some b)
    (same : a.name = b.name) : i = j := by
  rw [uncut i a first, uncut j b second] at same
  have := s.nameOf_injective same
  omega

theorem getElem?_concat_iff {accepted : List AcceptedConnection} {x a : AcceptedConnection}
    {i : Nat} : (accepted ++ [x])[i]? = some a ↔
      accepted[i]? = some a ∨ (i = accepted.length ∧ a = x) := by
  rcases Nat.lt_trichotomy i accepted.length with old | rfl | beyond
  · rw [List.getElem?_append_left old]
    have : i ≠ accepted.length := by omega
    simp [this]
  · simp [eq_comm]
  · have last : (accepted ++ [x])[i]? = none :=
      List.getElem?_eq_none (by rw [List.length_append, List.length_singleton]; omega)
    have before : accepted[i]? = none := List.getElem?_eq_none (by omega)
    have : i ≠ accepted.length := by omega
    simp [last, before, this]

/-- The next name is not the one of a connection that is there. -/
theorem connName_fresh (kept : Kept s) (positive : s.nextConnId < 2 ^ 31) {conn : Nat}
    (old : conn < s.accepted.length) : s.nameOf (conn + 1) ≠ s.connName := by
  intro same
  rw [connName_eq kept.address positive] at same
  have number := s.nameOf_injective same
  have next := kept.ids
  omega

theorem connName_free (kept : Kept s) (positive : s.nextConnId < 2 ^ 31) :
    s.connections[s.connName]? = none := by
  cases found : s.connections[s.connName]? with
  | none => rfl
  | some conn =>
    obtain ⟨a, slot, same, -⟩ := (kept.registry.maps _ _).mp found
    rw [kept.registry.uncut conn a slot] at same
    exact absurd same (connName_fresh kept positive (List.getElem?_eq_some_iff.mp slot).1)

theorem accept_maps (kept : Kept s) (positive : s.nextConnId < 2 ^ 31) (ioLoop : Nat)
    (key : List UInt8) (conn : Nat) : (s.newConncetion ioLoop).connections[key]? = some conn ↔
      ∃ a, (s.newConncetion ioLoop).accepted[conn]? = some a ∧ a.name = key ∧
        ¬ Removed s conn := by
  by_cases here : key = s.connName
  · subst here
    have unremoved : ¬ Removed s s.accepted.length := by
      rintro ⟨closed, -⟩
      exact absurd (kept.closed _ closed) (Nat.lt_irrefl _)
    have now : (s.newConncetion ioLoop).connections[s.connName]? =
        some s.accepted.length := by simp [newConncetion]
    rw [now]
    constructor
    · rintro ⟨⟩
      exact ⟨_, getElem?_concat_iff.mpr (.inr ⟨rfl, rfl⟩), rfl, unremoved⟩
    · rintro ⟨a, slot, same, -⟩
      rcases getElem?_concat_iff.mp slot with old | ⟨rfl, -⟩
      · rw [kept.registry.uncut conn a old] at same
        exact absurd same (connName_fresh kept positive (List.getElem?_eq_some_iff.mp old).1)
      · rfl
  · have before : (s.newConncetion ioLoop).connections[key]? = s.connections[key]? := by
      simp [newConncetion, Std.TreeMap.getElem?_insert, Ne.symm here]
    rw [before, kept.registry.maps]
    constructor
    · rintro ⟨a, slot, same, unremoved⟩
      exact ⟨a, getElem?_concat_iff.mpr (.inl slot), same, unremoved⟩
    · rintro ⟨a, slot, same, unremoved⟩
      rcases getElem?_concat_iff.mp slot with old | ⟨-, rfl⟩
      · exact ⟨a, old, same, unremoved⟩
      · exact absurd same.symm here

theorem accept_kept (kept : Kept s) (positive : s.nextConnId < 2 ^ 31) (ioLoop : Nat) :
    Kept (s.newConncetion ioLoop) := by
  have uncut (i : Nat) (a : AcceptedConnection)
      (slot : (s.newConncetion ioLoop).accepted[i]? = some a) : a.name = s.nameOf (i + 1) := by
    rcases getElem?_concat_iff.mp slot with old | ⟨rfl, rfl⟩
    · exact kept.registry.uncut i a old
    · rw [← kept.ids]
      exact connName_eq kept.address positive
  refine ⟨kept.address, ?_, fun conn mem => ?_, kept.pending, kept.single, ?_⟩
  · simp [newConncetion, kept.ids]
  · have := kept.closed conn mem
    simp only [newConncetion, List.length_append, List.length_singleton]
    omega
  · refine ⟨uncut, distinct_of_uncut uncut, accept_maps kept positive ioLoop, ?_,
      kept.registry.found, fun loop conn => ?_, kept.registry.once⟩
    · simp [newConncetion, connName_free kept positive, kept.registry.kept]
    · rw [show (s.newConncetion ioLoop).destroyed = s.destroyed from rfl, kept.registry.destroyed]
      constructor
      · rintro ⟨⟨a, slot, loops⟩, removed⟩
        exact ⟨⟨a, getElem?_concat_iff.mpr (.inl slot), loops⟩, removed⟩
      · rintro ⟨⟨a, slot, loops⟩, removed⟩
        rcases getElem?_concat_iff.mp slot with old | ⟨rfl, -⟩
        · exact ⟨⟨a, old, loops⟩, removed⟩
        · exact absurd (kept.closed _ removed.1) (Nat.lt_irrefl _)

/-- A removal that is made: the connection, closed now or before, is in the map. -/
theorem removal_kept (kept : Kept s) (closed removals : List Nat) {conn : Nat}
    {object : AcceptedConnection} (slot : s.accepted[conn]? = some object)
    (present : ¬ Removed s conn)
    (removed : ∀ c, (c ∈ closed ∧ c ∉ removals) ↔ Removed s c ∨ c = conn)
    (bound : ∀ c ∈ closed, c < s.accepted.length) (pending : ∀ c ∈ removals, c ∈ closed)
    (single : removals.Nodup) :
    Kept ({ s with closed := closed, removals := removals }.removeConnectionInLoop conn) := by
  have entry : s.connections[object.name]? = some conn :=
    (kept.registry.maps _ _).mpr ⟨object, slot, rfl, present⟩
  have made : { s with closed := closed, removals := removals }.removeConnectionInLoop conn =
      { s with
        closed := closed
        removals := removals
        connections := s.connections.erase object.name
        destroyed := s.destroyed ++ [(object.ioLoop, conn)] } := by
    simp [removeConnectionInLoop, slot, entry, TcpServer.check]
  rw [made]
  refine ⟨kept.address, kept.ids, bound, pending, single, ?_⟩
  refine ⟨kept.registry.uncut, kept.registry.distinct, fun name c => ?_, kept.registry.kept,
    kept.registry.found, fun loop c => ?_, ?_⟩
  · rw [Std.TreeMap.getElem?_erase]
    by_cases here : object.name = name
    · subst here
      simp only [Std.compare_self, if_true, reduceCtorEq, false_iff]
      rintro ⟨a, its, same, left⟩
      have one := kept.registry.distinct c conn a object its slot same
      exact left ((removed c).mpr (.inr one))
    · rw [if_neg fun equal => here (Std.compare_eq_iff_eq.mp equal), kept.registry.maps]
      constructor
      · rintro ⟨a, its, same, left⟩
        refine ⟨a, its, same, fun gone => ?_⟩
        rcases (removed c).mp gone with before | rfl
        · exact left before
        · rw [slot] at its
          cases its
          exact here same
      · rintro ⟨a, its, same, left⟩
        exact ⟨a, its, same, fun before => left ((removed c).mpr (.inl before))⟩
  · rw [List.mem_append, List.mem_singleton, kept.registry.destroyed]
    constructor
    · rintro (⟨its, before⟩ | last)
      · exact ⟨its, (removed c).mpr (.inl before)⟩
      · obtain ⟨rfl, rfl⟩ := Prod.mk.inj last
        exact ⟨⟨object, slot, rfl⟩, (removed c).mpr (.inr rfl)⟩
    · rintro ⟨⟨a, its, rfl⟩, gone⟩
      rcases (removed c).mp gone with before | rfl
      · exact .inl ⟨⟨a, its, rfl⟩, before⟩
      · rw [slot] at its
        cases its
        exact .inr rfl
  · rw [List.map_append, List.map_singleton, List.nodup_append]
    refine ⟨kept.registry.once, List.nodup_singleton _, ?_⟩
    rintro c mem _ last rfl
    obtain ⟨⟨loop, d⟩, posted, rfl⟩ := List.mem_map.mp mem
    rw [List.mem_singleton] at last
    subst last
    exact present ((kept.registry.destroyed loop _).mp posted).2

theorem close_kept (kept : Kept s) {conn : Nat} (bound : conn < s.accepted.length)
    (first : conn ∉ s.closed) :
    Kept ({ s with closed := s.closed ++ [conn] }.removeConnection conn) := by
  have slot := List.getElem?_eq_getElem bound
  have notPending : conn ∉ s.removals := fun mem => first (kept.pending conn mem)
  have later : ∀ c ∈ s.closed ++ [conn], c < s.accepted.length := by
    intro c mem
    rcases List.mem_append.mp mem with old | last
    · exact kept.closed c old
    · rwa [List.mem_singleton.mp last]
  rw [removeConnection]
  split
  · -- on the server's own loop the removal is made at once
    refine removal_kept kept (s.closed ++ [conn]) s.removals slot (fun gone => first gone.1)
      (fun c => ?_) later (fun c mem => List.mem_append_left _ (kept.pending c mem)) kept.single
    rw [List.mem_append, List.mem_singleton, Removed]
    constructor
    · rintro ⟨old | rfl, unposted⟩
      · exact .inl ⟨old, unposted⟩
      · exact .inr rfl
    · rintro (⟨old, unposted⟩ | rfl)
      · exact ⟨.inl old, unposted⟩
      · exact ⟨.inr rfl, notPending⟩
  · -- from another loop it is posted, and nothing is removed yet
    have same (c : Nat) : (c ∈ s.closed ++ [conn] ∧ c ∉ s.removals ++ [conn]) ↔ Removed s c := by
      simp only [Removed, List.mem_append, List.mem_singleton]
      constructor
      · rintro ⟨old | rfl, unposted⟩
        · exact ⟨old, fun mem => unposted (.inl mem)⟩
        · exact absurd (.inr rfl) unposted
      · rintro ⟨old, unposted⟩
        refine ⟨.inl old, ?_⟩
        rintro (mem | rfl)
        · exact unposted mem
        · exact first old
    refine ⟨kept.address, kept.ids, later, fun c mem => ?_, ?_, ?_⟩
    · rcases List.mem_append.mp mem with old | last
      · exact List.mem_append_left _ (kept.pending c old)
      · exact List.mem_append_right _ last
    · rw [List.nodup_append]
      refine ⟨kept.single, List.nodup_singleton _, ?_⟩
      rintro c mem _ last rfl
      exact notPending (List.mem_singleton.mp last ▸ mem)
    · refine ⟨kept.registry.uncut, kept.registry.distinct, fun name c => ?_, kept.registry.kept,
        kept.registry.found, fun loop c => ?_, kept.registry.once⟩
      · rw [Removed, same]
        exact kept.registry.maps name c
      · rw [Removed, same]
        exact kept.registry.destroyed loop c

theorem step_kept {t : TcpServer} (kept : Kept s) {a : Act} (next : s.step a = some t) :
    Kept t := by
  cases a with
  | accept ioLoop =>
    obtain ⟨positive, ⟨⟩⟩ := Option.ite_none_right_eq_some.mp next
    exact accept_kept kept positive ioLoop
  | close conn =>
    obtain ⟨⟨bound, first⟩, ⟨⟩⟩ := Option.ite_none_right_eq_some.mp next
    exact close_kept kept bound first
  | removal =>
    simp only [step] at next
    split at next
    · cases next
    · rename_i conn rest queue
      cases next
      have single := kept.single
      have pending := kept.pending
      rw [queue, List.nodup_cons] at single
      rw [queue, List.forall_mem_cons] at pending
      have slot := List.getElem?_eq_getElem (kept.closed conn pending.1)
      have waits : ¬ Removed s conn := fun gone => gone.2 (by simp [queue])
      refine removal_kept kept s.closed rest slot waits (fun c => ?_) kept.closed pending.2
        single.2
      rw [Removed, queue, List.mem_cons, not_or]
      constructor
      · rintro ⟨closed, unposted⟩
        by_cases self : c = conn
        · exact .inr self
        · exact .inl ⟨closed, self, unposted⟩
      · rintro (⟨closed, -, unposted⟩ | rfl)
        · exact ⟨closed, unposted⟩
        · exact ⟨pending.1, single.1⟩

end Steps

/-- Through every run of accepted connections and close notifications, whatever the name
of the server and the address it listens on, the registry is exact after each of them. -/
theorem registry_exact (name ip : List UInt8) (short : ip.length ≤ 45) (port : UInt16)
    (actions : List Act) : Throughout step Registry (new name ip port) actions :=
  throughout_of_along (P := fun _ _ => True) (fun _ _ _ kept _ next => step_kept kept next)
    (fun _ kept => kept.registry) (kept_new name short port) (along_true _ actions)

/-- Three connections on two loops, closed out of order. -/
theorem three_connections_exact :
    ([48, 46, 48, 46, 48, 46, 48] : List UInt8).length ≤ 45 ∧
      Throughout step Registry (new [101] [48, 46, 48, 46, 48, 46, 48] 80)
        [.accept 1, .accept 0, .close 0, .accept 1, .close 1, .close 2, .removal, .removal] := by
  have short : ([48, 46, 48, 46, 48, 46, 48] : List UInt8).length ≤ 45 := by decide
  exact ⟨short, registry_exact _ _ short _ _⟩

end ServerRegistry
