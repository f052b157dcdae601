import Arale.Lib.RoundRobin
import Arale.Net.TcpServer

/-!
# The loops of a server

`EventLoopThreadPool` of `net/EventLoopThreadPool.cc` under `TcpServer::start` and
`newConncetion`. The loop of the server is number 0, that of the `i`th thread number `i`.
Connections are given to the loops in turn, and stay where they were given.
-/

namespace Arale

open Schedules

/-- `loops` are the loops of the threads; `initialized` is the history of the loops for which
the callback has been called. -/
structure EventLoopThreadPool where
  numThread : Int
  start_ : Bool
  next : Nat
  loops : List Nat
  initialized : List Nat

namespace EventLoopThreadPool

def new : EventLoopThreadPool := ⟨0, false, 0, [], []⟩

def setThreadNum (p : EventLoopThreadPool) (numThread : Int) : EventLoopThreadPool :=
  { p with numThread := numThread }

/-- Every thread calls the callback on its own loop. -/
def start (p : EventLoopThreadPool) (callback : Bool) : EventLoopThreadPool :=
  let loops := (List.range p.numThread.toNat).map (· + 1)
  { p with
    start_ := true
    loops := p.loops ++ loops
    initialized := p.initialized ++ (if callback then loops else []) ++
      if p.numThread = 0 ∧ callback then [0] else [] }

def getNextLoop (p : EventLoopThreadPool) : Nat × EventLoopThreadPool :=
  if p.loops ≠ [] then
    (p.loops.getD p.next 0, { p with next := RoundRobin.turn p.loops.length p.next })
  else (0, p)

def getAllLoops (p : EventLoopThreadPool) : List Nat := if p.loops = [] then [0] else p.loops

end EventLoopThreadPool

/-- A server with its pool; `threadInitCallback` says whether one is set. -/
structure PooledServer where
  server : TcpServer
  threadPool : EventLoopThreadPool
  started : Nat
  threadInitCallback : Bool

namespace PooledServer

def new (name ip : List UInt8) (port : UInt16) (threadInitCallback : Bool) : PooledServer :=
  ⟨.new name ip port, .new, 0, threadInitCallback⟩

inductive Act where
  | setThreadNum (num : Int)
  | start
  /-- the acceptor calls `newConncetion` -/
  | accept
  | close (conn : Nat)
  | removal
  deriving DecidableEq, Repr

/-- `getAndAdd` tells the first call of `start`; nothing is accepted before. -/
def step (s : PooledServer) : Act → Option PooledServer
  | .setThreadNum num => some { s with threadPool := s.threadPool.setThreadNum num }
  | .start =>
    some { s with
      started := s.started + 1
      threadPool := if s.started = 0 then s.threadPool.start s.threadInitCallback
        else s.threadPool }
  | .accept =>
    if 0 < s.started then
      let (ioLoop, threadPool) := s.threadPool.getNextLoop
      (s.server.step (.accept ioLoop)).map fun server =>
        { s with server := server, threadPool := threadPool }
    else none
  | .close conn => (s.server.step (.close conn)).map fun server => { s with server := server }
  | .removal => (s.server.step .removal).map fun server => { s with server := server }

/-- The loop of the `i`th connection. -/
def loopOf (threads i : Nat) : Nat := if threads = 0 then 0 else i % threads + 1

/-- The loops of the accepted connections. -/
def ioLoops (s : PooledServer) : List Nat := s.server.accepted.map AcceptedConnection.ioLoop

/-- Connections have been given to the loops in turn. -/
structure InTurn (s : PooledServer) : Prop where
  registry : ServerRegistry.Kept s.server
  loops : s.threadPool.loops = (List.range s.threadPool.loops.length).map (· + 1)
  idle : s.started = 0 → s.server.accepted = [] ∧ s.threadPool.loops = [] ∧
    s.threadPool.next = 0 ∧ s.threadPool.initialized = []
  next : s.threadPool.loops ≠ [] →
    s.threadPool.next = s.server.accepted.length % s.threadPool.loops.length
  initialized : s.threadPool.loops ≠ [] →
    s.threadPool.initialized = if s.threadInitCallback then s.threadPool.loops else []
  given : s.ioLoops = (List.range s.server.accepted.length).map (loopOf s.threadPool.loops.length)

section Steps
variable {s t : PooledServer}

theorem new_inTurn (name : List UInt8) {ip : List UInt8} (short : ip.length ≤ 45) (port : UInt16)
    (callback : Bool) : InTurn (.new name ip port callback) where
  registry := ServerRegistry.kept_new name short port
  loops := rfl
  idle _ := ⟨rfl, rfl, rfl, rfl⟩
  next some := absurd rfl some
  initialized some := absurd rfl some
  given := rfl

/-- A turn changes the counter only. -/
theorem getNextLoop_frame (p : EventLoopThreadPool) :
    p.getNextLoop.2.loops = p.loops ∧ p.getNextLoop.2.initialized = p.initialized := by
  rw [EventLoopThreadPool.getNextLoop]
  split <;> exact ⟨rfl, rfl⟩

theorem getNextLoop_spec (h : InTurn s) :
    s.threadPool.getNextLoop.1 = loopOf s.threadPool.loops.length s.server.accepted.length ∧
      (s.threadPool.loops ≠ [] → s.threadPool.getNextLoop.2.next =
        (s.server.accepted.length + 1) % s.threadPool.loops.length) := by
  by_cases none : s.threadPool.loops = []
  · simp [EventLoopThreadPool.getNextLoop, loopOf, none]
  · have positive := List.length_pos_iff.mpr none
    have bound := Nat.mod_lt s.server.accepted.length positive
    have place : s.threadPool.loops.getD (s.server.accepted.length % s.threadPool.loops.length) 0 =
        s.server.accepted.length % s.threadPool.loops.length + 1 := by
      generalize s.server.accepted.length % s.threadPool.loops.length = i at bound
      rw [h.loops, List.getD_eq_getElem?_getD]
      simp [bound]
    rw [EventLoopThreadPool.getNextLoop, if_pos none, h.next none, RoundRobin.turn_mod positive,
      place, loopOf, if_neg (Nat.ne_of_gt positive)]
    exact ⟨rfl, fun _ => rfl⟩

theorem accepted_removeConnectionInLoop (s : TcpServer) (conn : Nat) :
    (s.removeConnectionInLoop conn).accepted = s.accepted := by
  rw [TcpServer.removeConnectionInLoop]
  split
  · rw [TcpServer.check]
    split <;> rfl
  · have checks (s : TcpServer) (site : RegistryAssert) (cond : Bool) :
        (s.check site cond).accepted = s.accepted := by
      rw [TcpServer.check]
      split <;> rfl
    dsimp only
    rw [checks]
    exact checks _ _ _

/-- Only `newConncetion` adds to the accepted connections. -/
theorem accepted_step {server server' : TcpServer} {a : TcpServer.Act}
    (other : ∀ ioLoop, a ≠ .accept ioLoop) (next : server.step a = some server') :
    server'.accepted = server.accepted := by
  cases a with
  | accept ioLoop => exact absurd rfl (other ioLoop)
  | close conn =>
    obtain ⟨-, ⟨⟩⟩ := Option.ite_none_right_eq_some.mp next
    rw [TcpServer.removeConnection]
    split
    · exact accepted_removeConnectionInLoop _ conn
    · rfl
  | removal =>
    simp only [TcpServer.step] at next
    split at next
    · cases next
    · cases next
      exact accepted_removeConnectionInLoop _ _

/-- The server goes on without a new connection. -/
theorem other_inTurn (h : InTurn s) {a : TcpServer.Act} {server : TcpServer}
    (other : ∀ ioLoop, a ≠ .accept ioLoop) (next : s.server.step a = some server) :
    InTurn { s with server := server } := by
  have same := accepted_step other next
  refine ⟨ServerRegistry.step_kept h.registry next, h.loops, fun idle => ?_, fun some => ?_,
    h.initialized, ?_⟩
  · exact ⟨same.trans (h.idle idle).1, (h.idle idle).2⟩
  · exact (h.next some).trans (by rw [← same])
  · rw [ioLoops]
    dsimp only
    rw [same]
    exact h.given

theorem start_inTurn (h : InTurn s) (first : s.started = 0) :
    InTurn { s with
      started := 1
      threadPool := s.threadPool.start s.threadInitCallback } := by
  obtain ⟨none, noLoops, zero, nothing⟩ := h.idle first
  have loops : (s.threadPool.start s.threadInitCallback).loops =
      (List.range s.threadPool.numThread.toNat).map (· + 1) := by
    rw [EventLoopThreadPool.start, noLoops, List.nil_append]
  have count : (s.threadPool.start s.threadInitCallback).loops.length =
      s.threadPool.numThread.toNat := by
    rw [loops, List.length_map, List.length_range]
  refine ⟨h.registry, ?_, fun idle => (by cases idle), fun _ => ?_, fun some => ?_, ?_⟩
  · rw [count, loops]
  · exact zero.trans (by rw [none]; exact (Nat.zero_mod _).symm)
  · have threads : s.threadPool.numThread ≠ 0 := by
      intro zero
      apply some
      dsimp only
      rw [loops, zero]
      rfl
    dsimp only
    rw [loops]
    simp only [EventLoopThreadPool.start, nothing, threads, false_and, if_false, List.append_nil,
      List.nil_append]
  · rw [ioLoops, none]
    rfl

theorem accept_inTurn (h : InTurn s) (started : 0 < s.started)
    (positive : s.server.nextConnId < 2 ^ 31) :
    InTurn { s with
      server := s.server.newConncetion s.threadPool.getNextLoop.1
      threadPool := s.threadPool.getNextLoop.2 } := by
  obtain ⟨loop, next⟩ := getNextLoop_spec h
  obtain ⟨loops, initialized⟩ := getNextLoop_frame s.threadPool
  have length : (s.server.newConncetion s.threadPool.getNextLoop.1).accepted.length =
      s.server.accepted.length + 1 := by
    rw [TcpServer.newConncetion, List.length_append, List.length_singleton]
  refine ⟨ServerRegistry.accept_kept h.registry positive _, ?_,
    fun idle => absurd idle (Nat.ne_of_gt started), fun some => ?_, ?_, ?_⟩
  · exact loops.trans (h.loops.trans (by rw [loops]))
  · dsimp only at some ⊢
    rw [length, loops]
    exact next (loops ▸ some)
  · dsimp only
    rw [loops, initialized]
    exact h.initialized
  · have given : (s.server.newConncetion s.threadPool.getNextLoop.1).accepted.map
        AcceptedConnection.ioLoop =
          s.ioLoops ++ [loopOf s.threadPool.loops.length s.server.accepted.length] := by
      rw [TcpServer.newConncetion, List.map_append, loop]
      rfl
    rw [ioLoops]
    dsimp only
    rw [given, h.given, length, loops, List.range_succ, List.map_append]
    rfl

theorem step_inTurn (h : InTurn s) {a : Act} (next : step s a = some t) : InTurn t := by
  cases a with
  | setThreadNum num =>
    cases next
    exact ⟨h.registry, h.loops, h.idle, h.next, h.initialized, h.given⟩
  | start =>
    cases next
    by_cases first : s.started = 0
    · have begun := start_inTurn h first
      simpa [first] using begun
    · simp only [if_neg first]
      exact ⟨h.registry, h.loops, fun idle => (by cases idle), h.next, h.initialized, h.given⟩
  | accept =>
    simp only [step] at next
    split at next
    · rename_i started
      obtain ⟨server, accepted, rfl⟩ := Option.map_eq_some_iff.mp next
      obtain ⟨positive, ⟨⟩⟩ := Option.ite_none_right_eq_some.mp accepted
      exact accept_inTurn h started positive
    · cases next
  | close conn =>
    obtain ⟨server, closed, rfl⟩ := Option.map_eq_some_iff.mp next
    exact other_inTurn h (fun _ => by simp) closed
  | removal =>
    obtain ⟨server, removed, rfl⟩ := Option.map_eq_some_iff.mp next
    exact other_inTurn h (fun _ => by simp) removed

theorem mem_getAllLoops (h : InTurn s) {loop : Nat} (mem : loop ∈ s.threadPool.getAllLoops) :
    (s.threadPool.loops.length = 0 ∧ loop = 0) ∨
      ∃ i < s.threadPool.loops.length, loop = i + 1 := by
  rw [EventLoopThreadPool.getAllLoops] at mem
  split at mem
  · rename_i none
    exact Or.inl ⟨by rw [none]; rfl, List.mem_singleton.mp mem⟩
  · rw [h.loops] at mem
    obtain ⟨i, bound, rfl⟩ := List.mem_map.mp mem
    exact Or.inr ⟨i, List.mem_range.mp bound, rfl⟩

theorem loads_le (h : InTurn s) {first second : Nat} (one : first ∈ s.threadPool.getAllLoops)
    (other : second ∈ s.threadPool.getAllLoops) :
    s.ioLoops.count first ≤ s.ioLoops.count second + 1 := by
  rcases mem_getAllLoops h one with ⟨none, rfl⟩ | ⟨i, boundI, rfl⟩ <;>
    rcases mem_getAllLoops h other with ⟨none, rfl⟩ | ⟨j, boundJ, rfl⟩
  · exact Nat.le_succ _
  · omega
  · omega
  · have positive : 0 < s.threadPool.loops.length := by omega
    have turns : s.ioLoops =
        (List.range s.server.accepted.length).map fun l => l % s.threadPool.loops.length + 1 := by
      rw [h.given]
      refine List.map_congr_left fun l _ => ?_
      rw [loopOf, if_neg (Nat.ne_of_gt positive)]
    rw [turns]
    exact @RoundRobin.count_turns_le Nat _ _ positive (fun i => i + 1)
      (fun i _ j _ same => Nat.succ.inj same) i j boundI boundJ _

theorem ioLoop_eq (h : InTurn s) {conn : Nat} {object : AcceptedConnection}
    (slot : s.server.accepted[conn]? = some object) :
    object.ioLoop = loopOf s.threadPool.loops.length conn := by
  have bound := (List.getElem?_eq_some_iff.mp slot).1
  have given := congrArg (fun loops => loops[conn]?) h.given
  simp only [ioLoops, List.getElem?_map, slot, List.getElem?_range bound, Option.map_some] at given
  exact Option.some.inj given

end Steps

/-- In every run, however many threads there are: the connections are given to the loops in
turn, no loop is ahead of another by more than one, a connection is destroyed on the loop that
it was given to, and with threads the callback has run once on each of their loops. -/
theorem spreads_connections {name ip : List UInt8} (short : ip.length ≤ 45) {port : UInt16}
    {callback : Bool} {actions : List Act} {s : PooledServer}
    (done : run step (new name ip port callback) actions = some s) :
    (∀ conn object, s.server.accepted[conn]? = some object →
      object.ioLoop = loopOf s.threadPool.loops.length conn) ∧
    (∀ first ∈ s.threadPool.getAllLoops, ∀ second ∈ s.threadPool.getAllLoops,
      s.ioLoops.count first ≤ s.ioLoops.count second + 1) ∧
    (∀ loop conn, (loop, conn) ∈ s.server.destroyed →
      loop = loopOf s.threadPool.loops.length conn) ∧
    (s.threadPool.loops ≠ [] → s.threadPool.initialized =
      if s.threadInitCallback then s.threadPool.getAllLoops else []) := by
  have inTurn : InTurn s :=
    run_invariant (P := fun _ _ => True) (fun _ _ _ h _ next => step_inTurn h next)
      (new_inTurn name short port callback) (along_true _ _) done
  refine ⟨fun conn object slot => ioLoop_eq inTurn slot, fun first one second other => ?_,
    fun loop conn posted => ?_, fun some => ?_⟩
  · exact loads_le inTurn one other
  · obtain ⟨⟨object, slot, rfl⟩, -⟩ := (inTurn.registry.registry.destroyed loop conn).mp posted
    exact ioLoop_eq inTurn slot
  · rw [EventLoopThreadPool.getAllLoops, if_neg some]
    exact inTurn.initialized some

/-- Three connections on two threads; the second one closes. -/
theorem spreads_connections_two :
    ∃ s, run step (new [101] [48, 46, 48, 46, 48, 46, 48] 80 true) [.setThreadNum 2, .start,
        .accept, .accept, .accept, .close 1, .removal] = some s ∧
      s.ioLoops = [1, 2, 1] ∧ s.server.destroyed = [(2, 1)] ∧ s.threadPool.initialized = [1, 2] ∧
      (∀ loop conn, (loop, conn) ∈ s.server.destroyed →
        loop = loopOf s.threadPool.loops.length conn) := by
  have short : ([48, 46, 48, 46, 48, 46, 48] : List UInt8).length ≤ 45 := by decide
  refine ⟨_, rfl, rfl, rfl, rfl, ?_⟩
  exact (@spreads_connections [101] _ short 80 true [.setThreadNum 2, .start, .accept, .accept,
    .accept, .close 1, .removal] _ rfl).2.2.1

end PooledServer
end Arale
