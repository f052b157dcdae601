import Mathlib.Logic.Function.Basic
import Arale.Lib.Schedules
import Arale.Lib.TimingWheel

/-!
# The idle connection server

`examples/idleconnection/Echo.cc`: a ring of buckets, one for each second, holds the only
shared pointers to the `Entry` of every connection, whose destructor shuts the connection
down. Every message puts the entry into the last bucket, every second drops the first one.
All connections share the ring and the timer, and yet each is treated as if it had a
countdown of its own.
-/

namespace Arale

open Schedules

namespace IdleConnection

/-- Connections and their entries go by numbers. `alive` says whether `weakConn_.lock()`
succeeds, `met` which connections have come up; `ticks` counts the calls of `onTimer`, and
`shutdowns` during which of them `conn->shutdown()` was called: histories. -/
structure EchoServer where
  connections : List (List Nat)
  alive : Nat → Bool
  met : Nat → Bool
  ticks : Nat
  shutdowns : Nat → List Nat

/-- The constructor resizes the ring to its capacity. -/
def start (idleSeconds : Nat) : EchoServer :=
  ⟨List.replicate idleSeconds [], fun _ => false, fun _ => false, 0, fun _ => []⟩

inductive Act where
  /-- `onConnection`, UP: a new connection -/
  | up (conn : Nat)
  | onMessage (conn : Nat)
  /-- the connection object is gone -/
  | destroyed (conn : Nat)
  | onTimer
  deriving DecidableEq, Repr

/-- `weakEntry.lock()` succeeds: the entry is in a bucket. -/
def EchoServer.HasEntry (s : EchoServer) (conn : Nat) : Prop :=
  ∃ bucket ∈ s.connections, conn ∈ bucket

instance (s : EchoServer) (conn : Nat) : Decidable (s.HasEntry conn) :=
  inferInstanceAs (Decidable (∃ bucket ∈ s.connections, conn ∈ bucket))

def step (s : EchoServer) : Act → Option EchoServer
  | .up conn =>
    if s.met conn = false then
      some { s with
        connections := TimingWheel.touch conn s.connections
        alive := Function.update s.alive conn true
        met := Function.update s.met conn true }
    else none
  | .onMessage conn =>
    if s.alive conn = true then
      if s.HasEntry conn then
        some { s with connections := TimingWheel.touch conn s.connections }
      else some s
    else none
  | .destroyed conn =>
    if s.alive conn = true then some { s with alive := Function.update s.alive conn false }
    else none
  | .onTimer =>
    -- `push_back` on the full ring destroys the entries that only the first bucket holds
    some { s with
      connections := TimingWheel.turn s.connections
      ticks := s.ticks + 1
      shutdowns := fun conn =>
        if conn ∈ TimingWheel.expiring s.connections ∧ s.alive conn = true then
          s.shutdowns conn ++ [s.ticks]
        else s.shutdowns conn }

/-! ## One connection on its own -/

/-- A countdown in whole seconds, from the idle time; `left` is 0 where it does not run. -/
structure Countdown where
  left : Nat
  alive : Bool
  ticks : Nat
  shutdowns : List Nat

def Countdown.start : Countdown := ⟨0, false, 0, []⟩

/-- What an action means to the connection `conn`. -/
def watch (idleSeconds conn : Nat) (w : Countdown) : Act → Countdown
  | .up other => if other = conn then { w with left := idleSeconds, alive := true } else w
  | .onMessage other =>
    if other = conn ∧ 0 < w.left then { w with left := idleSeconds } else w
  | .destroyed other => if other = conn then { w with alive := false } else w
  | .onTimer =>
    { w with
      left := w.left - 1
      ticks := w.ticks + 1
      shutdowns :=
        if w.left = 1 ∧ w.alive = true then w.shutdowns ++ [w.ticks] else w.shutdowns }

/-- The countdown of a connection after some actions of the server. -/
def countdown (idleSeconds conn : Nat) (actions : List Act) : Countdown :=
  actions.foldl (watch idleSeconds conn) .start

/-- The server as one connection sees it. -/
def EchoServer.view (s : EchoServer) (conn : Nat) : Countdown :=
  ⟨TimingWheel.left conn s.connections, s.alive conn, s.ticks, s.shutdowns conn⟩

theorem view_start (idleSeconds conn : Nat) : (start idleSeconds).view conn = .start := by
  simp [EchoServer.view, start, Countdown.start, TimingWheel.left_replicate]

section Steps
variable {s s' : EchoServer} {a : Act}

theorem length_step (full : s.connections ≠ []) (next : step s a = some s') :
    s'.connections.length = s.connections.length := by
  cases a with
  | up conn =>
    obtain ⟨-, rfl⟩ := by simpa [step] using next
    exact TimingWheel.length_touch
  | onMessage conn =>
    simp only [step] at next
    split at next
    · split at next
      · cases next
        exact TimingWheel.length_touch
      · cases next
        rfl
    · cases next
  | destroyed conn =>
    obtain ⟨-, rfl⟩ := by simpa [step] using next
    rfl
  | onTimer =>
    cases next
    exact TimingWheel.length_turn full

/-- Every action of the server is, for each connection, the action of its countdown. -/
theorem view_step (full : s.connections ≠ []) (next : step s a = some s') (conn : Nat) :
    s'.view conn = watch s.connections.length conn (s.view conn) a := by
  cases a with
  | up other =>
    obtain ⟨-, rfl⟩ := by simpa [step] using next
    by_cases same : other = conn
    · subst same
      simp [EchoServer.view, watch, TimingWheel.left_touch full]
    · have different : conn ≠ other := fun h => same h.symm
      simp [EchoServer.view, watch, same, different, TimingWheel.left_touch_of_ne different]
  | onMessage other =>
    simp only [step] at next
    split at next
    · split at next
      · rename_i held
        cases next
        by_cases same : other = conn
        · subst same
          have running := TimingWheel.left_pos_iff.mpr held
          simp [EchoServer.view, watch, running, TimingWheel.left_touch full]
        · have different : conn ≠ other := fun h => same h.symm
          simp [EchoServer.view, watch, same, TimingWheel.left_touch_of_ne different]
      · rename_i gone
        cases next
        by_cases same : other = conn
        · subst same
          have ended := mt TimingWheel.left_pos_iff.mp gone
          simp [EchoServer.view, watch, ended]
        · simp [watch, same]
    · cases next
  | destroyed other =>
    obtain ⟨-, rfl⟩ := by simpa [step] using next
    by_cases same : other = conn
    · subst same
      simp [EchoServer.view, watch]
    · have different : conn ≠ other := fun h => same h.symm
      simp [EchoServer.view, watch, same, different]
  | onTimer =>
    cases next
    have fires : conn ∈ TimingWheel.expiring s.connections ∧ s.alive conn = true ↔
        (s.view conn).left = 1 ∧ (s.view conn).alive = true := by
      rw [TimingWheel.mem_expiring]
      rfl
    simp only [EchoServer.view, watch, TimingWheel.left_turn, fires]
    rfl

/-- Only connections that have come up are watched, and one that has been shut down is not
watched any more. -/
structure Settled (s : EchoServer) (conn : Nat) : Prop where
  met : 0 < (s.view conn).left → s.met conn = true
  once : (s.view conn).shutdowns = [] ∨ (s.met conn = true ∧ (s.view conn).left = 0 ∧
    (s.view conn).shutdowns.length = 1)

theorem met_step (next : step s a = some s') {conn : Nat} (met : s.met conn = true) :
    s'.met conn = true := by
  cases a with
  | up other =>
    obtain ⟨-, rfl⟩ := by simpa [step] using next
    by_cases same : conn = other
    · simp [same]
    · simpa [same] using met
  | onMessage other =>
    simp only [step] at next
    split at next
    · split at next
      · cases next
        exact met
      · cases next
        exact met
    · cases next
  | destroyed other =>
    obtain ⟨-, rfl⟩ := by simpa [step] using next
    exact met
  | onTimer =>
    cases next
    exact met

theorem Settled.step {conn : Nat} (h : Settled s conn) (full : s.connections ≠ [])
    (next : step s a = some s') : Settled s' conn := by
  have view := view_step full next conn
  have kept : s.met conn = true → s'.met conn = true := met_step next
  have met := h.met
  have once := h.once
  cases a with
  | up other =>
    by_cases same : other = conn
    · subst same
      obtain ⟨fresh, rfl⟩ := by simpa [IdleConnection.step] using next
      have never : (s.view other).shutdowns = [] :=
        once.resolve_right fun old => by simp [fresh] at old
      refine ⟨fun _ => by simp, .inl ?_⟩
      rw [view]
      simpa [watch] using never
    · rw [watch, if_neg same] at view
      refine ⟨fun running => kept (met (by rwa [view] at running)), ?_⟩
      rw [view]
      exact once.imp_right fun old => ⟨kept old.1, old.2⟩
  | onMessage other =>
    rw [watch] at view
    split at view
    · rename_i running
      refine ⟨fun _ => kept (met running.2), .inl ?_⟩
      rw [view]
      exact once.resolve_right fun old => by omega
    · refine ⟨fun running => kept (met (by rwa [view] at running)), ?_⟩
      rw [view]
      exact once.imp_right fun old => ⟨kept old.1, old.2⟩
  | destroyed other =>
    have same : (s'.view conn).left = (s.view conn).left ∧
        (s'.view conn).shutdowns = (s.view conn).shutdowns := by
      rw [view, watch]
      split <;> exact ⟨rfl, rfl⟩
    refine ⟨fun running => kept (met (by rwa [same.1] at running)), ?_⟩
    rw [same.1, same.2]
    exact once.imp_right fun old => ⟨kept old.1, old.2⟩
  | onTimer =>
    rw [watch] at view
    refine ⟨fun running => kept (met ?_), ?_⟩
    · rw [view] at running
      simp only at running
      omega
    · rw [view]
      by_cases fires : (s.view conn).left = 1 ∧ (s.view conn).alive = true
      · have never := once.resolve_right fun old => by omega
        refine .inr ⟨kept (met (by omega)), by simp [fires], by simp [fires, never]⟩
      · simp only [if_neg fires]
        exact once.imp_right fun old => ⟨kept old.1, by omega, old.2.2⟩

end Steps

/-- The ring of all connections is a countdown for each: a connection is shut down, if it
still exists, by exactly the tick that ends an idle time in which no message of its own has
come, and it is so once at most. -/
theorem ring_is_countdown {idleSeconds : Nat} (positive : 0 < idleSeconds) {actions : List Act}
    {s : EchoServer} (done : run step (start idleSeconds) actions = some s) (conn : Nat) :
    s.view conn = countdown idleSeconds conn actions ∧ (s.shutdowns conn).length ≤ 1 := by
  have all : s.connections.length = idleSeconds ∧ Settled s conn ∧
      s.view conn = countdown idleSeconds conn actions := by
    induction actions using List.reverseRecOn generalizing s with
    | nil =>
      cases done
      have view := view_start idleSeconds conn
      refine ⟨List.length_replicate, ⟨fun running => ?_, .inl ?_⟩, view⟩
      · rw [view] at running
        cases running
      · rw [view]
        rfl
    | append_singleton actions a ih =>
      obtain ⟨m, begun, next⟩ := run_concat_eq_some.mp done
      obtain ⟨size, settled, view⟩ := ih begun
      have full : m.connections ≠ [] := by
        rw [← List.length_pos_iff, size]
        exact positive
      refine ⟨(length_step full next).trans size, settled.step full next, ?_⟩
      rw [view_step full next conn, size, view, countdown, countdown, List.foldl_concat]
  obtain ⟨-, settled, view⟩ := all
  refine ⟨view, ?_⟩
  rcases settled.once with never | ⟨-, -, one⟩
  · have none : s.shutdowns conn = [] := never
    rw [none]
    exact Nat.zero_le 1
  · exact Nat.le_of_eq one

/-- With two buckets: a message after one tick, then silence for two. -/
theorem ring_is_countdown_two : ∃ s, run step (start 2)
    [.up 5, .onTimer, .onMessage 5, .onTimer, .onTimer] = some s ∧ s.shutdowns 5 = [2] := by
  refine ⟨_, rfl, ?_⟩
  have positive : 0 < 2 := by decide
  have both := @ring_is_countdown 2 positive
    [.up 5, .onTimer, .onMessage 5, .onTimer, .onTimer] _ rfl 5
  exact congrArg Countdown.shutdowns both.1

end IdleConnection
end Arale
