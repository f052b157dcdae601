import Mathlib.Data.List.Nodup
import Mathlib.Logic.Function.Basic
import Arale.Lib.Schedules

/-!
# The idle connection server with a sorted list

`examples/idleconnection/SortedList.cc`: connections in the order of their last messages.
The timer walks the list from the front and stops at the first connection that is not idle.
As long as the clock does not go back the list is sorted, and the timer closes what a walk
over the whole list would close. Ages are compared as numbers of microseconds.
-/

namespace Arale

open Schedules

namespace SortedList

def kMicroSecondsPerSecond : Int := 1000 * 1000

/-- Connections go by numbers. `lastReceiveTime` is that of their nodes, `alive` says whether a
weak pointer to them can be locked. `met` is which have come up, `closing` those that the timer
has closed, `now` the latest reading of the clock: histories. -/
structure EchoServer where
  idleSeconds : Int
  connections : List Nat
  lastReceiveTime : Nat → Int
  isConnected : Nat → Bool
  alive : Nat → Bool
  met : Nat → Bool
  closing : List Nat
  now : Int

def start (idleSeconds now : Int) : EchoServer :=
  ⟨idleSeconds, [], fun _ => 0, fun _ => false, fun _ => false, fun _ => false, [], now⟩

/-- `shutdown()` and `forceCloseWithDelay(3.5)`. -/
def EchoServer.close (s : EchoServer) (conn : Nat) : EchoServer :=
  { s with
    isConnected := Function.update s.isConnected conn false
    closing := s.closing ++ [conn] }

/-- The loop of `onTimer` from an element of the list on; `clock k` is the `k`-th reading of
`Timestamp::now()` in this call. The second component counts the readings. -/
def scan (clock : Nat → Int) : EchoServer → Nat → List Nat → EchoServer × Nat
  | s, k, [] => (s, k)
  | s, k, conn :: rest =>
    if s.alive conn then
      let age := clock k - s.lastReceiveTime conn
      if age > s.idleSeconds * kMicroSecondsPerSecond then
        scan clock (if s.isConnected conn then s.close conn else s) (k + 1) rest
      else if age < 0 then
        -- time jump
        scan clock { s with
          lastReceiveTime := Function.update s.lastReceiveTime conn (clock (k + 1)) } (k + 2) rest
      else (s, k + 1)
    else
      -- expired
      scan clock { s with connections := s.connections.erase conn } k rest

inductive Act where
  /-- `onConnection`, UP -/
  | up (conn : Nat) (now : Int)
  | onMessage (conn : Nat) (now : Int)
  /-- `onConnection`, DOWN -/
  | down (conn : Nat)
  /-- the connection object is gone -/
  | destroyed (conn : Nat)
  | onTimer (clock : Nat → Int)

/-- A connection sends no message once it is DOWN, and is not gone before. -/
def step (s : EchoServer) : Act → Option EchoServer
  | .up conn now =>
    if s.met conn = false then
      some { s with
        connections := s.connections ++ [conn]
        lastReceiveTime := Function.update s.lastReceiveTime conn now
        isConnected := Function.update s.isConnected conn true
        alive := Function.update s.alive conn true
        met := Function.update s.met conn true
        now := now }
    else none
  | .onMessage conn now =>
    if conn ∈ s.connections then
      some { s with
        lastReceiveTime := Function.update s.lastReceiveTime conn now
        connections := s.connections.erase conn ++ [conn]
        now := now }
    else none
  | .down conn =>
    if conn ∈ s.connections then
      some { s with
        connections := s.connections.erase conn
        isConnected := Function.update s.isConnected conn false }
    else none
  | .destroyed conn =>
    if s.alive conn = true ∧ conn ∉ s.connections then
      some { s with alive := Function.update s.alive conn false }
    else none
  | .onTimer clock =>
    let (s', readings) := scan clock s 0 s.connections
    some { s' with now := if readings = 0 then s.now else clock (readings - 1) }

/-- The readings of a clock that does not go back. -/
def Forward (clock : Nat → Int) : Prop := ∀ k l, k ≤ l → clock k ≤ clock l

/-- The clock does not go back. -/
def Steady (s : EchoServer) : Act → Prop
  | .up _ now => s.now ≤ now
  | .onMessage _ now => s.now ≤ now
  | .onTimer clock => s.now ≤ clock 0 ∧ Forward clock
  | _ => True

/-- A connection has been silent for longer than the idle time. -/
def EchoServer.Idle (s : EchoServer) (now : Int) (conn : Nat) : Prop :=
  now - s.lastReceiveTime conn > s.idleSeconds * kMicroSecondsPerSecond

/-- The list is in the order of the last messages. -/
structure Sorted (s : EchoServer) : Prop where
  nodup : s.connections.Nodup
  ordered : s.connections.Pairwise fun a b => s.lastReceiveTime a ≤ s.lastReceiveTime b
  past : ∀ conn ∈ s.connections, s.lastReceiveTime conn ≤ s.now
  alive : ∀ conn ∈ s.connections, s.alive conn = true
  met : ∀ conn ∈ s.connections, s.met conn = true

/-- Some connections have been closed. -/
def EchoServer.closeAll (s : EchoServer) (conns : List Nat) : EchoServer :=
  conns.foldl EchoServer.close s

section Frame
variable (s : EchoServer) (conns : List Nat)

@[simp] theorem closeAll_connections : (s.closeAll conns).connections = s.connections := by
  induction conns generalizing s with
  | nil => rfl
  | cons conn conns ih => exact ih (s.close conn)

@[simp] theorem closeAll_lastReceiveTime :
    (s.closeAll conns).lastReceiveTime = s.lastReceiveTime := by
  induction conns generalizing s with
  | nil => rfl
  | cons conn conns ih => exact ih (s.close conn)

@[simp] theorem closeAll_alive : (s.closeAll conns).alive = s.alive := by
  induction conns generalizing s with
  | nil => rfl
  | cons conn conns ih => exact ih (s.close conn)

@[simp] theorem closeAll_met : (s.closeAll conns).met = s.met := by
  induction conns generalizing s with
  | nil => rfl
  | cons conn conns ih => exact ih (s.close conn)

theorem closeAll_closing : (s.closeAll conns).closing = s.closing ++ conns := by
  induction conns generalizing s with
  | nil => exact (List.append_nil _).symm
  | cons conn conns ih => exact (ih (s.close conn)).trans (List.append_assoc _ _ _)

end Frame

/-! ## One walk -/

theorem idle_mono {s : EchoServer} {clock : Nat → Int} (forward : Forward clock) {k l : Nat}
    (le : k ≤ l) {conn : Nat} (idle : s.Idle (clock k) conn) : s.Idle (clock l) conn := by
  have later := forward k l le
  simp only [EchoServer.Idle] at idle ⊢
  omega

/-- On a sorted list the walk closes connections that are idle, and all that were idle when it
began; it takes no other branch. -/
theorem scan_sorted {s : EchoServer} {clock : Nat → Int} (forward : Forward clock) {k : Nat}
    {rest : List Nat} (nodup : rest.Nodup)
    (ordered : rest.Pairwise fun a b => s.lastReceiveTime a ≤ s.lastReceiveTime b)
    (past : ∀ conn ∈ rest, s.lastReceiveTime conn ≤ clock k)
    (alive : ∀ conn ∈ rest, s.alive conn = true) :
    ∃ closed readings, scan clock s k rest = (s.closeAll closed, readings) ∧ k ≤ readings ∧
      (∀ conn ∈ closed, conn ∈ rest ∧ s.isConnected conn = true ∧
        ∃ j, j < readings ∧ s.Idle (clock j) conn) ∧
      ∀ conn ∈ rest, s.isConnected conn = true → s.Idle (clock k) conn → conn ∈ closed := by
  induction rest generalizing s k with
  | nil => exact ⟨[], k, rfl, Nat.le_refl k, by simp, by simp⟩
  | cons conn rest ih =>
    obtain ⟨fresh, nodup⟩ := List.nodup_cons.mp nodup
    obtain ⟨least, ordered⟩ := List.pairwise_cons.mp ordered
    rw [List.forall_mem_cons] at past alive
    have next := forward k (k + 1) (Nat.le_succ k)
    by_cases idle : s.Idle (clock k) conn
    · have walk : scan clock s k (conn :: rest) =
          scan clock (if s.isConnected conn then s.close conn else s) (k + 1) rest := by
        simp only [scan, alive.1, if_true]
        exact if_pos idle
      by_cases on : s.isConnected conn = true
      · rw [if_pos on] at walk
        obtain ⟨closed, readings, done, le, sound, complete⟩ := @ih (s.close conn) (k + 1) nodup
          ordered (fun c member => Int.le_trans (past.2 c member) next) alive.2
        have others : ∀ c ∈ rest, (s.close conn).isConnected c = s.isConnected c := by
          intro c member
          have different : c ≠ conn := fun same => fresh (same ▸ member)
          simp [EchoServer.close, different]
        refine ⟨conn :: closed, readings, walk.trans done, by omega, ?_, ?_⟩
        · intro c member
          rcases List.mem_cons.mp member with rfl | member
          · exact ⟨List.mem_cons_self, on, k, by omega, idle⟩
          · obtain ⟨inside, connected, late⟩ := sound c member
            rw [others c inside] at connected
            exact ⟨List.mem_cons_of_mem _ inside, connected, late⟩
        · intro c member connected late
          rcases List.mem_cons.mp member with rfl | member
          · exact List.mem_cons_self
          · rw [← others c member] at connected
            exact List.mem_cons_of_mem _
              (complete c member connected (idle_mono forward (Nat.le_succ k) late))
      · rw [if_neg on] at walk
        obtain ⟨closed, readings, done, le, sound, complete⟩ := @ih s (k + 1) nodup
          ordered (fun c member => Int.le_trans (past.2 c member) next) alive.2
        refine ⟨closed, readings, walk.trans done, by omega, ?_, ?_⟩
        · intro c member
          obtain ⟨inside, late⟩ := sound c member
          exact ⟨List.mem_cons_of_mem _ inside, late⟩
        · intro c member connected late
          rcases List.mem_cons.mp member with rfl | member
          · exact absurd connected on
          · exact complete c member connected (idle_mono forward (Nat.le_succ k) late)
    · -- the connections behind this one have been heard from later
      have young : ¬ clock k - s.lastReceiveTime conn < 0 := by
        have := past.1
        omega
      have walk : scan clock s k (conn :: rest) = (s, k + 1) := by
        simp only [scan, alive.1, if_true]
        exact (if_neg idle).trans (if_neg young)
      refine ⟨[], k + 1, walk, Nat.le_succ k, by simp, ?_⟩
      intro c member _ late
      rcases List.mem_cons.mp member with rfl | member
      · exact absurd late idle
      · have order := least c member
        simp only [EchoServer.Idle] at idle late
        omega

/-! ## Runs -/

/-- What a call of `onTimer` has done to the server: the list and the times are as before, it
has closed connections that were idle during the call, and all that were when it began. -/
structure ClosesIdle (s : EchoServer) (clock : Nat → Int) (s' : EchoServer) : Prop where
  list : s'.connections = s.connections
  times : s'.lastReceiveTime = s.lastReceiveTime
  closed : ∃ closed, s'.closing = s.closing ++ closed ∧
    (∀ conn ∈ closed, conn ∈ s.connections ∧ s.isConnected conn = true ∧
      s.Idle s'.now conn) ∧
    ∀ conn ∈ s.connections, s.isConnected conn = true → s.Idle (clock 0) conn → conn ∈ closed

/-- A call of `onTimer` closes the idle connections. -/
def TimerRight (s : EchoServer) : Act → Prop
  | .onTimer clock => ∀ s', step s (.onTimer clock) = some s' → ClosesIdle s clock s'
  | _ => True

section Steps
variable {s s' : EchoServer} {a : Act} {clock : Nat → Int}

theorem timer_step (sorted : Sorted s) (steady : Steady s (.onTimer clock))
    (next : step s (.onTimer clock) = some s') :
    ClosesIdle s clock s' ∧ s'.alive = s.alive ∧ s'.met = s.met ∧ s.now ≤ s'.now := by
  obtain ⟨start, forward⟩ := steady
  obtain ⟨closed, readings, walked, -, sound, complete⟩ := scan_sorted forward sorted.nodup
    sorted.ordered (fun conn member => Int.le_trans (sorted.past conn member) start) sorted.alive
  rw [step, walked] at next
  cases next
  refine ⟨⟨by simp, by simp, closed, closeAll_closing s closed, ?_, complete⟩, by simp, by simp,
    ?_⟩
  · intro conn member
    obtain ⟨inside, connected, j, less, idle⟩ := sound conn member
    refine ⟨inside, connected, ?_⟩
    rw [if_neg (by omega)]
    exact idle_mono forward (by omega) idle
  · simp only
    split
    · exact Int.le_refl _
    · exact Int.le_trans start (forward 0 _ (Nat.zero_le _))

/-- The connection heard from last stands at the end. -/
theorem pairwise_concat {conns : List Nat} {times : Nat → Int} {conn : Nat} {now : Int}
    (absent : conn ∉ conns) (ordered : conns.Pairwise fun a b => times a ≤ times b)
    (past : ∀ c ∈ conns, times c ≤ now) :
    (conns ++ [conn]).Pairwise fun a b =>
      Function.update times conn now a ≤ Function.update times conn now b := by
  have other : ∀ c ∈ conns, c ≠ conn := fun c member same => absent (same ▸ member)
  refine List.pairwise_append.mpr ⟨?_, List.pairwise_singleton _ _, ?_⟩
  · refine ordered.imp_of_mem fun {a b} first second le => ?_
    rw [Function.update_of_ne (other a first), Function.update_of_ne (other b second)]
    exact le
  · intro c member d same
    rw [List.mem_singleton.mp same, Function.update_self, Function.update_of_ne (other c member)]
    exact past c member

theorem Sorted.step (sorted : Sorted s) (steady : Steady s a) (next : step s a = some s') :
    Sorted s' := by
  cases a with
  | up conn now =>
    obtain ⟨unmet, rfl⟩ := by simpa [SortedList.step] using next
    have absent : conn ∉ s.connections := fun member => by
      rw [sorted.met conn member] at unmet
      cases unmet
    have past : ∀ c ∈ s.connections, s.lastReceiveTime c ≤ now :=
      fun c member => Int.le_trans (sorted.past c member) steady
    have other : ∀ c ∈ s.connections, c ≠ conn := fun c member same => absent (same ▸ member)
    refine ⟨?_, pairwise_concat absent sorted.ordered past, ?_, ?_, ?_⟩
    · exact List.nodup_append.mpr ⟨sorted.nodup, List.nodup_singleton conn,
        fun c member d same => by rw [List.mem_singleton.mp same]; exact other c member⟩
    · intro c member
      rcases List.mem_append.mp member with old | new
      · simpa [other c old] using past c old
      · simp [List.mem_singleton.mp new]
    · intro c member
      rcases List.mem_append.mp member with old | new
      · simpa [other c old] using sorted.alive c old
      · simp [List.mem_singleton.mp new]
    · intro c member
      rcases List.mem_append.mp member with old | new
      · simpa [other c old] using sorted.met c old
      · simp [List.mem_singleton.mp new]
  | onMessage conn now =>
    obtain ⟨known, rfl⟩ := by simpa [SortedList.step] using next
    have part := List.erase_sublist (a := conn) (l := s.connections)
    have absent : conn ∉ s.connections.erase conn := sorted.nodup.not_mem_erase
    have past : ∀ c ∈ s.connections.erase conn, s.lastReceiveTime c ≤ now :=
      fun c member => Int.le_trans (sorted.past c (part.subset member)) steady
    have other : ∀ c ∈ s.connections.erase conn, c ≠ conn :=
      fun c member same => absent (same ▸ member)
    have inside : ∀ c ∈ s.connections.erase conn ++ [conn], c ∈ s.connections := by
      intro c member
      rcases List.mem_append.mp member with old | new
      · exact List.mem_of_mem_erase old
      · rwa [List.mem_singleton.mp new]
    refine ⟨?_, pairwise_concat absent (sorted.ordered.sublist part) past, ?_, ?_, ?_⟩
    · exact List.nodup_append.mpr ⟨sorted.nodup.erase conn, List.nodup_singleton conn,
        fun c member d same => by rw [List.mem_singleton.mp same]; exact other c member⟩
    · intro c member
      rcases List.mem_append.mp member with old | new
      · simpa [other c old] using past c old
      · simp [List.mem_singleton.mp new]
    · exact fun c member => sorted.alive c (inside c member)
    · exact fun c member => sorted.met c (inside c member)
  | down conn =>
    obtain ⟨-, rfl⟩ := by simpa [SortedList.step] using next
    have part := List.erase_sublist (a := conn) (l := s.connections)
    exact ⟨sorted.nodup.erase conn, sorted.ordered.sublist part,
      fun c member => sorted.past c (part.subset member),
      fun c member => sorted.alive c (part.subset member),
      fun c member => sorted.met c (part.subset member)⟩
  | destroyed conn =>
    obtain ⟨⟨-, absent⟩, rfl⟩ := by simpa [SortedList.step] using next
    refine ⟨sorted.nodup, sorted.ordered, sorted.past, fun c member => ?_, sorted.met⟩
    have other : c ≠ conn := fun same => absent (same ▸ member)
    simpa [other] using sorted.alive c member
  | onTimer clock =>
    obtain ⟨closes, alive, met, later⟩ := timer_step sorted steady next
    refine ⟨?_, ?_, ?_, ?_, ?_⟩
    · rw [closes.list]
      exact sorted.nodup
    · rw [closes.list, closes.times]
      exact sorted.ordered
    · rw [closes.list, closes.times]
      exact fun c member => Int.le_trans (sorted.past c member) later
    · rw [closes.list, alive]
      exact sorted.alive
    · rw [closes.list, met]
      exact sorted.met

end Steps

theorem start_sorted (idleSeconds now : Int) : Sorted (start idleSeconds now) := by
  refine ⟨List.nodup_nil, List.Pairwise.nil, ?_, ?_, ?_⟩
  · intro c member
    cases member
  · intro c member
    cases member
  · intro c member
    cases member

/-- Along every run in which the clock does not go back, each call of `onTimer` closes
connections that have been silent for longer than the idle time, and all that had been when it
began, although it stops at the first one that had not. -/
theorem timer_closes_idle {idleSeconds now : Int} {actions : List Act}
    (steady : Along step Steady (start idleSeconds now) actions) :
    Along step TimerRight (start idleSeconds now) actions := by
  refine along_of_kept (I := Sorted) (fun s a t sorted here next => sorted.step here next) ?_
    (start_sorted idleSeconds now) steady
  intro s a sorted here
  cases a with
  | onTimer clock => exact fun s' next => (timer_step sorted here next).1
  | up | onMessage | down | destroyed => trivial

/-- Two connections, one of them heard from after a second. -/
theorem timer_closes_idle_two :
    Along step TimerRight (start 2 0) [.up 1 0, .up 2 500, .onMessage 1 1000000,
      .onTimer fun _ => 2000600] := by
  apply timer_closes_idle
  have times : (0 : Int) ≤ 0 ∧ (0 : Int) ≤ 500 ∧ (500 : Int) ≤ 1000000 ∧
      (1000000 : Int) ≤ 2000600 := by decide
  refine ⟨times.1, fun s₁ next₁ => ?_⟩
  cases next₁
  refine ⟨times.2.1, fun s₂ next₂ => ?_⟩
  cases next₂
  refine ⟨times.2.2.1, fun s₃ next₃ => ?_⟩
  cases next₃
  exact ⟨⟨times.2.2.2, fun _ _ _ => Int.le_refl _⟩, fun _ _ => trivial⟩

end SortedList
end Arale
