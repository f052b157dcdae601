import Mathlib.Logic.Function.Basic
import Arale.Examples.MultiplexServer
import Arale.Lib.RoundRobin

/-!
# The load balancer

`Balancer.cc` of `examples/socks4a`: a tunnel to one of the backends for each connection, the
backends in turn. The loops run in threads of their own; the turn is taken in a mutex, the
tunnel is made outside of it and kept in a map of the thread. In whatever way the threads
interleave, the connections are given the backends in the order in which they took the mutex.
-/

namespace Arale

open Schedules

namespace Balancer

/-- A host as it is written, and its port. -/
structure InetAddress where
  ip : List UInt8
  port : UInt16
  deriving DecidableEq, Repr

/-- What a thread is in the middle of. -/
inductive Activity where
  | idle
  /-- `onServerConnection`, UP -/
  | arriving (conn : Nat)
  /-- `g_mutex` is taken -/
  | locked (conn : Nat)
  | read (conn index : Nat)
  /-- the turn has gone on -/
  | advanced (conn index : Nat)
  /-- outside the critical section -/
  | chosen (conn index : Nat)
  deriving DecidableEq, Repr

namespace Activity

def critical : Activity → Bool
  | .locked _ | .read _ _ | .advanced _ _ => true
  | _ => false

/-- The connection that has come up. -/
def conn : Activity → Option Nat
  | .idle => none
  | .arriving c | .locked c | .read c _ | .advanced c _ | .chosen c _ => some c

/-- The connection, before it takes its turn. -/
def waiting : Activity → Option Nat
  | .arriving c | .locked c | .read c _ => some c
  | _ => none

/-- The connection and its index, after its turn. -/
def turn : Activity → Option (Nat × Nat)
  | .advanced c i | .chosen c i => some (c, i)
  | _ => none

theorem conn_of_waiting {a : Activity} {c : Nat} (here : a.waiting = some c) :
    a.conn = some c := by
  cases a with
  | arriving d => exact here
  | locked d => exact here
  | read d index => exact here
  | idle => cases here
  | advanced d index => cases here
  | chosen d index => cases here

end Activity

/-- The server with `n` threads. Histories: the connections that have been accepted, those up
on each thread, those that have taken a turn with the indices they found, whether an assertion
has failed or an index was beyond the backends, and whether the server has divided by zero. -/
structure Server (n : Nat) where
  g_backends : List InetAddress
  g_nextIndex : Nat
  g_mutex : Option (Fin n)
  tunnels : Fin n → List (Nat × InetAddress)
  activity : Fin n → Activity
  accepted : List Nat
  live : Fin n → List Nat
  turns : List Nat
  given : List Nat
  misused : Bool
  crashed : Bool

variable {n : Nat}

def start (n : Nat) (backends : List InetAddress) : Server n :=
  ⟨backends, 0, none, fun _ => [], fun _ => .idle, [], fun _ => [], [], [], false, false⟩

inductive Act (n : Nat) where
  /-- a connection comes up on a thread -/
  | up (t : Fin n) (conn : Nat)
  | lock (t : Fin n)
  | readIndex (t : Fin n)
  | advance (t : Fin n)
  | unlock (t : Fin n)
  | makeTunnel (t : Fin n)
  | down (t : Fin n) (conn : Nat)

namespace Server

def become (s : Server n) (t : Fin n) (a : Activity) : Server n :=
  { s with activity := Function.update s.activity t a }

/-- The names of the map. -/
def names (s : Server n) (t : Fin n) : List Nat := (s.tunnels t).map Prod.fst

/-- `tunnels[name] = tunnel` -/
def setTunnel (s : Server n) (t : Fin n) (conn : Nat) (backend : InetAddress) : Server n :=
  { s with
    tunnels := Function.update s.tunnels t
      ((s.tunnels t).filter (·.1 ≠ conn) ++ [(conn, backend)]) }

def erase (s : Server n) (t : Fin n) (conn : Nat) : Server n :=
  { s with tunnels := Function.update s.tunnels t ((s.tunnels t).filter (·.1 ≠ conn)) }

end Server

/-- A server that has divided by zero is gone. -/
def step (s : Server n) (a : Act n) : Option (Server n) :=
  if s.crashed then none
  else
    match a with
    | .up t conn =>
      if s.activity t = .idle ∧ conn ∉ s.accepted then
        some ({ s with
          accepted := conn :: s.accepted
          live := Function.update s.live t (s.live t ++ [conn])
          misused := s.misused || conn ∈ s.names t }.become t (.arriving conn))
      else none
    | .lock t =>
      match s.activity t with
      | .arriving conn =>
        if s.g_mutex = none then some ({ s with g_mutex := some t }.become t (.locked conn))
        else none
      | _ => none
    | .readIndex t =>
      match s.activity t with
      | .locked conn => some (s.become t (.read conn s.g_nextIndex))
      | _ => none
    | .advance t =>
      match s.activity t with
      | .read conn index =>
        if s.g_backends.length = 0 then some { s with crashed := true }
        else
          some ({ s with
            g_nextIndex := (s.g_nextIndex + 1) % s.g_backends.length
            turns := s.turns ++ [conn]
            given := s.given ++ [index] }.become t (.advanced conn index))
      | _ => none
    | .unlock t =>
      match s.activity t with
      | .advanced conn index => some ({ s with g_mutex := none }.become t (.chosen conn index))
      | _ => none
    | .makeTunnel t =>
      match s.activity t with
      | .chosen conn index =>
        match s.g_backends[index]? with
        | some serverAddr => some ((s.setTunnel t conn serverAddr).become t .idle)
        | none => some ({ s with misused := true }.become t .idle)
      | _ => none
    | .down t conn =>
      if s.activity t = .idle ∧ conn ∈ s.live t then
        some { s.erase t conn with
          live := Function.update s.live t ((s.live t).filter (· ≠ conn))
          misused := s.misused || conn ∉ s.names t }
      else none

/-! ## What holds of every thread -/

/-- A connection has taken a turn, and this is its place. -/
def Turn (s : Server n) (conn index : Nat) : Prop :=
  ∃ i, s.turns[i]? = some conn ∧ index = i % s.g_backends.length ∧ index < s.g_backends.length

structure Local (s : Server n) (t : Fin n) : Prop where
  locked : (s.activity t).critical = true → s.g_mutex = some t
  reading : ∀ conn index, s.activity t = .read conn index → index = s.g_nextIndex
  turn : ∀ conn index, (s.activity t).turn = some (conn, index) → Turn s conn index
  tunnels : ∀ conn backend, (conn, backend) ∈ s.tunnels t →
    ∃ index, Turn s conn index ∧ s.g_backends[index]? = some backend
  live : s.live t = s.names t ++ (s.activity t).conn.toList
  nodup : (s.live t).Nodup
  accepted : ∀ conn ∈ s.live t, conn ∈ s.accepted
  waiting : ∀ conn, (s.activity t).waiting = some conn → conn ∉ s.turns

structure Sound (s : Server n) : Prop where
  next : s.g_backends ≠ [] → s.g_nextIndex = s.turns.length % s.g_backends.length
  given : s.given = (List.range s.turns.length).map (· % s.g_backends.length)
  turns : s.turns.Nodup
  accepted : ∀ conn ∈ s.turns, conn ∈ s.accepted
  apart : ∀ t r conn, conn ∈ s.live t → conn ∈ s.live r → t = r
  proper : s.misused = false
  none : s.g_backends = [] → s.turns = []
  crashed : s.crashed = true → s.g_backends = []
  threads : ∀ t, Local s t

section Threads
variable {s s' : Server n} {t r : Fin n}

theorem turn_mono {conn index : Nat} {more : List Nat} (turn : Turn s conn index)
    (turns : s'.turns = s.turns ++ more) (backends : s'.g_backends = s.g_backends) :
    Turn s' conn index := by
  obtain ⟨i, slot, place, bound⟩ := turn
  refine ⟨i, ?_, by rw [backends]; exact place, by rw [backends]; exact bound⟩
  rw [turns]
  exact (List.getElem?_append_left (List.getElem?_eq_some_iff.mp slot).1).trans slot

/-- What a step of another thread leaves of the facts about a thread. -/
structure Leaves (s s' : Server n) (r : Fin n) : Prop where
  activity : s'.activity r = s.activity r
  tunnels : s'.tunnels r = s.tunnels r
  live : s'.live r = s.live r
  backends : s'.g_backends = s.g_backends

theorem Local.left (h : Local s r) (leaves : Leaves s s' r) {more : List Nat}
    (turns : s'.turns = s.turns ++ more) (accepted : ∀ conn ∈ s.accepted, conn ∈ s'.accepted)
    (locked : (s.activity r).critical = true → s'.g_mutex = some r)
    (reading : (s.activity r).critical = true → s'.g_nextIndex = s.g_nextIndex)
    (waiting : ∀ conn, (s.activity r).waiting = some conn → conn ∉ more) : Local s' r where
  locked := by
    rw [leaves.activity]
    exact locked
  reading conn index here := by
    rw [leaves.activity] at here
    rw [h.reading conn index here, reading (by rw [here]; rfl)]
  turn conn index here := by
    rw [leaves.activity] at here
    exact turn_mono (h.turn conn index here) turns leaves.backends
  tunnels conn backend mem := by
    rw [leaves.tunnels] at mem
    obtain ⟨index, turn, place⟩ := h.tunnels conn backend mem
    exact ⟨index, turn_mono turn turns leaves.backends, by rw [leaves.backends]; exact place⟩
  live := by
    rw [leaves.live, leaves.activity, Server.names, leaves.tunnels]
    exact h.live
  nodup := by
    rw [leaves.live]
    exact h.nodup
  accepted conn mem := by
    rw [leaves.live] at mem
    exact accepted conn (h.accepted conn mem)
  waiting conn here := by
    rw [leaves.activity] at here
    rw [turns, List.mem_append, not_or]
    exact ⟨h.waiting conn here, waiting conn here⟩

/-- Another thread goes on in place of `t`. -/
theorem leaves_become {a : Activity} (other : r ≠ t) (tunnels : s'.tunnels r = s.tunnels r)
    (live : s'.live r = s.live r) (activity : s'.activity = s.activity)
    (backends : s'.g_backends = s.g_backends) : Leaves s (s'.become t a) r :=
  ⟨(Function.update_of_ne other _ _).trans (congrFun activity r), tunnels, live, backends⟩

theorem activity_become (a : Activity) : (s.become t a).activity t = a := Function.update_self _ _ _

/-- Whoever has the mutex keeps the others out. -/
theorem Sound.alone (h : Sound s) (critical : (s.activity t).critical = true) (other : r ≠ t) :
    (s.activity r).critical = false := by
  by_contra inside
  have mine := (h.threads t).locked critical
  have its := (h.threads r).locked (Bool.not_eq_false _ ▸ inside)
  exact other (Option.some.inj (its.symm.trans mine))

theorem start_sound (n : Nat) (backends : List InetAddress) : Sound (start n backends) where
  next _ := (Nat.zero_mod _).symm
  given := rfl
  turns := List.nodup_nil
  accepted _ mem := absurd mem List.not_mem_nil
  apart _ _ _ mem := absurd mem List.not_mem_nil
  proper := rfl
  none _ := rfl
  crashed crashed := absurd crashed Bool.false_ne_true
  threads t := {
    locked := fun critical => by cases critical
    reading := fun _ _ here => by cases here
    turn := fun _ _ here => by cases here
    tunnels := fun _ _ mem => absurd mem List.not_mem_nil
    live := rfl
    nodup := List.nodup_nil
    accepted := fun _ mem => absurd mem List.not_mem_nil
    waiting := fun _ here => by cases here }

theorem up_sound (h : Sound s) (idle : s.activity t = .idle) {conn : Nat}
    (fresh : conn ∉ s.accepted) :
    Sound (Server.become { s with
      accepted := conn :: s.accepted
      live := Function.update s.live t (s.live t ++ [conn])
      misused := s.misused || conn ∈ s.names t } t (.arriving conn)) := by
  have mine := h.threads t
  have names : s.live t = s.names t := by
    rw [mine.live, idle]
    exact List.append_nil _
  have new (r : Fin n) : conn ∉ s.live r := fun mem => fresh ((h.threads r).accepted conn mem)
  have proper : (s.misused || decide (conn ∈ s.names t)) = false := by
    have absent := new t
    rw [names] at absent
    simp [h.proper, absent]
  refine ⟨h.next, h.given, h.turns, fun c mem => List.mem_cons_of_mem _ (h.accepted c mem), ?_,
    proper, h.none, h.crashed, fun r => ?_⟩
  · intro r q c one two
    simp only [Server.become, Function.update_apply] at one two
    split at one <;> split at two
    · rename_i first second
      exact first.trans second.symm
    · rename_i first _
      rcases List.mem_append.mp one with old | new'
      · rw [first]
        exact h.apart t q c old two
      · rw [List.mem_singleton.mp new'] at two
        exact absurd two (new q)
    · rename_i _ second
      rcases List.mem_append.mp two with old | new'
      · rw [second]
        exact h.apart r t c one old
      · rw [List.mem_singleton.mp new'] at one
        exact absurd one (new r)
    · exact h.apart r q c one two
  · by_cases same : r = t
    · subst same
      have live : Function.update s.live r (s.live r ++ [conn]) r = s.live r ++ [conn] :=
        Function.update_self _ _ _
      refine ⟨?_, ?_, ?_, mine.tunnels, ?_, ?_, ?_, ?_⟩
      · rw [activity_become]
        intro critical
        cases critical
      · rw [activity_become]
        intro _ _ here
        cases here
      · rw [activity_become]
        intro _ _ here
        cases here
      · rw [activity_become]
        exact live.trans (congrArg (· ++ [conn]) names)
      · have nodup : (s.live r ++ [conn]).Nodup :=
          List.nodup_append.mpr ⟨mine.nodup, List.nodup_singleton conn, fun c old d one equal =>
            new r (List.mem_singleton.mp one ▸ equal ▸ old)⟩
        rw [← live] at nodup
        exact nodup
      · intro c mem
        rcases List.mem_append.mp (live ▸ mem : c ∈ s.live r ++ [conn]) with old | new'
        · exact List.mem_cons_of_mem _ (mine.accepted c old)
        · rw [List.mem_singleton.mp new']
          exact List.mem_cons_self
      · rw [activity_become]
        intro c here
        cases here
        exact fun mem => fresh (h.accepted _ mem)
    · refine @Local.left n s _ r (h.threads r) (leaves_become same rfl
        (Function.update_of_ne same _ _) rfl rfl) [] (List.append_nil _).symm
        (fun c mem => List.mem_cons_of_mem _ mem) (h.threads r).locked (fun _ => rfl)
        (fun _ _ => List.not_mem_nil)

/-- A thread goes on with its connection and leaves its map alone. -/
theorem Local.move (h : Local s t) {a : Activity} {more : List Nat}
    (tunnels : s'.tunnels = s.tunnels) (live : s'.live = s.live)
    (accepted : s'.accepted = s.accepted) (backends : s'.g_backends = s.g_backends)
    (turns : s'.turns = s.turns ++ more) (conn : a.conn = (s.activity t).conn)
    (locked : a.critical = true → s'.g_mutex = some t)
    (reading : ∀ conn index, a = .read conn index → index = s'.g_nextIndex)
    (turn : ∀ conn index, a.turn = some (conn, index) → Turn s' conn index)
    (waiting : ∀ conn, a.waiting = some conn → conn ∉ s'.turns) : Local (s'.become t a) t where
  locked := by
    rw [activity_become]
    exact locked
  reading := by
    rw [activity_become]
    exact reading
  turn := by
    rw [activity_become]
    exact turn
  tunnels c backend mem := by
    obtain ⟨index, its, place⟩ := h.tunnels c backend (tunnels ▸ mem)
    exact ⟨index, turn_mono its turns backends, backends.symm ▸ place⟩
  live := by
    rw [activity_become, conn]
    change s'.live t = (s'.tunnels t).map Prod.fst ++ _
    rw [live, tunnels]
    exact h.live
  nodup := by
    change (s'.live t).Nodup
    rw [live]
    exact h.nodup
  accepted c mem := by
    change c ∈ s'.live t at mem
    change c ∈ s'.accepted
    rw [live] at mem
    rw [accepted]
    exact h.accepted c mem
  waiting := by
    rw [activity_become]
    exact waiting

/-- A thread goes on between two turns. -/
theorem move_sound (h : Sound s) {a : Activity} {mutex : Option (Fin n)}
    (conn : a.conn = (s.activity t).conn) (locked : a.critical = true → mutex = some t)
    (others : ∀ r ≠ t, (s.activity r).critical = true → mutex = some r)
    (reading : ∀ conn index, a = .read conn index → index = s.g_nextIndex)
    (turn : ∀ conn index, a.turn = some (conn, index) → Turn s conn index)
    (waiting : ∀ conn, a.waiting = some conn → conn ∉ s.turns) :
    Sound (Server.become { s with g_mutex := mutex } t a) := by
  refine ⟨h.next, h.given, h.turns, h.accepted, h.apart, h.proper, h.none, h.crashed,
    fun r => ?_⟩
  by_cases same : r = t
  · subst same
    exact @Local.move n s { s with g_mutex := mutex } r (h.threads r) a [] rfl rfl rfl rfl
      (List.append_nil _).symm conn locked reading turn waiting
  · exact @Local.left n s _ r (h.threads r) (leaves_become same rfl rfl rfl rfl) []
      (List.append_nil _).symm (fun _ mem => mem) (others r same) (fun _ => rfl)
      (fun _ _ => List.not_mem_nil)

/-- The turn of a thread that has read the index. -/
theorem advance_sound (h : Sound s) {conn index : Nat} (here : s.activity t = .read conn index)
    (some : s.g_backends.length ≠ 0) :
    Sound (Server.become { s with
      g_nextIndex := (s.g_nextIndex + 1) % s.g_backends.length
      turns := s.turns ++ [conn]
      given := s.given ++ [index] } t (.advanced conn index)) := by
  have mine := h.threads t
  have critical : (s.activity t).critical = true := by rw [here]; rfl
  have nonempty : s.g_backends ≠ [] := fun none => some (congrArg List.length none)
  have place : index = s.turns.length % s.g_backends.length :=
    (mine.reading conn index here).trans (h.next nonempty)
  have fresh : conn ∉ s.turns := mine.waiting conn (by rw [here]; rfl)
  have up : conn ∈ s.live t := by
    rw [mine.live, here]
    exact List.mem_append_right _ (List.mem_singleton_self conn)
  refine ⟨fun _ => ?_, ?_, ?_, ?_, h.apart, h.proper, fun none => absurd none nonempty, h.crashed,
    fun r => ?_⟩
  · change (s.g_nextIndex + 1) % s.g_backends.length =
      (s.turns ++ [conn]).length % s.g_backends.length
    rw [h.next nonempty, Nat.mod_add_mod, List.length_append, List.length_singleton]
  · have given : s.given ++ [index] =
        (List.range (s.turns ++ [conn]).length).map (· % s.g_backends.length) := by
      rw [List.length_append, List.length_singleton, List.range_succ, List.map_append, ← h.given,
        place]
      rfl
    exact given
  · exact List.nodup_append.mpr ⟨h.turns, List.nodup_singleton conn, fun c old d one equal =>
      fresh (List.mem_singleton.mp one ▸ equal ▸ old)⟩
  · intro c mem
    rcases List.mem_append.mp mem with old | new
    · exact h.accepted c old
    · rw [List.mem_singleton.mp new]
      exact mine.accepted conn up
  · by_cases same : r = t
    · subst same
      refine @Local.move n s _ r mine (.advanced conn index) [conn] rfl rfl rfl rfl rfl
        (by rw [here]; rfl) (fun _ => mine.locked critical) (fun c i wrong => by cases wrong)
        (fun c i turned => ?_) (fun c wrong => by cases wrong)
      cases turned
      exact ⟨s.turns.length, List.getElem?_concat_length, place,
        place ▸ Nat.mod_lt _ (Nat.pos_of_ne_zero some)⟩
    · have outside := h.alone critical same
      refine @Local.left n s _ r (h.threads r) (leaves_become same rfl rfl rfl rfl) [conn] rfl
        (fun _ mem => mem) (h.threads r).locked (fun inside => ?_) fun c here' mem => ?_
      · rw [outside] at inside
        cases inside
      · have its : c ∈ s.live r := by
          rw [(h.threads r).live, Activity.conn_of_waiting here']
          exact List.mem_append_right _ (List.mem_singleton_self c)
        rw [List.mem_singleton.mp mem] at its
        exact same (h.apart r t conn its up)

/-- The entries of other names. -/
theorem filter_names (list : List (Nat × InetAddress)) (conn : Nat) :
    (list.filter (·.1 ≠ conn)).map Prod.fst = (list.map Prod.fst).filter (· ≠ conn) := by
  rw [List.filter_map]
  rfl

theorem filter_of_not_mem {list : List (Nat × InetAddress)} {conn : Nat}
    (absent : conn ∉ list.map Prod.fst) : list.filter (·.1 ≠ conn) = list := by
  refine List.filter_eq_self.mpr fun entry mem => ?_
  have other : entry.1 ≠ conn := fun same => absent (same ▸ List.mem_map_of_mem mem)
  simpa using other

theorem makeTunnel_sound (h : Sound s) {conn index : Nat}
    (here : s.activity t = .chosen conn index) {serverAddr : InetAddress}
    (place : s.g_backends[index]? = some serverAddr) :
    Sound ((s.setTunnel t conn serverAddr).become t .idle) := by
  have mine := h.threads t
  have live : s.live t = s.names t ++ [conn] := by
    rw [mine.live, here]
    rfl
  have absent : conn ∉ s.names t := by
    have nodup := mine.nodup
    rw [live, List.nodup_append] at nodup
    exact fun mem => nodup.2.2 conn mem conn (List.mem_singleton_self conn) rfl
  have set : (s.setTunnel t conn serverAddr).tunnels t = s.tunnels t ++ [(conn, serverAddr)] := by
    rw [Server.setTunnel]
    dsimp only
    rw [Function.update_self, filter_of_not_mem absent]
  refine ⟨h.next, h.given, h.turns, h.accepted, h.apart, h.proper, h.none, h.crashed,
    fun r => ?_⟩
  by_cases same : r = t
  · subst same
    refine ⟨?_, ?_, ?_, ?_, ?_, mine.nodup, mine.accepted, ?_⟩
    · rw [activity_become]
      intro critical
      cases critical
    · rw [activity_become]
      intro _ _ wrong
      cases wrong
    · rw [activity_become]
      intro _ _ wrong
      cases wrong
    · intro c backend mem
      rcases List.mem_append.mp (set ▸ mem : (c, backend) ∈ s.tunnels r ++ _) with old | new
      · exact mine.tunnels c backend old
      · cases List.mem_singleton.mp new
        exact ⟨index, mine.turn conn index (by rw [here]; rfl), place⟩
    · rw [activity_become]
      change s.live r = ((s.setTunnel r conn serverAddr).tunnels r).map Prod.fst ++ []
      rw [set, live, List.map_append, List.append_nil]
      rfl
    · rw [activity_become]
      intro _ wrong
      cases wrong
  · exact @Local.left n s _ r (h.threads r) (leaves_become same (Function.update_of_ne same _ _)
      rfl rfl rfl) [] (List.append_nil _).symm (fun _ mem => mem) (h.threads r).locked
      (fun _ => rfl) (fun _ _ => List.not_mem_nil)

theorem down_sound (h : Sound s) (idle : s.activity t = .idle) {conn : Nat}
    (up : conn ∈ s.live t) :
    Sound { s.erase t conn with
      live := Function.update s.live t ((s.live t).filter (· ≠ conn))
      misused := s.misused || conn ∉ s.names t } := by
  have mine := h.threads t
  have live : s.live t = s.names t := by
    rw [mine.live, idle]
    exact List.append_nil _
  have proper : (s.misused || decide (conn ∉ s.names t)) = false := by
    rw [live] at up
    simp [h.proper, up]
  have sub (r : Fin n) : Function.update s.live t ((s.live t).filter (· ≠ conn)) r ⊆ s.live r := by
    by_cases same : r = t
    · subst same
      rw [Function.update_self]
      exact fun c mem => List.mem_of_mem_filter mem
    · rw [Function.update_of_ne same]
      exact List.Subset.refl _
  refine ⟨h.next, h.given, h.turns, h.accepted,
    fun r q c one two => h.apart r q c (sub r one) (sub q two), proper, h.none, h.crashed,
    fun r => ?_⟩
  by_cases same : r = t
  · subst same
    have erased : (s.erase r conn).tunnels r = (s.tunnels r).filter (·.1 ≠ conn) :=
      Function.update_self _ _ _
    refine ⟨mine.locked, mine.reading, mine.turn, fun c backend mem => ?_, ?_, ?_,
      fun c mem => mine.accepted c (sub r mem), mine.waiting⟩
    · have old := List.mem_of_mem_filter (erased ▸ mem : (c, backend) ∈ _)
      exact mine.tunnels c backend old
    · change Function.update s.live r ((s.live r).filter (· ≠ conn)) r =
        ((s.erase r conn).tunnels r).map Prod.fst ++ (s.activity r).conn.toList
      rw [Function.update_self, erased, filter_names, live, idle]
      exact (List.append_nil _).symm
    · change (Function.update s.live r ((s.live r).filter (· ≠ conn)) r).Nodup
      rw [Function.update_self]
      exact mine.nodup.filter _
  · have leaves : Leaves s { s.erase t conn with
        live := Function.update s.live t ((s.live t).filter (· ≠ conn))
        misused := s.misused || conn ∉ s.names t } r :=
      ⟨rfl, Function.update_of_ne same _ _, Function.update_of_ne same _ _, rfl⟩
    exact @Local.left n s _ r (h.threads r) leaves [] (List.append_nil _).symm (fun _ mem => mem)
      (h.threads r).locked (fun _ => rfl) (fun _ _ => List.not_mem_nil)

theorem step_sound (h : Sound s) {a : Act n} (next : step s a = some s') : Sound s' := by
  have going : s.crashed = false := by
    by_contra gone
    rw [step.eq_def, if_pos (Bool.not_eq_false _ ▸ gone)] at next
    cases next
  rw [step.eq_def, if_neg (by rw [going]; decide)] at next
  cases a with
  | up t conn =>
    obtain ⟨⟨idle, fresh⟩, ⟨⟩⟩ := Option.ite_none_right_eq_some.mp next
    exact up_sound h idle fresh
  | lock t =>
    cases here : s.activity t with
    | arriving conn =>
      simp only [here] at next
      obtain ⟨free, ⟨⟩⟩ := Option.ite_none_right_eq_some.mp next
      refine move_sound h (by rw [here]; rfl) (fun _ => rfl) (fun r _ inside => ?_)
        (fun _ _ wrong => by cases wrong) (fun _ _ wrong => by cases wrong) fun c waits => ?_
      · have holds := (h.threads r).locked inside
        rw [free] at holds
        cases holds
      · exact (h.threads t).waiting c (by rw [here]; exact waits)
    | _ => simp [here] at next
  | readIndex t =>
    cases here : s.activity t with
    | locked conn =>
      simp only [here] at next
      cases next
      have critical : (s.activity t).critical = true := by rw [here]; rfl
      refine move_sound h (by rw [here]; rfl) (fun _ => (h.threads t).locked critical)
        (fun r _ inside => (h.threads r).locked inside) (fun c i reads => ?_)
        (fun _ _ wrong => by cases wrong) fun c waits => ?_
      · cases reads
        rfl
      · exact (h.threads t).waiting c (by rw [here]; exact waits)
    | _ => simp [here] at next
  | advance t =>
    cases here : s.activity t with
    | read conn index =>
      simp only [here] at next
      split at next
      · rename_i none
        cases next
        exact ⟨h.next, h.given, h.turns, h.accepted, h.apart, h.proper, h.none,
          fun _ => List.length_eq_zero_iff.mp none, fun r =>
            ⟨(h.threads r).locked, (h.threads r).reading, (h.threads r).turn,
              (h.threads r).tunnels, (h.threads r).live, (h.threads r).nodup,
              (h.threads r).accepted, (h.threads r).waiting⟩⟩
      · rename_i some
        cases next
        exact advance_sound h here some
    | _ => simp [here] at next
  | unlock t =>
    cases here : s.activity t with
    | advanced conn index =>
      simp only [here] at next
      cases next
      have critical : (s.activity t).critical = true := by rw [here]; rfl
      refine move_sound h (by rw [here]; rfl) (fun wrong => by cases wrong)
        (fun r other inside => ?_) (fun _ _ wrong => by cases wrong) (fun c i turned => ?_)
        (fun _ wrong => by cases wrong)
      · rw [h.alone critical other] at inside
        cases inside
      · exact (h.threads t).turn c i (by rw [here]; exact turned)
    | _ => simp [here] at next
  | makeTunnel t =>
    cases here : s.activity t with
    | chosen conn index =>
      simp only [here] at next
      obtain ⟨i, -, -, bound⟩ := (h.threads t).turn conn index (by rw [here]; rfl)
      rw [List.getElem?_eq_getElem bound] at next
      cases next
      exact makeTunnel_sound h here (List.getElem?_eq_getElem bound)
    | _ => simp [here] at next
  | down t conn =>
    obtain ⟨⟨idle, up⟩, ⟨⟩⟩ := Option.ite_none_right_eq_some.mp next
    exact down_sound h idle up

end Threads

/-! ## Runs -/

end Balancer

end Arale
