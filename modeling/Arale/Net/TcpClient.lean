import Arale.Net.ConnectorRuns

/-!
# A client and its connector

`TcpClient` of `net/TcpClient.cc` over the connector of its loop. `newConnection` and the
connection callback are the last things an event of the connector does, so what user code
does in them comes as the next calls. A connection goes by the number of its socket;
of its life there is the start, a `shutdown()` asked for, and the close. The destructor is
modelled without a connection: it stops the connector and lets it go, at once on the loop
thread and statement by statement on another one.
-/

namespace Arale

/-- How far `~TcpClient` has got. -/
inductive ClientLife where
  | alive
  /-- it has found no connection -/
  | entered
  /-- `Connector::stop` has cleared `connected_` -/
  | cleared
  /-- `stopInLoop` is posted -/
  | posted
  /-- `connector_` is released -/
  | gone
  deriving DecidableEq, Repr

structure TcpClient where
  connector : Connector
  connID : Nat
  retry : Bool
  connect : Bool
  connection : Option Nat
  /-- the connections that close by `removeConnection` -/
  opened : List Nat
  /-- the connections `disconnect()` has shut down -/
  shutdowns : List Nat
  /-- calls of `removeConnection` for a connection other than `connection_` -/
  mismatches : Nat
  /-- the last call of `connect()` or `disconnect()` was a `disconnect()` -/
  disconnected : Bool
  life : ClientLife
  deriving DecidableEq, Repr

namespace TcpClient

def new : TcpClient where
  connector := .new
  connID := 1
  retry := false
  connect := true
  connection := none
  opened := []
  shutdowns := []
  mismatches := 0
  disconnected := false
  life := .alive

def newConnection (s : TcpClient) (sockfd : Nat) : TcpClient :=
  { s with connID := s.connID + 1
           connection := some sockfd
           opened := s.opened ++ [sockfd] }

def removeConnection (s : TcpClient) (sockfd : Nat) (attempt : Attempt) : TcpClient :=
  let s := { s with mismatches :=
                      if s.connection = some sockfd then s.mismatches else s.mismatches + 1
                    connection := none
                    opened := s.opened.erase sockfd }
  if s.retry && s.connect then { s with connector := s.connector.restart attempt } else s

def disconnect (s : TcpClient) : TcpClient :=
  { s with connect := false
           shutdowns := s.shutdowns ++ s.connection.toList
           disconnected := true }

/-- The connector's step, and `newConnection` if it has handed a socket over. -/
def onConnector (s : TcpClient) (a : Connector.Act) : Option TcpClient :=
  (s.connector.step a).map fun connector =>
    let t := { s with connector := connector }
    match connector.handed[s.connector.handed.length]? with
    | none => t
    | some sockfd => t.newConnection sockfd

inductive Act where
  | connect (inLoop : Bool) (attempt : Attempt)
  | disconnect
  /-- `stop()` on the loop thread -/
  | stop
  /-- `stop()` on another thread, up to the post -/
  | stopping
  | stopPosted
  | enableRetry
  | poll (ready : List Nat)
  | event (revents : BitVec 32) (err : Int) (selfConnect : Bool)
  | timer (i : Nat) (attempt : Attempt)
  | functor (attempt : Attempt)
  /-- a connection closes; the attempt is that of a restart -/
  | close (sockfd : Nat) (attempt : Attempt)
  /-- `~TcpClient` on the loop thread -/
  | destroy
  /-- `~TcpClient` on another thread takes its next step -/
  | destroying
  deriving DecidableEq, Repr

/-- A closed connection calls a client that is there. -/
def step (s : TcpClient) : Act → Option TcpClient
  | .connect inLoop attempt =>
    if s.life = .alive then
      (s.connector.step (.start inLoop attempt)).map fun connector =>
        { s with connect := true, connector := connector, disconnected := false }
    else none
  | .disconnect => if s.life = .alive then some s.disconnect else none
  | .stop =>
    if s.life = .alive then
      (s.connector.step .stop).map fun connector =>
        { s with connect := false, connector := connector }
    else none
  | .stopping =>
    if s.life = .alive then
      (s.connector.step .stopping).map fun connector =>
        { s with connect := false, connector := connector }
    else none
  | .stopPosted =>
    if s.life = .alive then
      (s.connector.step .stopPosted).map fun connector => { s with connector := connector }
    else none
  | .enableRetry => if s.life = .alive then some { s with retry := true } else none
  | .poll ready => s.onConnector (.poll ready)
  | .event revents err selfConnect =>
    s.onConnector (.event revents { err := err, selfConnect := selfConnect })
  | .timer i attempt => s.onConnector (.timer i attempt)
  | .functor attempt => s.onConnector (.functor attempt)
  | .close sockfd attempt =>
    if sockfd ∈ s.opened ∧ s.life ≠ .gone then some (s.removeConnection sockfd attempt) else none
  | .destroy =>
    if s.life = .alive ∧ s.connection = none then
      (s.connector.step .stop).map fun connector =>
        { s with connector := connector, life := .gone }
    else none
  | .destroying =>
    match s.life with
    | .alive => if s.connection = none then some { s with life := .entered } else none
    | .entered => (s.connector.step .stopping).map fun connector =>
        { s with connector := connector, life := .cleared }
    | .cleared => some { s with connector := s.connector.postFuntor .stopInLoop, life := .posted }
    | .posted => some { s with life := .gone }
    | .gone => none

/-- What a step of the connector does to the client. -/
structure Moved (s : TcpClient) (a : Connector.Act) (t : TcpClient) : Prop where
  connector : s.connector.step a = some t.connector
  connect : t.connect = s.connect
  disconnected : t.disconnected = s.disconnected
  life : t.life = s.life
  connID : t.connector.handed = s.connector.handed → t.connID = s.connID

theorem moved {s t : TcpClient} {a : Connector.Act} (next : s.onConnector a = some t) :
    Moved s a t := by
  obtain ⟨connector, stepped, rfl⟩ := Option.map_eq_some_iff.mp next
  simp only
  split
  · exact ⟨stepped, rfl, rfl, rfl, fun _ => rfl⟩
  · rename_i sockfd handed
    refine ⟨stepped, rfl, rfl, rfl, fun same => ?_⟩
    have beyond := (List.getElem?_eq_some_iff.mp handed).1
    rw [show connector.handed = s.connector.handed from same] at beyond
    omega

/-! ## A connector that is not connecting -/

section Idle
variable {c d : Connector}

theorem handle_idle (idle : c.state ≠ .kConnecting) (answer : Answer) (handler : Handler) :
    ∃ faults, c.handle answer handler = { c with faults := faults } := by
  cases handler with
  | write =>
    simp only [Connector.handle, Connector.handleWrite, if_neg idle, Connector.check_eq]
    exact ⟨_, rfl⟩
  | error => exact ⟨c.faults, if_neg idle⟩
  | read => exact ⟨c.faults, rfl⟩
  | close => exact ⟨c.faults, rfl⟩

theorem foldl_handle_idle (idle : c.state ≠ .kConnecting) (answer : Answer)
    (handlers : List Handler) :
    ∃ faults, handlers.foldl (Connector.handle answer) c = { c with faults := faults } := by
  induction handlers generalizing c with
  | nil => exact ⟨c.faults, rfl⟩
  | cons handler rest ih =>
    obtain ⟨faults, same⟩ := handle_idle idle answer handler
    rw [List.foldl_cons, same]
    exact ih idle

theorem handleEvent_idle (idle : c.state ≠ .kConnecting) (sock : Nat) (revents : BitVec 32)
    (answer : Answer) :
    ∃ faults, c.handleEvent sock revents answer = { c with faults := faults } := by
  rw [Connector.handleEvent, Connector.check_eq]
  generalize c.faults ++ _ = faults
  exact foldl_handle_idle (c := { c with faults := faults }) idle answer _

theorem event_idle {revents : BitVec 32} {answer : Answer} (idle : c.state ≠ .kConnecting)
    (next : c.step (.event revents answer) = some d) :
    ∃ rest faults, d = { c with active := rest, faults := faults } := by
  simp only [Connector.step] at next
  split at next
  · cases next
  · rename_i sock rest queue
    obtain ⟨faults, same⟩ :=
      handleEvent_idle (c := { c with active := rest }) idle sock revents answer
    rw [same] at next
    cases next
    exact ⟨rest, faults, rfl⟩

theorem stopInLoop_idle (idle : c.state ≠ .kConnecting) :
    c.stopInLoop = { c with stopRan := true } :=
  if_neg idle

end Idle

end TcpClient
end Arale

namespace StaysDisconnected

open Arale Schedules TcpClient

/-- Nothing is left that ends in a new connection by itself. -/
def Idle (c : Connector) : Prop :=
  c.connected = false ∨ (c.state ≠ .kConnecting ∧ c.timers = [] ∧ .startInLoop ∉ c.functors)

/-- What `disconnect()` leaves if it finds the connector idle. -/
def Settled (s : TcpClient) : Prop :=
  s.disconnected = true → s.connect = false ∧ Idle s.connector

section Idle
variable {c d : Connector}

end Idle

section Settled
variable {s t : TcpClient}

end Settled

end StaysDisconnected

namespace ConnectorOwners

open Arale Schedules TcpClient

/-- The connector has an owner: the client, or the functor of a retry timer. -/
def Owned (s : TcpClient) : Prop := s.life ≠ .gone ∨ s.connector.timers ≠ []

/-- No functor is bound to the connector, and no event will post one. -/
def Spent (c : Connector) : Prop := c.functors = [] ∧ c.state ≠ .kConnecting

/-- The last owner goes when the connector is spent. A timer that is the last owner does
not start another attempt either. -/
def LastOwnerLate (s : TcpClient) : Act → Prop
  | .destroy => s.connector.timers ≠ [] ∨ Spent s.connector
  | .destroying => s.life = .posted → s.connector.timers ≠ [] ∨ Spent s.connector
  | .timer _ attempt => s.life = .gone → s.connector.timers.length = 1 →
    Spent s.connector ∧ (s.connector.connected = true → attempt.savedError.connects = false)
  | _ => True

/-- A functor bound to the connector runs while that has an owner. -/
def RunsOwned (s : TcpClient) : Act → Prop
  | .functor attempt => ∀ t, s.step (.functor attempt) = some t → Owned s
  | _ => True

section Owned
variable {s t : TcpClient} {c d : Connector}

theorem timers_kept {l : List Nat} (kept : c.timers <+: l) (some : c.timers ≠ []) : l ≠ [] := by
  rintro rfl
  exact some (List.prefix_nil.mp kept)

/-- A spent connector stays so. -/
theorem startInLoop_spent (spent : Spent c) {attempt : Attempt}
    (fails : c.connected = true → attempt.savedError.connects = false) :
    Spent (c.startInLoop attempt) := by
  simp only [Connector.startInLoop, Connector.check_eq]
  split
  · rename_i on
    obtain ⟨connects, -⟩ | ⟨-, retried | closed⟩ := Connector.connect_cases _ attempt.savedError
    · exact absurd (connects.symm.trans (fails on)) (by decide)
    · rw [retried, Connector.retry_eq]
      exact ⟨spent.1, (fun connecting => by cases connecting)⟩
    · rw [closed]
      exact spent
  · exact spent

theorem loop_spent {a : Connector.Act} (spent : Spent c)
    (quiet : (∃ ready, a = .poll ready) ∨ ∃ revents answer, a = .event revents answer)
    (next : c.step a = some d) : Spent d := by
  rcases quiet with ⟨ready, rfl⟩ | ⟨revents, answer, rfl⟩
  · obtain ⟨-, ⟨⟩⟩ := Option.ite_none_right_eq_some.mp next
    exact spent
  · obtain ⟨rest, faults, rfl⟩ := event_idle spent.2 next
    exact spent

theorem no_functor (spent : Spent c) {attempt : Attempt} :
    c.step (.functor attempt) ≠ some d := by
  intro next
  obtain ⟨-, ran⟩ := Option.ite_none_right_eq_some.mp next
  rw [spent.1] at ran
  cases ran

theorem stop_spent (spent : Spent c) (next : c.step .stop = some d) : Spent d := by
  cases next
  rw [stopInLoop_idle (c := { c with connected := false, started := false }) spent.2]
  exact spent

theorem stop_timers (next : c.step .stop = some d) : c.timers <+: d.timers := by
  cases next
  exact (Connector.stopInLoop_stops { c with connected := false, started := false }).timers

/-- There is an owner, or nothing that needs one. -/
def Kept (s : TcpClient) : Prop := Owned s ∨ Spent s.connector

theorem timer_kept {i : Nat} {attempt : Attempt} (late : LastOwnerLate s (.timer i attempt))
    (moves : Moved s (.timer i attempt) t) : Kept t := by
  obtain ⟨pending, stepped⟩ := Option.ite_none_right_eq_some.mp moves.connector
  have calm := Connector.startInLoop_calm
    { s.connector with timers := s.connector.timers.eraseIdx i } attempt
  by_cases gone : s.life = .gone
  · by_cases last : s.connector.timers.length = 1
    · obtain ⟨spent, fails⟩ := late gone last
      refine .inr ?_
      rw [← Option.some.inj stepped]
      exact startInLoop_spent (c := { s.connector with timers := s.connector.timers.eraseIdx i })
        spent fails
    · refine .inl (.inr ?_)
      rw [← Option.some.inj stepped]
      refine timers_kept calm.timers fun none => ?_
      have length := List.length_eraseIdx_of_lt pending
      rw [show s.connector.timers.eraseIdx i = [] from none, List.length_nil] at length
      omega
  · exact .inl (.inl fun after => gone (moves.life.symm.trans after))

/-- A step of the loop that fires no timer. -/
theorem loop_kept {a : Connector.Act} (kept : Kept s) (moves : Moved s a t)
    (onLoop : Connector.OnLoop a) (noTimer : ∀ i attempt, a ≠ .timer i attempt)
    (spent : Spent s.connector → Spent t.connector) : Kept t := by
  rcases kept with (here | timers) | empty
  · exact .inl (.inl fun after => here (moves.life.symm.trans after))
  · refine .inl (.inr ?_)
    obtain calm | ⟨rest, -, same⟩ | ⟨i, attempt, fires, -, -⟩ :=
      Connector.loop_cases onLoop moves.connector
    · exact timers_kept calm.timers timers
    · rw [same]
      exact timers_kept (Connector.stopInLoop_stops { s.connector with
        functors := rest, ran := s.connector.ran + 1 }).timers timers
    · exact absurd fires (noTimer i attempt)
  · exact .inr (spent empty)

theorem step_kept {a : Act} (kept : Kept s) (late : LastOwnerLate s a)
    (next : s.step a = some t) : Kept t := by
  have alive {u : TcpClient} (life : u.life = .alive) : Kept u :=
    .inl (.inl fun gone => by rw [life] at gone; cases gone)
  cases a with
  | connect | stop | stopping | stopPosted =>
    obtain ⟨life, called⟩ := Option.ite_none_right_eq_some.mp next
    obtain ⟨connector, -, rfl⟩ := Option.map_eq_some_iff.mp called
    exact alive life
  | disconnect | enableRetry =>
    obtain ⟨life, ⟨⟩⟩ := Option.ite_none_right_eq_some.mp next
    exact alive life
  | poll ready =>
    have moves := moved (a := .poll ready) next
    exact loop_kept kept moves trivial (fun _ _ fires => by cases fires)
      fun spent => loop_spent spent (.inl ⟨ready, rfl⟩) moves.connector
  | event revents err selfConnect =>
    have moves := moved (a := .event revents ⟨err, selfConnect, none⟩) next
    exact loop_kept kept moves rfl (fun _ _ fires => by cases fires)
      fun spent => loop_spent spent (.inr ⟨revents, _, rfl⟩) moves.connector
  | timer i attempt => exact timer_kept late (moved (a := .timer i attempt) next)
  | functor attempt =>
    have moves := moved (a := .functor attempt) next
    exact loop_kept kept moves trivial (fun _ _ fires => by cases fires)
      fun spent => absurd moves.connector (no_functor spent)
  | close sockfd attempt =>
    obtain ⟨⟨-, here⟩, ⟨⟩⟩ := Option.ite_none_right_eq_some.mp next
    refine .inl (.inl fun gone => here ?_)
    unfold removeConnection at gone
    simp only at gone
    split at gone
    · exact gone
    · exact gone
  | destroy =>
    obtain ⟨-, stopped⟩ := Option.ite_none_right_eq_some.mp next
    obtain ⟨connector, stepped, rfl⟩ := Option.map_eq_some_iff.mp stopped
    rcases late with timers | spent
    · exact .inl (.inr (timers_kept (stop_timers stepped) timers))
    · exact .inr (stop_spent spent stepped)
  | destroying =>
    simp only [step] at next
    split at next
    · obtain ⟨-, ⟨⟩⟩ := Option.ite_none_right_eq_some.mp next
      exact .inl (.inl fun gone => by cases gone)
    · obtain ⟨connector, -, rfl⟩ := Option.map_eq_some_iff.mp next
      exact .inl (.inl fun gone => by cases gone)
    · cases next
      exact .inl (.inl fun gone => by cases gone)
    · rename_i life
      cases next
      rcases late life with timers | spent
      · exact .inl (.inr timers)
      · exact .inr spent
    · cases next

end Owned

/-- In every run in which the last owner of the connector goes late, every functor bound to
it runs while it has an owner. -/
theorem functors_run_owned (actions : List Act) (late : Along step LastOwnerLate new actions) :
    Along step RunsOwned new actions := by
  refine along_of_kept (I := Kept) (fun _ _ _ kept late next => step_kept kept late next)
    (fun s a kept _ => ?_) (.inl (.inl fun gone => by cases gone)) late
  cases a with
  | functor attempt =>
    intro t next
    rcases kept with owned | spent
    · exact owned
    · exact absurd (moved (a := .functor attempt) next).connector (no_functor spent)
  | _ => trivial

/-- A client destroyed by another thread while its connector waits to retry: the functor
posted last runs before the timer fires. -/
theorem destroyed_before_retry_owned :
    (∃ s, run step new
      [.connect true ⟨.ECONNREFUSED, false⟩, .destroying, .destroying, .destroying, .destroying,
        .functor ⟨.ok, false⟩, .timer 0 ⟨.ok, false⟩] = some s ∧
      s.life = .gone ∧ s.connector.timers = []) ∧
    Along step RunsOwned new
      [.connect true ⟨.ECONNREFUSED, false⟩, .destroying, .destroying, .destroying, .destroying,
        .functor ⟨.ok, false⟩, .timer 0 ⟨.ok, false⟩] := by
  refine ⟨⟨_, rfl, by decide, by decide⟩, functors_run_owned _ ?_⟩
  refine .cons trivial rfl (.cons (fun posted => by cases posted) rfl
    (.cons (fun posted => by cases posted) rfl (.cons (fun posted => by cases posted) rfl
      (.cons (fun _ => .inl (by decide)) rfl (.cons trivial rfl (.cons ?_ rfl trivial))))))
  exact fun _ _ => ⟨⟨rfl, by decide⟩, by decide⟩

/-- A client that is connecting is destroyed on the loop thread: `resetChannel` runs on a
connector that is gone. -/
theorem destroyed_while_connecting_unowned :
    (∃ s t, run step new [.connect true ⟨.EINPROGRESS, false⟩, .destroy] = some s ∧
      s.connector.functors = [.resetChannel] ∧
      s.step (.functor ⟨.ok, false⟩) = some t ∧ ¬ Owned s) ∧
    ¬ Along step RunsOwned new
      [.connect true ⟨.EINPROGRESS, false⟩, .destroy, .functor ⟨.ok, false⟩] := by
  have unowned {s : TcpClient} (gone : s.life = .gone) (fired : s.connector.timers = []) :
      ¬ Owned s := by
    rintro (here | timers)
    · exact here gone
    · exact timers fired
  refine ⟨⟨_, _, rfl, by decide, rfl, unowned rfl rfl⟩, fun runs => ?_⟩
  exact absurd (((runs.2 _ rfl).2 _ rfl).1 _ rfl) (unowned rfl rfl)

end ConnectorOwners
