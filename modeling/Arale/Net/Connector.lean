import Arale.Lib.Schedules
import Arale.Net.Channel

/-!
# The connector

`Connector` of `net/Connector.cc` on its loop. Sockets are numbered in the order of
their creation and a connecting channel goes by the number of its socket. The loop keeps
the channels that wait for their event of this poll, the functors bound to the connector
and the retry timers; functors run in the order of posting once no event is waiting.
Outcomes of system calls are inputs. Another thread's `stop()` clears `connected_` and
posts `stopInLoop` in two steps, and the first may also fall between the two places of
one `startInLoop` that read `connected_`. Assertions are recorded and not enforced; a
null channel is recorded and left alone.
-/

namespace Arale

/-- `savedError` in `Connector::connect`, with the values its switch names. -/
inductive ConnectErrno where
  | ok
  | EINPROGRESS
  | EINTR
  | EISCONN
  | EAGAIN
  | EADDRINUSE
  | EADDRNOTAVAIL
  | ECONNREFUSED
  | ENETUNREACH
  | EACCES
  | EPERM
  | EAFNOSUPPORT
  | EALREADY
  | EBADF
  | EFAULT
  | ENOTSOCK
  | unexpected (savedError : Nat)
  deriving DecidableEq, Repr

/-- The attempt gets as far as `connecting()`. -/
def ConnectErrno.connects : ConnectErrno → Bool
  | .ok | .EINPROGRESS | .EINTR | .EISCONN => true
  | _ => false

inductive ConnectorState where
  | kDisconnected
  | kConnecting
  | kConnected
  deriving DecidableEq, Repr

/-- The functors bound to the connector by a plain pointer. -/
inductive ConnectorFunctor where
  | startInLoop
  | stopInLoop
  | resetChannel
  deriving DecidableEq, Repr

inductive ConnectorFault where
  /-- `startInLoop`: not in `kDisconnected` -/
  | startState
  /-- `connecting`: `connected_` is false -/
  | connectingConnected
  /-- `connecting`: there is a channel already -/
  | connectingEmpty
  /-- `handleWrite`: neither connecting nor disconnected -/
  | writeState
  /-- `removeAndResetChannel`: there is no channel -/
  | noChannel
  /-- `resetChannel` destroys a channel that is registered -/
  | resetRegistered
  /-- an event is dispatched to a channel that has been destroyed -/
  | eventDestroyed
  deriving DecidableEq, Repr

/-- The inputs of one `startInLoop`: how `connect(2)` ends, and whether another thread
clears `connected_` before `connect()` looks at it again. -/
structure Attempt where
  savedError : ConnectErrno
  stopped : Bool := false
  deriving DecidableEq, Repr

/-- The inputs of one `handleWrite`; `restart` is a `restart()` made by the callback. -/
structure Answer where
  err : Int := 0
  selfConnect : Bool := false
  restart : Option Attempt := none
  deriving DecidableEq, Repr

structure Connector where
  state : ConnectorState
  connected : Bool
  retryDelayMs : Nat
  connectChannel : Option Nat
  /-- the connecting channels registered with the poller -/
  watched : List Nat
  /-- those among the active channels of this poll that are still to be handled -/
  active : List Nat
  functors : List ConnectorFunctor
  /-- how many functors have been run -/
  ran : Nat
  /-- the pending retry timers, each with the number of functors posted before it -/
  timers : List Nat
  /-- how many sockets have been created -/
  sockets : Nat
  closed : List Nat
  /-- the sockets given to `connectionCallback_` -/
  handed : List Nat
  /-- the last call of `start()` or `stop()` was a `start()` -/
  started : Bool
  /-- `stopInLoop` has been run -/
  stopRan : Bool
  faults : List ConnectorFault
  deriving DecidableEq, Repr

namespace Connector

def kMaxRetryDelayMs : Nat := 30 * 1000
def kInitRetryDelayMs : Nat := 500

def new : Connector where
  state := .kDisconnected
  connected := false
  retryDelayMs := kInitRetryDelayMs
  connectChannel := none
  watched := []
  active := []
  functors := []
  ran := 0
  timers := []
  sockets := 0
  closed := []
  handed := []
  started := false
  stopRan := false
  faults := []

def check (s : Connector) (site : ConnectorFault) (cond : Bool) : Connector :=
  if cond then s else { s with faults := s.faults ++ [site] }

def close (s : Connector) (sockfd : Nat) : Connector := { s with closed := s.closed ++ [sockfd] }

def postFuntor (s : Connector) (functor : ConnectorFunctor) : Connector :=
  { s with functors := s.functors ++ [functor] }

def retry (s : Connector) (sockfd : Nat) : Connector :=
  let s := { s.close sockfd with state := .kDisconnected }
  if s.connected then
    { s with timers := s.timers ++ [s.ran + s.functors.length]
             retryDelayMs := min (s.retryDelayMs * 2) kMaxRetryDelayMs }
  else s

def connecting (s : Connector) (sockfd : Nat) : Connector :=
  let s := s.check .connectingConnected s.connected
  let s := s.check .connectingEmpty s.connectChannel.isNone
  { s with state := .kConnecting
           connectChannel := some sockfd
           watched := s.watched ++ [sockfd] }

def connect (s : Connector) (savedError : ConnectErrno) : Connector :=
  let sock := s.sockets
  let s := { s with sockets := s.sockets + 1 }
  match savedError with
  | .ok | .EINPROGRESS | .EINTR | .EISCONN => s.connecting sock
  | .EAGAIN | .EADDRINUSE | .EADDRNOTAVAIL | .ECONNREFUSED | .ENETUNREACH => s.retry sock
  | .EACCES | .EPERM | .EAFNOSUPPORT | .EALREADY | .EBADF | .EFAULT | .ENOTSOCK => s.close sock
  | .unexpected _ => s.close sock

def startInLoop (s : Connector) (attempt : Attempt) : Connector :=
  let s := s.check .startState (s.state == .kDisconnected)
  if s.connected then
    { s with connected := !attempt.stopped }.connect attempt.savedError
  else s

def restart (s : Connector) (attempt : Attempt) : Connector :=
  { s with connected := true
           state := .kDisconnected
           retryDelayMs := kInitRetryDelayMs }.startInLoop attempt

/-- The connector without its registered channel, and the socket of that. -/
def removeAndResetChannel (s : Connector) : Option (Connector × Nat) :=
  s.connectChannel.map fun sock =>
    ({ s with watched := s.watched.erase sock }.postFuntor .resetChannel, sock)

def resetChannel (s : Connector) : Connector :=
  let s := s.check .resetRegistered (s.connectChannel.all (· ∉ s.watched))
  { s with connectChannel := none }

def handleWrite (s : Connector) (answer : Answer) : Connector :=
  if s.state = .kConnecting then
    match s.removeAndResetChannel with
    | none => s.check .noChannel false
    | some (s, sockfd) =>
      if answer.err ≠ 0 then s.retry sockfd
      else if answer.selfConnect then s.retry sockfd
      else if s.connected then
        let s := { s with state := .kConnected, handed := s.handed ++ [sockfd] }
        match answer.restart with
        | none => s
        | some attempt => s.restart attempt
      else { s.close sockfd with state := .kDisconnected }
  else s.check .writeState (s.state == .kDisconnected)

def handleError (s : Connector) : Connector :=
  if s.state = .kConnecting then
    match s.removeAndResetChannel with
    | none => s.check .noChannel false
    | some (s, sockfd) => s.retry sockfd
  else s

def stopInLoop (s : Connector) : Connector :=
  let s := { s with stopRan := true }
  if s.state = .kConnecting then
    match { s with state := .kDisconnected }.removeAndResetChannel with
    | none => s.check .noChannel false
    | some (s, sockfd) => s.retry sockfd
  else s

/-- The callbacks `connecting` sets. -/
def handle (answer : Answer) (s : Connector) : Handler → Connector
  | .write => s.handleWrite answer
  | .error => s.handleError
  | .read => s
  | .close => s

/-- `Channel::handleEvent` on a connecting channel. -/
def handleEvent (s : Connector) (sock : Nat) (revents : BitVec 32) (answer : Answer) :
    Connector :=
  let s := s.check .eventDestroyed (s.connectChannel == some sock)
  ((Channel.new sock [.write, .error]).set_revents revents).handleEventWithGuard.foldl
    (handle answer) s

inductive Act where
  | start (inLoop : Bool) (attempt : Attempt)
  | stop
  | stopping
  | stopPosted
  | restart (attempt : Attempt)
  | poll (ready : List Nat)
  | event (revents : BitVec 32) (answer : Answer)
  | timer (i : Nat) (attempt : Attempt)
  | functor (attempt : Attempt)
  deriving DecidableEq, Repr

def step (s : Connector) : Act → Option Connector
  | .start inLoop attempt =>
    let s := { s with connected := true, started := true }
    some (if inLoop then s.startInLoop attempt else s.postFuntor .startInLoop)
  | .stop => some { s with connected := false, started := false }.stopInLoop
  | .stopping => some { s with connected := false, started := false }
  | .stopPosted => if s.connected then none else some (s.postFuntor .stopInLoop)
  | .restart attempt => some (s.restart attempt)
  | .poll ready =>
    if s.active = [] ∧ ready.Nodup ∧ ∀ sock ∈ ready, sock ∈ s.watched then
      some { s with active := ready }
    else none
  | .event revents answer =>
    match s.active with
    | [] => none
    | sock :: rest => some ({ s with active := rest }.handleEvent sock revents answer)
  | .timer i attempt =>
    if i < s.timers.length then
      some ({ s with timers := s.timers.eraseIdx i }.startInLoop attempt)
    else none
  | .functor attempt =>
    if s.active = [] then
      match s.functors with
      | [] => none
      | functor :: rest =>
        let s := { s with functors := rest, ran := s.ran + 1 }
        some (match functor with
          | .startInLoop => s.startInLoop attempt
          | .stopInLoop => s.stopInLoop
          | .resetChannel => s.resetChannel)
    else none

theorem check_eq (s : Connector) (site : ConnectorFault) (cond : Bool) :
    s.check site cond = { s with faults := s.faults ++ if cond then [] else [site] } := by
  cases cond <;> simp [check]

theorem retry_eq (s : Connector) (sockfd : Nat) : s.retry sockfd =
    { s with
      state := .kDisconnected
      closed := s.closed ++ [sockfd]
      timers := s.timers ++ if s.connected then [s.ran + s.functors.length] else []
      retryDelayMs :=
        if s.connected then min (s.retryDelayMs * 2) kMaxRetryDelayMs else s.retryDelayMs } := by
  cases connected : s.connected <;> simp [retry, close, connected]

/-! ## What holds while attempts do not overlap -/

/-- The socket is open in the connector. -/
def Holds (s : Connector) (sock : Nat) : Prop :=
  s.state = .kConnecting ∧ s.connectChannel = some sock

instance (s : Connector) (sock : Nat) : Decidable (s.Holds sock) :=
  inferInstanceAs (Decidable (_ ∧ _))

/-- One attempt at a time: it is posted, or it waits for its timer, or the state is not
`kDisconnected`. A channel is registered while the state is `kConnecting`; a channel that
is left has its reset posted, before the timer if there is one. -/
structure Sound (s : Connector) : Prop where
  faults : ∀ f ∈ s.faults, f = .connectingConnected
  token : s.functors.count .startInLoop + s.timers.length +
    (if s.state = .kDisconnected then 0 else 1) ≤ 1
  posted : .startInLoop ∈ s.functors → s.connectChannel = none
  held : s.state = .kConnecting → s.connectChannel ≠ none
  watched : s.watched = if s.state = .kConnecting then s.connectChannel.toList else []
  resets : s.functors.count .resetChannel =
    if s.state = .kConnecting ∨ s.connectChannel = none then 0 else 1
  order : ∀ t ∈ s.timers, ∀ i : Nat, s.functors[i]? = some .resetChannel → s.ran + i < t
  active : s.active = [] ∨
    ∃ sock, s.active = [sock] ∧ s.connectChannel = some sock ∧ s.state ≠ .kConnected
  accounts : ∀ sock, s.closed.count sock + s.handed.count sock +
    (if s.Holds sock then 1 else 0) = if sock < s.sockets then 1 else 0

/-- No attempt is under way. -/
structure Free (s : Connector) : Prop where
  state : s.state = .kDisconnected
  unposted : .startInLoop ∉ s.functors
  timers : s.timers = []

theorem new_sound : Sound new where
  faults := fun f mem => by cases mem
  token := by decide
  posted := fun mem => by cases mem
  held := fun connecting => by cases connecting
  watched := rfl
  resets := rfl
  order := fun t mem => by cases mem
  active := .inl rfl
  accounts := fun sock => by simp [new, Holds]

section Sound
variable {s : Connector}

/-- The invariant does not look at these. -/
theorem Sound.flags (sound : Sound s) (connected started stopRan : Bool) (retryDelayMs : Nat) :
    Sound { s with connected := connected, started := started, stopRan := stopRan
                   retryDelayMs := retryDelayMs } :=
  ⟨sound.faults, sound.token, sound.posted, sound.held, sound.watched, sound.resets, sound.order,
    sound.active, sound.accounts⟩

theorem Sound.check (sound : Sound s) {site : ConnectorFault} {cond : Bool}
    (holds : site ≠ .connectingConnected → cond = true) : Sound (s.check site cond) := by
  rw [check_eq]
  refine ⟨?_, sound.token, sound.posted, sound.held, sound.watched, sound.resets, sound.order,
    sound.active, sound.accounts⟩
  intro f mem
  rcases List.mem_append.mp mem with old | last
  · exact sound.faults f old
  · split at last
    · cases last
    · rename_i failed
      rw [List.mem_singleton.mp last]
      by_contra other
      exact failed (holds other)

theorem Sound.watched_free (sound : Sound s) (free : s.Free) : s.watched = [] := by
  rw [sound.watched, free.state]
  rfl

theorem not_holds_of_free (free : s.Free) (sock : Nat) : ¬ s.Holds sock := by
  rintro ⟨connecting, -⟩
  rw [free.state] at connecting
  cases connecting

theorem accounts_succ {closed handed : List Nat} {sockets sock : Nat}
    (accounts : closed.count sock + handed.count sock = if sock < sockets then 1 else 0) :
    closed.count sock + handed.count sock + (if sockets = sock then 1 else 0) =
      if sock < sockets + 1 then 1 else 0 := by
  split <;> split at * <;> split at * <;> omega

theorem Sound.accounts_free (sound : Sound s) (free : s.Free) (sock : Nat) :
    s.closed.count sock + s.handed.count sock = if sock < s.sockets then 1 else 0 := by
  have all := sound.accounts sock
  rwa [if_neg (not_holds_of_free free sock), Nat.add_zero] at all

/-- `connecting` on a new socket. -/
theorem connecting_sound (sound : Sound s) (free : s.Free) (empty : s.connectChannel = none) :
    Sound ({ s with sockets := s.sockets + 1 }.connecting s.sockets) := by
  have unregistered := sound.watched_free free
  have quiet : s.active = [] := by
    rcases sound.active with none | ⟨sock, -, here, -⟩
    · exact none
    · rw [empty] at here
      cases here
  have noReset : s.functors.count .resetChannel = 0 := by
    rw [sound.resets, if_pos (.inr empty)]
  have noStart : s.functors.count .startInLoop = 0 := List.count_eq_zero.mpr free.unposted
  have connecting : { s with sockets := s.sockets + 1 }.connecting s.sockets =
      { s with
        sockets := s.sockets + 1
        faults := s.faults ++ if s.connected then [] else [.connectingConnected]
        state := .kConnecting
        connectChannel := some s.sockets
        watched := [s.sockets] } := by
    cases s.connected <;> simp [Connector.connecting, Connector.check, empty, unregistered]
  rw [connecting]
  refine ⟨fun f mem => ?_, ?_, fun mem => absurd mem free.unposted, fun _ => by simp, rfl, ?_,
    ?_, .inl quiet, fun sock => ?_⟩
  · rcases List.mem_append.mp mem with old | last
    · exact sound.faults f old
    · split at last
      · cases last
      · exact List.mem_singleton.mp last
  · simp [noStart, free.timers]
  · simpa using noReset
  · intro t mem
    rw [free.timers] at mem
    cases mem
  · have counted := accounts_succ (sound.accounts_free free sock)
    simpa [Holds] using counted

/-- The connector has one open socket in hand, whose channel, if there was one, has been
removed from the poller. -/
structure InHand (s : Connector) (sockfd : Nat) : Prop where
  faults : ∀ f ∈ s.faults, f = .connectingConnected
  unposted : s.functors.count .startInLoop = 0
  timers : s.timers = []
  watched : s.watched = []
  resets : s.functors.count .resetChannel = if s.connectChannel = none then 0 else 1
  active : s.active = [] ∨ ∃ sock, s.active = [sock] ∧ s.connectChannel = some sock
  accounts : ∀ sock, s.closed.count sock + s.handed.count sock +
    (if sockfd = sock then 1 else 0) = if sock < s.sockets then 1 else 0

theorem InHand.closed {sockfd : Nat} (inHand : InHand s sockfd) :
    Sound { s with state := .kDisconnected, closed := s.closed ++ [sockfd] } := by
  have noStart : ConnectorFunctor.startInLoop ∉ s.functors := List.count_eq_zero.mp inHand.unposted
  refine ⟨inHand.faults, ?_, fun mem => absurd mem noStart, (fun connecting => by cases connecting),
    inHand.watched, ?_, fun t mem => ?_, ?_, fun sock => ?_⟩
  · simp [inHand.unposted, inHand.timers]
  · simpa using inHand.resets
  · rw [inHand.timers] at mem
    cases mem
  · rcases inHand.active with none | ⟨sock, waits, here⟩
    · exact .inl none
    · exact .inr ⟨sock, waits, here, by simp⟩
  · have counted := inHand.accounts sock
    rw [Nat.add_right_comm] at counted
    simpa [Holds, List.count_append, List.count_singleton] using counted

theorem InHand.retry {sockfd : Nat} (inHand : InHand s sockfd) : Sound (s.retry sockfd) := by
  have closed := inHand.closed
  rw [retry_eq, inHand.timers, List.nil_append]
  refine ⟨closed.faults, ?_, closed.posted, closed.held, closed.watched, closed.resets,
    fun t mem i slot => ?_, closed.active, closed.accounts⟩
  · cases s.connected <;> simp [inHand.unposted]
  · -- the timer is set after all that is posted
    split at mem
    · have bound := (List.getElem?_eq_some_iff.mp slot).1
      rw [List.mem_singleton.mp mem]
      exact Nat.add_lt_add_left bound s.ran
    · cases mem

theorem InHand.handed {sockfd : Nat} (inHand : InHand s sockfd) (quiet : s.active = []) :
    Sound { s with state := .kConnected, handed := s.handed ++ [sockfd] } := by
  have noStart : ConnectorFunctor.startInLoop ∉ s.functors := List.count_eq_zero.mp inHand.unposted
  refine ⟨inHand.faults, ?_, fun mem => absurd mem noStart, (fun connecting => by cases connecting),
    inHand.watched, ?_, fun t mem => ?_, .inl quiet, fun sock => ?_⟩
  · simp [inHand.unposted, inHand.timers]
  · simpa using inHand.resets
  · rw [inHand.timers] at mem
    cases mem
  · have counted := inHand.accounts sock
    rw [Nat.add_assoc] at counted
    simpa [Holds, List.count_append, List.count_singleton] using counted

/-- A socket has just been created. -/
theorem Free.inHand (free : s.Free) (sound : Sound s) :
    InHand { s with sockets := s.sockets + 1 } s.sockets := by
  refine ⟨sound.faults, List.count_eq_zero.mpr free.unposted, free.timers, sound.watched_free free,
    ?_, ?_, fun sock => accounts_succ (sound.accounts_free free sock)⟩
  · simpa [free.state] using sound.resets
  · rcases sound.active with none | ⟨sock, waits, here, -⟩
    · exact .inl none
    · exact .inr ⟨sock, waits, here⟩

/-- The socket that a connecting connector holds, alone with the poller. -/
theorem Sound.connecting (sound : Sound s) (connecting : s.state = .kConnecting) :
    ∃ sockfd, s.connectChannel = some sockfd ∧ s.watched = [sockfd] ∧
      s.functors.count .resetChannel = 0 ∧ s.functors.count .startInLoop = 0 ∧ s.timers = [] := by
  obtain ⟨sockfd, here⟩ := Option.ne_none_iff_exists'.mp (sound.held connecting)
  have token := sound.token
  rw [connecting, if_neg (by decide)] at token
  refine ⟨sockfd, here, ?_, ?_, by omega, List.length_eq_zero_iff.mp (by omega)⟩
  · rw [sound.watched, if_pos connecting, here]
    rfl
  · rw [sound.resets, if_pos (.inl connecting)]

/-- The channel has just been removed. -/
theorem removed_inHand (sound : Sound s) (connecting : s.state = .kConnecting) {sockfd : Nat}
    (here : s.connectChannel = some sockfd) (state : ConnectorState) :
    InHand ({ s with state := state, watched := s.watched.erase sockfd }.postFuntor .resetChannel)
      sockfd := by
  obtain ⟨_, same, watched, noReset, noStart, timers⟩ := sound.connecting connecting
  rw [here] at same
  cases same
  refine ⟨sound.faults, ?_, timers, ?_, ?_, ?_, fun sock => ?_⟩
  · simp [postFuntor, List.count_append, noStart]
  · simp [postFuntor, watched]
  · simp [postFuntor, here, noReset, List.count_append]
  · rcases sound.active with none | ⟨sock, waits, its, -⟩
    · exact .inl none
    · exact .inr ⟨sock, waits, its⟩
  · have counted := sound.accounts sock
    simpa [postFuntor, Holds, connecting, here] using counted

theorem connect_cases (s : Connector) (savedError : ConnectErrno) :
    (savedError.connects = true ∧
      s.connect savedError = { s with sockets := s.sockets + 1 }.connecting s.sockets) ∨
    (savedError.connects = false ∧
      (s.connect savedError = { s with sockets := s.sockets + 1 }.retry s.sockets ∨
        s.connect savedError = { s with sockets := s.sockets + 1 }.close s.sockets)) := by
  cases savedError <;> simp [ConnectErrno.connects, connect]

theorem connect_sound (sound : Sound s) (free : s.Free) {savedError : ConnectErrno}
    (room : savedError.connects = true → s.connectChannel = none) :
    Sound (s.connect savedError) := by
  obtain ⟨connects, same⟩ | ⟨-, same | same⟩ := connect_cases s savedError
  · rw [same]
    exact connecting_sound sound free (room connects)
  · rw [same]
    exact (free.inHand sound).retry
  · have closed := (free.inHand sound).closed
    rw [same]
    rwa [← free.state] at closed

theorem startInLoop_sound (sound : Sound s) (free : s.Free) {attempt : Attempt}
    (room : attempt.savedError.connects = true → s.connectChannel = none) :
    Sound (s.startInLoop attempt) := by
  have same : s.startInLoop attempt =
      if s.connected then { s with connected := !attempt.stopped }.connect attempt.savedError
      else s := by
    simp [startInLoop, Connector.check, free.state]
  rw [same]
  split
  · exact connect_sound (sound.flags (!attempt.stopped) s.started s.stopRan s.retryDelayMs)
      ⟨free.state, free.unposted, free.timers⟩ room
  · exact sound

/-- An attempt that is over is forgotten. -/
theorem Sound.disconnected (sound : Sound s) (ended : s.state ≠ .kConnecting) :
    Sound { s with state := .kDisconnected } := by
  refine ⟨sound.faults, ?_, sound.posted, (fun connecting => by cases connecting), ?_, ?_,
    sound.order, ?_, fun sock => ?_⟩
  · have token := sound.token
    simp only [if_true]
    omega
  · simpa [ended] using sound.watched
  · simpa [ended] using sound.resets
  · rcases sound.active with none | ⟨sock, waits, here, -⟩
    · exact .inl none
    · exact .inr ⟨sock, waits, here, by simp⟩
  · simpa [Holds, ended] using sound.accounts sock

theorem restart_sound (sound : Sound s) (ended : s.state ≠ .kConnecting)
    (unposted : .startInLoop ∉ s.functors) (timers : s.timers = []) {attempt : Attempt}
    (room : attempt.savedError.connects = true → s.connectChannel = none) :
    Sound (s.restart attempt) :=
  startInLoop_sound
    ((sound.disconnected ended).flags true s.started s.stopRan kInitRetryDelayMs)
    ⟨rfl, unposted, timers⟩ room

theorem handleError_sound (sound : Sound s) : Sound s.handleError := by
  unfold handleError
  split
  · rename_i connecting
    obtain ⟨sockfd, here, -⟩ := sound.connecting connecting
    simp only [removeAndResetChannel, here, Option.map_some]
    have inHand := removed_inHand sound connecting here s.state
    rw [here] at inHand
    exact inHand.retry
  · exact sound

theorem handleWrite_sound (sound : Sound s) (quiet : s.active = [])
    (pending : s.state ≠ .kConnected) {answer : Answer}
    (apart : ∀ attempt, answer.restart = some attempt → attempt.savedError.connects = false) :
    Sound (s.handleWrite answer) := by
  unfold handleWrite
  split
  · rename_i connecting
    obtain ⟨sockfd, here, -, -, noStart, timers⟩ := sound.connecting connecting
    have inHand := removed_inHand sound connecting here s.state
    rw [here] at inHand
    simp only [removeAndResetChannel, here, Option.map_some]
    split
    · exact inHand.retry
    · split
      · exact inHand.retry
      · split
        · have handed := inHand.handed quiet
          cases again : answer.restart with
          | none => exact handed
          | some attempt =>
            have fails := apart attempt again
            refine restart_sound handed (by simp) ?_ timers fun connects => ?_
            · simpa [postFuntor] using List.count_eq_zero.mp noStart
            · rw [fails] at connects
              cases connects
        · exact inHand.closed
  · rename_i ended
    refine sound.check fun _ => ?_
    cases state : s.state with
    | kDisconnected => rfl
    | kConnecting => exact absurd state ended
    | kConnected => exact absurd state pending

theorem stopInLoop_sound (sound : Sound s) : Sound s.stopInLoop := by
  have flagged := sound.flags s.connected s.started true s.retryDelayMs
  unfold stopInLoop
  simp only
  split
  · rename_i connecting
    obtain ⟨sockfd, here, -⟩ := flagged.connecting connecting
    have here : s.connectChannel = some sockfd := here
    have inHand := removed_inHand flagged connecting here .kDisconnected
    simp only [removeAndResetChannel, here, Option.map_some]
    rw [here] at inHand
    exact inHand.retry
  · exact flagged

/-- An event is dispatched to both handlers at most, to the error handler first. -/
theorem handlers_eq (sock : Int) (revents : BitVec 32) :
    ((Channel.new sock [.write, .error]).set_revents revents).handleEventWithGuard =
      (if anyBit (revents &&& (POLLERR ||| POLLNVAL)) then [Handler.error] else []) ++
        if anyBit (revents &&& POLLOUT) then [Handler.write] else [] := by
  have all (hangs fails reads writes : Bool) :
      ((if hangs then [Handler.close] else []) ++ (if fails then [Handler.error] else []) ++
        (if reads then [Handler.read] else []) ++ if writes then [Handler.write] else []).filter
          (· ∈ [Handler.write, .error]) =
      (if fails then [Handler.error] else []) ++ if writes then [Handler.write] else [] := by
    cases hangs <;> cases fails <;> cases reads <;> cases writes <;> rfl
  exact all _ _ _ _

theorem handleError_quiet (s : Connector) (pending : s.state ≠ .kConnected) :
    s.handleError.active = s.active ∧ s.handleError.state ≠ .kConnected := by
  unfold handleError removeAndResetChannel
  split
  · cases s.connectChannel with
    | none => exact ⟨rfl, pending⟩
    | some sock =>
      simp only [Option.map_some, retry_eq]
      exact ⟨rfl, (fun connected => by cases connected)⟩
  · exact ⟨rfl, pending⟩

theorem handleEvent_sound (sound : Sound s) (quiet : s.active = []) {sock : Nat}
    (here : s.connectChannel = some sock) (pending : s.state ≠ .kConnected) (revents : BitVec 32)
    {answer : Answer}
    (apart : ∀ attempt, answer.restart = some attempt → attempt.savedError.connects = false) :
    Sound (s.handleEvent sock revents answer) := by
  have same : s.check .eventDestroyed (s.connectChannel == some sock) = s := by
    simp [Connector.check, here]
  -- the error handler leaves nothing to the write handler
  have write {t : Connector} (sound : Sound t) (quiet : t.active = [])
      (pending : t.state ≠ .kConnected) :
      Sound ((if anyBit (revents &&& POLLOUT) then [Handler.write] else []).foldl (handle answer)
        t) := by
    split
    · exact handleWrite_sound sound quiet pending apart
    · exact sound
  rw [handleEvent, same, handlers_eq, List.foldl_append]
  split
  · obtain ⟨active, still⟩ := handleError_quiet s pending
    exact write (handleError_sound sound) (active.trans quiet) still
  · exact write sound quiet pending

/-- A functor other than the reset is taken from the queue. -/
theorem Sound.popped (sound : Sound s) {functor : ConnectorFunctor}
    {rest : List ConnectorFunctor} (queue : s.functors = functor :: rest)
    (other : functor ≠ .resetChannel) : Sound { s with functors := rest, ran := s.ran + 1 } := by
  have token := sound.token
  have resets := sound.resets
  rw [queue, List.count_cons] at token
  rw [queue, List.count_cons_of_ne other] at resets
  refine ⟨sound.faults, by simp only; omega, fun mem => sound.posted ?_, sound.held, sound.watched,
    resets, fun t mem i slot => ?_, sound.active, sound.accounts⟩
  · rw [queue]
    exact List.mem_cons_of_mem _ mem
  · have before := sound.order t mem (i + 1) (by rw [queue]; exact slot)
    simp only
    omega

/-- The posted start finds everything ready for it. -/
theorem Sound.start_free (sound : Sound s) {rest : List ConnectorFunctor}
    (queue : s.functors = .startInLoop :: rest) :
    Free { s with functors := rest, ran := s.ran + 1 } ∧ s.connectChannel = none := by
  have token := sound.token
  rw [queue, List.count_cons_self] at token
  have counted : rest.count .startInLoop = 0 ∧ s.timers.length = 0 ∧
      s.state = .kDisconnected := by
    split at token
    · rename_i state
      exact ⟨by omega, by omega, state⟩
    · omega
  refine ⟨⟨counted.2.2, List.count_eq_zero.mp counted.1,
    List.length_eq_zero_iff.mp counted.2.1⟩, sound.posted ?_⟩
  rw [queue]
  exact List.mem_cons_self

/-- The posted reset destroys a channel that has been removed. -/
theorem Sound.reset (sound : Sound s) (quiet : s.active = []) {rest : List ConnectorFunctor}
    (queue : s.functors = .resetChannel :: rest) :
    Sound { s with functors := rest, ran := s.ran + 1 }.resetChannel := by
  have resets := sound.resets
  rw [queue, List.count_cons_self] at resets
  split at resets
  · omega
  · rename_i left
    obtain ⟨ended, -⟩ := not_or.mp left
    have unregistered : s.watched = [] := by rw [sound.watched, if_neg ended]
    have same : { s with functors := rest, ran := s.ran + 1 }.resetChannel =
        { s with functors := rest, ran := s.ran + 1, connectChannel := none } := by
      cases s.connectChannel <;> simp [resetChannel, Connector.check, unregistered]
    have token := sound.token
    rw [queue, List.count_cons_of_ne (by decide)] at token
    rw [same]
    refine ⟨sound.faults, token, fun _ => rfl, fun connecting => absurd connecting ended,
      by simpa [ended] using unregistered, by simpa using resets, fun t mem i slot => ?_,
      .inl quiet, fun sock => by simpa [Holds, ended] using sound.accounts sock⟩
    have before := sound.order t mem (i + 1) (by rw [queue]; exact slot)
    simp only
    omega

end Sound

/-- The step does not begin an attempt over an earlier one: no start or restart while an
attempt is posted, waits for its timer or is under way, nothing that gets as far as
`connecting()` while the last channel's reset is pending, and a timer fires after the
functors that were posted before it. -/
def Apart (s : Connector) : Act → Prop
  | .start inLoop attempt => s.Free ∧
    ((inLoop = true → attempt.savedError.connects = true) → .resetChannel ∉ s.functors)
  | .restart attempt => s.state ≠ .kConnecting ∧ .startInLoop ∉ s.functors ∧ s.timers = [] ∧
    (attempt.savedError.connects = true → .resetChannel ∉ s.functors)
  | .event _ answer =>
    ∀ attempt, answer.restart = some attempt → attempt.savedError.connects = false
  | .timer i _ => ∀ posted, s.timers[i]? = some posted → posted ≤ s.ran
  | _ => True

section Step
variable {s t : Connector}

/-- A channel that is left has its reset pending. -/
theorem Sound.empty_of_reset (sound : Sound s) (ended : s.state ≠ .kConnecting)
    (ran : .resetChannel ∉ s.functors) : s.connectChannel = none := by
  have resets := sound.resets
  rw [List.count_eq_zero.mpr ran] at resets
  split at resets
  · rename_i either
    exact either.resolve_left ended
  · cases resets

theorem timer_sound (sound : Sound s) {i : Nat} (pending : i < s.timers.length)
    (ordered : ∀ posted, s.timers[i]? = some posted → posted ≤ s.ran) (attempt : Attempt) :
    Sound ({ s with timers := s.timers.eraseIdx i }.startInLoop attempt) := by
  have token := sound.token
  have shape : s.timers.length = 1 ∧ s.functors.count .startInLoop = 0 ∧
      s.state = .kDisconnected := by
    split at token
    · rename_i state
      exact ⟨by omega, by omega, state⟩
    · omega
  obtain ⟨one, noStart, state⟩ := shape
  obtain ⟨posted, timers⟩ := List.length_eq_one_iff.mp one
  have first : i = 0 := by omega
  subst first
  have bound := ordered posted (by rw [timers]; rfl)
  -- a reset that was still pending would stand before the timer
  have noReset : .resetChannel ∉ s.functors := by
    intro mem
    obtain ⟨j, slot⟩ := List.mem_iff_getElem?.mp mem
    have := sound.order posted (by rw [timers]; exact List.mem_cons_self) j slot
    omega
  have empty := sound.empty_of_reset (by rw [state]; decide) noReset
  have none : s.timers.eraseIdx 0 = [] := by rw [timers]; rfl
  rw [none]
  have idle : Sound { s with timers := [] } :=
    ⟨sound.faults, by simp [noStart, state], sound.posted, sound.held, sound.watched, sound.resets,
      (fun t mem => by cases mem), sound.active, sound.accounts⟩
  exact startInLoop_sound idle ⟨state, List.count_eq_zero.mp noStart, rfl⟩ fun _ => empty

theorem poll_sound (sound : Sound s) {ready : List Nat} (nodup : ready.Nodup)
    (among : ∀ sock ∈ ready, sock ∈ s.watched) : Sound { s with active := ready } := by
  refine ⟨sound.faults, sound.token, sound.posted, sound.held, sound.watched, sound.resets,
    sound.order, ?_, sound.accounts⟩
  by_cases connecting : s.state = .kConnecting
  · obtain ⟨sockfd, here, watched, -⟩ := sound.connecting connecting
    rw [watched] at among
    match ready, nodup, among with
    | [], _, _ => exact .inl rfl
    | [sock], _, among =>
      have same := List.mem_singleton.mp (among sock List.mem_cons_self)
      subst same
      exact .inr ⟨sock, rfl, here, by rw [connecting]; decide⟩
    | a :: b :: _, nodup, among =>
      have first := List.mem_singleton.mp (among a List.mem_cons_self)
      have second := List.mem_singleton.mp
        (among b (List.mem_cons_of_mem a List.mem_cons_self))
      rw [List.nodup_cons] at nodup
      exact absurd (by rw [first, second]; exact List.mem_cons_self) nodup.1
  · have none : s.watched = [] := by rw [sound.watched, if_neg connecting]
    rw [none] at among
    exact .inl (List.eq_nil_iff_forall_not_mem.mpr fun sock mem =>
      List.not_mem_nil (among sock mem))

theorem post_sound (sound : Sound s) {functor : ConnectorFunctor}
    (other : functor ≠ .resetChannel)
    (start : functor = .startInLoop → s.Free ∧ s.connectChannel = none) :
    Sound (s.postFuntor functor) := by
  change Sound { s with functors := s.functors ++ [functor] }
  refine ⟨sound.faults, ?_, fun mem => ?_, sound.held, sound.watched, ?_, fun t mem i slot => ?_,
    sound.active, sound.accounts⟩
  · have token := sound.token
    by_cases starts : functor = .startInLoop
    · have free := (start starts).1
      simp [starts, free.state, free.timers, List.count_eq_zero.mpr free.unposted]
    · simpa [List.count_append, List.count_singleton, starts] using token
  · rcases List.mem_append.mp mem with old | last
    · exact sound.posted old
    · exact (start (List.mem_singleton.mp last).symm).2
  · simpa [List.count_append, List.count_singleton, other] using sound.resets
  · rcases Nat.lt_or_ge i s.functors.length with old | new
    · rw [List.getElem?_append_left old] at slot
      exact sound.order t mem i slot
    · rw [List.getElem?_append_right new] at slot
      have last := List.mem_of_getElem? slot
      exact absurd (List.mem_singleton.mp last).symm other

theorem step_sound (sound : Sound s) {a : Act} (apart : s.Apart a) (next : s.step a = some t) :
    Sound t := by
  cases a with
  | start inLoop attempt =>
    cases next
    obtain ⟨free, room⟩ := apart
    have started := sound.flags true true s.stopRan s.retryDelayMs
    have ended : s.state ≠ .kConnecting := by rw [free.state]; decide
    cases inLoop with
    | true =>
      exact startInLoop_sound started ⟨free.state, free.unposted, free.timers⟩ fun connects =>
        sound.empty_of_reset ended (room fun _ => connects)
    | false =>
      exact post_sound started (by decide) fun _ =>
        ⟨⟨free.state, free.unposted, free.timers⟩,
          sound.empty_of_reset ended (room fun inLoop => by cases inLoop)⟩
  | stop =>
    cases next
    exact stopInLoop_sound (sound.flags false false s.stopRan s.retryDelayMs)
  | stopping =>
    cases next
    exact sound.flags false false s.stopRan s.retryDelayMs
  | stopPosted =>
    simp only [step] at next
    split at next
    · cases next
    · cases next
      exact post_sound sound (by decide) (fun start => by cases start)
  | restart attempt =>
    cases next
    obtain ⟨ended, unposted, timers, room⟩ := apart
    exact restart_sound sound ended unposted timers fun connects =>
      sound.empty_of_reset ended (room connects)
  | poll ready =>
    obtain ⟨⟨-, nodup, among⟩, ⟨⟩⟩ := Option.ite_none_right_eq_some.mp next
    exact poll_sound sound nodup among
  | event revents answer =>
    simp only [step] at next
    split at next
    · cases next
    · rename_i sock rest queue
      cases next
      rcases sound.active with none | ⟨_, waits, here, pending⟩
      · rw [queue] at none
        cases none
      · rw [queue] at waits
        cases waits
        have popped : Sound { s with active := [] } :=
          ⟨sound.faults, sound.token, sound.posted, sound.held, sound.watched, sound.resets,
            sound.order, .inl rfl, sound.accounts⟩
        exact handleEvent_sound popped rfl here pending revents apart
  | timer i attempt =>
    obtain ⟨pending, ⟨⟩⟩ := Option.ite_none_right_eq_some.mp next
    exact timer_sound sound pending apart attempt
  | functor attempt =>
    obtain ⟨quiet, ran⟩ := Option.ite_none_right_eq_some.mp next
    split at ran
    · cases ran
    · rename_i functor rest queue
      cases ran
      cases functor with
      | startInLoop =>
        obtain ⟨free, empty⟩ := sound.start_free queue
        exact startInLoop_sound (sound.popped queue (by decide)) free fun _ => empty
      | stopInLoop => exact stopInLoop_sound (sound.popped queue (by decide))
      | resetChannel => exact sound.reset quiet queue

end Step

end Connector

end Arale
