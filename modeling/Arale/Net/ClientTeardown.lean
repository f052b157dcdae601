import Arale.Net.TcpConnection

/-!
# A client that goes with its connection

`~TcpClient` on a thread of its own, with a connection nobody else holds, against the
loop that drains its functors. The connection is shared: `connection_`, the destructor's
copy of it and the functors bound with a copy own it; the functors of one batch go when
the local vector of `doPendingFunctors` does. `forceCloseInLoop` is bound by a plain
pointer. Functors of other objects are all alike here, and nothing arrives on the socket.
-/

namespace Arale

inductive ClientFunctor where
  | setCloseCallback
  | forceCloseInLoop
  | connectionDestroyed
  /-- of another object -/
  | other
  deriving DecidableEq, Repr

/-- The functor was bound with a copy of the connection's pointer. -/
def ClientFunctor.owns : ClientFunctor → Bool
  | .setCloseCallback => true
  | .forceCloseInLoop => false
  | .connectionDestroyed => true
  | .other => false

def ClientFunctor.isOther : ClientFunctor → Bool
  | .other => true
  | _ => false

/-- The two functions `closeCallback_` may hold. -/
inductive ClientCloseCallback where
  | removeConnection
  | removeTcpConnection
  deriving DecidableEq, Repr

/-- How far `~TcpClient` has got. -/
inductive DestructorStage where
  | outside
  /-- `conn` is a copy of `connection_` -/
  | copied
  /-- `setCloseCallback` is posted -/
  | posted
  /-- `forceClose` has set `kDisconnecting` -/
  | marked
  /-- and posted `forceCloseInLoop` -/
  | forced
  /-- `conn` is gone -/
  | left
  /-- `connection_` is gone -/
  | gone
  deriving DecidableEq, Repr

/-- Nothing has been posted. -/
def DestructorStage.early : DestructorStage → Bool
  | .outside | .copied => true
  | _ => false

/-- `setCloseCallback` has been posted and `forceCloseInLoop` has not. -/
def DestructorStage.between : DestructorStage → Bool
  | .posted | .marked => true
  | _ => false

/-- Both have been posted. -/
def DestructorStage.late : DestructorStage → Bool
  | .forced | .left | .gone => true
  | _ => false

theorem DestructorStage.late_only {stage : DestructorStage} (late : stage.late = true) :
    stage ≠ .outside ∧ stage.early = false ∧ stage.between = false := by
  cases stage with
  | forced | left | gone => decide
  | outside | copied | posted | marked => cases late

theorem DestructorStage.late_not_between {stage : DestructorStage} (late : stage.late = true)
    (between : stage.between = true) : False := by
  rw [(DestructorStage.late_only late).2.2] at between
  cases between

structure ClientTeardown where
  loop : EventLoop ClientFunctor
  conn : TcpConnection
  closeCallback : ClientCloseCallback
  stage : DestructorStage
  unique : Bool
  /-- `connection_` holds the connection -/
  connection : Bool
  /-- the destructor's `conn` holds it -/
  copy : Bool
  /-- the local vector of `doPendingFunctors`, with the functors that have been run -/
  vector : List ClientFunctor
  /-- the connection has been destroyed -/
  freed : Bool
  /-- functors that ran on the connection after that -/
  strays : List ClientFunctor

namespace ClientTeardown

def start (sockfd : Int) (options : ConnOptions) : ClientTeardown where
  loop := .new
  conn := .established .new sockfd options
  closeCallback := .removeConnection
  stage := .outside
  unique := false
  connection := true
  copy := false
  vector := []
  freed := false
  strays := []

def owners (s : ClientTeardown) : Nat :=
  s.connection.toNat + s.copy.toNat +
    (s.loop.pendingFunctors ++ s.vector).countP ClientFunctor.owns

/-- The last owner destroys the connection. -/
def settle (s : ClientTeardown) : ClientTeardown :=
  if s.owners = 0 then { s with freed := true } else s

def onLoop (s : ClientTeardown) (a : EventLoop.Act ClientFunctor) : Option ClientTeardown :=
  (s.loop.step a).map fun loop => { s with loop := loop }

/-- The next statement of `~TcpClient`. -/
def destructor (s : ClientTeardown) : Option ClientTeardown :=
  match s.stage with
  | .outside => some { s with unique := s.owners == 1, copy := true, stage := .copied }
  | .copied => { s with stage := .posted }.onLoop (.otherPushes .setCloseCallback)
  | .posted =>
    if s.unique && s.conn.isOpen then
      some { s with conn := s.conn.setState .kDisconnecting, stage := .marked }
    else some { s with stage := .forced }
  | .marked => { s with stage := .forced }.onLoop (.otherPushes .forceCloseInLoop)
  | .forced => some { s with copy := false, stage := .left }
  | .left => some { s with connection := false, stage := .gone }
  | .gone => none

/-- `closeCallback_(shared_from_this())`. Both functions post `connectionDestroyed` with a
copy of the pointer. -/
def callCloseCallback (s : ClientTeardown) : ClientTeardown :=
  let s := { s with loop := s.loop.postFuntor true .connectionDestroyed }
  match s.closeCallback with
  | .removeConnection => { s with connection := false }
  | .removeTcpConnection => s

def execute (s : ClientTeardown) (functor : ClientFunctor) : ClientTeardown :=
  if s.freed && !functor.isOther then { s with strays := s.strays ++ [functor] }
  else match functor with
    | .setCloseCallback => { s with closeCallback := .removeTcpConnection }
    | .forceCloseInLoop => { s with conn := s.conn.forceCloseInLoop }.callCloseCallback
    | .connectionDestroyed => { s with conn := s.conn.connectionDestroyed }
    | .other => s

inductive Act where
  /-- the destructor's thread -/
  | destructor
  /-- the loop thread moves on, or somebody posts a functor of another object -/
  | advance (a : EventLoop.Act ClientFunctor)
  /-- the next functor of the local vector -/
  | runFunctor

def mayAdvance : EventLoop.Act ClientFunctor → Bool
  | .runFunctor => false
  | a => a.posts.all ClientFunctor.isOther

/-- The local vector of `doPendingFunctors` after an action of the loop. -/
def scope (s : ClientTeardown) : EventLoop.Act ClientFunctor → List ClientFunctor
  | .swap => s.loop.pendingFunctors
  | .testQuit => []
  | _ => s.vector

def step (s : ClientTeardown) : Act → Option ClientTeardown
  | .destructor => s.destructor.map settle
  | .advance a =>
    if mayAdvance a then ({ s with vector := s.scope a }.onLoop a).map settle else none
  | .runFunctor =>
    match s.loop.functors with
    | [] => none
    | functor :: _ => (s.onLoop .runFunctor).map fun s => (s.execute functor).settle

/-- No functor of the connection runs without an owner, and the connection is destroyed
closed, after `handleClose` and `connectionDestroyed`. -/
structure ClosedFirst (s : ClientTeardown) : Prop where
  strays : s.strays = []
  state : s.freed = true → s.conn.state = .kDisconnected
  handleClose : s.freed = true → .closeCallback ∈ s.conn.notices
  connectionDestroyed : s.freed = true → ∃ noneEvent, .removeChannel noneEvent ∈ s.conn.notices

/-- `forceCloseInLoop`, if it has not run, goes with the `setCloseCallback` posted before. -/
def Together (s : ClientTeardown) : Prop :=
  (.forceCloseInLoop ∈ s.loop.pendingFunctors → .setCloseCallback ∈ s.loop.pendingFunctors) ∧
    (.forceCloseInLoop ∈ s.loop.functors → .setCloseCallback ∈ s.vector)

/-- The destructor's last reference goes when nothing but the batch is needed. -/
def LeftTogether (s : ClientTeardown) : Act → Prop
  | .destructor => s.stage = .left → Together s
  | _ => True

/-! ## The order of the functors -/

/-- The functors of the connection that have not run, in order. -/
def waiting (s : ClientTeardown) : List ClientFunctor := s.loop.queue.filter fun f => !f.isOther

/-- What has come of the forced close. -/
inductive Closing (s : ClientTeardown) : Prop where
  | forced (queue : s.waiting = [.setCloseCallback, .forceCloseInLoop] ∨
        (s.waiting = [.forceCloseInLoop] ∧ s.closeCallback = .removeTcpConnection))
      (together : s.stage = .gone → Together s)
  | closed (queue : s.waiting = [.connectionDestroyed]) (state : s.conn.state = .kDisconnected)
      (handleClose : .closeCallback ∈ s.conn.notices)
  | destroyed (queue : s.waiting = []) (state : s.conn.state = .kDisconnected)
      (handleClose : .closeCallback ∈ s.conn.notices)
      (removed : ∃ noneEvent, .removeChannel noneEvent ∈ s.conn.notices)

/-- The functors of the connection come in a fixed order, whatever the loop does. -/
structure Sound (s : ClientTeardown) : Prop where
  queued : s.loop.Queued
  inside : ∀ f ∈ s.loop.functors, f ∈ s.vector
  strays : s.strays = []
  connection : s.connection = true ↔ s.stage ≠ .gone
  alone : s.stage = .outside → s.copy = false ∧
    ∀ f ∈ s.loop.pendingFunctors ++ s.vector, f.owns = false
  unique : s.stage ≠ .outside → s.unique = true
  early : s.stage.early = true → s.waiting = [] ∧ s.conn.isOpen = true
  between : s.stage.between = true → (s.waiting = [.setCloseCallback] ∨
    (s.waiting = [] ∧ s.closeCallback = .removeTcpConnection)) ∧ s.conn.isOpen = true
  late : s.stage.late = true → Closing s
  freed : s.freed = true → s.stage = .gone ∧ s.waiting = []

theorem start_sound (sockfd : Int) (options : ConnOptions) : Sound (start sockfd options) where
  queued := EventLoop.new_queued
  inside := fun f mem => by cases mem
  strays := rfl
  connection := ⟨(fun _ gone => by cases gone), fun _ => rfl⟩
  alone := fun _ => ⟨rfl, fun f mem => by cases mem⟩
  unique := fun later => absurd rfl later
  early := fun _ => ⟨rfl, rfl⟩
  between := fun other => by cases other
  late := fun other => by cases other
  freed := fun freed => by cases freed

section Owners
variable {s t : ClientTeardown}

theorem owners_pos {f : ClientFunctor} (mem : f ∈ s.loop.pendingFunctors ++ s.vector)
    (owns : f.owns = true) : s.owners ≠ 0 := by
  have counted := List.countP_pos_iff.mpr ⟨f, mem, owns⟩
  unfold owners
  omega

/-- What waits in the queue waits in one of the two lists. -/
theorem place_of_waiting {f : ClientFunctor} (waits : f ∈ s.waiting) :
    f ∈ s.loop.functors ∨ f ∈ s.loop.pendingFunctors :=
  List.mem_append.mp (List.mem_filter.mp waits).1

/-- Without an owner there is nothing left to run. -/
theorem finished_of_unowned (sound : Sound s) (unowned : s.owners = 0) :
    s.stage = .gone ∧ s.waiting = [] := by
  have gone : s.stage = .gone := by
    by_contra here
    have holds := sound.connection.mpr here
    simp [owners, holds] at unowned
  refine ⟨gone, ?_⟩
  cases sound.late (by rw [gone]; rfl) with
  | forced queue together =>
    -- the batch of `forceCloseInLoop` owns the connection
    have waits : .forceCloseInLoop ∈ s.waiting := by
      rcases queue with both | ⟨one, -⟩
      · rw [both]
        exact List.mem_cons_of_mem _ List.mem_cons_self
      · rw [one]
        exact List.mem_cons_self
    have owner : .setCloseCallback ∈ s.loop.pendingFunctors ++ s.vector := by
      rcases place_of_waiting waits with running | pending
      · exact List.mem_append_right _ ((together gone).2 running)
      · exact List.mem_append_left _ ((together gone).1 pending)
    exact absurd unowned (owners_pos owner rfl)
  | closed queue =>
    have waits : .connectionDestroyed ∈ s.waiting := by
      rw [queue]
      exact List.mem_cons_self
    have owner : .connectionDestroyed ∈ s.loop.pendingFunctors ++ s.vector := by
      rcases place_of_waiting waits with running | pending
      · exact List.mem_append_right _ (sound.inside _ running)
      · exact List.mem_append_left _ pending
    exact absurd unowned (owners_pos owner rfl)
  | destroyed queue => exact queue

theorem settle_sound (sound : Sound s) : Sound s.settle := by
  unfold settle
  split
  · rename_i unowned
    have finished := finished_of_unowned sound unowned
    refine ⟨sound.queued, sound.inside, sound.strays, sound.connection, sound.alone, sound.unique,
      sound.early, sound.between, fun late => ?_, fun _ => finished⟩
    cases sound.late late with
    | forced queue together => exact .forced queue together
    | closed queue state handleClose => exact .closed queue state handleClose
    | destroyed queue state handleClose removed =>
      exact .destroyed queue state handleClose removed
  · exact sound

theorem closedFirst_of_sound (sound : Sound s) : ClosedFirst s := by
  have finished (freed : s.freed = true) : s.conn.state = .kDisconnected ∧
      .closeCallback ∈ s.conn.notices ∧ ∃ noneEvent, .removeChannel noneEvent ∈ s.conn.notices := by
    obtain ⟨gone, empty⟩ := sound.freed freed
    cases sound.late (by rw [gone]; rfl) with
    | forced queue =>
      rw [empty] at queue
      rcases queue with both | ⟨one, -⟩
      · cases both
      · cases one
    | closed queue =>
      rw [empty] at queue
      cases queue
    | destroyed _ state handleClose removed => exact ⟨state, handleClose, removed⟩
  exact ⟨sound.strays, fun freed => (finished freed).1, fun freed => (finished freed).2.1,
    fun freed => (finished freed).2.2⟩

/-- The destructor's thread owns the connection up to its end. -/
theorem unfreed (sound : Sound s) (here : s.stage ≠ .gone) : s.freed = false :=
  Bool.eq_false_iff.mpr fun freed => here (sound.freed freed).1

end Owners

/-! ## The destructor -/

section Destructor
variable {s t : ClientTeardown}

/-- A functor posted by the destructor's thread. -/
theorem push_waiting {functor : ClientFunctor}
    (next : s.onLoop (.otherPushes functor) = some t) (queued : s.loop.Queued)
    (mine : functor.isOther = false) :
    ∃ loop, t = { s with loop := loop } ∧ loop.Queued ∧ loop.functors = s.loop.functors ∧
      t.waiting = s.waiting ++ [functor] := by
  obtain ⟨loop, stepped, rfl⟩ := Option.map_eq_some_iff.mp next
  refine ⟨loop, rfl, EventLoop.step_queued queued stepped,
    (EventLoop.step_lists (by simp) (by simp) stepped).1, ?_⟩
  have queue := EventLoop.step_queue_of_posts rfl stepped
  simp only [waiting, queue, List.filter_append]
  simp [mine]

/-- `conn = connection_`. -/
theorem copied_sound (sound : Sound s) (stage : s.stage = .outside) :
    Sound { s with unique := s.owners == 1, copy := true, stage := .copied } := by
  obtain ⟨copy, others⟩ := sound.alone stage
  have holds : s.connection = true := sound.connection.mpr (by rw [stage]; decide)
  have none : (s.loop.pendingFunctors ++ s.vector).countP ClientFunctor.owns = 0 :=
    List.countP_eq_zero.mpr fun f mem => by simp [others f mem]
  have alone : s.owners = 1 := by simp [owners, holds, copy, none]
  have alive := unfreed sound (by rw [stage]; decide)
  exact ⟨sound.queued, sound.inside, sound.strays, ⟨(fun _ gone => by cases gone), fun _ => holds⟩,
    (fun outside => by cases outside), fun _ => by simp [alone],
    fun _ => sound.early (by rw [stage]; rfl), (fun other => by cases other),
    (fun other => by cases other), fun freed => absurd (freed.symm.trans alive) (by decide)⟩

theorem posted_sound (sound : Sound s) (stage : s.stage = .copied)
    (next : { s with stage := .posted }.onLoop (.otherPushes .setCloseCallback) = some t) :
    Sound t := by
  have holds : s.connection = true := sound.connection.mpr (by rw [stage]; decide)
  have alive := unfreed sound (by rw [stage]; decide)
  obtain ⟨empty, isOpen⟩ := sound.early (by rw [stage]; rfl)
  obtain ⟨loop, rfl, queued, functors, waits⟩ := push_waiting next sound.queued rfl
  refine ⟨queued, ?_, sound.strays, ⟨(fun _ gone => by cases gone), fun _ => holds⟩,
    (fun outside => by cases outside), fun _ => sound.unique (by rw [stage]; decide),
    (fun other => by cases other), fun _ => ⟨.inl ?_, isOpen⟩, (fun other => by cases other),
    fun freed => absurd (freed.symm.trans alive) (by decide)⟩
  · rw [functors]
    exact sound.inside
  · rw [waits]
    exact congrArg (· ++ [ClientFunctor.setCloseCallback]) empty

theorem marked_sound (sound : Sound s) (stage : s.stage = .posted) :
    Sound { s with conn := s.conn.setState .kDisconnecting, stage := .marked } := by
  have holds : s.connection = true := sound.connection.mpr (by rw [stage]; decide)
  have alive := unfreed sound (by rw [stage]; decide)
  exact ⟨sound.queued, sound.inside, sound.strays, ⟨(fun _ gone => by cases gone), fun _ => holds⟩,
    (fun outside => by cases outside), fun _ => sound.unique (by rw [stage]; decide),
    (fun other => by cases other), fun _ => ⟨(sound.between (by rw [stage]; rfl)).1, rfl⟩,
    (fun other => by cases other), fun freed => absurd (freed.symm.trans alive) (by decide)⟩

theorem forced_sound (sound : Sound s) (stage : s.stage = .marked)
    (next : { s with stage := .forced }.onLoop (.otherPushes .forceCloseInLoop) = some t) :
    Sound t := by
  have holds : s.connection = true := sound.connection.mpr (by rw [stage]; decide)
  have alive := unfreed sound (by rw [stage]; decide)
  obtain ⟨queue, -⟩ := sound.between (by rw [stage]; rfl)
  obtain ⟨loop, rfl, queued, functors, waits⟩ := push_waiting next sound.queued rfl
  refine ⟨queued, ?_, sound.strays, ⟨(fun _ gone => by cases gone), fun _ => holds⟩,
    (fun outside => by cases outside), fun _ => sound.unique (by rw [stage]; decide),
    (fun other => by cases other), (fun other => by cases other),
    fun _ => .forced ?_ (fun gone => by cases gone),
    fun freed => absurd (freed.symm.trans alive) (by decide)⟩
  · rw [functors]
    exact sound.inside
  · rw [waits]
    rcases queue with one | ⟨empty, callback⟩
    · exact .inl (congrArg (· ++ [ClientFunctor.forceCloseInLoop]) one)
    · exact .inr ⟨congrArg (· ++ [ClientFunctor.forceCloseInLoop]) empty, callback⟩

/-- The destructor lets go of the connection. -/
theorem released_sound (sound : Sound s) (late : s.stage.late = true) (here : s.stage ≠ .gone)
    (stage : DestructorStage) (later : stage.late = true) (copy : Bool) {connection : Bool}
    (holds : connection = true ↔ stage ≠ .gone) (together : stage = .gone → Together s) :
    Sound { s with copy := copy, connection := connection, stage := stage } := by
  have alive := unfreed sound here
  obtain ⟨inside, notEarly, -⟩ := DestructorStage.late_only later
  refine ⟨sound.queued, sound.inside, sound.strays, holds, fun outside => absurd outside inside,
    fun _ => sound.unique (DestructorStage.late_only late).1,
    fun early => absurd (early.symm.trans notEarly) (by decide),
    fun between => (DestructorStage.late_not_between later between).elim, fun _ => ?_,
    fun freed => absurd (freed.symm.trans alive) (by decide)⟩
  cases sound.late late with
  | forced queue _ => exact .forced queue together
  | closed queue state handleClose => exact .closed queue state handleClose
  | destroyed queue state handleClose removed =>
    exact .destroyed queue state handleClose removed

theorem destructor_sound (sound : Sound s) (together : s.stage = .left → Together s)
    (next : s.destructor = some t) : Sound t := by
  unfold destructor at next
  split at next
  · rename_i stage
    cases next
    exact copied_sound sound stage
  · rename_i stage
    exact posted_sound sound stage next
  · rename_i stage
    have forces : (s.unique && s.conn.isOpen) = true := by
      rw [sound.unique (by rw [stage]; decide), (sound.between (by rw [stage]; rfl)).2]
      rfl
    rw [if_pos forces] at next
    cases next
    exact marked_sound sound stage
  · rename_i stage
    exact forced_sound sound stage next
  · rename_i stage
    have holds : s.connection = true := sound.connection.mpr (by rw [stage]; decide)
    cases next
    exact released_sound sound (by rw [stage]; rfl) (by rw [stage]; decide) DestructorStage.left rfl
      false ⟨(fun _ gone => by cases gone), fun _ => holds⟩ (fun gone => by cases gone)
  · rename_i stage
    cases next
    exact released_sound sound (by rw [stage]; rfl) (by rw [stage]; decide) DestructorStage.gone rfl
      s.copy ⟨(fun holds => by cases holds), fun here => absurd rfl here⟩ fun _ => together stage
  · cases next

end Destructor

/-! ## The loop -/

section Loop
variable {s t : ClientTeardown}

/-- The loop moves on without running a functor. -/
structure Advanced (s t : ClientTeardown) : Prop where
  queued : t.loop.Queued
  inside : ∀ f ∈ t.loop.functors, f ∈ t.vector
  waiting : t.waiting = s.waiting
  alone : (∀ f ∈ s.loop.pendingFunctors ++ s.vector, f.owns = false) →
    ∀ f ∈ t.loop.pendingFunctors ++ t.vector, f.owns = false
  together : Together s → Together t

theorem swap_advanced (sound : Sound s) {loop : EventLoop ClientFunctor}
    (stepped : s.loop.step .swap = some loop) :
    Advanced s { s with vector := s.loop.pendingFunctors, loop := loop } := by
  have queued := EventLoop.step_queued sound.queued stepped
  have same := EventLoop.step_queue_of_silent sound.queued rfl stepped
  obtain ⟨-, ⟨⟩⟩ := Option.ite_none_right_eq_some.mp stepped
  refine ⟨queued, fun f mem => mem, congrArg (List.filter _) same, fun others f mem => ?_,
    fun together => ⟨(fun mem => by cases mem), together.1⟩⟩
  exact others f (List.mem_append_left _ mem)

theorem other_advanced (sound : Sound s) {a : EventLoop.Act ClientFunctor}
    {loop : EventLoop ClientFunctor} (stepped : s.loop.step a = some loop)
    (runs : a ≠ .runFunctor) (swaps : a ≠ .swap)
    (posts : a.posts.all ClientFunctor.isOther = true) :
    Advanced s { s with vector := s.scope a, loop := loop } := by
  have other (f : ClientFunctor) (mem : f ∈ a.posts.toList) : f = .other := by
    rw [show a.posts = some f from Option.mem_toList.mp mem] at posts
    cases f with
    | other => rfl
    | setCloseCallback | forceCloseInLoop | connectionDestroyed => cases posts
  have mine : (a.posts.toList.filter fun f => !f.isOther) = [] :=
    List.filter_eq_nil_iff.mpr fun f mem => by simp [other f mem, ClientFunctor.isOther]
  -- the vector goes out of scope when all of it has run
  have scope : s.scope a = s.vector ∨ (s.scope a = [] ∧ s.loop.functors = []) := by
    cases a with
    | testQuit =>
      obtain ⟨releasing, -⟩ := Option.ite_none_right_eq_some.mp stepped
      exact .inr ⟨rfl, sound.queued.vector (by rw [releasing]; decide)⟩
    | swap => exact absurd rfl swaps
    | _ => exact .inl rfl
  have held {f g : ClientFunctor} (mem : f ∈ s.loop.functors) (here : g ∈ s.vector) :
      g ∈ s.scope a := by
    rcases scope with same | ⟨-, empty⟩
    · rwa [same]
    · rw [empty] at mem
      cases mem
  obtain ⟨functors, pending⟩ := EventLoop.step_lists runs swaps stepped
  refine ⟨EventLoop.step_queued sound.queued stepped, ?_, ?_, fun others f mem => ?_,
    fun together => ⟨fun mem => ?_, fun mem => ?_⟩⟩
  · rw [functors]
    exact fun f mem => held mem (sound.inside f mem)
  · simp only [waiting, EventLoop.queue, functors, pending, List.filter_append, mine,
      List.append_nil]
  · rcases List.mem_append.mp mem with waits | within
    · rw [pending] at waits
      rcases List.mem_append.mp waits with old | added
      · exact others f (List.mem_append_left _ old)
      · rw [other f added]
        rfl
    · refine others f (List.mem_append_right _ ?_)
      rcases scope with same | ⟨none, -⟩
      · rwa [← same]
      · rw [show s.scope a = [] from none] at within
        cases within
  · rw [pending] at mem ⊢
    rcases List.mem_append.mp mem with old | added
    · exact List.mem_append_left _ (together.1 old)
    · cases other _ added
  · rw [functors] at mem
    exact held mem (together.2 mem)

theorem Advanced.sound (sound : Sound s) {vector : List ClientFunctor}
    {loop : EventLoop ClientFunctor}
    (moved : Advanced s { s with vector := vector, loop := loop }) :
    Sound { s with vector := vector, loop := loop } := by
  refine ⟨moved.queued, moved.inside, sound.strays, sound.connection,
    fun outside => ⟨(sound.alone outside).1, moved.alone (sound.alone outside).2⟩, sound.unique,
    fun early => ?_, fun between => ?_, fun late => ?_, fun freed => ?_⟩
  · rw [moved.waiting]
    exact sound.early early
  · rw [moved.waiting]
    exact sound.between between
  · cases sound.late late with
    | forced queue together =>
      exact .forced (by rw [moved.waiting]; exact queue) fun gone => moved.together (together gone)
    | closed queue state handleClose =>
      exact .closed (moved.waiting.trans queue) state handleClose
    | destroyed queue state handleClose removed =>
      exact .destroyed (moved.waiting.trans queue) state handleClose removed
  · exact ⟨(sound.freed freed).1, moved.waiting.trans (sound.freed freed).2⟩

theorem advance_sound (sound : Sound s) {a : EventLoop.Act ClientFunctor}
    (may : mayAdvance a = true) (next : { s with vector := s.scope a }.onLoop a = some t) :
    Sound t := by
  obtain ⟨loop, stepped, rfl⟩ := Option.map_eq_some_iff.mp next
  refine Advanced.sound sound ?_
  cases a with
  | runFunctor => cases may
  | swap => exact swap_advanced sound stepped
  | _ => exact other_advanced sound stepped (by simp) (by simp) may

/-- The functor of the connection that is next, and those after it. -/
inductive Front (s : ClientTeardown) : ClientFunctor → List ClientFunctor → Prop where
  | asked (between : s.stage.between = true) (isOpen : s.conn.isOpen = true) :
      Front s .setCloseCallback []
  | asks (late : s.stage.late = true) (together : s.stage = .gone → Together s) :
      Front s .setCloseCallback [.forceCloseInLoop]
  | forces (late : s.stage.late = true) (callback : s.closeCallback = .removeTcpConnection) :
      Front s .forceCloseInLoop []
  | destroys (late : s.stage.late = true) (state : s.conn.state = .kDisconnected)
      (handleClose : .closeCallback ∈ s.conn.notices) : Front s .connectionDestroyed []

theorem front (sound : Sound s) {functor : ClientFunctor} {later : List ClientFunctor}
    (waits : s.waiting = functor :: later) : Front s functor later := by
  have notEarly (early : s.stage.early = true) : Front s functor later := by
    have none := (sound.early early).1
    rw [waits] at none
    cases none
  have asked (between : s.stage.between = true) : Front s functor later := by
    obtain ⟨queue, isOpen⟩ := sound.between between
    rw [waits] at queue
    rcases queue with one | ⟨none, -⟩
    · cases one
      exact .asked between isOpen
    · cases none
  have closing (late : s.stage.late = true) : Front s functor later := by
    cases sound.late late with
    | forced queue together =>
      rw [waits] at queue
      rcases queue with both | ⟨one, callback⟩
      · cases both
        exact .asks late together
      · cases one
        exact .forces late callback
    | closed queue state handleClose =>
      cases waits.symm.trans queue
      exact .destroys late state handleClose
    | destroyed queue => cases waits.symm.trans queue
  cases stage : s.stage with
  | outside | copied => exact notEarly (by rw [stage]; rfl)
  | posted | marked => exact asked (by rw [stage]; rfl)
  | forced | left | gone => exact closing (by rw [stage]; rfl)

/-- A functor of the connection runs: one was waiting, so the destructor has posted and
the connection is there. -/
theorem ran_sound (sound : Sound s) {functor : ClientFunctor} {later : List ClientFunctor}
    (waits : s.waiting = functor :: later) {loop : EventLoop ClientFunctor} {conn : TcpConnection}
    {closeCallback : ClientCloseCallback} (queued : loop.Queued)
    (inside : ∀ f ∈ loop.functors, f ∈ s.vector)
    (between : s.stage.between = true →
      (({ s with loop := loop, conn := conn, closeCallback := closeCallback }.waiting =
          [.setCloseCallback] ∨
        ({ s with loop := loop, conn := conn, closeCallback := closeCallback }.waiting = [] ∧
          closeCallback = .removeTcpConnection)) ∧ conn.isOpen = true))
    (late : s.stage.late = true →
      Closing { s with loop := loop, conn := conn, closeCallback := closeCallback }) :
    Sound { s with loop := loop, conn := conn, closeCallback := closeCallback } := by
  have notEarly (early : s.stage.early = true) : False := by
    have none := (sound.early early).1
    rw [waits] at none
    cases none
  refine ⟨queued, inside, sound.strays, sound.connection,
    fun outside => (notEarly (by rw [show s.stage = .outside from outside]; rfl)).elim,
    sound.unique, fun early => (notEarly early).elim, between, late, fun freed => ?_⟩
  have none := (sound.freed freed).2
  rw [waits] at none
  cases none

/-- The loop with its next functor taken from the vector. -/
def popped (l : EventLoop ClientFunctor) (functor : ClientFunctor) (rest : List ClientFunctor) :
    EventLoop ClientFunctor :=
  { l with functors := rest, executed := l.executed ++ [functor] }

section Popped
variable {functor : ClientFunctor} {rest : List ClientFunctor}

theorem waiting_popped (head : s.loop.functors = functor :: rest) (mine : functor.isOther = false) :
    s.waiting = functor :: { s with loop := popped s.loop functor rest }.waiting := by
  have queue : s.loop.queue = functor :: (popped s.loop functor rest).queue := by
    rw [EventLoop.queue, head]
    rfl
  simp only [waiting, queue, List.filter_cons, mine]
  rfl

theorem rest_inside (sound : Sound s) (head : s.loop.functors = functor :: rest) :
    ∀ f ∈ rest, f ∈ s.vector :=
  fun f mem => sound.inside f (by rw [head]; exact List.mem_cons_of_mem _ mem)

theorem other_sound (sound : Sound s) (head : s.loop.functors = .other :: rest)
    (queued : (popped s.loop .other rest).Queued) :
    Sound { s with loop := popped s.loop .other rest } := by
  have queue : s.loop.queue = .other :: (popped s.loop .other rest).queue := by
    rw [EventLoop.queue, head]
    rfl
  have inside := rest_inside sound head
  have moved : Advanced s { s with loop := popped s.loop .other rest } := by
    refine ⟨queued, inside, ?_, id, fun together => ⟨together.1, fun mem => ?_⟩⟩
    · simp only [waiting, queue]
      rfl
    · exact together.2 (by rw [head]; exact List.mem_cons_of_mem _ mem)
  exact Advanced.sound sound moved

theorem setCloseCallback_sound (sound : Sound s)
    (head : s.loop.functors = .setCloseCallback :: rest)
    (queued : (popped s.loop .setCloseCallback rest).Queued) :
    Sound { s with loop := popped s.loop .setCloseCallback rest
                   closeCallback := .removeTcpConnection } := by
  have waits := waiting_popped head rfl
  have inside := rest_inside sound head
  generalize after : { s with loop := popped s.loop .setCloseCallback rest }.waiting = later
    at waits
  cases front sound waits with
  | asked between isOpen =>
    refine ran_sound sound waits queued inside (fun _ => ⟨.inr ⟨after, rfl⟩, isOpen⟩) fun late => ?_
    exact (DestructorStage.late_not_between late between).elim
  | asks late together =>
    refine ran_sound sound waits queued inside (fun between => ?_) fun _ => ?_
    · exact (DestructorStage.late_not_between late between).elim
    · refine .forced (.inr ⟨after, rfl⟩) fun gone => ⟨(together gone).1, fun mem => ?_⟩
      exact (together gone).2 (by rw [head]; exact List.mem_cons_of_mem _ mem)

/-- `forceCloseInLoop` finds the callback of the destructor. -/
theorem forceCloseInLoop_sound (sound : Sound s)
    (head : s.loop.functors = .forceCloseInLoop :: rest)
    (queued : (popped s.loop .forceCloseInLoop rest).Queued) :
    s.closeCallback = .removeTcpConnection ∧
      Sound { s with loop := (popped s.loop .forceCloseInLoop rest).postFuntor true
                               .connectionDestroyed
                     conn := s.conn.forceCloseInLoop
                     closeCallback := .removeTcpConnection } := by
  have waits := waiting_popped head rfl
  have inside := rest_inside sound head
  generalize after : { s with loop := popped s.loop .forceCloseInLoop rest }.waiting = later
    at waits
  cases front sound waits with
  | forces late callback =>
    refine ⟨callback, ran_sound sound waits (EventLoop.postFuntor_queued queued true _) ?_
      (fun between => ?_) fun _ => .closed ?_ ?_ ?_⟩
    · rw [(EventLoop.postFuntor_lists _ _ _).1]
      exact inside
    · exact (DestructorStage.late_not_between late between).elim
    · rw [waiting, EventLoop.queue_postFuntor, List.filter_append]
      exact congrArg (· ++ [ClientFunctor.connectionDestroyed]) after
    · rw [TcpConnection.forceCloseInLoop_eq]
    · rw [TcpConnection.forceCloseInLoop_eq]
      simp

theorem connectionDestroyed_sound (sound : Sound s)
    (head : s.loop.functors = .connectionDestroyed :: rest)
    (queued : (popped s.loop .connectionDestroyed rest).Queued) :
    Sound { s with loop := popped s.loop .connectionDestroyed rest
                   conn := s.conn.connectionDestroyed } := by
  have waits := waiting_popped head rfl
  have inside := rest_inside sound head
  generalize after : { s with loop := popped s.loop .connectionDestroyed rest }.waiting = later
    at waits
  cases front sound waits with
  | destroys late state handleClose =>
    have shut : (s.conn.state == .kConnected) = false := by rw [state]; rfl
    have same : s.conn.connectionDestroyed = (s.conn.notify
        (.removeChannel s.conn.readWriteChannel.isNoneEvent)).onChannel Channel.remove := by
      simp [TcpConnection.connectionDestroyed, shut]
    rw [same]
    refine ran_sound sound waits queued inside (fun between => ?_) fun _ =>
      .destroyed after state ?_ ⟨s.conn.readWriteChannel.isNoneEvent, ?_⟩
    · exact (DestructorStage.late_not_between late between).elim
    · exact List.mem_append_left _ handleClose
    · exact List.mem_append_right _ List.mem_cons_self

theorem runFunctor_sound (sound : Sound s) (head : s.loop.functors = functor :: rest)
    (next : s.onLoop .runFunctor = some t) : Sound (t.execute functor) := by
  obtain ⟨loop, stepped, rfl⟩ := Option.map_eq_some_iff.mp next
  have queued := EventLoop.step_queued sound.queued stepped
  obtain ⟨-, _, _, same, rfl⟩ := EventLoop.step_runFunctor stepped
  cases head.symm.trans same
  have alive (mine : functor.isOther = false) : s.freed = false := by
    refine Bool.eq_false_iff.mpr fun freed => ?_
    have none := (sound.freed freed).2
    rw [waiting_popped head mine] at none
    cases none
  unfold execute
  cases functor with
  | other =>
    rw [if_neg (by simp [ClientFunctor.isOther])]
    exact other_sound sound head queued
  | setCloseCallback =>
    rw [if_neg (by simp [alive rfl])]
    exact setCloseCallback_sound sound head queued
  | forceCloseInLoop =>
    obtain ⟨callback, closed⟩ := forceCloseInLoop_sound sound head queued
    rw [if_neg (by simp [alive rfl])]
    simp only [callCloseCallback, callback]
    exact closed
  | connectionDestroyed =>
    rw [if_neg (by simp [alive rfl])]
    exact connectionDestroyed_sound sound head queued

end Popped

theorem step_sound {a : Act} (sound : Sound s) (together : LeftTogether s a)
    (next : s.step a = some t) : Sound t := by
  cases a with
  | destructor =>
    obtain ⟨m, stepped, rfl⟩ := Option.map_eq_some_iff.mp next
    exact settle_sound (destructor_sound sound together stepped)
  | advance a =>
    obtain ⟨may, moves⟩ := Option.ite_none_right_eq_some.mp next
    obtain ⟨m, stepped, rfl⟩ := Option.map_eq_some_iff.mp moves
    exact settle_sound (advance_sound sound may stepped)
  | runFunctor =>
    simp only [step] at next
    split at next
    · cases next
    · rename_i functor rest head
      obtain ⟨m, stepped, rfl⟩ := Option.map_eq_some_iff.mp next
      exact settle_sound (runFunctor_sound sound head stepped)

end Loop

/-- However the destructor and the loop take turns, if the destructor's last reference goes
when `forceCloseInLoop` has run or waits in one list with `setCloseCallback`, no functor
runs on a connection that is gone, and the connection goes closed. -/
theorem closed_before_freed (sockfd : Int) (options : ConnOptions) (actions : List Act)
    (together : Schedules.Along step LeftTogether (start sockfd options) actions) :
    Schedules.Throughout step ClosedFirst (start sockfd options) actions :=
  Schedules.throughout_of_along (fun _ _ _ sound together next => step_sound sound together next)
    (fun _ => closedFirst_of_sound) (start_sound sockfd options) together

/-- Both functors are posted before the loop takes the queue, and the connection goes with
the batch that destroys it. -/
theorem one_batch_closed_first :
    (∃ s, Schedules.run step (start 7 {})
      [.advance .loop, .destructor, .destructor, .destructor, .destructor, .destructor,
        .destructor, .advance (.pollReturns false), .advance .doPendingFunctors, .advance .swap,
        .runFunctor, .runFunctor, .advance .clearFlag, .advance .testQuit,
        .advance (.pollReturns false), .advance .doPendingFunctors, .advance .swap, .runFunctor,
        .advance .clearFlag, .advance .testQuit] = some s ∧ s.freed = true) ∧
    Schedules.Throughout step ClosedFirst (start 7 {})
      [.advance .loop, .destructor, .destructor, .destructor, .destructor, .destructor,
        .destructor, .advance (.pollReturns false), .advance .doPendingFunctors, .advance .swap,
        .runFunctor, .runFunctor, .advance .clearFlag, .advance .testQuit,
        .advance (.pollReturns false), .advance .doPendingFunctors, .advance .swap, .runFunctor,
        .advance .clearFlag, .advance .testQuit] := by
  refine ⟨⟨_, rfl, rfl⟩, closed_before_freed 7 {} _ ?_⟩
  refine .cons trivial rfl (.cons (fun left => by cases left) rfl
    (.cons (fun left => by cases left) rfl (.cons (fun left => by cases left) rfl
      (.cons (fun left => by cases left) rfl (.cons (fun left => by cases left) rfl
        (.cons (fun _ => ?_) rfl ?_))))))
  · exact ⟨by decide, by decide⟩
  · exact .cons trivial rfl (.cons trivial rfl (.cons trivial rfl (.cons trivial rfl
      (.cons trivial rfl (.cons trivial rfl (.cons trivial rfl (.cons trivial rfl
        (.cons trivial rfl (.cons trivial rfl (.cons trivial rfl (.cons trivial rfl
          (.cons trivial rfl trivial))))))))))))

/-- The loop takes the queue between the two posts: the connection goes with the first
batch, half closed, and `forceCloseInLoop` runs on what is left of it. -/
theorem two_batches_freed_first :
    ∃ s, Schedules.run step (start 7 {})
      [.advance .loop, .destructor, .destructor, .advance (.pollReturns false),
        .advance .doPendingFunctors, .advance .swap, .runFunctor, .destructor, .destructor,
        .destructor, .destructor, .advance .clearFlag, .advance .testQuit,
        .advance (.pollReturns false), .advance .doPendingFunctors, .advance .swap,
        .runFunctor] = some s ∧
      s.conn.state = .kDisconnecting ∧ s.strays = [.forceCloseInLoop] ∧ ¬ ClosedFirst s := by
  refine ⟨_, rfl, rfl, rfl, fun closed => ?_⟩
  exact absurd closed.strays (by decide)

end ClientTeardown
end Arale
