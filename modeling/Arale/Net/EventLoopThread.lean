import Arale.Net.EventLoop

/-!
# A loop in a thread of its own

`EventLoopThread` of `net/EventLoopThread.cc`: its owner, which constructs it, may call
`startLoop()` once and then destroys it, against its worker, which runs `threadFunc`. Each
step is one statement that the other thread can observe; the waits on the condition
variables are guards, since both re-test their condition. Anyone who has the loop may post
to it and quit it while it exists. `std::thread` is still joinable when its function has
returned: the destructor of a thread that was not joined terminates the process.
-/

namespace Arale

universe u

/-- Where `threadFunc` is. -/
inductive WorkerPhase where
  /-- waiting for `start_` -/
  | waiting
  /-- about to construct the loop -/
  | woken
  /-- the loop is constructed, `initCallback_` runs -/
  | initializing
  /-- from `loop_ = &loop` to the return of `loop.loop()` -/
  | looping
  /-- `loop_ = NULL` has been executed -/
  | cleared
  | finished
  deriving DecidableEq, Repr

/-- Where the owner is. -/
inductive OwnerPhase where
  | constructed
  /-- in `startLoop()`, waiting for `loop_` -/
  | starting
  | started
  /-- in the destructor, `exiting_` set -/
  | exiting
  /-- the test has found a loop, which is to be quit -/
  | quitting
  /-- in `thread_.join()` -/
  | joining
  /-- the body of the destructor is over, the members are to be destroyed -/
  | destroying
  | destroyed
  /-- `loop_->quitLoop()` was called through a null pointer -/
  | crashed
  deriving DecidableEq, Repr

structure EventLoopThread (F : Type u) where
  owner : OwnerPhase
  worker : WorkerPhase
  /-- the variable of `threadFunc`, while it exists -/
  loop : Option (EventLoop F)
  /-- `loop_` points to that variable; otherwise it is `NULL` -/
  loopSet : Bool
  exiting : Bool
  start : Bool
  /-- `thread_.joinable()` -/
  joinable : Bool
  /-- `thread_` was destroyed while it was joinable: `std::terminate` -/
  terminated : Bool

namespace EventLoopThread

variable {F : Type u}

def new : EventLoopThread F where
  owner := .constructed
  worker := .waiting
  loop := none
  loopSet := false
  exiting := false
  start := false
  joinable := true
  terminated := false

inductive Act (F : Type u) where
  /-- the first half of `startLoop()`, up to `con2_.notify_one()` -/
  | startLoop
  /-- `startLoop()` finds `loop_` set and returns it -/
  | startLoopReturns
  /-- the destructor is entered -/
  | destroy
  /-- `if (loop_ != NULL)` -/
  | testLoop
  /-- `loop_->quitLoop()`, with `loop_` read once more -/
  | quitLoop
  | join
  | destroyThread
  /-- `threadFunc` finds `start_` set -/
  | wake
  | constructLoop
  /-- `loop_ = &loop` -/
  | setLoop
  /-- a step of the loop, or somebody posts to it or quits it -/
  | advance (a : EventLoop.Act F)
  /-- `loop.loop()` has returned: `loop_ = NULL` -/
  | clearLoop
  /-- `loop` is destroyed and `threadFunc` returns -/
  | finish

/-- `loop()` is entered once `loop_` is set. -/
def mayAdvance (s : EventLoopThread F) : EventLoop.Act F → Bool
  | .loop => s.worker == .looping
  | _ => true

def step (s : EventLoopThread F) : Act F → Option (EventLoopThread F)
  | .startLoop =>
    if s.owner = .constructed then some { s with owner := .starting, start := true } else none
  | .startLoopReturns =>
    if s.owner = .starting ∧ s.loopSet = true then some { s with owner := .started } else none
  | .destroy =>
    if s.owner = .constructed ∨ s.owner = .started then
      some { s with owner := .exiting, exiting := true }
    else none
  | .testLoop =>
    if s.owner = .exiting then
      some { s with owner := if s.loopSet then .quitting else .destroying }
    else none
  | .quitLoop =>
    if s.owner = .quitting then
      some (if s.loopSet then
          { s with owner := .joining, loop := s.loop.map fun l => l.quitLoop false }
        else { s with owner := .crashed })
    else none
  | .join =>
    if s.owner = .joining ∧ s.worker = .finished then
      some { s with owner := .destroying, joinable := false }
    else none
  | .destroyThread =>
    if s.owner = .destroying then
      some { s with owner := .destroyed, terminated := s.joinable }
    else none
  | .wake =>
    if s.worker = .waiting ∧ s.start = true then some { s with worker := .woken } else none
  | .constructLoop =>
    if s.worker = .woken then some { s with worker := .initializing, loop := some .new } else none
  | .setLoop =>
    if s.worker = .initializing then some { s with worker := .looping, loopSet := true } else none
  | .advance a =>
    if s.mayAdvance a = true then
      s.loop.bind fun l => (l.step a).map fun l => { s with loop := some l }
    else none
  | .clearLoop =>
    if s.worker = .looping ∧ (s.loop.any fun l => l.phase == .stopped) = true then
      some { s with worker := .cleared, loopSet := false }
    else none
  | .finish =>
    if s.worker = .cleared then some { s with worker := .finished, loop := none } else none

/-- The destructor looks at `loop_` while the worker is between setting and clearing it. -/
def FindsLoop (s : EventLoopThread F) : Act F → Prop
  | .testLoop => s.worker = .looping
  | _ => True

/-- `loop_` is set while the worker is in `loop()`, and the thread stays joinable until
the owner has joined it. -/
structure Consistent (s : EventLoopThread F) : Prop where
  loopSet : s.loopSet = true ↔ s.worker = .looping
  joinable : s.owner ≠ .destroying → s.owner ≠ .destroyed → s.joinable = true
  terminated : s.terminated = true → s.owner = .destroyed

theorem new_consistent : (new : EventLoopThread F).Consistent where
  loopSet := by simp [new]
  joinable := fun _ _ => rfl
  terminated := fun terminated => by cases terminated

section Steps
variable {s t : EventLoopThread F} {a : Act F}

/-- The worker's steps, and those of the loop, leave the owner and its thread alone. -/
structure OwnerKept (s t : EventLoopThread F) : Prop where
  owner : t.owner = s.owner
  joinable : t.joinable = s.joinable
  terminated : t.terminated = s.terminated

/-- What a step is to the two threads. -/
inductive Moves (s : EventLoopThread F) : Act F → EventLoopThread F → Prop
  | worker {a : Act F} {t : EventLoopThread F} (kept : OwnerKept s t)
      (loopSet : t.loopSet = true ↔ t.worker = .looping) (other : a ≠ .testLoop) : Moves s a t
  | owner {a : Act F} {t : EventLoopThread F} (worker : t.worker = s.worker)
      (loopSet : t.loopSet = s.loopSet) (joinable : t.joinable = s.joinable)
      (terminated : t.terminated = s.terminated) (before : s.owner ≠ .destroying)
      (unfinished : s.owner ≠ .destroyed) (body : t.owner ≠ .destroying)
      (after : t.owner ≠ .destroyed) : Moves s a t
  | passesBy (owner : s.owner = .exiting) (unset : s.loopSet = false) :
      Moves s .testLoop { s with owner := .destroying }
  | joins (owner : s.owner = .joining) :
      Moves s .join { s with owner := .destroying, joinable := false }
  | destroys (owner : s.owner = .destroying) :
      Moves s .destroyThread { s with owner := .destroyed, terminated := s.joinable }

theorem step_moves (consistent : s.Consistent) (next : s.step a = some t) : Moves s a t := by
  have loopSet := consistent.loopSet
  cases a with
  | startLoop =>
    simp only [step, Option.ite_none_right_eq_some, Option.some.injEq] at next
    obtain ⟨here, rfl⟩ := next
    exact .owner rfl rfl rfl rfl (by simp [here]) (by simp [here]) (by simp) (by simp)
  | startLoopReturns =>
    simp only [step, Option.ite_none_right_eq_some, Option.some.injEq] at next
    obtain ⟨⟨here, -⟩, rfl⟩ := next
    exact .owner rfl rfl rfl rfl (by simp [here]) (by simp [here]) (by simp) (by simp)
  | destroy =>
    simp only [step, Option.ite_none_right_eq_some, Option.some.injEq] at next
    obtain ⟨here, rfl⟩ := next
    rcases here with here | here
    · exact .owner rfl rfl rfl rfl (by simp [here]) (by simp [here]) (by simp) (by simp)
    · exact .owner rfl rfl rfl rfl (by simp [here]) (by simp [here]) (by simp) (by simp)
  | testLoop =>
    simp only [step, Option.ite_none_right_eq_some, Option.some.injEq] at next
    obtain ⟨here, rfl⟩ := next
    by_cases set : s.loopSet = true
    · rw [if_pos set]
      exact .owner rfl rfl rfl rfl (by simp [here]) (by simp [here]) (by simp) (by simp)
    · rw [if_neg set]
      exact .passesBy here (Bool.not_eq_true _ ▸ set)
  | quitLoop =>
    simp only [step, Option.ite_none_right_eq_some, Option.some.injEq] at next
    obtain ⟨here, rfl⟩ := next
    split
    · exact .owner rfl rfl rfl rfl (by simp [here]) (by simp [here]) (by simp) (by simp)
    · exact .owner rfl rfl rfl rfl (by simp [here]) (by simp [here]) (by simp) (by simp)
  | join =>
    simp only [step, Option.ite_none_right_eq_some, Option.some.injEq] at next
    obtain ⟨⟨here, -⟩, rfl⟩ := next
    exact .joins here
  | destroyThread =>
    simp only [step, Option.ite_none_right_eq_some, Option.some.injEq] at next
    obtain ⟨here, rfl⟩ := next
    exact .destroys here
  | wake =>
    simp only [step, Option.ite_none_right_eq_some, Option.some.injEq] at next
    obtain ⟨⟨here, -⟩, rfl⟩ := next
    exact .worker ⟨rfl, rfl, rfl⟩ (by simp [loopSet, here]) (by simp)
  | constructLoop =>
    simp only [step, Option.ite_none_right_eq_some, Option.some.injEq] at next
    obtain ⟨here, rfl⟩ := next
    exact .worker ⟨rfl, rfl, rfl⟩ (by simp [loopSet, here]) (by simp)
  | setLoop =>
    simp only [step, Option.ite_none_right_eq_some, Option.some.injEq] at next
    obtain ⟨-, rfl⟩ := next
    exact .worker ⟨rfl, rfl, rfl⟩ (by simp) (by simp)
  | advance b =>
    simp only [step, Option.ite_none_right_eq_some, Option.bind_eq_some_iff,
      Option.map_eq_some_iff] at next
    obtain ⟨-, l, -, l', -, rfl⟩ := next
    exact .worker ⟨rfl, rfl, rfl⟩ loopSet (by simp)
  | clearLoop =>
    simp only [step, Option.ite_none_right_eq_some, Option.some.injEq] at next
    obtain ⟨-, rfl⟩ := next
    exact .worker ⟨rfl, rfl, rfl⟩ (by simp) (by simp)
  | finish =>
    simp only [step, Option.ite_none_right_eq_some, Option.some.injEq] at next
    obtain ⟨here, rfl⟩ := next
    exact .worker ⟨rfl, rfl, rfl⟩ (by simp [loopSet, here]) (by simp)

theorem step_consistent (consistent : s.Consistent) (next : s.step a = some t) :
    t.Consistent := by
  have set := consistent.loopSet
  cases step_moves consistent next with
  | worker kept loopSet other =>
    refine ⟨loopSet, fun body after => ?_, fun ended => ?_⟩
    · rw [kept.owner] at body after
      rw [kept.joinable]
      exact consistent.joinable body after
    · rw [kept.owner]
      exact consistent.terminated (kept.terminated ▸ ended)
  | owner worker loopSet joinable terminated before unfinished body after =>
    refine ⟨by rw [worker, loopSet, set], fun _ _ => ?_, fun ended => ?_⟩
    · rw [joinable]
      exact consistent.joinable before unfinished
    · exact absurd (consistent.terminated (terminated ▸ ended)) unfinished
  | passesBy owner unset =>
    exact ⟨set, fun body => absurd rfl body, fun ended => by
      simpa [owner] using consistent.terminated ended⟩
  | joins owner =>
    exact ⟨set, fun body => absurd rfl body, fun ended => by
      simpa [owner] using consistent.terminated ended⟩
  | destroys owner => exact ⟨set, fun _ after => absurd rfl after, fun _ => rfl⟩

/-- The thread has been joined by the time it is destroyed. -/
structure Joined (s : EventLoopThread F) : Prop extends s.Consistent where
  joined : s.owner = .destroying → s.joinable = false
  alive : s.terminated = false

/-- The destructor has passed by a thread it did not join. -/
def Abandoned (s : EventLoopThread F) : Prop :=
  (s.owner = .destroying ∧ s.joinable = true) ∨ s.terminated = true

theorem step_joined (joined : s.Joined) (finds : s.FindsLoop a) (next : s.step a = some t) :
    t.Joined := by
  have consistent := step_consistent joined.toConsistent next
  suffices both : (t.owner = .destroying → t.joinable = false) ∧ t.terminated = false from
    ⟨consistent, both.1, both.2⟩
  cases step_moves joined.toConsistent next with
  | worker kept loopSet other =>
    refine ⟨fun body => ?_, kept.terminated.trans joined.alive⟩
    rw [kept.joinable]
    exact joined.joined (kept.owner.symm.trans body)
  | owner worker loopSet joinable terminated before unfinished body after =>
    exact ⟨fun there => absurd there body, terminated.trans joined.alive⟩
  | passesBy owner unset =>
    have set := joined.loopSet.mpr finds
    rw [unset] at set
    cases set
  | joins owner => exact ⟨fun _ => rfl, joined.alive⟩
  | destroys owner =>
    refine ⟨fun body => ?_, joined.joined owner⟩
    cases body

theorem abandoned_of_not_findsLoop (consistent : s.Consistent) (misses : ¬ s.FindsLoop a)
    (next : s.step a = some t) : t.Abandoned := by
  cases a with
  | testLoop =>
    simp only [step, Option.ite_none_right_eq_some, Option.some.injEq] at next
    obtain ⟨here, rfl⟩ := next
    have unset : s.loopSet = false := by
      rw [← Bool.not_eq_true, consistent.loopSet]
      exact misses
    refine .inl ⟨by simp [unset], ?_⟩
    exact consistent.joinable (by simp [here]) (by simp [here])
  | _ => exact absurd trivial misses

theorem step_abandoned (consistent : s.Consistent) (abandoned : s.Abandoned)
    (next : s.step a = some t) : t.Abandoned := by
  rcases abandoned with ⟨body, joinable⟩ | ended
  · cases step_moves consistent next with
    | worker kept loopSet other =>
      exact .inl ⟨kept.owner.trans body, kept.joinable.trans joinable⟩
    | owner worker loopSet joinable' terminated before => exact absurd body before
    | passesBy owner unset =>
      rw [body] at owner
      cases owner
    | joins owner =>
      rw [body] at owner
      cases owner
    | destroys owner => exact .inr joinable
  · have finished := consistent.terminated ended
    cases step_moves consistent next with
    | worker kept loopSet other => exact .inr (kept.terminated.trans ended)
    | owner worker loopSet joinable' terminated before unfinished =>
      exact absurd finished unfinished
    | passesBy owner unset =>
      rw [finished] at owner
      cases owner
    | joins owner =>
      rw [finished] at owner
      cases owner
    | destroys owner =>
      rw [finished] at owner
      cases owner

end Steps

/-- In a run whose destructor finds the worker between setting and clearing `loop_` the
thread is never destroyed while it is joinable; a run that has destroyed the thread
without terminating the process is one of these. -/
theorem destroyed_joined (actions : List (Act F)) :
    (Schedules.Along step FindsLoop (new : EventLoopThread F) actions →
      Schedules.Throughout step (fun s => s.terminated = false) (new : EventLoopThread F)
        actions) ∧
    ∀ s, Schedules.run step (new : EventLoopThread F) actions = some s → s.owner = .destroyed →
      s.terminated = false →
        Schedules.Along step FindsLoop (new : EventLoopThread F) actions := by
  constructor
  · intro finds
    refine Schedules.throughout_of_along (fun s a t joined finds next => step_joined joined finds
      next) (fun s joined => joined.alive) ⟨new_consistent, fun body => ?_, rfl⟩ finds
    cases body
  · intro s done finished alive
    refine Schedules.along_of_undamaged (fun s a t inv next => step_consistent inv next)
      (fun s a t inv misses next => abandoned_of_not_findsLoop inv misses next)
      (fun s a t inv abandoned next => step_abandoned inv abandoned next) new_consistent done ?_
    rintro (⟨body, -⟩ | ended)
    · rw [finished] at body
      cases body
    · rw [alive] at ended
      cases ended

/-- A loop that is run and is quit by somebody else before its owner's destructor. -/
def quitByOther : List (Act Unit) :=
  [.startLoop, .wake, .constructLoop, .setLoop, .startLoopReturns, .advance .loop,
    .advance (.quitLoop false), .advance (.pollReturns false), .advance .doPendingFunctors,
    .advance .swap, .advance .clearFlag, .advance .testQuit, .clearLoop, .finish, .destroy,
    .testLoop, .destroyThread]

/-- Never started, and quit by somebody else: the thread is destroyed while joinable. -/
theorem destroyed_unjoined :
    (∃ s, Schedules.run step (new : EventLoopThread Unit) [.destroy, .testLoop, .destroyThread] =
      some s ∧ s.terminated = true) ∧
    ∃ s, Schedules.run step (new : EventLoopThread Unit) quitByOther = some s ∧
      s.terminated = true :=
  ⟨⟨_, rfl, rfl⟩, ⟨_, rfl, rfl⟩⟩

/-- A loop that its owner's destructor quits, and whose thread it joins. -/
def quitByOwner : List (Act Unit) :=
  [.startLoop, .wake, .constructLoop, .setLoop, .startLoopReturns, .advance .loop, .destroy,
    .testLoop, .quitLoop, .advance (.pollReturns true), .advance .handleWakeup,
    .advance .doPendingFunctors, .advance .swap, .advance .clearFlag, .advance .testQuit,
    .clearLoop, .finish, .join, .destroyThread]

theorem destroyed_joined_quitByOwner :
    Schedules.Throughout step (fun s => s.terminated = false) (new : EventLoopThread Unit)
      quitByOwner := by
  refine (destroyed_joined quitByOwner).1 ?_
  refine .cons trivial rfl (.cons trivial rfl (.cons trivial rfl (.cons trivial rfl ?_)))
  refine .cons trivial rfl (.cons trivial rfl (.cons trivial rfl (.cons rfl rfl ?_)))
  refine .cons trivial rfl (.cons trivial rfl (.cons trivial rfl (.cons trivial rfl ?_)))
  refine .cons trivial rfl (.cons trivial rfl (.cons trivial rfl (.cons trivial rfl ?_)))
  exact .cons trivial rfl (.cons trivial rfl (.cons trivial rfl trivial))

end EventLoopThread
end Arale
