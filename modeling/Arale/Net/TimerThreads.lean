import Arale.Net.EventLoop
import Arale.Net.TimerCancel

/-!
# Timers added and cancelled across threads

`addTimer` and `cancelTimer` go through `runInLoop`: on the loop thread they run at once,
on any other thread they are posted. The loop runs posted functors in order, so a posted
cancellation finds the timer that was posted before it. A cancellation on the loop thread
overtakes the functors that wait; `cancelTimerInLoop` then finds no timer and forgets the
id, and the timer is inserted after that. The id `addTimer` returns is taken to be that of
the timer it has allocated.
-/

namespace Arale

/-- What is posted to the loop of a timer queue. -/
inductive TimerFunctor where
  | addTimerInLoop (timer : Nat)
  | cancelTimerInLoop (id : TimerID)
  /-- any functor that is not the queue's own -/
  | other
  deriving DecidableEq, Repr

structure TimerThreads where
  loop : EventLoop TimerFunctor
  queue : TimerQueue
  /-- timers that other threads have allocated and are about to post -/
  posting : List Nat
  /-- the ids `addTimer` has returned -/
  returned : List TimerID
  /-- the ids whose `cancelTimerInLoop` has executed -/
  cancelled : List TimerID
  /-- those of them whose callback was invoked after that -/
  late : List TimerID

namespace TimerThreads

open TimerQueue

def new (isHandlingTimeout : Bool) : TimerThreads :=
  ⟨.new, .new isHandlingTimeout, [], [], [], []⟩

inductive Act where
  /-- the `new Timer` of `addTimer` in another thread -/
  | otherNews (timer : Nat) (when : Int) (interval : Option Nat) (sequence : Nat)
  /-- the rest of that `addTimer` -/
  | otherAdds (timer : Nat)
  | otherCancels (id : TimerID)
  /-- `addTimer` in the loop thread -/
  | addTimer (timer : Nat) (when : Int) (interval : Option Nat) (sequence : Nat) (clock : Int)
  /-- `cancelTimer` in the loop thread -/
  | cancelTimer (id : TimerID)
  /-- a step of `handleTimeout`; its callbacks are steps of their own -/
  | timeout (a : TimerQueue.Act)
  /-- the next functor of `doPendingFunctors` -/
  | runFunctor (clock : Int)
  /-- the loop thread moves on inside `loop()`, or other functors are posted -/
  | advance (a : EventLoop.Act TimerFunctor)

/-- User code can run on the loop thread. -/
def userCode (s : TimerThreads) : Bool :=
  s.loop.phase != .entering && s.loop.phase != .draining

def isTimeout : TimerQueue.Act → Bool
  | .beginTimeout _ | .runTimer | .endTimeout _ => true
  | _ => false

/-- A running `handleTimeout` ends before the loop thread goes on to anything else. -/
def mayAdvance (s : TimerThreads) (a : EventLoop.Act TimerFunctor) : Bool :=
  match a with
  | .handleWakeup | .doPendingFunctors => s.queue.batch.isNone
  | a => a.silent || a.posts == some .other

def onQueue (s : TimerThreads) (a : TimerQueue.Act) : Option TimerThreads :=
  (s.queue.step a).map fun queue =>
    { s with queue := queue
             late := s.late ++ (s.queue.invoked a).filter fun id => id ∈ s.cancelled }

def cancelTimerInLoop (s : TimerThreads) (id : TimerID) : Option TimerThreads :=
  (s.onQueue (.cancelTimerInLoop id.timer id.sequence)).map fun s =>
    { s with cancelled := s.cancelled ++ [id] }

def execute (s : TimerThreads) (clock : Int) : TimerFunctor → Option TimerThreads
  | .addTimerInLoop timer => s.onQueue (.addTimerInLoop timer clock)
  | .cancelTimerInLoop id => s.cancelTimerInLoop id
  | .other => some s

def onLoop (s : TimerThreads) (a : EventLoop.Act TimerFunctor) : Option TimerThreads :=
  (s.loop.step a).map fun loop => { s with loop := loop }

def step (s : TimerThreads) : Act → Option TimerThreads
  | .otherNews timer when interval sequence =>
    (s.onQueue (.newTimer timer when interval sequence)).map fun s =>
      { s with posting := s.posting ++ [timer] }
  | .otherAdds timer =>
    if timer ∈ s.posting then
      (s.queue.idOf timer).bind fun id =>
        (s.onLoop (.otherPushes (.addTimerInLoop timer))).map fun s =>
          { s with posting := s.posting.erase timer, returned := s.returned ++ [id] }
    else none
  | .otherCancels id =>
    if id ∈ s.returned then s.onLoop (.otherPushes (.cancelTimerInLoop id)) else none
  | .addTimer timer when interval sequence clock =>
    if s.userCode then
      (s.onQueue (.newTimer timer when interval sequence)).bind fun s =>
        (s.onQueue (.addTimerInLoop timer clock)).map fun s =>
          { s with returned := s.returned ++ [⟨timer, sequence⟩] }
    else none
  | .cancelTimer id => if s.userCode ∧ id ∈ s.returned then s.cancelTimerInLoop id else none
  | .timeout a => if s.loop.phase = .handling ∧ isTimeout a then s.onQueue a else none
  | .runFunctor clock =>
    match s.loop.functors with
    | [] => none
    | functor :: _ => (s.onLoop .runFunctor).bind fun s => s.execute clock functor
  | .advance a => if s.mayAdvance a then s.onLoop a else none

end TimerThreads

/-! ## The line of functors -/

/-- A cancellation is asked for a returned id, and while the addition of its timer waits, it
stands behind that. -/
structure Lined (line : List TimerFunctor) (waits : TimerID → Prop) (returned : List TimerID) :
    Prop where
  asked : ∀ id, .cancelTimerInLoop id ∈ line → id ∈ returned
  posted : ∀ id ∈ returned, waits id → .addTimerInLoop id.timer ∈ line
  ordered : ∀ before id after, line = before ++ .cancelTimerInLoop id :: after → waits id →
    .addTimerInLoop id.timer ∈ before

namespace Lined
variable {line : List TimerFunctor} {waits : TimerID → Prop} {returned : List TimerID}
  {functor : TimerFunctor}

theorem mono (lined : Lined line waits returned) {fewer : TimerID → Prop}
    (waited : ∀ id ∈ returned, fewer id → waits id) : Lined line fewer returned := by
  refine ⟨lined.asked, fun id known few => lined.posted id known (waited id known few), ?_⟩
  intro before id after parts few
  have known : id ∈ returned := lined.asked id (by simp [parts])
  exact lined.ordered before id after parts (waited id known few)

theorem push (lined : Lined line waits returned)
    (asks : ∀ id, functor = .cancelTimerInLoop id → id ∈ returned) :
    Lined (line ++ [functor]) waits returned := by
  refine ⟨?_, fun id known waiting => List.mem_append_left _ (lined.posted id known waiting), ?_⟩
  · intro id member
    rcases List.mem_append.mp member with earlier | last
    · exact lined.asked id earlier
    · exact asks id (List.mem_singleton.mp last).symm
  · intro before id after parts waiting
    rcases List.eq_nil_or_concat after with rfl | ⟨rest, last, rfl⟩
    · obtain ⟨same, single⟩ := List.append_inj' parts rfl
      cases single
      rw [← same]
      exact lined.posted id (asks id rfl) waiting
    · rw [List.concat_eq_append, ← List.cons_append, ← List.append_assoc] at parts
      obtain ⟨same, -⟩ := List.append_inj' parts rfl
      exact lined.ordered before id rest same waiting

theorem returns (lined : Lined line waits returned) {id : TimerID}
    (inLine : waits id → .addTimerInLoop id.timer ∈ line) :
    Lined line waits (returned ++ [id]) := by
  refine ⟨fun other member => List.mem_append_left _ (lined.asked other member), ?_, lined.ordered⟩
  intro other known waiting
  rcases List.mem_append.mp known with earlier | now
  · exact lined.posted other earlier waiting
  · cases List.mem_singleton.mp now
    exact inLine waiting

/-- The first functor runs; no timer waits for it any more. -/
theorem pop (lined : Lined (functor :: line) waits returned)
    (done : ∀ id ∈ returned, waits id → functor ≠ .addTimerInLoop id.timer) :
    Lined line waits returned := by
  have asked (id : TimerID) (member : .cancelTimerInLoop id ∈ line) : id ∈ returned :=
    lined.asked id (List.mem_cons_of_mem _ member)
  refine ⟨asked, ?_, ?_⟩
  · intro id known waiting
    refine (List.mem_cons.mp (lined.posted id known waiting)).resolve_left ?_
    exact fun first => done id known waiting first.symm
  · intro before id after parts waiting
    have known : id ∈ returned := asked id (by simp [parts])
    have ahead := lined.ordered (functor :: before) id after (by rw [parts]; rfl) waiting
    refine (List.mem_cons.mp ahead).resolve_left ?_
    exact fun first => done id known waiting first.symm

/-- A cancellation at the front finds its timer added. -/
theorem front {id : TimerID} (lined : Lined (.cancelTimerInLoop id :: line) waits returned) :
    ¬ waits id := fun waiting => List.not_mem_nil (lined.ordered [] id line rfl waiting)

end Lined

/-- The addition of the id's timer is still to come. -/
def TimerQueue.Waits (q : TimerQueue) (id : TimerID) : Prop := q.Names id ∧ id.timer ∈ q.unqueued

theorem TimerQueue.waits_before {q d : TimerQueue} {a : TimerQueue.Act} {id : TimerID}
    (h : q.Sequenced) (moved : q.Moved a d) (enabled : q.Enabled a)
    (old : id.sequence ≤ q.counter) (waits : d.Waits id) :
    q.Waits id ∧ ∀ clock, a ≠ .addTimerInLoop id.timer clock := by
  obtain ⟨names, waiting⟩ := waits
  have named := (names_before moved enabled names).resolve_right (by omega)
  obtain ⟨t, found, -⟩ := names_iff.mp named
  rw [moved.unqueued, mem_unqueuedAfter h enabled found] at waiting
  exact ⟨⟨named, waiting.1⟩, waiting.2⟩

/-! ## Steps -/

namespace TimerThreads

open TimerQueue

/-- The addition of the id's timer waits among the functors of the loop. -/
def AwaitsAdd (s : TimerThreads) (id : TimerID) : Prop :=
  s.queue.Names id ∧ .addTimerInLoop id.timer ∈ s.loop.queue

instance (s : TimerThreads) (id : TimerID) : Decidable (s.AwaitsAdd id) :=
  inferInstanceAs (Decidable (s.queue.idOf id.timer = some id ∧ _ ∈ s.loop.queue))

/-- On the loop thread itself, no timer is cancelled while its addition waits among the
functors, or while it waits in the current batch for its run. -/
def InTime (s : TimerThreads) : Act → Prop
  | .cancelTimer id => ¬ s.AwaitsAdd id ∧ ¬ s.queue.AwaitsRun id
  | _ => True

/-- What every run keeps in which the loop thread cancels in time. -/
structure Quiet (s : TimerThreads) : Prop where
  queued : s.loop.Queued
  sequenced : s.queue.Sequenced
  old : ∀ id ∈ s.returned, id.sequence ≤ s.queue.counter
  lined : Lined s.loop.queue s.queue.Waits s.returned
  idle : s.loop.phase ≠ .handling → s.queue.batch = none
  silenced : s.queue.Silenced s.cancelled
  late : s.late = []

theorem new_quiet (isHandlingTimeout : Bool) : (new isHandlingTimeout).Quiet where
  queued := EventLoop.new_queued
  sequenced := new_sequenced isHandlingTimeout
  old := nofun
  lined := ⟨nofun, nofun, fun before _ _ parts => by cases before <;> cases parts⟩
  idle := fun _ => rfl
  silenced := ⟨nofun, nofun⟩
  late := rfl

section Steps
variable {s t : TimerThreads}

/-- An action of the queue leaves the loop and the returned ids alone. -/
structure QueueStep (s : TimerThreads) (a : TimerQueue.Act) (t : TimerThreads) : Prop where
  moved : s.queue.Moved a t.queue
  enabled : s.queue.Enabled a
  loop : t.loop = s.loop
  returned : t.returned = s.returned
  cancelled : t.cancelled = s.cancelled
  waits : ∀ id ∈ s.returned, t.queue.Waits id →
    s.queue.Waits id ∧ ∀ clock, a ≠ .addTimerInLoop id.timer clock

theorem onQueue_quiet (quiet : s.Quiet) {a : TimerQueue.Act}
    (within : isTimeout a = true → s.loop.phase = .handling) (next : s.onQueue a = some t) :
    t.Quiet ∧ QueueStep s a t := by
  obtain ⟨d, moves, rfl⟩ := Option.map_eq_some_iff.mp next
  have moved := step_moved quiet.sequenced.rep moves
  obtain ⟨enabled, -⟩ := exec_of_step moves
  have counter := counter_le moved enabled
  have waits : ∀ id ∈ s.returned, d.Waits id →
      s.queue.Waits id ∧ ∀ clock, a ≠ .addTimerInLoop id.timer clock := fun id known waiting =>
    waits_before quiet.sequenced moved enabled (quiet.old id known) waiting
  refine ⟨⟨quiet.queued, step_sequenced quiet.sequenced moves,
    fun id known => Nat.le_trans (quiet.old id known) counter,
    quiet.lined.mono fun id known waiting => (waits id known waiting).1, ?_,
    step_silenced moved enabled quiet.silenced, ?_⟩, ⟨moved, enabled, rfl, rfl, rfl, waits⟩⟩
  · intro outside
    have idle := quiet.idle outside
    rw [moved.batch]
    cases a with
    | beginTimeout | runTimer | endTimeout => exact absurd (within rfl) outside
    | newTimer | addTimerInLoop | cancelTimerInLoop | fire => exact idle
  · have none := invoked_silenced quiet.sequenced enabled quiet.silenced
    rw [quiet.late, List.nil_append]
    simpa using none

theorem cancelTimerInLoop_quiet (quiet : s.Quiet) {id : TimerID} (known : id ∈ s.returned)
    (added : ¬ s.queue.Waits id) (inTime : ¬ s.queue.AwaitsRun id)
    (next : s.cancelTimerInLoop id = some t) : t.Quiet ∧ t.loop = s.loop := by
  obtain ⟨u, moves, rfl⟩ := Option.map_eq_some_iff.mp next
  obtain ⟨after, moved⟩ := onQueue_quiet quiet (fun timeout => by cases timeout) moves
  have silenced : u.queue.Silenced (u.cancelled ++ [id]) := by
    rw [moved.cancelled]
    exact cancel_silenced quiet.sequenced moved.moved quiet.silenced (quiet.old id known)
      (fun named waiting => added ⟨named, waiting⟩) inTime
  exact ⟨⟨after.queued, after.sequenced, after.old, after.lined, after.idle, silenced, after.late⟩,
    moved.loop⟩

/-- The loop moves; its line stays as it is, or gains a functor. -/
theorem onLoop_quiet (quiet : s.Quiet) {a : EventLoop.Act TimerFunctor}
    (line : ∀ loop, s.loop.step a = some loop → Lined loop.queue s.queue.Waits s.returned)
    (dispatches : a = .doPendingFunctors → s.queue.batch = none) (next : s.onLoop a = some t) :
    t.Quiet := by
  obtain ⟨loop, moves, rfl⟩ := Option.map_eq_some_iff.mp next
  refine ⟨EventLoop.step_queued quiet.queued moves, quiet.sequenced, quiet.old, line loop moves, ?_,
    quiet.silenced, quiet.late⟩
  intro outside
  by_cases handling : s.loop.phase = .handling
  · refine dispatches ?_
    by_contra other
    exact outside (EventLoop.phase_of_handling handling other moves)
  · exact quiet.idle handling

theorem silent_or_other {a : EventLoop.Act TimerFunctor} (may : s.mayAdvance a = true) :
    a.silent = true ∨ a.posts = some .other := by
  cases a <;> simp_all [mayAdvance, EventLoop.Act.silent, EventLoop.Act.posts]

theorem advance_quiet (quiet : s.Quiet) {a : EventLoop.Act TimerFunctor}
    (may : s.mayAdvance a = true) (next : s.onLoop a = some t) : t.Quiet := by
  refine onLoop_quiet quiet (fun loop moves => ?_) ?_ next
  · rcases silent_or_other may with silent | posts
    · rw [EventLoop.step_queue_of_silent quiet.queued silent moves]
      exact quiet.lined
    · rw [EventLoop.step_queue_of_posts posts moves]
      exact quiet.lined.push nofun
  · rintro rfl
    simpa [mayAdvance] using may

theorem otherPushes_quiet (quiet : s.Quiet) {functor : TimerFunctor}
    (asks : ∀ id, functor = .cancelTimerInLoop id → id ∈ s.returned)
    (next : s.onLoop (.otherPushes functor) = some t) :
    t.Quiet ∧ t.queue = s.queue ∧ t.loop.queue = s.loop.queue ++ [functor] := by
  have line (loop : EventLoop TimerFunctor)
      (moves : s.loop.step (.otherPushes functor) = some loop) :
      loop.queue = s.loop.queue ++ [functor] := EventLoop.step_queue_of_posts rfl moves
  refine ⟨onLoop_quiet (a := .otherPushes functor) quiet (fun loop moves => ?_)
    (fun same => by cases same) next, ?_⟩
  · rw [line loop moves]
    exact quiet.lined.push asks
  · obtain ⟨loop, moves, rfl⟩ := Option.map_eq_some_iff.mp next
    exact ⟨rfl, line loop moves⟩

theorem step_otherAdds {timer : Nat} (next : s.step (.otherAdds timer) = some t) :
    ∃ id u, timer ∈ s.posting ∧ s.queue.idOf timer = some id ∧
      s.onLoop (.otherPushes (.addTimerInLoop timer)) = some u ∧
      t = { u with posting := u.posting.erase timer, returned := u.returned ++ [id] } := by
  obtain ⟨posts, adds⟩ := Option.ite_none_right_eq_some.mp next
  obtain ⟨id, named, pushes⟩ := Option.bind_eq_some_iff.mp adds
  obtain ⟨u, pushed, rfl⟩ := Option.map_eq_some_iff.mp pushes
  exact ⟨id, u, posts, named, pushed, rfl⟩

theorem step_addTimer {timer sequence : Nat} {when clock : Int} {interval : Option Nat}
    (next : s.step (.addTimer timer when interval sequence clock) = some t) :
    ∃ u v, s.onQueue (.newTimer timer when interval sequence) = some u ∧
      u.onQueue (.addTimerInLoop timer clock) = some v ∧
      t = { v with returned := v.returned ++ [⟨timer, sequence⟩] } := by
  obtain ⟨-, adds⟩ := Option.ite_none_right_eq_some.mp next
  obtain ⟨u, allocates, rest⟩ := Option.bind_eq_some_iff.mp adds
  obtain ⟨v, inserts, rfl⟩ := Option.map_eq_some_iff.mp rest
  exact ⟨u, v, allocates, inserts, rfl⟩

/-- The functor at the front of the line leaves it and is executed. -/
theorem step_runFunctor {clock : Int} (next : s.step (.runFunctor clock) = some t) :
    ∃ functor loop, s.loop.step .runFunctor = some loop ∧
      s.loop.queue = functor :: loop.queue ∧
      execute { s with loop := loop } clock functor = some t := by
  simp only [step] at next
  split at next
  · cases next
  · rename_i functor rest functors
    obtain ⟨u, popped, executes⟩ := Option.bind_eq_some_iff.mp next
    obtain ⟨loop, pops, rfl⟩ := Option.map_eq_some_iff.mp popped
    obtain ⟨head, isHead, line⟩ := EventLoop.queue_runFunctor pops
    rw [functors] at isHead
    cases isHead
    exact ⟨functor, loop, pops, line, executes⟩

/-- The loop drops its first functor, whose effect on the queue has been seen to. -/
theorem pop_quiet (quiet : s.Quiet) {functor : TimerFunctor} {loop : EventLoop TimerFunctor}
    (pops : s.loop.step .runFunctor = some loop) (line : s.loop.queue = functor :: loop.queue)
    (done : ∀ id ∈ s.returned, s.queue.Waits id → functor ≠ .addTimerInLoop id.timer) :
    Quiet { s with loop := loop } := by
  have lined := quiet.lined
  rw [line] at lined
  obtain ⟨-, functor, rest, -, same⟩ := EventLoop.step_runFunctor pops
  have phase : loop.phase = s.loop.phase := by rw [same]
  exact ⟨EventLoop.step_queued quiet.queued pops, quiet.sequenced, quiet.old, lined.pop done,
    fun outside => quiet.idle (phase ▸ outside), quiet.silenced, quiet.late⟩

/-- A posted functor runs: it reads the queue as it is, and the loop only drops it. -/
theorem execute_onLoop (functor : TimerFunctor) (clock : Int) (loop : EventLoop TimerFunctor) :
    execute { s with loop := loop } clock functor =
      (s.execute clock functor).map fun t => { t with loop := loop } := by
  cases functor with
  | addTimerInLoop timer => simp [execute, onQueue, Function.comp_def]
  | cancelTimerInLoop id => simp [execute, cancelTimerInLoop, onQueue, Function.comp_def]
  | other => rfl

theorem runFunctor_quiet (quiet : s.Quiet) {clock : Int} {functor : TimerFunctor}
    {loop : EventLoop TimerFunctor} (pops : s.loop.step .runFunctor = some loop)
    (line : s.loop.queue = functor :: loop.queue)
    (next : execute { s with loop := loop } clock functor = some t) : t.Quiet := by
  rw [execute_onLoop] at next
  obtain ⟨u, executes, rfl⟩ := Option.map_eq_some_iff.mp next
  cases functor with
  | addTimerInLoop timer =>
    obtain ⟨after, moved⟩ := onQueue_quiet quiet (fun timeout => by cases timeout) executes
    rw [← moved.loop] at pops line
    refine pop_quiet after pops line fun id known waiting same => ?_
    rw [moved.returned] at known
    cases same
    exact (moved.waits id known waiting).2 clock rfl
  | cancelTimerInLoop id =>
    -- the cancellation is at the front of the line, and no timeout is being handled
    have lined := quiet.lined
    rw [line] at lined
    obtain ⟨running, -⟩ := EventLoop.step_runFunctor pops
    have idle : s.queue.batch = none := quiet.idle (by simp [running])
    have inTime : ¬ s.queue.AwaitsRun id := by
      rintro ⟨-, waits⟩
      simp [toRun, idle] at waits
    obtain ⟨after, same⟩ := cancelTimerInLoop_quiet quiet
      (lined.asked id List.mem_cons_self) lined.front inTime executes
    rw [← same] at pops line
    exact pop_quiet after pops line fun _ _ _ same => by cases same
  | other =>
    cases executes
    exact pop_quiet quiet pops line fun _ _ _ same => by cases same

/-- `addTimer` returns an id whose timer waits in the line, or has been inserted. -/
theorem returns_quiet (quiet : s.Quiet) {id : TimerID} (old : id.sequence ≤ s.queue.counter)
    (inLine : s.queue.Waits id → .addTimerInLoop id.timer ∈ s.loop.queue) :
    Quiet { s with returned := s.returned ++ [id] } := by
  refine ⟨quiet.queued, quiet.sequenced, ?_, quiet.lined.returns inLine, quiet.idle,
    quiet.silenced, quiet.late⟩
  intro other known
  rcases List.mem_append.mp known with earlier | now
  · exact quiet.old other earlier
  · rw [List.mem_singleton.mp now]
    exact old

theorem addTimer_quiet (quiet : s.Quiet) {timer : Nat} {when : Int} {interval : Option Nat}
    {sequence : Nat} {clock : Int} {u : TimerThreads}
    (allocates : s.onQueue (.newTimer timer when interval sequence) = some u)
    (inserts : u.onQueue (.addTimerInLoop timer clock) = some t) :
    Quiet { t with returned := t.returned ++ [⟨timer, sequence⟩] } := by
  obtain ⟨fresh, allocated⟩ := onQueue_quiet quiet (fun timeout => by cases timeout) allocates
  obtain ⟨after, inserted⟩ := onQueue_quiet fresh (fun timeout => by cases timeout) inserts
  have counter : u.queue.counter = sequence := allocated.moved.counter
  have old : sequence ≤ t.queue.counter :=
    counter ▸ counter_le inserted.moved inserted.enabled
  refine returns_quiet after old fun waits => ?_
  exact absurd rfl
    ((waits_before fresh.sequenced inserted.moved inserted.enabled counter.ge waits).2 clock)

theorem otherAdds_quiet (quiet : s.Quiet) {timer : Nat} {id : TimerID}
    (named : s.queue.idOf timer = some id)
    (next : s.onLoop (.otherPushes (.addTimerInLoop timer)) = some t) :
    Quiet { t with posting := t.posting.erase timer, returned := t.returned ++ [id] } := by
  have plain (other : TimerID)
      (same : TimerFunctor.addTimerInLoop timer = .cancelTimerInLoop other) :
      other ∈ s.returned := by cases same
  obtain ⟨after, queue, line⟩ := otherPushes_quiet quiet plain next
  obtain ⟨v, found, rfl⟩ := Option.map_eq_some_iff.mp named
  have old : v.sequence ≤ t.queue.counter := queue ▸ (quiet.sequenced.bounded timer v found).2
  have returned : Quiet { t with returned := t.returned ++ [⟨timer, v.sequence⟩] } :=
    returns_quiet after old fun _ => by simp [line]
  exact ⟨returned.queued, returned.sequenced, returned.old, returned.lined, returned.idle,
    returned.silenced, returned.late⟩

theorem step_quiet (quiet : s.Quiet) {a : Act} (inTime : s.InTime a) (next : s.step a = some t) :
    t.Quiet := by
  cases a with
  | otherNews timer when interval sequence =>
    obtain ⟨u, allocates, rfl⟩ := Option.map_eq_some_iff.mp next
    obtain ⟨after, -⟩ := onQueue_quiet quiet (fun timeout => by cases timeout) allocates
    exact ⟨after.queued, after.sequenced, after.old, after.lined, after.idle, after.silenced,
      after.late⟩
  | otherAdds timer =>
    obtain ⟨id, u, -, named, pushes, rfl⟩ := step_otherAdds next
    exact otherAdds_quiet quiet named pushes
  | otherCancels id =>
    obtain ⟨known, pushes⟩ := Option.ite_none_right_eq_some.mp next
    refine (otherPushes_quiet quiet (fun other same => ?_) pushes).1
    cases same
    exact known
  | addTimer timer when interval sequence clock =>
    obtain ⟨u, v, allocates, inserts, rfl⟩ := step_addTimer next
    exact addTimer_quiet quiet allocates inserts
  | cancelTimer id =>
    obtain ⟨⟨-, known⟩, cancels⟩ := Option.ite_none_right_eq_some.mp next
    refine (cancelTimerInLoop_quiet quiet known (fun waits => ?_) inTime.2 cancels).1
    exact inTime.1 ⟨waits.1, quiet.lined.posted id known waits⟩
  | timeout a =>
    obtain ⟨⟨handling, -⟩, moves⟩ := Option.ite_none_right_eq_some.mp next
    exact (onQueue_quiet quiet (fun _ => handling) moves).1
  | runFunctor clock =>
    obtain ⟨functor, loop, pops, line, executes⟩ := step_runFunctor next
    exact runFunctor_quiet quiet pops line executes
  | advance a =>
    obtain ⟨may, moves⟩ := Option.ite_none_right_eq_some.mp next
    exact advance_quiet quiet may moves

end Steps

/-! ## Posted additions -/

/-- The timer a functor adds. -/
def added : TimerFunctor → Option Nat
  | .addTimerInLoop timer => some timer
  | _ => none

/-- The timers that are to be added are those in the line and those about to be posted. -/
structure Supplied (s : TimerThreads) : Prop where
  queued : s.loop.Queued
  sequenced : s.queue.Sequenced
  waiting : (s.loop.queue.filterMap added ++ s.posting).Perm s.queue.unqueued

section Supplied
variable {s t : TimerThreads}

theorem onQueue_frame (sequenced : s.queue.Sequenced) {a : TimerQueue.Act}
    (next : s.onQueue a = some t) :
    t.queue.Sequenced ∧ t.queue.unqueued = s.queue.unqueuedAfter a ∧ t.loop = s.loop ∧
      t.posting = s.posting := by
  obtain ⟨d, moves, rfl⟩ := Option.map_eq_some_iff.mp next
  exact ⟨step_sequenced sequenced moves, (step_moved sequenced.rep moves).unqueued, rfl, rfl⟩

theorem onQueue_supplied (supplied : s.Supplied) {a : TimerQueue.Act}
    (same : s.queue.unqueuedAfter a = s.queue.unqueued) (next : s.onQueue a = some t) :
    t.Supplied := by
  obtain ⟨sequenced, unqueued, loop, posting⟩ := onQueue_frame supplied.sequenced next
  refine ⟨loop ▸ supplied.queued, sequenced, ?_⟩
  rw [unqueued, same, loop, posting]
  exact supplied.waiting

theorem cancelTimerInLoop_supplied (supplied : s.Supplied) {id : TimerID}
    (next : s.cancelTimerInLoop id = some t) : t.Supplied := by
  obtain ⟨u, moves, rfl⟩ := Option.map_eq_some_iff.mp next
  have after := onQueue_supplied supplied rfl moves
  exact ⟨after.queued, after.sequenced, after.waiting⟩

theorem addTimer_supplied (supplied : s.Supplied) {timer : Nat} {when : Int}
    {interval : Option Nat} {sequence : Nat} {clock : Int} {u : TimerThreads}
    (allocates : s.onQueue (.newTimer timer when interval sequence) = some u)
    (inserts : u.onQueue (.addTimerInLoop timer clock) = some t) : t.Supplied := by
  obtain ⟨fresh, grown, loop, posting⟩ := onQueue_frame supplied.sequenced allocates
  obtain ⟨sequenced, shrunk, loop', posting'⟩ := onQueue_frame fresh inserts
  have back : ((s.queue.unqueued ++ [timer]).erase timer).Perm s.queue.unqueued := by
    have moved := (List.perm_append_singleton timer s.queue.unqueued).erase timer
    rwa [List.erase_cons_head] at moved
  refine ⟨loop' ▸ loop ▸ supplied.queued, sequenced, ?_⟩
  rw [shrunk, unqueuedAfter, grown, unqueuedAfter, loop', loop, posting', posting]
  exact supplied.waiting.trans back.symm

theorem onLoop_supplied (supplied : s.Supplied) {a : EventLoop.Act TimerFunctor}
    (line : ∀ loop, s.loop.step a = some loop →
      loop.queue.filterMap added = s.loop.queue.filterMap added)
    (next : s.onLoop a = some t) : t.Supplied := by
  obtain ⟨loop, moves, rfl⟩ := Option.map_eq_some_iff.mp next
  refine ⟨EventLoop.step_queued supplied.queued moves, supplied.sequenced, ?_⟩
  rw [line loop moves]
  exact supplied.waiting

theorem advance_supplied (supplied : s.Supplied) {a : EventLoop.Act TimerFunctor}
    (may : s.mayAdvance a = true) (next : s.onLoop a = some t) : t.Supplied := by
  refine onLoop_supplied supplied (fun loop moves => ?_) next
  rcases silent_or_other may with silent | posts
  · rw [EventLoop.step_queue_of_silent supplied.queued silent moves]
  · rw [EventLoop.step_queue_of_posts posts moves]
    simp [added]

theorem otherAdds_supplied (supplied : s.Supplied) {timer : Nat} (posts : timer ∈ s.posting)
    {id : TimerID} (next : s.onLoop (.otherPushes (.addTimerInLoop timer)) = some t) :
    Supplied { t with posting := t.posting.erase timer, returned := t.returned ++ [id] } := by
  obtain ⟨loop, moves, rfl⟩ := Option.map_eq_some_iff.mp next
  refine ⟨EventLoop.step_queued supplied.queued moves, supplied.sequenced, ?_⟩
  have line : loop.queue = s.loop.queue ++ [.addTimerInLoop timer] :=
    EventLoop.step_queue_of_posts rfl moves
  have place : s.posting.Perm (timer :: s.posting.erase timer) := List.perm_cons_erase posts
  refine List.Perm.trans ?_ supplied.waiting
  simp only [line, List.filterMap_append, List.append_assoc]
  exact place.symm.append_left _

/-- The functor that runs finds its timer among those to be added. -/
theorem execute_supplied (supplied : s.Supplied) {clock : Int} {functor : TimerFunctor}
    {loop : EventLoop TimerFunctor} (pops : s.loop.step .runFunctor = some loop)
    (line : s.loop.queue = functor :: loop.queue)
    (next : execute { s with loop := loop } clock functor = some t) : t.Supplied := by
  have queued := EventLoop.step_queued supplied.queued pops
  have waiting := supplied.waiting
  rw [line] at waiting
  cases functor with
  | addTimerInLoop timer =>
    obtain ⟨sequenced, unqueued, loop', posting⟩ :=
      onQueue_frame (s := { s with loop := loop }) supplied.sequenced next
    refine ⟨loop' ▸ queued, sequenced, ?_⟩
    rw [unqueued, unqueuedAfter, loop', posting]
    exact (List.cons_perm_iff_perm_erase.mp waiting).2
  | cancelTimerInLoop id =>
    have popped : Supplied { s with loop := loop } := ⟨queued, supplied.sequenced, waiting⟩
    exact cancelTimerInLoop_supplied popped next
  | other =>
    cases next
    exact ⟨queued, supplied.sequenced, waiting⟩

theorem step_supplied (supplied : s.Supplied) {a : Act} (next : s.step a = some t) :
    t.Supplied := by
  cases a with
  | otherNews timer when interval sequence =>
    obtain ⟨u, allocates, rfl⟩ := Option.map_eq_some_iff.mp next
    obtain ⟨sequenced, unqueued, loop, posting⟩ := onQueue_frame supplied.sequenced allocates
    refine ⟨loop ▸ supplied.queued, sequenced, ?_⟩
    rw [unqueued, unqueuedAfter, loop, posting, ← List.append_assoc]
    exact supplied.waiting.append_right [timer]
  | otherAdds timer =>
    obtain ⟨id, u, posts, -, pushed, rfl⟩ := step_otherAdds next
    exact otherAdds_supplied supplied posts pushed
  | otherCancels id =>
    obtain ⟨-, pushes⟩ := Option.ite_none_right_eq_some.mp next
    refine onLoop_supplied supplied (fun loop moves => ?_) pushes
    have line : loop.queue = s.loop.queue ++ [.cancelTimerInLoop id] :=
      EventLoop.step_queue_of_posts rfl moves
    simp [line, added]
  | addTimer timer when interval sequence clock =>
    obtain ⟨u, v, allocates, inserts, rfl⟩ := step_addTimer next
    have after := addTimer_supplied supplied allocates inserts
    exact ⟨after.queued, after.sequenced, after.waiting⟩
  | cancelTimer id =>
    obtain ⟨-, cancels⟩ := Option.ite_none_right_eq_some.mp next
    exact cancelTimerInLoop_supplied supplied cancels
  | timeout a =>
    obtain ⟨⟨-, timeout⟩, moves⟩ := Option.ite_none_right_eq_some.mp next
    refine onQueue_supplied supplied ?_ moves
    cases a with
    | beginTimeout | runTimer | endTimeout => rfl
    | newTimer | addTimerInLoop | cancelTimerInLoop | fire => cases timeout
  | runFunctor clock =>
    obtain ⟨functor, loop, pops, line, executes⟩ := step_runFunctor next
    exact execute_supplied supplied pops line executes
  | advance a =>
    obtain ⟨may, moves⟩ := Option.ite_none_right_eq_some.mp next
    exact advance_supplied supplied may moves

theorem isSome_runFunctor (supplied : s.Supplied) (running : s.loop.phase = .running)
    (more : s.loop.functors ≠ []) (clock : Int) : (s.step (.runFunctor clock)).isSome = true := by
  obtain ⟨functor, rest, functors⟩ := List.exists_cons_of_ne_nil more
  obtain ⟨loop, pops⟩ : ∃ loop, s.loop.step .runFunctor = some loop :=
    ⟨_, by rw [EventLoop.step, running, functors]⟩
  have finds (a : TimerQueue.Act) (enabled : s.queue.Enabled a) :
      (onQueue { s with loop := loop } a).isSome = true := by
    obtain ⟨d, moves, -⟩ := step_of_enabled supplied.sequenced enabled
    simp [onQueue, moves]
  simp only [step, functors, onLoop, pops, Option.map_some, Option.bind_some]
  cases functor with
  | addTimerInLoop timer =>
    refine finds (.addTimerInLoop timer clock) (supplied.waiting.subset ?_)
    simp [EventLoop.queue, functors, added]
  | cancelTimerInLoop id =>
    simpa [execute, cancelTimerInLoop] using
      finds (.cancelTimerInLoop id.timer id.sequence) trivial
  | other => rfl

end Supplied

/-- In every interleaving each functor of the line can run: the timer it adds is allocated, and
has not been added before. -/
theorem posted_functors_run (isHandlingTimeout : Bool) (actions : List Act) :
    Schedules.Along step (fun s _ => ∀ clock, s.loop.phase = .running → s.loop.functors ≠ [] →
      (s.step (.runFunctor clock)).isSome = true) (new isHandlingTimeout) actions :=
  Schedules.along_of_invariant (fun _ _ _ supplied next => step_supplied supplied next)
    (fun _ _ supplied clock running more => isSome_runFunctor supplied running more clock)
    ⟨EventLoop.new_queued, new_sequenced isHandlingTimeout, List.Perm.refl _⟩ actions

/-! ## Whole runs -/

/-- In every interleaving in which the loop thread itself cancels no timer whose addition
waits among the functors or that waits in the current batch for its run, no callback is
invoked once `cancelTimerInLoop` has executed for its timer, posted cancellations included. -/
theorem cancelled_across_threads (isHandlingTimeout : Bool) (actions : List Act)
    (inTime : Schedules.Along step InTime (new isHandlingTimeout) actions) :
    Schedules.Throughout step (fun s => s.late = []) (new isHandlingTimeout) actions :=
  Schedules.throughout_of_along (fun _ _ _ quiet inTime next => step_quiet quiet inTime next)
    (fun _ quiet => quiet.late) (new_quiet isHandlingTimeout) inTime

/-- A timer is added by one thread and cancelled by another, both posted; a second one is
cancelled on the loop thread after it has been inserted. -/
theorem posted_cancel_across_threads :
    let actions : List Act := [.advance .loop, .otherNews 1 10 (some 5) 1, .otherAdds 1,
      .otherCancels ⟨1, 1⟩, .otherNews 2 20 none 2, .otherAdds 2, .advance (.pollReturns false),
      .advance .doPendingFunctors, .advance .swap, .runFunctor 0, .runFunctor 0, .runFunctor 0,
      .cancelTimer ⟨2, 2⟩, .advance .clearFlag, .advance .testQuit, .advance (.pollReturns false),
      .timeout (.beginTimeout 30), .timeout (.endTimeout 31)]
    Schedules.Along step InTime (new false) actions ∧
      Schedules.Throughout step (fun s => s.late = []) (new false) actions := by
  have inTime : Schedules.Along step InTime (new false) [.advance .loop,
      .otherNews 1 10 (some 5) 1, .otherAdds 1, .otherCancels ⟨1, 1⟩, .otherNews 2 20 none 2,
      .otherAdds 2, .advance (.pollReturns false), .advance .doPendingFunctors, .advance .swap,
      .runFunctor 0, .runFunctor 0, .runFunctor 0, .cancelTimer ⟨2, 2⟩, .advance .clearFlag,
      .advance .testQuit, .advance (.pollReturns false), .timeout (.beginTimeout 30),
      .timeout (.endTimeout 31)] := by
    refine .cons trivial rfl <| .cons trivial rfl <| .cons trivial rfl <| .cons trivial rfl <|
      .cons trivial rfl <| .cons trivial rfl <| .cons trivial rfl <| .cons trivial rfl <|
      .cons trivial rfl <| .cons trivial rfl <| .cons trivial rfl <| .cons trivial rfl <|
      ⟨?_, fun _ _ => ⟨trivial, fun _ _ => ⟨trivial, fun _ _ => ⟨trivial, fun _ _ =>
        ⟨trivial, fun _ _ => ⟨trivial, fun _ _ => trivial⟩⟩⟩⟩⟩⟩
    exact ⟨by decide, by decide⟩
  exact ⟨inTime, cancelled_across_threads false _ inTime⟩

/-- The loop thread cancels a timer that another thread has added and whose addition still
waits: the id is forgotten, the timer is inserted, and its callback is invoked. -/
theorem cancelled_before_added_run :
    ∃ s, Schedules.run step (new false) [.advance .loop, .advance (.pollReturns false),
        .otherNews 1 10 none 1, .otherAdds 1, .cancelTimer ⟨1, 1⟩, .advance .otherWakes,
        .advance .doPendingFunctors, .advance .swap, .runFunctor 0, .advance .clearFlag,
        .advance .testQuit, .advance (.pollReturns false), .timeout (.beginTimeout 30),
        .timeout .runTimer] = some s ∧ s.cancelled = [⟨1, 1⟩] ∧ s.late = [⟨1, 1⟩] := by
  obtain ⟨s, reached, moves, idle, handling, due, named, cancelled, quiet⟩ :
      ∃ s, Schedules.run step (new false) [.advance .loop, .advance (.pollReturns false),
          .otherNews 1 10 none 1, .otherAdds 1, .cancelTimer ⟨1, 1⟩, .advance .otherWakes,
          .advance .doPendingFunctors, .advance .swap, .runFunctor 0, .advance .clearFlag,
          .advance .testQuit, .advance (.pollReturns false)] = some s ∧
        Schedules.run TimerQueue.step (.new false) [.newTimer 1 10 none 1, .cancelTimerInLoop 1 1,
          .addTimerInLoop 1 0] = some s.queue ∧
        s.queue.batch = none ∧ s.loop.phase = .handling ∧
        s.queue.expiredEntries 30 = [toLex (10, 1)] ∧ s.queue.idOf 1 = some ⟨1, 1⟩ ∧
        s.cancelled = [⟨1, 1⟩] ∧ s.late = [] :=
    ⟨_, rfl, rfl, rfl, rfl, expiredEntries_eq (by decide) (by decide), rfl, rfl, rfl⟩
  have sequenced : s.queue.Sequenced := Schedules.run_invariant (P := fun _ _ => True)
    (fun q a d inv _ next => step_sequenced inv next) (new_sequenced false)
    (Schedules.along_true _ _) moves
  obtain ⟨d, begun, moved, sequenced'⟩ :=
    step_of_enabled sequenced (a := .beginTimeout 30) idle
  have batch : d.batch = some ⟨30, [toLex (10, 1)], 0⟩ := by
    rw [moved.batch, batchAfter, due]
  obtain ⟨e, ran, -, -⟩ := step_of_enabled sequenced' (a := .runTimer) (by
    rw [Enabled, batch]
    rfl)
  have place : d.idOf 1 = some ⟨1, 1⟩ := by
    rw [idOf, moved.heap]
    exact named
  have invoked : d.invoked .runTimer = [⟨1, 1⟩] := by
    simp [TimerQueue.invoked, batch, place]
  have first : s.step (.timeout (.beginTimeout 30)) = some { s with queue := d, late := [] } := by
    simp [step, handling, isTimeout, onQueue, begun, quiet, TimerQueue.invoked]
  have second : step { s with queue := d, late := [] } (.timeout .runTimer) =
      some { s with queue := e, late := [⟨1, 1⟩] } := by
    simp [step, handling, isTimeout, onQueue, ran, invoked, cancelled]
  have goesOn : Schedules.run step s [.timeout (.beginTimeout 30), .timeout .runTimer] =
      some { s with queue := e, late := [⟨1, 1⟩] } :=
    Schedules.run_cons_eq_some.mpr ⟨_, first, Schedules.run_cons_eq_some.mpr ⟨_, second, rfl⟩⟩
  exact ⟨_, Schedules.run_append reached goesOn, cancelled, rfl⟩

end TimerThreads

end Arale
