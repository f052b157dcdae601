import Mathlib.Algebra.Group.Nat.Defs
import Arale.Lib.Schedules

/-!
# The functor queue of an event loop

`EventLoop` of `net/EventLoop.cc` with its pending functors, its wake-up counter
(an `eventfd`) and the place the loop thread has reached inside `loop()`. Functors
are opaque: the queue neither inspects nor copies them. Posting from another
thread takes two steps, the `push_back` under the mutex and the write to the
wake-up descriptor; everything the loop thread does itself is one step per
statement that another thread can observe. `pushed` and `executed` are histories.
-/

namespace Arale

universe u

/-- Where the loop thread is. -/
inductive LoopPhase where
  /-- constructed, `loop()` not entered yet -/
  | created
  /-- about to call `poll` -/
  | entering
  /-- dispatching `activeChannels_` -/
  | handling
  /-- in `doPendingFunctors`, flag set, queue not yet swapped -/
  | draining
  /-- running the local vector of functors -/
  | running
  /-- flag cleared, the local vector going out of scope -/
  | releasing
  /-- `loop()` has returned -/
  | stopped
  deriving DecidableEq, Repr

structure EventLoop (F : Type u) where
  phase : LoopPhase
  quit : Bool
  isHandlingPendingFunctors : Bool
  pendingFunctors : List F
  /-- what is left of the local vector in `doPendingFunctors` -/
  functors : List F
  wakeupCounter : Nat
  /-- the wake-up channel is in `activeChannels_` and not dispatched yet -/
  wakeupActive : Bool
  /-- posters on other threads between their `push_back` and their `weakup` -/
  unwoken : Nat
  pushed : List F
  executed : List F

namespace EventLoop

variable {F : Type u}

def new : EventLoop F where
  phase := .created
  quit := false
  isHandlingPendingFunctors := false
  pendingFunctors := []
  functors := []
  wakeupCounter := 0
  wakeupActive := false
  unwoken := 0
  pushed := []
  executed := []

/-- The largest value an `eventfd` holds; a write beyond it fails with `EAGAIN`. -/
def eventfdMax : Nat := 2 ^ 64 - 2

def weakup (l : EventLoop F) : EventLoop F :=
  { l with wakeupCounter :=
      if l.wakeupCounter < eventfdMax then l.wakeupCounter + 1 else l.wakeupCounter }

/-- Reading the `eventfd` resets it. -/
def handleWakeup (l : EventLoop F) : EventLoop F := { l with wakeupCounter := 0 }

/-- The critical section of `postFuntor`. -/
def push (l : EventLoop F) (functor : F) : EventLoop F :=
  { l with pendingFunctors := l.pendingFunctors ++ [functor]
           pushed := l.pushed ++ [functor] }

def postFuntor (l : EventLoop F) (isInLoopThread : Bool) (functor : F) : EventLoop F :=
  let l := l.push functor
  if !isInLoopThread || l.isHandlingPendingFunctors then l.weakup else l

/-- The critical section of `doPendingFunctors`. -/
def swap (l : EventLoop F) : EventLoop F :=
  { l with functors := l.pendingFunctors, pendingFunctors := [] }

def quitLoop (l : EventLoop F) (isInLoopThread : Bool) : EventLoop F :=
  let l := { l with quit := true }
  if !isInLoopThread then l.weakup else l

inductive Act (F : Type u) where
  /-- `loop()` is entered and clears `quit_` -/
  | loop
  /-- `poll` returns, with or without the wake-up channel among the active ones -/
  | pollReturns (wakeupReported : Bool)
  /-- the wake-up channel is dispatched -/
  | handleWakeup
  /-- an event callback posts -/
  | callbackPosts (functor : F)
  | doPendingFunctors
  | swap
  /-- `functors[i]()` -/
  | runFunctor
  /-- a functor that is being run posts -/
  | functorPosts (functor : F)
  /-- the loop over the local vector is over, the flag is cleared -/
  | clearFlag
  /-- a destructor of something a functor captured posts -/
  | destructorPosts (functor : F)
  /-- `doPendingFunctors` returns and `while (!quit_)` is tested -/
  | testQuit
  /-- the loop's own thread posts before `loop()` -/
  | ownerPosts (functor : F)
  | otherPushes (functor : F)
  | otherWakes
  | quitLoop (isInLoopThread : Bool)

def step (l : EventLoop F) : Act F → Option (EventLoop F)
  | .loop =>
    if l.phase = .created then some { l with phase := .entering, quit := false } else none
  | .pollReturns reported =>
    if l.phase = .entering ∧ (reported = true → 0 < l.wakeupCounter) then
      some { l with phase := .handling, wakeupActive := reported }
    else none
  | .handleWakeup =>
    if l.phase = .handling ∧ l.wakeupActive = true then
      some { l.handleWakeup with wakeupActive := false }
    else none
  | .callbackPosts functor =>
    if l.phase = .handling then some (l.postFuntor true functor) else none
  | .doPendingFunctors =>
    if l.phase = .handling ∧ l.wakeupActive = false then
      some { l with phase := .draining, isHandlingPendingFunctors := true }
    else none
  | .swap => if l.phase = .draining then some { l.swap with phase := .running } else none
  | .runFunctor =>
    match l.phase, l.functors with
    | .running, functor :: rest =>
      some { l with functors := rest, executed := l.executed ++ [functor] }
    | _, _ => none
  | .functorPosts functor =>
    if l.phase = .running then some (l.postFuntor true functor) else none
  | .clearFlag =>
    if l.phase = .running ∧ l.functors.isEmpty then
      some { l with phase := .releasing, isHandlingPendingFunctors := false }
    else none
  | .destructorPosts functor =>
    if l.phase = .releasing then some (l.postFuntor true functor) else none
  | .testQuit =>
    if l.phase = .releasing then
      some { l with phase := if l.quit then .stopped else .entering }
    else none
  | .ownerPosts functor =>
    if l.phase = .created then some (l.postFuntor true functor) else none
  | .otherPushes functor => some { l.push functor with unwoken := l.unwoken + 1 }
  | .otherWakes =>
    if 0 < l.unwoken then some { l.weakup with unwoken := l.unwoken - 1 } else none
  | .quitLoop inLoop => some (l.quitLoop inLoop)

/-- Posts by other threads, by event callbacks and by running functors; not those
the loop's own thread makes outside dispatch. -/
def Dispatched : Act F → Prop
  | .ownerPosts _ => False
  | .destructorPosts _ => False
  | _ => True

/-! ## The queue -/

/-- Everything ever pushed, in order, has run, is in the local vector or waits. The
flag and the local vector belong to `doPendingFunctors` only. -/
structure Queued (l : EventLoop F) : Prop where
  accounted : l.pushed = l.executed ++ l.functors ++ l.pendingFunctors
  vector : l.phase ≠ .running → l.functors = []
  flag : l.isHandlingPendingFunctors = true ↔ l.phase = .draining ∨ l.phase = .running

/-- Outside dispatch and draining a waiting functor is announced: the counter is
up, or its poster is about to raise it. -/
def Wakeful (l : EventLoop F) : Prop :=
  l.phase ≠ .handling → l.phase ≠ .draining → l.pendingFunctors ≠ [] →
    0 < l.wakeupCounter ∨ 0 < l.unwoken

theorem weakup_counter_pos (l : EventLoop F) : 0 < l.weakup.wakeupCounter := by
  have max : 0 < eventfdMax := by decide
  simp only [weakup]
  split <;> omega

theorem push_queued {l : EventLoop F} (h : l.Queued) (functor : F) : (l.push functor).Queued := by
  refine ⟨?_, h.vector, h.flag⟩
  simp only [push, h.accounted, List.append_assoc]

theorem weakup_queued {l : EventLoop F} (h : l.Queued) : l.weakup.Queued :=
  ⟨h.accounted, h.vector, h.flag⟩

theorem postFuntor_queued {l : EventLoop F} (h : l.Queued) (inLoop : Bool) (functor : F) :
    (l.postFuntor inLoop functor).Queued := by
  have pushed := push_queued h functor
  rw [postFuntor]
  split
  · exact weakup_queued pushed
  · exact pushed

@[simp] theorem postFuntor_phase (l : EventLoop F) (inLoop : Bool) (functor : F) :
    (l.postFuntor inLoop functor).phase = l.phase := by
  rw [postFuntor]
  split <;> rfl

theorem new_queued : (new : EventLoop F).Queued :=
  ⟨rfl, fun _ => rfl, by simp [new]⟩

theorem step_runFunctor {l l' : EventLoop F} (next : l.step .runFunctor = some l') :
    l.phase = .running ∧ ∃ functor rest, l.functors = functor :: rest ∧
      l' = { l with functors := rest, executed := l.executed ++ [functor] } := by
  simp only [step] at next
  split at next
  · rename_i functor rest hp hf
    exact ⟨hp, functor, rest, hf, by simpa [eq_comm] using next⟩
  · cases next

theorem step_queued {l l' : EventLoop F} {a : Act F} (h : l.Queued)
    (next : l.step a = some l') : l'.Queued := by
  cases a with
  | loop =>
    obtain ⟨hp, rfl⟩ := by simpa [step] using next
    exact ⟨h.accounted, fun _ => h.vector (by simp [hp]), by simpa [hp] using h.flag⟩
  | pollReturns reported =>
    obtain ⟨⟨hp, -⟩, rfl⟩ := by simpa [step] using next
    exact ⟨h.accounted, fun _ => h.vector (by simp [hp]), by simpa [hp] using h.flag⟩
  | handleWakeup =>
    obtain ⟨-, rfl⟩ := by simpa [step] using next
    exact ⟨h.accounted, h.vector, h.flag⟩
  | callbackPosts functor =>
    obtain ⟨-, rfl⟩ := by simpa [step] using next
    exact postFuntor_queued h true functor
  | doPendingFunctors =>
    obtain ⟨⟨hp, -⟩, rfl⟩ := by simpa [step] using next
    exact ⟨h.accounted, fun _ => h.vector (by simp [hp]), by simp⟩
  | swap =>
    obtain ⟨hp, rfl⟩ := by simpa [step] using next
    have empty := h.vector (by simp [hp])
    refine ⟨?_, fun running => absurd rfl running, ?_⟩
    · simp [EventLoop.swap, h.accounted, empty]
    · simp [EventLoop.swap, h.flag, hp]
  | runFunctor =>
    obtain ⟨hp, functor, rest, hf, rfl⟩ := step_runFunctor next
    refine ⟨?_, fun notRunning => absurd hp notRunning, h.flag⟩
    simp [h.accounted, hf]
  | functorPosts functor =>
    obtain ⟨-, rfl⟩ := by simpa [step] using next
    exact postFuntor_queued h true functor
  | clearFlag =>
    obtain ⟨⟨-, empty⟩, rfl⟩ := by simpa [step] using next
    exact ⟨h.accounted, fun _ => empty, by simp⟩
  | destructorPosts functor =>
    obtain ⟨-, rfl⟩ := by simpa [step] using next
    exact postFuntor_queued h true functor
  | testQuit =>
    obtain ⟨hp, rfl⟩ := by simpa [step] using next
    have empty := h.vector (by simp [hp])
    refine ⟨h.accounted, fun _ => empty, ?_⟩
    have flag := h.flag
    cases hq : l.quit <;> simpa [hp] using flag
  | ownerPosts functor =>
    obtain ⟨-, rfl⟩ := by simpa [step] using next
    exact postFuntor_queued h true functor
  | otherPushes functor =>
    obtain rfl := by simpa [step] using next
    have pushed := push_queued h functor
    exact ⟨pushed.accounted, pushed.vector, pushed.flag⟩
  | otherWakes =>
    obtain ⟨-, rfl⟩ := by simpa [step] using next
    exact ⟨h.accounted, h.vector, h.flag⟩
  | quitLoop inLoop =>
    obtain rfl := by simpa [step] using next
    cases inLoop <;> exact ⟨h.accounted, h.vector, h.flag⟩

/-! ## What is still to run -/

/-- The functors that have been pushed and have not run, in order. -/
def queue (l : EventLoop F) : List F := l.functors ++ l.pendingFunctors

@[simp] theorem queue_postFuntor (l : EventLoop F) (inLoop : Bool) (functor : F) :
    (l.postFuntor inLoop functor).queue = l.queue ++ [functor] := by
  rw [postFuntor]
  split <;> simp [queue, push, weakup]

/-- At most one functor, of the kind `P`, has been handed to the loop. -/
inductive Posted (P : F → Prop) (l : EventLoop F) : EventLoop F → Prop where
  | none : Posted P l l
  | one (inLoop : Bool) {functor : F} (kind : P functor) : Posted P l (l.postFuntor inLoop functor)

section Posted
variable {P Q : F → Prop} {l l' : EventLoop F}

theorem Posted.mono (posted : Posted P l l') (wider : ∀ f, P f → Q f) : Posted Q l l' := by
  cases posted with
  | none => exact .none
  | one inLoop kind => exact .one inLoop (wider _ kind)

theorem Posted.queued (posted : Posted P l l') (h : l.Queued) : l'.Queued := by
  cases posted with
  | none => exact h
  | one inLoop _ => exact postFuntor_queued h inLoop _

theorem Posted.queue (posted : Posted P l l') :
    ∃ added, l'.queue = l.queue ++ added ∧ ∀ f ∈ added, P f := by
  cases posted with
  | none => exact ⟨[], by simp, by simp⟩
  | one inLoop kind => exact ⟨_, queue_postFuntor l inLoop _, by simpa using kind⟩

end Posted

/-- The actions that neither post nor run a functor. -/
def Act.silent : Act F → Bool
  | .loop | .pollReturns _ | .handleWakeup | .doPendingFunctors | .swap | .clearFlag
  | .testQuit | .otherWakes | .quitLoop _ => true
  | _ => false

theorem step_queue_of_silent {l l' : EventLoop F} {a : Act F} (queued : l.Queued)
    (silent : a.silent = true) (next : l.step a = some l') : l'.queue = l.queue := by
  cases a with
  | swap =>
    obtain ⟨hp, rfl⟩ := by simpa [step] using next
    have empty := queued.vector (by simp [hp])
    simp [queue, EventLoop.swap, empty]
  | loop | pollReturns | handleWakeup | doPendingFunctors | clearFlag | testQuit | otherWakes =>
    obtain ⟨-, rfl⟩ := by simpa [step] using next
    rfl
  | quitLoop inLoop =>
    obtain rfl := by simpa [step] using next
    cases inLoop <;> rfl
  | callbackPosts | runFunctor | functorPosts | destructorPosts | ownerPosts | otherPushes =>
    cases silent

/-- The functor an action hands to the loop. -/
def Act.posts : Act F → Option F
  | .callbackPosts functor | .functorPosts functor | .destructorPosts functor
  | .ownerPosts functor | .otherPushes functor => some functor
  | _ => none

theorem step_queue_of_posts {l l' : EventLoop F} {a : Act F} {functor : F}
    (posts : a.posts = some functor) (next : l.step a = some l') :
    l'.queue = l.queue ++ [functor] := by
  cases a with
  | callbackPosts | functorPosts | destructorPosts | ownerPosts =>
    cases posts
    obtain ⟨-, rfl⟩ := by simpa [step] using next
    exact queue_postFuntor l true functor
  | otherPushes =>
    cases posts
    obtain rfl := by simpa [step] using next
    simp [queue, push]
  | loop | pollReturns | handleWakeup | doPendingFunctors | swap | runFunctor | clearFlag
  | testQuit | otherWakes | quitLoop => cases posts

theorem postFuntor_lists (l : EventLoop F) (inLoop : Bool) (functor : F) :
    (l.postFuntor inLoop functor).functors = l.functors ∧
      (l.postFuntor inLoop functor).pendingFunctors = l.pendingFunctors ++ [functor] := by
  rw [postFuntor]
  split
  · exact ⟨rfl, rfl⟩
  · exact ⟨rfl, rfl⟩

/-- Only the swap and the functors themselves move what is in the two lists. -/
theorem step_lists {l l' : EventLoop F} {a : Act F} (runs : a ≠ .runFunctor) (swaps : a ≠ .swap)
    (next : l.step a = some l') :
    l'.functors = l.functors ∧ l'.pendingFunctors = l.pendingFunctors ++ a.posts.toList := by
  cases a with
  | callbackPosts functor | functorPosts functor | destructorPosts functor | ownerPosts functor =>
    obtain ⟨-, rfl⟩ := by simpa [step] using next
    exact postFuntor_lists l true functor
  | otherPushes functor =>
    cases next
    exact ⟨rfl, rfl⟩
  | quitLoop inLoop =>
    cases next
    cases inLoop with
    | true => exact ⟨rfl, (List.append_nil _).symm⟩
    | false => exact ⟨rfl, (List.append_nil _).symm⟩
  | loop | pollReturns | handleWakeup | doPendingFunctors | clearFlag | testQuit | otherWakes =>
    obtain ⟨-, rfl⟩ := by simpa [step] using next
    exact ⟨rfl, (List.append_nil _).symm⟩
  | swap => exact absurd rfl swaps
  | runFunctor => exact absurd rfl runs

/-- Dispatch ends only in `doPendingFunctors`. -/
theorem phase_of_handling {l l' : EventLoop F} {a : Act F} (handling : l.phase = .handling)
    (dispatches : a ≠ .doPendingFunctors) (next : l.step a = some l') :
    l'.phase = .handling := by
  cases a with
  | handleWakeup =>
    obtain ⟨-, rfl⟩ := by simpa [step] using next
    exact handling
  | callbackPosts functor =>
    obtain ⟨-, rfl⟩ := by simpa [step] using next
    rw [postFuntor_phase]
    exact handling
  | doPendingFunctors => exact absurd rfl dispatches
  | otherPushes functor =>
    obtain rfl := by simpa [step] using next
    exact handling
  | otherWakes =>
    obtain ⟨-, rfl⟩ := by simpa [step] using next
    exact handling
  | quitLoop inLoop =>
    obtain rfl := by simpa [step] using next
    cases inLoop <;> exact handling
  | loop | pollReturns | swap | runFunctor | functorPosts | clearFlag | destructorPosts
  | testQuit | ownerPosts => simp [step, handling] at next

theorem queue_runFunctor {l l' : EventLoop F} (next : l.step .runFunctor = some l') :
    ∃ functor, l.functors.head? = some functor ∧ l.queue = functor :: l'.queue := by
  obtain ⟨-, functor, rest, hf, rfl⟩ := step_runFunctor next
  exact ⟨functor, by simp [hf], by simp [queue, hf]⟩

/-! ## The wake-up -/

/-- A post that takes the wake-up branch leaves the counter up. -/
theorem postFuntor_wakes {l : EventLoop F} {inLoop : Bool} (functor : F)
    (wakes : inLoop = false ∨ l.isHandlingPendingFunctors = true) :
    0 < (l.postFuntor inLoop functor).wakeupCounter := by
  rw [postFuntor, if_pos]
  · exact weakup_counter_pos _
  · rcases wakes with h | h <;> simp [push, h]

theorem new_wakeful : (new : EventLoop F).Wakeful := fun _ _ waiting => absurd rfl waiting

/-- No dispatched post, wake-up or phase change loses an announcement: the counter
is reset only while dispatching, and the queue is taken before dispatch ends. -/
theorem step_wakeful {l l' : EventLoop F} {a : Act F} (queued : l.Queued)
    (dispatched : Dispatched a) (h : l.Wakeful) (next : l.step a = some l') : l'.Wakeful := by
  cases a with
  | loop =>
    obtain ⟨hp, rfl⟩ := by simpa [step] using next
    intro _ _ waiting
    exact h (by simp [hp]) (by simp [hp]) waiting
  | pollReturns reported =>
    obtain ⟨-, rfl⟩ := by simpa [step] using next
    exact fun handling => absurd rfl handling
  | handleWakeup =>
    obtain ⟨⟨hp, -⟩, rfl⟩ := by simpa [step] using next
    exact fun handling => absurd hp handling
  | callbackPosts functor =>
    obtain ⟨hp, rfl⟩ := by simpa [step] using next
    intro handling
    rw [postFuntor_phase] at handling
    exact absurd hp handling
  | doPendingFunctors =>
    obtain ⟨-, rfl⟩ := by simpa [step] using next
    exact fun _ draining => absurd rfl draining
  | swap =>
    obtain ⟨-, rfl⟩ := by simpa [step] using next
    exact fun _ _ waiting => absurd rfl waiting
  | runFunctor =>
    obtain ⟨-, functor, rest, -, rfl⟩ := step_runFunctor next
    exact h
  | functorPosts functor =>
    obtain ⟨hp, rfl⟩ := by simpa [step] using next
    have flagged := queued.flag.mpr (Or.inr hp)
    exact fun _ _ _ => Or.inl (postFuntor_wakes functor (Or.inr flagged))
  | clearFlag =>
    obtain ⟨⟨hp, -⟩, rfl⟩ := by simpa [step] using next
    intro _ _ waiting
    exact h (by simp [hp]) (by simp [hp]) waiting
  | destructorPosts functor => exact absurd dispatched id
  | testQuit =>
    obtain ⟨hp, rfl⟩ := by simpa [step] using next
    intro _ _ waiting
    exact h (by simp [hp]) (by simp [hp]) waiting
  | ownerPosts functor => exact absurd dispatched id
  | otherPushes functor =>
    obtain rfl := by simpa [step] using next
    exact fun _ _ _ => Or.inr (Nat.succ_pos _)
  | otherWakes =>
    obtain ⟨-, rfl⟩ := by simpa [step] using next
    exact fun _ _ _ => Or.inl (weakup_counter_pos l)
  | quitLoop inLoop =>
    obtain rfl := by simpa [step] using next
    cases inLoop with
    | false => exact fun _ _ _ => Or.inl (weakup_counter_pos _)
    | true => exact h

/-- Every run of a loop under dispatched posts: the functors executed so far are
the first ones pushed, each once and in order, and the loop never goes to sleep on
a waiting functor unless the counter is up or a poster has yet to raise it. -/
theorem functors_in_order_no_lost_wakeup {actions : List (Act F)} {l : EventLoop F}
    (dispatched : ∀ a ∈ actions, Dispatched a)
    (run : Schedules.run step (new : EventLoop F) actions = some l) :
    l.pushed = l.executed ++ (l.functors ++ l.pendingFunctors) ∧
    l.executed <+: l.pushed ∧
    (l.phase = .entering → l.pendingFunctors ≠ [] → 0 < l.wakeupCounter ∨ 0 < l.unwoken) := by
  have along := Schedules.along_of_forall step (new : EventLoop F) dispatched
  have both : l.Queued ∧ l.Wakeful :=
    Schedules.run_invariant (I := fun l : EventLoop F => l.Queued ∧ l.Wakeful)
      (fun _ _ _ inv ok next => ⟨step_queued inv.1 next, step_wakeful inv.1 ok inv.2 next⟩)
      ⟨new_queued, new_wakeful⟩ along run
  obtain ⟨queued, wakeful⟩ := both
  have order : l.pushed = l.executed ++ (l.functors ++ l.pendingFunctors) := by
    rw [queued.accounted, List.append_assoc]
  refine ⟨order, ⟨_, order.symm⟩, ?_⟩
  intro entering waiting
  exact wakeful (by simp [entering]) (by simp [entering]) waiting

/-- One functor from another thread, one from a callback and one posted by the
first while it runs: two have run in order and the third has raised the counter. -/
theorem three_posts_in_order :
    let actions : List (Act Nat) := [.loop, .otherPushes 1, .otherWakes, .pollReturns true,
      .handleWakeup, .callbackPosts 2, .doPendingFunctors, .swap, .runFunctor, .functorPosts 3,
      .runFunctor, .clearFlag, .testQuit]
    ∃ l, Schedules.run step new actions = some l ∧ l.phase = .entering ∧
      l.executed = [1, 2] ∧ l.pendingFunctors = [3] ∧
      (l.pushed = l.executed ++ (l.functors ++ l.pendingFunctors) ∧ l.executed <+: l.pushed ∧
        (l.phase = .entering → l.pendingFunctors ≠ [] →
          0 < l.wakeupCounter ∨ 0 < l.unwoken)) := by
  refine ⟨_, rfl, rfl, rfl, rfl, @functors_in_order_no_lost_wakeup Nat [.loop,
    .otherPushes 1, .otherWakes, .pollReturns true, .handleWakeup, .callbackPosts 2,
    .doPendingFunctors, .swap, .runFunctor, .functorPosts 3, .runFunctor, .clearFlag,
    .testQuit] _ ?_ rfl⟩
  simp [Dispatched]

end EventLoop
end Arale
