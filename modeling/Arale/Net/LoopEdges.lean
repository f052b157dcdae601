import Arale.Net.EventLoop

/-!
# The edges of `loop()`

Two moments at which the loop thread is in neither a handler nor a functor: the entry
of `loop()`, where `quit_` is cleared although the loop may already be known to other
threads, and the posts the loop's own thread makes before `loop()` or while the local
vector of `doPendingFunctors` is destroyed, which no flag announces.
-/

namespace Arale

universe u

variable {F : Type u}

/-! ## Quit requests -/

/-- A loop together with what became of the requests to quit it. -/
structure Quitting (F : Type u) where
  loop : EventLoop F
  /-- `quit_` has been cleared on entry, `while (!quit_)` not tested for the first time -/
  testing : Bool
  /-- some `quitLoop()` has executed -/
  asked : Bool
  /-- bodies of the loop that went through `poll` after a request -/
  bodies : Nat

namespace Quitting

def new : Quitting F where
  loop := EventLoop.new
  testing := false
  asked := false
  bodies := 0

inductive Act (F : Type u) where
  /-- the first test of `while (!quit_)` -/
  | firstTest
  | act (a : EventLoop.Act F)

def isLoop : EventLoop.Act F → Bool
  | .loop => true
  | _ => false

def isPollReturns : EventLoop.Act F → Bool
  | .pollReturns _ => true
  | _ => false

def isQuitLoop : EventLoop.Act F → Bool
  | .quitLoop _ => true
  | _ => false

/-- What another thread can do while the loop thread is between two statements. -/
def byOther : EventLoop.Act F → Bool
  | .otherPushes _ | .otherWakes | .quitLoop false => true
  | _ => false

def step (q : Quitting F) : Act F → Option (Quitting F)
  | .firstTest =>
    if q.testing = true then
      some { q with
        testing := false
        loop := { q.loop with phase := if q.loop.quit then .stopped else .entering } }
    else none
  | .act a =>
    if q.testing = true ∧ byOther a = false then none
    else
      (q.loop.step a).map fun l =>
        { loop := l
          testing := q.testing || isLoop a
          asked := q.asked || isQuitLoop a
          bodies := if q.asked = true ∧ isPollReturns a = true then q.bodies + 1 else q.bodies }

/-- After a request `quit_` is up until `loop()` has returned, and the body of the loop
was entered at most once more. -/
def Kept (q : Quitting F) : Prop :=
  q.asked = true → (q.loop.phase ≠ .stopped → q.loop.quit = true) ∧ q.bodies ≤ 1

/-- `loop()` clears `quit_` before anyone has asked. -/
def EnteredFirst (q : Quitting F) : Act F → Prop
  | .act .loop => q.loop.phase = .created → q.testing = false → q.asked = false
  | _ => True

/-- What keeps a request: no body is entered while it stands, so at most the one that
was already past its test. -/
structure Heeded (q : Quitting F) : Prop where
  kept : q.asked = true → q.loop.phase ≠ .stopped → q.loop.quit = true
  once : q.bodies ≤ 1
  unasked : q.asked = false → q.bodies = 0
  outside : q.loop.phase = .created ∨ q.loop.phase = .entering → q.bodies = 0
  entry : q.testing = true → q.loop.phase = .entering

theorem new_heeded : (new : Quitting F).Heeded :=
  ⟨fun asked => (by cases asked), Nat.zero_le 1, fun _ => rfl, fun _ => rfl,
    fun testing => (by cases testing)⟩

theorem Heeded.property {q : Quitting F} (h : q.Heeded) : q.Kept :=
  fun asked => ⟨h.kept asked, h.once⟩

/-- Phases inside the body of the loop. -/
def inBody : LoopPhase → Bool
  | .handling | .draining | .running | .releasing => true
  | _ => false

/-- A step inside one body, and every step of another thread that is no request. -/
theorem Heeded.frame {q : Quitting F} (h : q.Heeded) {l : EventLoop F}
    (quit : l.quit = q.loop.quit)
    (phase : l.phase = q.loop.phase ∨
      inBody q.loop.phase = true ∧ inBody l.phase = true) :
    Heeded { q with loop := l } := by
  rcases phase with same | ⟨before, after⟩
  · refine ⟨?_, h.once, h.unasked, ?_, ?_⟩
    · simpa only [quit, same] using h.kept
    · simpa only [same] using h.outside
    · simpa only [same] using h.entry
  · refine ⟨fun asked _ => quit.trans (h.kept asked ?_), h.once, h.unasked, ?_, ?_⟩
    · intro stopped
      simp [stopped, inBody] at before
    · intro outside
      rcases outside with created | entering
      · exact absurd after (by simp [show l.phase = .created from created, inBody])
      · exact absurd after (by simp [show l.phase = .entering from entering, inBody])
    · intro testing
      simp [h.entry testing, inBody] at before

theorem step_act {q q' : Quitting F} {a : EventLoop.Act F} (next : q.step (.act a) = some q') :
    (q.testing = true → byOther a = true) ∧ ∃ l, q.loop.step a = some l ∧
      q' = { loop := l
             testing := q.testing || isLoop a
             asked := q.asked || isQuitLoop a
             bodies := if q.asked = true ∧ isPollReturns a = true then q.bodies + 1
               else q.bodies } := by
  simp only [step] at next
  split at next
  · cases next
  · rename_i free
    obtain ⟨l, hl, rfl⟩ := Option.map_eq_some_iff.mp next
    exact ⟨fun testing => by simpa [testing] using free, l, hl, rfl⟩

/-- Every action that is neither a request nor an entry, a return of `poll` or a test. -/
theorem step_frame {l l' : EventLoop F} {a : EventLoop.Act F} (next : l.step a = some l')
    (noLoop : isLoop a = false) (noPoll : isPollReturns a = false)
    (noQuit : isQuitLoop a = false) (noTest : a ≠ .testQuit) :
    l'.quit = l.quit ∧
      (l'.phase = l.phase ∨ inBody l.phase = true ∧ inBody l'.phase = true) := by
  cases a with
  | loop => cases noLoop
  | pollReturns => cases noPoll
  | quitLoop => cases noQuit
  | testQuit => exact absurd rfl noTest
  | callbackPosts | functorPosts | destructorPosts | ownerPosts =>
    obtain ⟨-, rfl⟩ := by simpa [EventLoop.step] using next
    refine ⟨?_, .inl (EventLoop.postFuntor_phase _ _ _)⟩
    rw [EventLoop.postFuntor]
    split <;> rfl
  | handleWakeup | otherWakes =>
    obtain ⟨-, rfl⟩ := by simpa [EventLoop.step] using next
    exact ⟨rfl, .inl rfl⟩
  | otherPushes =>
    obtain rfl := by simpa [EventLoop.step] using next
    exact ⟨rfl, .inl rfl⟩
  | doPendingFunctors | clearFlag =>
    obtain ⟨⟨before, -⟩, rfl⟩ := by simpa [EventLoop.step] using next
    exact ⟨rfl, .inr ⟨by simp [before, inBody], rfl⟩⟩
  | swap =>
    obtain ⟨before, rfl⟩ := by simpa [EventLoop.step] using next
    exact ⟨rfl, .inr ⟨by simp [before, inBody], rfl⟩⟩
  | runFunctor =>
    obtain ⟨-, functor, rest, -, rfl⟩ := EventLoop.step_runFunctor next
    exact ⟨rfl, .inl rfl⟩

theorem step_heeded {q q' : Quitting F} {a : Act F} (h : q.Heeded) (first : EnteredFirst q a)
    (next : q.step a = some q') : q'.Heeded := by
  cases a with
  | firstTest =>
    obtain ⟨testing, rfl⟩ := by simpa [step] using next
    have phase := h.entry testing
    have none := h.outside (.inr phase)
    refine ⟨?_, h.once, h.unasked, fun _ => none, fun t => (by cases t)⟩
    exact fun asked _ => h.kept asked (by simp [phase])
  | act a =>
    obtain ⟨free, l, hl, rfl⟩ := step_act next
    cases a with
    | loop =>
      obtain ⟨created, rfl⟩ := by simpa [EventLoop.step] using hl
      have idle : q.testing = false := by simpa [byOther] using free
      have unasked := first created idle
      have none := h.unasked unasked
      refine ⟨?_, ?_, fun _ => ?_, fun _ => ?_, fun _ => rfl⟩
      · simp [unasked, isQuitLoop]
      all_goals simp [none, unasked]
    | pollReturns reported =>
      obtain ⟨⟨entering, -⟩, rfl⟩ := by simpa [EventLoop.step] using hl
      have idle : q.testing = false := by simpa [byOther] using free
      have none := h.outside (.inr entering)
      refine ⟨?_, ?_, ?_, ?_, ?_⟩
      · intro asked _
        exact h.kept (by simpa [isQuitLoop] using asked) (by simp [entering])
      · simp only [none]
        split <;> omega
      · intro unasked
        have : q.asked = false := by simpa [isQuitLoop] using unasked
        simp [this, none]
      · simp
      · simp [idle, isLoop]
    | testQuit =>
      obtain ⟨releasing, rfl⟩ := by simpa [EventLoop.step] using hl
      have idle : q.testing = false := by simpa [byOther] using free
      refine ⟨?_, ?_, ?_, ?_, ?_⟩
      · intro asked _
        exact h.kept (by simpa [isQuitLoop] using asked) (by simp [releasing])
      · simpa [isPollReturns] using h.once
      · simpa [isPollReturns, isQuitLoop] using h.unasked
      · intro outside
        have down : q.loop.quit = false := by
          cases up : q.loop.quit with
          | false => rfl
          | true => simp [up] at outside
        have unasked : q.asked = false := by
          by_contra asked
          have up := h.kept (by simpa using asked) (by simp [releasing])
          rw [down] at up
          cases up
        simpa [isPollReturns] using h.unasked unasked
      · simp [idle, isLoop]
    | quitLoop inLoop =>
      obtain rfl := by simpa [EventLoop.step] using hl
      have phase : (q.loop.quitLoop inLoop).phase = q.loop.phase := by cases inLoop <;> rfl
      have quit : (q.loop.quitLoop inLoop).quit = true := by cases inLoop <;> rfl
      refine ⟨fun _ _ => quit, ?_, ?_, ?_, ?_⟩
      · simpa [isPollReturns] using h.once
      · simp [isQuitLoop]
      · simpa [phase, isPollReturns] using h.outside
      · simpa [phase, isLoop] using h.entry
    | handleWakeup | callbackPosts | doPendingFunctors | swap | runFunctor | functorPosts
    | clearFlag | destructorPosts | ownerPosts | otherPushes | otherWakes =>
      obtain ⟨quit, phase⟩ := step_frame hl rfl rfl rfl (by simp)
      simpa [isLoop, isQuitLoop, isPollReturns] using h.frame quit phase

/-- A request made before `loop()` clears `quit_` is forgotten at that very step. -/
theorem enteredFirst_of_kept {q : Quitting F} {a : Act F}
    (after : ∀ q', q.step a = some q' → q'.Kept) : EnteredFirst q a := by
  cases a with
  | firstTest => trivial
  | act a =>
    cases a with
    | loop =>
      intro created idle
      by_contra asked
      have kept := after _ (by simp only [step, idle, EventLoop.step, created]; rfl)
      have up := (kept (by simpa [isQuitLoop] using asked)).1 (by simp)
      cases up
    | pollReturns | handleWakeup | callbackPosts | doPendingFunctors | swap | runFunctor
    | functorPosts | clearFlag | destructorPosts | testQuit | ownerPosts | otherPushes
    | otherWakes | quitLoop => trivial

/-- In every interleaving, requests to quit are kept in every state exactly when none
has executed at the moment `loop()` clears `quit_`. -/
theorem quit_kept_iff_entered_first (actions : List (Act F)) :
    Schedules.Throughout step Kept (new : Quitting F) actions ↔
      Schedules.Along step EnteredFirst (new : Quitting F) actions :=
  Schedules.throughout_iff_along_of_stronger (fun _ h => h.property)
    (fun _ _ _ h first next => step_heeded h first next)
    (fun _ _ _ after => enteredFirst_of_kept after) new_heeded

/-- The owner quits the published loop before its thread has entered `loop()`: the
request is gone and the loop goes round for as long as it is polled. -/
theorem quit_before_loop_is_lost :
    ¬ Schedules.Throughout step Kept (new : Quitting Unit) [.act (.quitLoop false), .act .loop] ∧
      ∃ q, Schedules.run step (new : Quitting Unit) [.act (.quitLoop false), .act .loop, .firstTest,
          .act (.pollReturns true), .act .handleWakeup, .act .doPendingFunctors, .act .swap,
          .act .clearFlag, .act .testQuit, .act (.pollReturns false)] = some q ∧
        q.asked = true ∧ q.loop.quit = false ∧ q.bodies = 2 := by
  constructor
  · rintro ⟨-, first⟩
    obtain ⟨-, second⟩ := first _ rfl
    have kept : Kept _ := second _ rfl
    have up := (kept rfl).1 (by decide)
    cases up
  · exact ⟨_, rfl, rfl, rfl, rfl⟩

end Quitting

/-! ## Posts by the loop's own thread outside dispatch -/

/-- A loop together with the functors its own thread has posted outside dispatch and
that no `swap` has taken yet. -/
structure OwnPosts (F : Type u) where
  loop : EventLoop F
  strays : List F

namespace OwnPosts

open EventLoop (Act)

def new : OwnPosts F where
  loop := EventLoop.new
  strays := []

/-- The strays after an action: `swap` takes them all with the rest of the queue. -/
def straysAfter (strays : List F) : Act F → List F
  | .ownerPosts functor | .destructorPosts functor => strays ++ [functor]
  | .swap => []
  | _ => strays

def step (o : OwnPosts F) (a : Act F) : Option (OwnPosts F) :=
  (o.loop.step a).map fun l => { loop := l, strays := straysAfter o.strays a }

/-- `poll` is not entered on a stray functor with the counter at zero. -/
def Awake (o : OwnPosts F) : Prop :=
  o.loop.phase = .entering → (∃ functor ∈ o.strays, functor ∈ o.loop.pendingFunctors) →
    0 < o.loop.wakeupCounter

/-- The loop's own thread posts outside dispatch only while the counter is up, or on
its way out of the loop. -/
def PostsAwake (o : OwnPosts F) : Act F → Prop
  | .ownerPosts _ => 0 < o.loop.wakeupCounter
  | .destructorPosts _ => 0 < o.loop.wakeupCounter ∨ o.loop.quit = true
  | _ => True

/-- The counter has stayed up since the first stray was posted: it is read only while
dispatching, and dispatch ends in a `swap`. -/
structure Announced (o : OwnPosts F) : Prop where
  queued : o.loop.Queued
  waiting : o.strays ⊆ o.loop.pendingFunctors
  up : o.strays ≠ [] → o.loop.phase = .created ∨ o.loop.phase = .entering →
    0 < o.loop.wakeupCounter
  leaving : o.strays ≠ [] → o.loop.phase = .releasing →
    0 < o.loop.wakeupCounter ∨ o.loop.quit = true
  taken : o.loop.phase = .running → o.strays = []

theorem new_announced : (new : OwnPosts F).Announced :=
  ⟨EventLoop.new_queued, List.Subset.refl _, fun some => absurd rfl some,
    fun some => absurd rfl some, fun _ => rfl⟩

theorem Announced.awake {o : OwnPosts F} (h : o.Announced) : o.Awake := by
  rintro entering ⟨functor, stray, -⟩
  exact h.up (List.ne_nil_of_mem stray) (.inr entering)

section Frame
variable {o : OwnPosts F} {l : EventLoop F}

/-- Steps that leave the phase and the request to quit alone and lose neither a waiting
functor nor an announcement. -/
theorem Announced.frame (h : o.Announced) (queued : l.Queued) (phase : l.phase = o.loop.phase)
    (quit : o.loop.quit = true → l.quit = true)
    (waiting : o.loop.pendingFunctors ⊆ l.pendingFunctors)
    (counter : o.loop.phase ≠ .handling → 0 < o.loop.wakeupCounter → 0 < l.wakeupCounter) :
    Announced { o with loop := l } := by
  refine ⟨queued, List.Subset.trans h.waiting waiting, ?_, ?_, ?_⟩
  · intro some outside
    rw [show ({ o with loop := l } : OwnPosts F).loop.phase = o.loop.phase from phase] at outside
    exact counter (by rcases outside with p | p <;> simp [p]) (h.up some outside)
  · intro some releasing
    have before : o.loop.phase = .releasing := phase.symm.trans releasing
    rcases h.leaving some before with up | leaving
    · exact .inl (counter (by simp [before]) up)
    · exact .inr (quit leaving)
  · intro running
    exact h.taken (phase.symm.trans running)

theorem postFuntor_counter (l : EventLoop F) (inLoop : Bool) (functor : F)
    (up : 0 < l.wakeupCounter) : 0 < (l.postFuntor inLoop functor).wakeupCounter := by
  rw [EventLoop.postFuntor]
  split
  · exact EventLoop.weakup_counter_pos _
  · exact up

theorem postFuntor_pending (l : EventLoop F) (inLoop : Bool) (functor : F) :
    (l.postFuntor inLoop functor).pendingFunctors = l.pendingFunctors ++ [functor] := by
  rw [EventLoop.postFuntor]
  split <;> rfl

theorem postFuntor_quit (l : EventLoop F) (inLoop : Bool) (functor : F) :
    (l.postFuntor inLoop functor).quit = l.quit := by
  rw [EventLoop.postFuntor]
  split <;> rfl

/-- While dispatching nothing is asked of the counter. -/
theorem Announced.dispatching (h : o.Announced) (queued : l.Queued)
    (waiting : o.loop.pendingFunctors ⊆ l.pendingFunctors)
    (phase : l.phase = .handling ∨ l.phase = .draining) : Announced { o with loop := l } := by
  refine ⟨queued, List.Subset.trans h.waiting waiting, ?_, ?_, ?_⟩
  · intro _ outside
    rcases phase with p | p <;> simp [p] at outside
  · intro _ releasing
    rcases phase with p | p <;> simp [p] at releasing
  · intro running
    rcases phase with p | p <;> simp [p] at running

/-- A post by a callback or by a functor that is being run. -/
theorem Announced.post (h : o.Announced) (functor : F) :
    Announced { o with loop := o.loop.postFuntor true functor } := by
  refine h.frame (EventLoop.postFuntor_queued h.queued true functor)
    (EventLoop.postFuntor_phase _ _ _) ?_ ?_ fun _ => postFuntor_counter _ _ functor
  · simp only [postFuntor_quit, imp_self]
  · rw [postFuntor_pending]
    exact List.subset_append_left _ _

/-- A post by the loop's own thread outside dispatch. -/
theorem Announced.stray (h : o.Announced) {functor : F}
    (created : o.loop.phase = .created → 0 < o.loop.wakeupCounter)
    (releasing : o.loop.phase = .releasing → 0 < o.loop.wakeupCounter ∨ o.loop.quit = true)
    (outside : o.loop.phase = .created ∨ o.loop.phase = .releasing) :
    Announced { loop := o.loop.postFuntor true functor, strays := o.strays ++ [functor] } := by
  refine ⟨EventLoop.postFuntor_queued h.queued true functor, ?_, ?_, ?_, ?_⟩
  · simp only [postFuntor_pending, List.append_subset]
    exact ⟨List.Subset.trans h.waiting (List.subset_append_left _ _), List.subset_append_right _ _⟩
  · simp only [EventLoop.postFuntor_phase]
    rintro - (before | entering)
    · exact postFuntor_counter _ _ functor (created before)
    · rcases outside with p | p <;> simp [p] at entering
  · simp only [EventLoop.postFuntor_phase, postFuntor_quit]
    intro _ before
    exact (releasing before).imp_left (postFuntor_counter _ _ functor)
  · simp only [EventLoop.postFuntor_phase]
    intro running
    rcases outside with p | p <;> simp [p] at running

end Frame

theorem step_announced {o o' : OwnPosts F} {a : Act F} (h : o.Announced) (posts : PostsAwake o a)
    (next : o.step a = some o') : o'.Announced := by
  obtain ⟨l, hl, rfl⟩ := Option.map_eq_some_iff.mp next
  have queued := EventLoop.step_queued h.queued hl
  cases a with
  | loop =>
    obtain ⟨created, rfl⟩ := by simpa [EventLoop.step] using hl
    refine ⟨queued, h.waiting, fun some _ => h.up some (.inl created), ?_, ?_⟩
    · exact fun _ releasing => by cases releasing
    · exact fun running => by cases running
  | pollReturns reported =>
    obtain ⟨-, rfl⟩ := by simpa [EventLoop.step] using hl
    exact h.dispatching queued (List.Subset.refl _) (by simp)
  | handleWakeup =>
    obtain ⟨⟨handling, -⟩, rfl⟩ := by simpa [EventLoop.step] using hl
    exact h.frame queued rfl id (List.Subset.refl _) fun away => absurd handling away
  | callbackPosts functor | functorPosts functor =>
    obtain ⟨-, rfl⟩ := by simpa [EventLoop.step] using hl
    exact h.post functor
  | doPendingFunctors =>
    obtain ⟨-, rfl⟩ := by simpa [EventLoop.step] using hl
    exact h.dispatching queued (List.Subset.refl _) (by simp)
  | swap =>
    obtain ⟨-, rfl⟩ := by simpa [EventLoop.step] using hl
    exact ⟨queued, List.nil_subset _, fun some => absurd rfl some, fun some => absurd rfl some,
      fun _ => rfl⟩
  | runFunctor =>
    obtain ⟨-, functor, rest, -, rfl⟩ := EventLoop.step_runFunctor hl
    exact h.frame queued rfl id (List.Subset.refl _) fun _ => id
  | clearFlag =>
    obtain ⟨⟨running, -⟩, rfl⟩ := by simpa [EventLoop.step] using hl
    have none := h.taken running
    exact ⟨queued, h.waiting, fun some => absurd none some, fun some => absurd none some,
      fun _ => none⟩
  | destructorPosts functor =>
    obtain ⟨releasing, rfl⟩ := by simpa [EventLoop.step] using hl
    exact h.stray (fun created => by simp [releasing] at created) (fun _ => posts) (.inr releasing)
  | testQuit =>
    obtain ⟨releasing, rfl⟩ := by simpa [EventLoop.step] using hl
    refine ⟨queued, h.waiting, ?_, ?_, ?_⟩
    · intro some outside
      rcases h.leaving some releasing with up | leaving
      · exact up
      · simp [leaving] at outside
    · intro _ still
      cases up : o.loop.quit <;> simp [up] at still
    · intro running
      cases up : o.loop.quit <;> simp [up] at running
  | ownerPosts functor =>
    obtain ⟨created, rfl⟩ := by simpa [EventLoop.step] using hl
    exact h.stray (fun _ => posts) (fun releasing => by simp [created] at releasing) (.inl created)
  | otherPushes functor =>
    obtain rfl := by simpa [EventLoop.step] using hl
    exact h.frame queued rfl id (List.subset_append_left _ _) fun _ => id
  | otherWakes =>
    obtain ⟨-, rfl⟩ := by simpa [EventLoop.step] using hl
    exact h.frame queued rfl id (List.Subset.refl _)
      fun _ _ => EventLoop.weakup_counter_pos o.loop
  | quitLoop inLoop =>
    obtain rfl := by simpa [EventLoop.step] using hl
    refine h.frame queued ?_ (fun _ => ?_) ?_ ?_
    · cases inLoop <;> rfl
    · cases inLoop <;> rfl
    · cases inLoop <;> exact List.Subset.refl _
    · cases inLoop with
      | false => exact fun _ _ => EventLoop.weakup_counter_pos _
      | true => exact fun _ => id

/-- In every run whose posts by the loop's own thread outside dispatch find the counter
up, or are made on the way out of the loop, `poll` is never entered on such a functor
with the counter at zero. -/
theorem own_posts_awake (actions : List (Act F))
    (posts : Schedules.Along step PostsAwake (new : OwnPosts F) actions) :
    Schedules.Throughout step Awake (new : OwnPosts F) actions :=
  Schedules.throughout_of_along (fun _ _ _ h ok next => step_announced h ok next)
    (fun _ h => h.awake) new_announced posts

/-- A post before `loop()` that follows another thread's, and one from a destructor
after a functor has posted. -/
theorem own_posts_after_wakeups_awake :
    let actions : List (Act Nat) := [.otherPushes 1, .otherWakes, .ownerPosts 2, .loop,
      .pollReturns true, .handleWakeup, .doPendingFunctors, .swap, .runFunctor, .functorPosts 3,
      .runFunctor, .clearFlag, .destructorPosts 4, .testQuit]
    Schedules.Along step PostsAwake new actions ∧ Schedules.Throughout step Awake new actions := by
  have posts : Schedules.Along step PostsAwake (new : OwnPosts Nat) [.otherPushes 1, .otherWakes,
      .ownerPosts 2, .loop, .pollReturns true, .handleWakeup, .doPendingFunctors, .swap,
      .runFunctor, .functorPosts 3, .runFunctor, .clearFlag, .destructorPosts 4, .testQuit] := by
    simp [Schedules.Along, PostsAwake, step, EventLoop.step, new, EventLoop.new]
    decide
  exact ⟨posts, own_posts_awake _ posts⟩

/-- A post before `loop()`, and one from a destructor while the local vector goes out of
scope: both are left asleep. -/
theorem own_posts_left_asleep :
    ¬ Schedules.Throughout step Awake (new : OwnPosts Nat) [.ownerPosts 1, .loop] ∧
      ¬ Schedules.Throughout step Awake (new : OwnPosts Nat) [.loop, .pollReturns false,
        .doPendingFunctors, .swap, .clearFlag, .destructorPosts 1, .testQuit] := by
  constructor
  · rintro ⟨-, first⟩
    obtain ⟨-, second⟩ := first _ rfl
    have awake : Awake _ := second _ rfl
    exact absurd (awake rfl ⟨1, by decide, by decide⟩) (by decide)
  · rintro ⟨-, all⟩
    obtain ⟨-, all⟩ := all _ rfl
    obtain ⟨-, all⟩ := all _ rfl
    obtain ⟨-, all⟩ := all _ rfl
    obtain ⟨-, all⟩ := all _ rfl
    obtain ⟨-, all⟩ := all _ rfl
    obtain ⟨-, all⟩ := all _ rfl
    have awake : Awake _ := all _ rfl
    exact absurd (awake rfl ⟨1, by decide, by decide⟩) (by decide)

end OwnPosts
end Arale
