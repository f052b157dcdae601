import Mathlib.Logic.Function.Basic
import Arale.Lib.Schedules
import Arale.Net.Channel

/-!
# The epoll poller and its channels

`EPollPoller` of `net/EPollPoller.cc` with the channels that register with it and the
kernel's interest map behind its descriptor. Pointers to channels are the members of
an index type. `epoll_ctl` is refused, and changes nothing, when it adds a descriptor
the kernel has or modifies or deletes one it has not. Assertions are recorded and not
enforced.
-/

namespace Arale

universe u

/-- The channel is not in the poller's channel set. -/
def kNew : Int := -1
/-- The descriptor is handled by epoll. -/
def kAdded : Int := 1
/-- The descriptor is not handled by epoll, the channel is still in the set. -/
def kDeleted : Int := 2

@[simp] theorem kAdded_ne_kNew : kAdded ≠ kNew := by decide
@[simp] theorem kDeleted_ne_kNew : kDeleted ≠ kNew := by decide
@[simp] theorem kDeleted_ne_kAdded : kDeleted ≠ kAdded := by decide
@[simp] theorem kNew_ne_kAdded : kNew ≠ kAdded := by decide

inductive EpollOp where
  | EPOLL_CTL_ADD
  | EPOLL_CTL_MOD
  | EPOLL_CTL_DEL
  deriving DecidableEq, Repr

/-- The kernel's side of an epoll descriptor. -/
structure Epoll where
  interest : Int → Option (BitVec 32)
  /-- how many calls the kernel has refused -/
  refused : Nat

namespace Epoll

def isLegal (k : Epoll) (operation : EpollOp) (fd : Int) : Bool :=
  match operation with
  | .EPOLL_CTL_ADD => (k.interest fd).isNone
  | .EPOLL_CTL_MOD => (k.interest fd).isSome
  | .EPOLL_CTL_DEL => (k.interest fd).isSome

/-- What a legal call leaves for its descriptor. -/
def wanted (operation : EpollOp) (events : BitVec 32) : Option (BitVec 32) :=
  match operation with
  | .EPOLL_CTL_ADD => some events
  | .EPOLL_CTL_MOD => some events
  | .EPOLL_CTL_DEL => none

def epoll_ctl (k : Epoll) (operation : EpollOp) (fd : Int) (events : BitVec 32) : Epoll :=
  if k.isLegal operation fd then
    { k with interest := Function.update k.interest fd (wanted operation events) }
  else { k with refused := k.refused + 1 }

end Epoll

/-- Where an `assert` of the poller stands. -/
inductive EPollAssert where
  | addNotFound
  | addSame
  | updateFound
  | updateSame
  | updateAdded
  | removeFound
  | removeSame
  | removeNoneEvent
  | removeIndex
  | removeErased
  deriving DecidableEq, Repr

structure EPollPoller (ι : Type u) where
  /-- the channel objects -/
  channel : ι → Channel
  channels : Int → Option ι
  epoll : Epoll
  failures : List EPollAssert

namespace EPollPoller

variable {ι : Type u} [DecidableEq ι]

/-- A fresh poller and channels that have never been registered. -/
def new (fds : ι → Int) : EPollPoller ι where
  channel := fun ch => .new (fds ch) []
  channels := fun _ => none
  epoll := ⟨fun _ => none, 0⟩
  failures := []

def check (p : EPollPoller ι) (site : EPollAssert) (cond : Bool) : EPollPoller ι :=
  if cond then p else { p with failures := p.failures ++ [site] }

def setChannel (p : EPollPoller ι) (ch : ι) (f : Channel → Channel) : EPollPoller ι :=
  { p with channel := Function.update p.channel ch (f (p.channel ch)) }

def update (p : EPollPoller ι) (operation : EpollOp) (ch : ι) : EPollPoller ι :=
  { p with epoll := p.epoll.epoll_ctl operation (p.channel ch).fd (p.channel ch).events }

def updateChannel (p : EPollPoller ι) (ch : ι) : EPollPoller ι :=
  let index := (p.channel ch).index
  let fd := (p.channel ch).fd
  if index = kNew ∨ index = kDeleted then
    let p := p.check .addNotFound (p.channels fd).isNone
    let p := if index = kNew then { p with channels := Function.update p.channels fd (some ch) }
      else p.check .addSame (p.channels fd == some ch)
    let p := p.setChannel ch fun c => c.setIndex kAdded
    p.update .EPOLL_CTL_ADD ch
  else
    let p := p.check .updateFound (p.channels fd).isSome
    let p := p.check .updateSame (p.channels fd == some ch)
    let p := p.check .updateAdded (index == kAdded)
    if (p.channel ch).isNoneEvent then
      (p.setChannel ch fun c => c.setIndex kDeleted).update .EPOLL_CTL_DEL ch
    else p.update .EPOLL_CTL_MOD ch

def removeChannel (p : EPollPoller ι) (ch : ι) : EPollPoller ι :=
  let index := (p.channel ch).index
  let fd := (p.channel ch).fd
  let p := p.check .removeFound (p.channels fd).isSome
  let p := p.check .removeSame (p.channels fd == some ch)
  let p := p.check .removeNoneEvent (p.channel ch).isNoneEvent
  let p := p.check .removeIndex (index == kAdded || index == kDeleted)
  let p := { p with channels := Function.update p.channels fd none }.check .removeErased
    (p.channels fd).isSome
  let p := if index = kAdded then p.update .EPOLL_CTL_DEL ch else p
  p.setChannel ch fun c => c.setIndex kNew

/-- The channel is in `channels_`. -/
def Registered (p : EPollPoller ι) (ch : ι) : Prop := p.channels (p.channel ch).fd = some ch

instance (p : EPollPoller ι) (ch : ι) : Decidable (p.Registered ch) :=
  inferInstanceAs (Decidable (_ = _))

inductive Act (ι : Type u) where
  | call (ch : ι) (call : InterestCall)
  | remove (ch : ι)
  deriving DecidableEq, Repr

/-- A channel is removed only while it is registered and has no enabled event. -/
def step (p : EPollPoller ι) : Act ι → Option (EPollPoller ι)
  | .call ch call => some ((p.setChannel ch fun c => c.apply call).updateChannel ch)
  | .remove ch =>
    if p.Registered ch ∧ (p.channel ch).isNoneEvent = true then
      some ((p.setChannel ch Channel.remove).removeChannel ch)
    else none

/-! ## The two maps follow the index of each channel -/

omit [DecidableEq ι] in
theorem check_eq (p : EPollPoller ι) (site : EPollAssert) (cond : Bool) :
    p.check site cond = { p with failures := p.failures ++ if cond then [] else [site] } := by
  cases cond <;> simp [check]

/-- What the poller's map holds for a channel. -/
def mapped (ch : ι) (c : Channel) : Option ι := if c.index = kNew then none else some ch

/-- What the kernel holds for a channel. -/
def watched (c : Channel) : Option (BitVec 32) := if c.index = kAdded then some c.events else none

/-- The invariant of every run; a channel outside the kernel's map wants nothing. -/
structure Tracked (fds : ι → Int) (p : EPollPoller ι) : Prop where
  fd : ∀ ch, (p.channel ch).fd = fds ch
  index : ∀ ch, (p.channel ch).index = kAdded ∨
    (((p.channel ch).index = kNew ∨ (p.channel ch).index = kDeleted) ∧
      (p.channel ch).events = kNoneEvent)
  channels : ∀ ch, p.channels (fds ch) = mapped ch (p.channel ch)
  interest : ∀ ch, p.epoll.interest (fds ch) = watched (p.channel ch)
  outside : ∀ fd, (∀ ch, fds ch ≠ fd) → p.channels fd = none ∧ p.epoll.interest fd = none
  legal : p.epoll.refused = 0

/-- One channel changes and both maps follow it. -/
def place (p : EPollPoller ι) (ch : ι) (c : Channel) (failures : List EPollAssert) :
    EPollPoller ι where
  channel := Function.update p.channel ch c
  channels := Function.update p.channels c.fd (mapped ch c)
  epoll := { p.epoll with interest := Function.update p.epoll.interest c.fd (watched c) }
  failures := failures

omit [DecidableEq ι] in
theorem new_tracked (fds : ι → Int) : Tracked fds (new fds) where
  fd := fun _ => rfl
  index := fun _ => .inr ⟨.inl rfl, rfl⟩
  channels := fun _ => rfl
  interest := fun _ => rfl
  outside := fun _ _ => ⟨rfl, rfl⟩
  legal := rfl

section Tracked
variable {fds : ι → Int} {p : EPollPoller ι}

theorem Tracked.place (tracked : Tracked fds p) (distinct : Function.Injective fds) {ch : ι}
    {c : Channel} (fd : c.fd = fds ch)
    (index : c.index = kAdded ∨ ((c.index = kNew ∨ c.index = kDeleted) ∧ c.events = kNoneEvent))
    (failures : List EPollAssert) : Tracked fds (p.place ch c failures) := by
  have other {a : ι} (ne : a ≠ ch) : fds a ≠ c.fd := fun same => ne (distinct (same.trans fd))
  refine ⟨fun a => ?_, fun a => ?_, fun a => ?_, fun a => ?_, fun x absent => ?_, tracked.legal⟩
  · by_cases self : a = ch
    · subst self
      simp [EPollPoller.place, fd]
    · simp [EPollPoller.place, self, tracked.fd]
  · by_cases self : a = ch
    · subst self
      simpa [EPollPoller.place] using index
    · simpa [EPollPoller.place, self] using tracked.index a
  · by_cases self : a = ch
    · subst self
      simp [EPollPoller.place, fd]
    · simp [EPollPoller.place, self, other self, tracked.channels]
  · by_cases self : a = ch
    · subst self
      simp [EPollPoller.place, fd]
    · simp [EPollPoller.place, self, other self, tracked.interest]
  · have away : x ≠ c.fd := fun same => absent ch (fd.symm.trans same.symm)
    simpa [EPollPoller.place, away] using tracked.outside x absent

/-- A channel after one of its calls and the update that follows. -/
def settled (c : Channel) (call : InterestCall) : Channel :=
  if c.index = kAdded ∧ (c.apply call).isNoneEvent = true then (c.apply call).setIndex kDeleted
  else (c.apply call).setIndex kAdded

/-- The first branch of `updateChannel`. -/
theorem updateChannel_add (p : EPollPoller ι) (ch : ι)
    (fresh : (p.channel ch).index = kNew ∨ (p.channel ch).index = kDeleted) :
    ∃ failures, p.updateChannel ch =
      { channel := Function.update p.channel ch ((p.channel ch).setIndex kAdded)
        channels := if (p.channel ch).index = kNew then
          Function.update p.channels (p.channel ch).fd (some ch) else p.channels
        epoll := p.epoll.epoll_ctl .EPOLL_CTL_ADD (p.channel ch).fd (p.channel ch).events
        failures := failures } := by
  by_cases new : (p.channel ch).index = kNew
  · simp only [updateChannel, if_pos fresh, if_pos new, check_eq, setChannel, update,
      Function.update_self, Channel.setIndex]
    exact ⟨_, rfl⟩
  · simp only [updateChannel, if_pos fresh, if_neg new, check_eq, setChannel, update,
      Function.update_self, Channel.setIndex]
    exact ⟨_, rfl⟩

/-- The second branch. -/
theorem updateChannel_added (p : EPollPoller ι) (ch : ι)
    (added : (p.channel ch).index = kAdded) :
    ∃ failures, p.updateChannel ch =
      if (p.channel ch).isNoneEvent = true then
        { channel := Function.update p.channel ch ((p.channel ch).setIndex kDeleted)
          channels := p.channels
          epoll := p.epoll.epoll_ctl .EPOLL_CTL_DEL (p.channel ch).fd (p.channel ch).events
          failures := failures }
      else
        { p with
          epoll := p.epoll.epoll_ctl .EPOLL_CTL_MOD (p.channel ch).fd (p.channel ch).events
          failures := failures } := by
  have notFresh : ¬ (kAdded = kNew ∨ kAdded = kDeleted) := by decide
  simp only [updateChannel, added, if_neg notFresh, check_eq, setChannel, update,
    Function.update_self, Channel.setIndex]
  exact ⟨_, rfl⟩

theorem removeChannel_eq (p : EPollPoller ι) (ch : ι) :
    ∃ failures, p.removeChannel ch =
      { channel := Function.update p.channel ch ((p.channel ch).setIndex kNew)
        channels := Function.update p.channels (p.channel ch).fd none
        epoll := if (p.channel ch).index = kAdded then
          p.epoll.epoll_ctl .EPOLL_CTL_DEL (p.channel ch).fd (p.channel ch).events else p.epoll
        failures := failures } := by
  by_cases added : (p.channel ch).index = kAdded
  · simp only [removeChannel, check_eq, setChannel, update, if_pos added]
    exact ⟨_, rfl⟩
  · simp only [removeChannel, check_eq, setChannel, if_neg added]
    exact ⟨_, rfl⟩

/-- A call on a channel is always served: what is added is new to the kernel, what is
modified or deleted is known to it. -/
theorem call_place (tracked : Tracked fds p) (ch : ι) (call : InterestCall) :
    ∃ failures, (p.setChannel ch fun c => c.apply call).updateChannel ch =
      p.place ch (settled (p.channel ch) call) failures := by
  have fd := Channel.apply_fd (p.channel ch) call
  have index := Channel.apply_index (p.channel ch) call
  have now : (p.setChannel ch fun c => c.apply call).channel ch = (p.channel ch).apply call :=
    Function.update_self _ _ _
  have channels := tracked.channels ch
  have interest := tracked.interest ch
  rw [← tracked.fd ch, mapped] at channels
  rw [← tracked.fd ch, watched] at interest
  rcases tracked.index ch with added | ⟨fresh, -⟩
  · rw [added, if_neg kAdded_ne_kNew] at channels
    rw [if_pos added] at interest
    obtain ⟨failures, served⟩ := updateChannel_added (p.setChannel ch fun c => c.apply call) ch
      (by rw [now, index, added])
    refine ⟨failures, served.trans ?_⟩
    rw [now]
    by_cases none : ((p.channel ch).apply call).isNoneEvent = true
    · rw [if_pos none, settled, if_pos ⟨added, none⟩]
      simp [place, setChannel, mapped, watched, Channel.setIndex, fd, Epoll.epoll_ctl,
        Epoll.isLegal, interest, Epoll.wanted, ← channels]
    · have stays : ((p.channel ch).apply call).setIndex kAdded = (p.channel ch).apply call := by
        rw [← added, ← index]
        rfl
      rw [if_neg none, settled, if_neg fun h => none h.2, stays]
      simp [place, setChannel, mapped, watched, fd, index, added, Epoll.epoll_ctl, Epoll.isLegal,
        interest, Epoll.wanted, ← channels]
  · have notAdded : (p.channel ch).index ≠ kAdded := by
      rcases fresh with new | deleted
      · rw [new]
        exact kNew_ne_kAdded
      · rw [deleted]
        exact kDeleted_ne_kAdded
    rw [if_neg notAdded] at interest
    obtain ⟨failures, served⟩ := updateChannel_add (p.setChannel ch fun c => c.apply call) ch
      (by rwa [now, index])
    refine ⟨failures, served.trans ?_⟩
    have again : settled (p.channel ch) call = ((p.channel ch).apply call).setIndex kAdded :=
      if_neg fun h => notAdded h.1
    rw [now, again, index]
    have inMap : (if (p.channel ch).index = kNew then
        Function.update p.channels (p.channel ch).fd (some ch) else p.channels) =
        Function.update p.channels (p.channel ch).fd (some ch) := by
      split
      · rfl
      · rw [if_neg ‹_›] at channels
        rw [← channels, Function.update_eq_self]
    simp [place, setChannel, mapped, watched, Channel.setIndex, fd, Epoll.epoll_ctl,
      Epoll.isLegal, interest, Epoll.wanted, inMap]

theorem remove_place (tracked : Tracked fds p) (ch : ι) :
    ∃ failures, (p.setChannel ch Channel.remove).removeChannel ch =
      p.place ch ((p.channel ch).remove.setIndex kNew) failures := by
  have now : (p.setChannel ch Channel.remove).channel ch = (p.channel ch).remove :=
    Function.update_self _ _ _
  have interest := tracked.interest ch
  rw [← tracked.fd ch, watched] at interest
  obtain ⟨failures, served⟩ := removeChannel_eq (p.setChannel ch Channel.remove) ch
  refine ⟨failures, served.trans ?_⟩
  rw [now]
  by_cases added : (p.channel ch).index = kAdded
  · rw [if_pos added] at interest
    simp [place, setChannel, mapped, watched, Channel.setIndex, Channel.remove, Epoll.epoll_ctl,
      Epoll.isLegal, interest, Epoll.wanted, added]
  · rw [if_neg added] at interest
    simp [place, setChannel, mapped, watched, Channel.setIndex, Channel.remove, added,
      ← interest]

theorem settled_index (c : Channel) (call : InterestCall) :
    (settled c call).index = kAdded ∨
      (((settled c call).index = kNew ∨ (settled c call).index = kDeleted) ∧
        (settled c call).events = kNoneEvent) := by
  unfold settled
  split
  · rename_i gone
    exact .inr ⟨.inr rfl, eq_of_beq gone.2⟩
  · exact .inl rfl

theorem settled_fd (c : Channel) (call : InterestCall) : (settled c call).fd = c.fd := by
  unfold settled
  split <;> exact Channel.apply_fd c call

/-- Every step places one channel. -/
theorem step_place (tracked : Tracked fds p) {a : Act ι} {q : EPollPoller ι}
    (next : p.step a = some q) :
    (∃ ch call failures, a = .call ch call ∧
      q = p.place ch (settled (p.channel ch) call) failures) ∨
    (∃ ch failures, a = .remove ch ∧ (p.channel ch).events = kNoneEvent ∧
      q = p.place ch ((p.channel ch).remove.setIndex kNew) failures) := by
  cases a with
  | call ch call =>
    obtain ⟨failures, served⟩ := call_place tracked ch call
    cases next
    exact .inl ⟨ch, call, failures, rfl, served⟩
  | remove ch =>
    simp only [step] at next
    split at next
    · rename_i allowed
      obtain ⟨failures, served⟩ := remove_place tracked ch
      cases next
      exact .inr ⟨ch, failures, rfl, eq_of_beq allowed.2, served⟩
    · cases next

theorem step_tracked (tracked : Tracked fds p) (distinct : Function.Injective fds) {a : Act ι}
    {q : EPollPoller ι} (next : p.step a = some q) : Tracked fds q := by
  obtain ⟨ch, call, failures, -, rfl⟩ | ⟨ch, failures, -, none, rfl⟩ := step_place tracked next
  · exact tracked.place distinct ((settled_fd _ call).trans (tracked.fd ch)) (settled_index _ call)
      failures
  · exact tracked.place (c := (p.channel ch).remove.setIndex kNew) distinct (tracked.fd ch)
      (.inr ⟨.inl rfl, none⟩) failures

end Tracked

end EPollPoller

end Arale

namespace PollerInterest

open Arale Schedules EPollPoller

universe u

variable {ι : Type u} [DecidableEq ι]

/-- The kernel watches a descriptor for exactly the events its registered channel asks
for, none for a channel that asks for nothing, and has never refused a call. -/
structure Watches (p : EPollPoller ι) : Prop where
  interest : ∀ fd e, p.epoll.interest fd = some e ↔
    ∃ ch, p.Registered ch ∧ (p.channel ch).fd = fd ∧ (p.channel ch).events = e ∧ e ≠ kNoneEvent
  legal : p.epoll.refused = 0

/-- A call that leaves a channel without events finds it in the kernel's map. -/
def DisablesWatched (p : EPollPoller ι) : Act ι → Prop
  | .call ch call => ((p.channel ch).apply call).isNoneEvent = true → (p.channel ch).index = kAdded
  | .remove _ => True

/-- No channel is watched for nothing. -/
def NoneIdle (p : EPollPoller ι) : Prop :=
  ∀ ch, (p.channel ch).index = kAdded → (p.channel ch).events ≠ kNoneEvent

section Runs
variable {fds : ι → Int} {p : EPollPoller ι}

omit [DecidableEq ι] in
theorem watches_iff (tracked : Tracked fds p) : Watches p ↔ NoneIdle p := by
  constructor
  · intro watches ch added none
    have inKernel : p.epoll.interest (fds ch) = some (p.channel ch).events := by
      rw [tracked.interest, watched, if_pos added]
    obtain ⟨-, -, -, -, some⟩ := (watches.interest _ _).mp inKernel
    exact some none
  · intro busy
    refine ⟨fun fd e => ⟨fun inKernel => ?_, ?_⟩, tracked.legal⟩
    · by_cases owned : ∃ ch, fds ch = fd
      · obtain ⟨ch, rfl⟩ := owned
        by_cases added : (p.channel ch).index = kAdded
        · rw [tracked.interest, watched, if_pos added] at inKernel
          cases inKernel
          refine ⟨ch, ?_, tracked.fd ch, rfl, busy ch added⟩
          rw [Registered, tracked.fd, tracked.channels, mapped, added, if_neg kAdded_ne_kNew]
        · rw [tracked.interest, watched, if_neg added] at inKernel
          cases inKernel
      · have absent := (tracked.outside fd fun ch same => owned ⟨ch, same⟩).2
        rw [absent] at inKernel
        cases inKernel
    · rintro ⟨ch, -, rfl, rfl, some⟩
      have added : (p.channel ch).index = kAdded := by
        rcases tracked.index ch with added | ⟨-, none⟩
        · exact added
        · exact absurd none some
      rw [tracked.fd, tracked.interest, watched, if_pos added]

theorem noneIdle_place_iff (busy : NoneIdle p) {ch : ι} {c : Channel}
    {failures : List EPollAssert} :
    NoneIdle (p.place ch c failures) ↔ (c.index = kAdded → c.events ≠ kNoneEvent) := by
  constructor
  · intro after added
    have := after ch
    simp only [place, Function.update_self] at this
    exact this added
  · intro wants a added
    by_cases self : a = ch
    · subst self
      simp only [place, Function.update_self] at added ⊢
      exact wants added
    · simp only [place, Function.update_of_ne self] at added ⊢
      exact busy a added

theorem settled_wants_iff (c : Channel) (call : InterestCall) :
    ((settled c call).index = kAdded → (settled c call).events ≠ kNoneEvent) ↔
      ((c.apply call).isNoneEvent = true → c.index = kAdded) := by
  have events : (settled c call).events = (c.apply call).events := by
    unfold settled
    split <;> rfl
  rw [events]
  by_cases added : c.index = kAdded
  · simp only [added, implies_true, iff_true]
    intro stays none
    have gone : settled c call = (c.apply call).setIndex kDeleted :=
      if_pos ⟨added, beq_iff_eq.mpr none⟩
    rw [gone] at stays
    exact kDeleted_ne_kAdded stays
  · have again : settled c call = (c.apply call).setIndex kAdded := if_neg fun h => added h.1
    simp only [again, Channel.setIndex, added, imp_false, Channel.isNoneEvent, beq_iff_eq,
      true_implies]

/-- One step keeps the kernel's map exact if and only if it meets the condition. -/
theorem step_watches_iff (watches : Watches p) (tracked : Tracked fds p)
    (distinct : Function.Injective fds) (a : Act ι) :
    (∀ q, p.step a = some q → Watches q) ↔ DisablesWatched p a := by
  have busy := (watches_iff tracked).mp watches
  constructor
  · intro after
    cases a with
    | remove ch => trivial
    | call ch call =>
      obtain ⟨failures, served⟩ := call_place tracked ch call
      have next :
          p.step (.call ch call) = some (p.place ch (settled (p.channel ch) call) failures) :=
        congrArg some served
      have still := (watches_iff (step_tracked tracked distinct next)).mp (after _ next)
      exact (settled_wants_iff _ call).mp ((noneIdle_place_iff busy).mp still)
  · intro disables q next
    refine (watches_iff (step_tracked tracked distinct next)).mpr ?_
    obtain ⟨ch, call, failures, rfl, rfl⟩ | ⟨ch, failures, -, -, rfl⟩ := step_place tracked next
    · exact (noneIdle_place_iff busy).mpr ((settled_wants_iff _ call).mpr disables)
    · exact (noneIdle_place_iff busy).mpr fun added => absurd added kNew_ne_kAdded

end Runs

/-- Along every sequence of calls on channels with distinct descriptors, the kernel
watches what the channels ask for after each call exactly when no call takes the last
event from a channel the kernel does not watch. -/
theorem poller_watches_iff (fds : ι → Int) (distinct : Function.Injective fds)
    (actions : List (Act ι)) :
    Throughout step Watches (new fds) actions ↔ Along step DisablesWatched (new fds) actions :=
  throughout_iff_along (J := Tracked fds) (R := fun _ _ => True)
    (fun _ a watches tracked _ => step_watches_iff watches tracked distinct a)
    (fun _ _ _ tracked _ next => step_tracked tracked distinct next)
    ((watches_iff (new_tracked fds)).mpr fun _ added => absurd added kNew_ne_kAdded)
    (new_tracked fds) (along_true _ actions)

/-- Two channels, one of which is disabled, enabled again and removed. -/
theorem two_channels_watches_iff :
    Function.Injective (fun ch : Bool => if ch then (5 : Int) else 6) ∧
      (Throughout step Watches (new fun ch : Bool => if ch then 5 else 6)
          [.call true .enableRead, .call false .enableWrite, .call true .disableAll,
            .call true .enableRead, .call true .disableAll, .remove true] ↔
        Along step DisablesWatched (new fun ch : Bool => if ch then 5 else 6)
          [.call true .enableRead, .call false .enableWrite, .call true .disableAll,
            .call true .enableRead, .call true .disableAll, .remove true]) := by
  have distinct : Function.Injective (fun ch : Bool => if ch then (5 : Int) else 6) := by
    intro a b same
    cases a <;> cases b <;> first | rfl | exact absurd same (by decide)
  exact ⟨distinct, poller_watches_iff _ distinct _⟩

/-- A channel that is disabled twice is back in the kernel's map, for no event. -/
theorem disabled_twice_still_watched :
    Function.Injective (fun _ : Unit => (5 : Int)) ∧
      ¬ Throughout step Watches (new fun _ : Unit => 5)
        [.call () .enableRead, .call () .disableAll, .call () .disableAll] := by
  refine ⟨fun _ _ _ => rfl, ?_⟩
  rintro ⟨-, first⟩
  obtain ⟨-, second⟩ := first _ rfl
  obtain ⟨-, third⟩ := second _ rfl
  obtain ⟨-, -, -, -, some⟩ := ((third _ rfl : Watches _).interest 5 kNoneEvent).mp (by decide)
  exact some rfl

end PollerInterest
