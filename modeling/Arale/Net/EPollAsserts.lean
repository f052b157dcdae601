import Arale.Net.EPollPoller

/-!
# The assertions of the epoll poller

`updateChannel` takes a new channel and a deleted one through the same branch and
asserts there that the descriptor is not in `channels_`. A deleted channel is: that is
what sets it apart from a new one. Every other assertion holds wherever it is reached.
-/

namespace PollerAsserts

open Arale Schedules EPollPoller

universe u

variable {ι : Type u} [DecidableEq ι]

def NoneFailed (p : EPollPoller ι) : Prop := p.failures = []

/-- The call does not find its channel disabled and still registered. -/
def FindsNewOrAdded (p : EPollPoller ι) : Act ι → Prop
  | .call ch _ => (p.channel ch).index ≠ kDeleted
  | .remove _ => True

section Steps
variable {fds : ι → Int} {p : EPollPoller ι}

omit [DecidableEq ι] in
theorem channels_self (tracked : Tracked fds p) (ch : ι) :
    p.channels (p.channel ch).fd = mapped ch (p.channel ch) := by
  rw [tracked.fd, tracked.channels]

/-- A call fails one assertion on a deleted channel and none on any other. -/
theorem call_failures (tracked : Tracked fds p) (ch : ι) (call : InterestCall) :
    ((p.setChannel ch fun c => c.apply call).updateChannel ch).failures =
      p.failures ++ if (p.channel ch).index = kDeleted then [.addNotFound] else [] := by
  have fd := Channel.apply_fd (p.channel ch) call
  have index := Channel.apply_index (p.channel ch) call
  have inMap := channels_self tracked ch
  rcases tracked.index ch with added | ⟨new | deleted, -⟩
  · have old : ¬ (kAdded = kNew ∨ kAdded = kDeleted) := by decide
    have notDeleted : kAdded ≠ kDeleted := by decide
    rw [mapped, added, if_neg kAdded_ne_kNew] at inMap
    simp only [updateChannel, setChannel, Function.update_self, fd, index, added, if_neg old,
      check_eq, inMap, if_neg notDeleted]
    split <;> simp [update]
  · have notDeleted : kNew ≠ kDeleted := by decide
    rw [mapped, if_pos new] at inMap
    simp [updateChannel, setChannel, Function.update_self, fd, index, new, check_eq, inMap,
      update, notDeleted]
  · rw [mapped, deleted, if_neg kDeleted_ne_kNew] at inMap
    simp [updateChannel, setChannel, Function.update_self, fd, index, deleted, check_eq, inMap,
      update]

/-- Removing a registered channel without events fails no assertion. -/
theorem remove_failures (tracked : Tracked fds p) {ch : ι} (registered : p.Registered ch)
    (none : (p.channel ch).isNoneEvent = true) :
    ((p.setChannel ch Channel.remove).removeChannel ch).failures = p.failures := by
  have inMap := channels_self tracked ch
  have known : (p.channel ch).index = kAdded ∨ (p.channel ch).index = kDeleted := by
    rcases tracked.index ch with added | ⟨new | deleted, -⟩
    · exact .inl added
    · rw [Registered, inMap, mapped, if_pos new] at registered
      cases registered
    · exact .inr deleted
  have here : p.channels (p.channel ch).fd = some ch := registered
  rcases known with added | deleted
  · simpa [removeChannel, setChannel, Channel.remove, check_eq, here, added, update,
      Channel.isNoneEvent] using none
  · simpa [removeChannel, setChannel, Channel.remove, check_eq, here, deleted,
      Channel.isNoneEvent] using none

theorem step_noneFailed_iff (clean : NoneFailed p) (tracked : Tracked fds p) (a : Act ι) :
    (∀ q, p.step a = some q → NoneFailed q) ↔ FindsNewOrAdded p a := by
  rw [NoneFailed] at clean
  cases a with
  | call ch call =>
    have failures := call_failures tracked ch call
    rw [clean, List.nil_append] at failures
    constructor
    · intro after deleted
      have kept := after _ rfl
      rw [NoneFailed, failures, if_pos deleted] at kept
      cases kept
    · rintro found q ⟨⟩
      rw [NoneFailed, failures, if_neg found]
  | remove ch =>
    refine ⟨fun _ => trivial, fun _ q next => ?_⟩
    obtain ⟨⟨registered, none⟩, ⟨⟩⟩ := Option.ite_none_right_eq_some.mp next
    rw [NoneFailed, remove_failures tracked registered none, clean]

end Steps

/-- Along every sequence of calls and removals on channels with distinct descriptors,
no assertion fails exactly when no call finds its channel disabled and not yet removed. -/
theorem asserts_hold_iff (fds : ι → Int) (distinct : Function.Injective fds)
    (actions : List (Act ι)) :
    Throughout step NoneFailed (new fds) actions ↔ Along step FindsNewOrAdded (new fds) actions :=
  throughout_iff_along (J := Tracked fds) (R := fun _ _ => True)
    (fun _ a clean tracked _ => step_noneFailed_iff clean tracked a)
    (fun _ _ _ tracked _ next => step_tracked tracked distinct next)
    rfl (new_tracked fds) (along_true _ actions)

/-- Two channels that are disabled once each, one of them removed and used again. -/
theorem two_channels_asserts_hold_iff :
    Function.Injective (fun ch : Bool => if ch then (5 : Int) else 6) ∧
      (Throughout step NoneFailed (new fun ch : Bool => if ch then 5 else 6)
          [.call true .enableRead, .call false .enableWrite, .call true .disableAll,
            .call false .disableAll, .remove true, .call true .enableRead] ↔
        Along step FindsNewOrAdded (new fun ch : Bool => if ch then 5 else 6)
          [.call true .enableRead, .call false .enableWrite, .call true .disableAll,
            .call false .disableAll, .remove true, .call true .enableRead]) := by
  have distinct : Function.Injective (fun ch : Bool => if ch then (5 : Int) else 6) := by
    intro a b same
    cases a <;> cases b <;> first | rfl | exact absurd same (by decide)
  exact ⟨distinct, asserts_hold_iff _ distinct _⟩

/-- One round of stopping and starting to read fails the first assertion. -/
theorem read_again_fails_assert :
    Function.Injective (fun _ : Unit => (5 : Int)) ∧
      ¬ Throughout step NoneFailed (new fun _ : Unit => 5)
        [.call () .enableRead, .call () .disableRead, .call () .enableRead] := by
  refine ⟨fun _ _ _ => rfl, ?_⟩
  rintro ⟨-, first⟩
  obtain ⟨-, second⟩ := first _ rfl
  obtain ⟨-, third⟩ := second _ rfl
  have clean : NoneFailed _ := third _ rfl
  revert clean
  rw [NoneFailed]
  decide

end PollerAsserts
