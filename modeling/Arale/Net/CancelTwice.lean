import Arale.Net.TimerCancel

/-!
# The same timer cancelled again and again

`cancelTimerInLoop` reads `it->first` once more after it has erased the element `it`
stands on, so that cancelling an active timer is never safe. Any other id is left alone
outside `handleTimeout`; while timers are being run it is put into `cancelledTimers_`,
where the assertion lets it in only once. The flag that says so starts as the
constructor finds it.
-/

namespace Arale
namespace TimerQueue

/-- What happens to an element of `activeTimers_` through the iterator to it, and to it. -/
inductive ActiveAccess where
  | read (entry : ActiveTimerEntry)
  | erase (entry : ActiveTimerEntry)
  deriving DecidableEq

/-- The accesses of one call, in order: `it->first->getExpiration()`,
`activeTimers_.erase(canceledTimer)` and `delete it->first`. -/
def activeAccesses (q : TimerQueue) (id : TimerID) : List ActiveAccess :=
  let canceledTimer : ActiveTimerEntry := toLex (id.timer, id.sequence)
  if canceledTimer ∈ q.activeTimers then
    [.read canceledTimer, .erase canceledTimer, .read canceledTimer]
  else []

/-- An element is read after it has been erased. -/
def ReadsErased (accesses : List ActiveAccess) : Prop :=
  ∃ entry before after, accesses = before ++ .erase entry :: after ∧ .read entry ∈ after

/-- That many calls of `cancelTimerInLoop` with one id. -/
def cancelTimes : Nat → TimerQueue → TimerID → Option TimerQueue
  | 0, q, _ => some q
  | n + 1, q, id => (q.cancelTimerInLoop id.timer id.sequence).bind fun q => cancelTimes n q id

/-- That many calls are safe, and the first of them does all there is to do. -/
structure CancelSafe (q : TimerQueue) (id : TimerID) (calls : Nat) : Prop where
  asserts : ∃ d, cancelTimes calls q id = some d ∧ d.failures = q.failures
  reads : ∀ earlier < calls, ∀ d, cancelTimes earlier q id = some d →
    ¬ ReadsErased (d.activeAccesses id)
  idempotent : ∀ first, q.cancelTimerInLoop id.timer id.sequence = some first →
    ∀ more < calls, ∃ d, cancelTimes more first id = some d ∧ d.timers = first.timers ∧
      d.activeTimers = first.activeTimers

/-- The condition: the id is not that of an active timer, and in `handleTimeout` it is
cancelled once. -/
def CancelsOnce (q : TimerQueue) (id : TimerID) (calls : Nat) : Prop :=
  calls = 0 ∨ (toLex (id.timer, id.sequence) ∉ q.activeTimers ∧
    (q.isHandlingTimeout = true →
      calls = 1 ∧ toLex (id.timer, id.sequence) ∉ q.cancelledTimers))

instance (q : TimerQueue) (id : TimerID) (calls : Nat) : Decidable (q.CancelsOnce id calls) :=
  inferInstanceAs (Decidable (_ ∨ _))

section Calls
variable {q : TimerQueue} {A : Finset Nat} {id : TimerID}

theorem readsErased_iff :
    ReadsErased (q.activeAccesses id) ↔ toLex (id.timer, id.sequence) ∈ q.activeTimers := by
  rw [activeAccesses]
  split
  · rename_i active
    refine ⟨fun _ => active, fun _ => ?_⟩
    exact ⟨_, [.read (toLex (id.timer, id.sequence))], _, rfl, List.mem_singleton_self _⟩
  · rename_i missing
    refine ⟨?_, fun active => absurd active missing⟩
    rintro ⟨entry, before, after, same, -⟩
    cases before <;> cases same

/-- Outside `handleTimeout` an id that is not active changes nothing. -/
theorem cancelTimes_idle (holds : q.Holds A)
    (missing : toLex (id.timer, id.sequence) ∉ q.activeTimers)
    (idle : q.isHandlingTimeout = false) (calls : Nat) : cancelTimes calls q id = some q := by
  induction calls with
  | zero => rfl
  | succ calls ih =>
    rw [cancelTimes, cancelTimerInLoop_missing holds missing, idle]
    exact ih

/-- What the calls leave of a queue in `handleTimeout`: every call but the one that
records the id fails the assertion. -/
structure Recorded (q : TimerQueue) (id : TimerID) (calls : Nat) (d : TimerQueue) : Prop where
  timers : d.timers = q.timers
  active : d.activeTimers = q.activeTimers
  failures : d.failures = q.failures ++ List.replicate
    (if toLex (id.timer, id.sequence) ∈ q.cancelledTimers then calls else calls - 1)
    .cancelRecorded

theorem cancelTimes_handling (holds : q.Holds A)
    (missing : toLex (id.timer, id.sequence) ∉ q.activeTimers)
    (handling : q.isHandlingTimeout = true) (calls : Nat) :
    ∃ d, cancelTimes calls q id = some d ∧ Recorded q id calls d := by
  induction calls generalizing q with
  | zero => exact ⟨q, rfl, rfl, rfl, by simp⟩
  | succ calls ih =>
    have first : q.cancelTimerInLoop id.timer id.sequence =
        some (q.recordCancelled (toLex (id.timer, id.sequence))) := by
      rw [cancelTimerInLoop_missing holds missing, if_pos handling]
    have frame : ∃ noted, q.recordCancelled (toLex (id.timer, id.sequence)) =
        { q with cancelledTimers := Insert.insert (toLex (id.timer, id.sequence)) q.cancelledTimers
                 failures := q.failures ++ noted } ∧
        noted = if toLex (id.timer, id.sequence) ∈ q.cancelledTimers then [.cancelRecorded]
          else [] := by
      unfold recordCancelled check
      by_cases again : toLex (id.timer, id.sequence) ∈ q.cancelledTimers <;> simp [again]
    obtain ⟨noted, frame, count⟩ := frame
    rw [frame] at first
    obtain ⟨d, rest, recorded⟩ := ih (q := { q with
      cancelledTimers := Insert.insert (toLex (id.timer, id.sequence)) q.cancelledTimers
      failures := q.failures ++ noted }) ⟨holds.live, holds.timers, holds.active⟩ missing handling
    refine ⟨d, ?_, recorded.timers, recorded.active, ?_⟩
    · rw [cancelTimes, first]
      exact rest
    · rw [recorded.failures, if_pos (Finset.mem_insert_self _ _), count]
      by_cases again : toLex (id.timer, id.sequence) ∈ q.cancelledTimers
      · simp [again, List.replicate_succ]
      · simp [again]

theorem cancelSafe_iff (holds : q.Holds A) (calls : Nat) :
    q.CancelSafe id calls ↔ q.CancelsOnce id calls := by
  constructor
  · intro safe
    rcases Nat.eq_zero_or_pos calls with none | some
    · exact .inl none
    have missing : toLex (id.timer, id.sequence) ∉ q.activeTimers := fun active =>
      safe.reads 0 some q rfl (readsErased_iff.mpr active)
    refine .inr ⟨missing, fun handling => ?_⟩
    obtain ⟨d, done, recorded⟩ := cancelTimes_handling holds missing handling calls
    obtain ⟨e, same, quiet⟩ := safe.asserts
    rw [done] at same
    cases same
    have count := List.append_right_eq_self.mp (recorded.failures.symm.trans quiet)
    rw [List.replicate_eq_nil_iff] at count
    split at count
    · omega
    · rename_i fresh
      exact ⟨by omega, fresh⟩
  · rintro (rfl | ⟨missing, once⟩)
    · exact ⟨⟨q, rfl, rfl⟩, fun _ early => absurd early (Nat.not_lt_zero _),
        fun _ _ _ early => absurd early (Nat.not_lt_zero _)⟩
    cases handling : q.isHandlingTimeout with
    | false =>
      have stays := cancelTimes_idle holds missing handling
      refine ⟨⟨q, stays calls, rfl⟩, fun earlier _ d done => ?_, fun first done more _ => ?_⟩
      · rw [stays] at done
        cases done
        exact fun erased => missing (readsErased_iff.mp erased)
      · have one := stays 1
        rw [cancelTimes, done] at one
        cases one
        exact ⟨q, stays more, rfl, rfl⟩
    | true =>
      obtain ⟨rfl, fresh⟩ := once handling
      obtain ⟨d, done, recorded⟩ := cancelTimes_handling holds missing handling 1
      refine ⟨⟨d, done, ?_⟩, fun earlier early e done => ?_, fun first _ more early => ?_⟩
      · rw [recorded.failures, if_neg fresh]
        exact List.append_nil _
      · obtain rfl : earlier = 0 := by omega
        cases done
        exact fun erased => missing (readsErased_iff.mp erased)
      · obtain rfl : more = 0 := by omega
        exact ⟨first, rfl, rfl, rfl⟩

end Calls

/-- In every state of every run, inside `handleTimeout` or outside it, an id can be
cancelled so many times just when it is not active and, inside, when it is new and
cancelled once. -/
theorem cancel_safe_iff (isHandlingTimeout : Bool) {actions : List Act} {q : TimerQueue}
    (reached : Schedules.run step (new isHandlingTimeout) actions = some q) (id : TimerID)
    (calls : Nat) : q.CancelSafe id calls ↔ q.CancelsOnce id calls := by
  have rep : ∃ A, q.Rep A := Schedules.run_invariant (P := fun _ _ => True)
    (fun q a d rep _ next => step_rep rep.choose_spec next)
    ⟨∅, new_rep isHandlingTimeout⟩ (Schedules.along_true _ actions) reached
  obtain ⟨A, rep⟩ := rep
  exact cancelSafe_iff rep.toHolds calls

/-- One call for an active timer reads the erased element; before the first timeout, with
the flag found set, the second call for a default `TimerID` fails its assertion. -/
theorem cancel_not_safe :
    (∃ q, Schedules.run step (new false) [.newTimer 1 10 none 1, .addTimerInLoop 1 0] = some q ∧
      ¬ q.CancelSafe ⟨1, 1⟩ 1) ∧
    ¬ (new true).CancelSafe ⟨0, 0⟩ 2 := by
  refine ⟨⟨_, rfl, fun safe => ?_⟩, fun safe => ?_⟩
  · exact safe.reads 0 Nat.one_pos _ rfl (readsErased_iff.mpr (by decide))
  · obtain ⟨d, done, quiet⟩ := safe.asserts
    have handled := (new_rep true).toHolds
    obtain ⟨e, same, recorded⟩ := @cancelTimes_handling _ _ ⟨0, 0⟩ handled
      (Finset.notMem_empty _) rfl 2
    rw [done] at same
    cases same
    rw [recorded.failures] at quiet
    cases quiet

/-- A timer that has been cancelled can be cancelled again outside `handleTimeout`. -/
theorem cancel_safe_afterwards :
    ∃ q, Schedules.run step (new false) [.newTimer 1 10 none 1, .addTimerInLoop 1 0,
      .cancelTimerInLoop 1 1] = some q ∧ q.CancelSafe ⟨1, 1⟩ 5 := by
  have reached : Schedules.run step (new false) [.newTimer 1 10 none 1, .addTimerInLoop 1 0,
      .cancelTimerInLoop 1 1] = some _ := rfl
  exact ⟨_, reached, (cancel_safe_iff false reached ⟨1, 1⟩ 5).mpr (by decide)⟩

end TimerQueue
end Arale
