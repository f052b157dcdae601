import Arale.Net.TimerQueue

/-!
# What a step does to the timers

Every action of the timer queue is described by what it does to the heap, to the set of
queued addresses, to the timers that are to be added, and to the running batch. From
this follows where a live timer is, that it keeps its sequence number for as long as it
lives, and that no two live timers share one.
-/

namespace Arale

namespace TimerQueue

/-- The addresses of the queued timers. -/
def held (q : TimerQueue) : Finset Nat := q.timers.image fun entry => (ofLex entry).2

theorem Holds.held {q : TimerQueue} {A : Finset Nat} (holds : q.Holds A) : q.held = A := by
  rw [TimerQueue.held, holds.timers, Finset.image_image]
  exact Finset.image_id

section After
variable (q : TimerQueue)

def heapAfter : Act → Nat → Option Timer
  | .newTimer timer when interval sequence =>
    Function.update q.heap timer (some ⟨when, interval, sequence⟩)
  | .cancelTimerInLoop timer sequence =>
    if toLex (timer, sequence) ∈ q.activeTimers then Function.update q.heap timer none else q.heap
  | .endTimeout _ =>
    q.batch.elim q.heap fun b timer =>
      if timer ∈ addresses b.expiredTimers then (q.heap timer).bind (q.resetOutcome b.now timer)
      else q.heap timer
  | _ => q.heap

def heldAfter : Act → Nat → Prop
  | .addTimerInLoop timer _, x => x = timer ∨ x ∈ q.held
  | .cancelTimerInLoop timer sequence, x =>
    x ∈ q.held ∧ (toLex (timer, sequence) ∈ q.activeTimers → x ≠ timer)
  | .beginTimeout now, x => x ∈ q.held ∧ x ∉ addresses (q.expiredEntries now)
  | .endTimeout clock, x => x ∈ q.held ∨
      (x ∈ q.batch.elim [] fun b => addresses b.expiredTimers) ∧
        (q.heapAfter (.endTimeout clock) x).isSome = true
  | _, x => x ∈ q.held

def batchAfter : Act → Option TimeoutBatch
  | .beginTimeout now => some ⟨now, q.expiredEntries now, 0⟩
  | .runTimer => q.batch.map fun b => { b with ran := b.ran + 1 }
  | .endTimeout _ => none
  | _ => q.batch

def unqueuedAfter : Act → List Nat
  | .newTimer timer _ _ _ => q.unqueued ++ [timer]
  | .addTimerInLoop timer _ => q.unqueued.erase timer
  | _ => q.unqueued

def counterAfter : Act → Nat
  | .newTimer _ _ _ sequence => sequence
  | _ => q.counter

def cancelledAfter : Act → Finset ActiveTimerEntry
  | .cancelTimerInLoop timer sequence =>
    if toLex (timer, sequence) ∉ q.activeTimers ∧ q.isHandlingTimeout = true then
      Insert.insert (toLex (timer, sequence)) q.cancelledTimers
    else q.cancelledTimers
  | .beginTimeout _ => ∅
  | _ => q.cancelledTimers

def handlingAfter : Act → Bool
  | .beginTimeout _ => true
  | .endTimeout _ => false
  | _ => q.isHandlingTimeout

end After

/-- A step, by its effects. -/
structure Moved (q : TimerQueue) (a : Act) (d : TimerQueue) : Prop where
  heap : d.heap = q.heapAfter a
  held : ∀ x, x ∈ d.held ↔ q.heldAfter a x
  batch : d.batch = q.batchAfter a
  unqueued : d.unqueued = q.unqueuedAfter a
  counter : d.counter = q.counterAfter a
  cancelled : d.cancelledTimers = q.cancelledAfter a
  handling : d.isHandlingTimeout = q.handlingAfter a

theorem exec_of_step {q d : TimerQueue} {a : Act} (next : q.step a = some d) :
    q.Enabled a ∧ q.exec a = some d :=
  Option.ite_none_right_eq_some.mp next

section Moved
variable {q d : TimerQueue} {A : Finset Nat}

theorem addTimerInLoop_moved (rep : q.Rep A) {timer : Nat} {clock : Int}
    (next : q.step (.addTimerInLoop timer clock) = some d) :
    Moved q (.addTimerInLoop timer clock) d := by
  obtain ⟨waiting, done⟩ := exec_of_step next
  obtain ⟨outside, t, found⟩ := rep.looseLive timer (List.mem_append_left _ waiting)
  have holds : Holds { q with unqueued := q.unqueued.erase timer } A :=
    ⟨rep.live, rep.timers, rep.active⟩
  have queued := enqueue_holds holds found
  rw [exec, addTimerInLoop_eq holds found outside clock] at done
  have member (x : Nat) :
      x ∈ Insert.insert timer A ↔ q.heldAfter (.addTimerInLoop timer clock) x := by
    simp [heldAfter, rep.toHolds.held]
  cases done
  split
  · exact ⟨rfl, fun x => by rw [← member, ← queued.held]; rfl, rfl, rfl, rfl, rfl, rfl⟩
  · exact ⟨rfl, fun x => by rw [← member, ← queued.held], rfl, rfl, rfl, rfl, rfl⟩

theorem cancelTimerInLoop_moved (rep : q.Rep A) {timer sequence : Nat}
    (done : q.cancelTimerInLoop timer sequence = some d) :
    Moved q (.cancelTimerInLoop timer sequence) d := by
  by_cases active : toLex (timer, sequence) ∈ q.activeTimers
  · obtain ⟨held, t, found, rfl⟩ := rep.toHolds.mem_active_iff.mp active
    rw [cancelTimerInLoop_held rep.toHolds found held] at done
    have after := cancelled_holds rep.toHolds timer
    cases done
    refine ⟨?_, fun x => ?_, rfl, rfl, rfl, ?_, rfl⟩
    · simp [heapAfter, active]
    · rw [after.held]
      simp [heldAfter, active, rep.toHolds.held, and_comm]
    · simp [cancelledAfter, active, dequeue]
  · rw [cancelTimerInLoop_missing rep.toHolds active] at done
    have same (x : Nat) : x ∈ q.held ↔ q.heldAfter (.cancelTimerInLoop timer sequence) x := by
      simp [heldAfter, active]
    cases done
    cases handling : q.isHandlingTimeout with
    | true =>
      obtain ⟨noted, -, frame⟩ := q.recordCancelled_frame (toLex (timer, sequence))
      rw [if_pos rfl, frame]
      refine ⟨?_, same, rfl, rfl, rfl, ?_, rfl⟩
      · simp [heapAfter, active]
      · simp [cancelledAfter, active, handling]
    | false =>
      rw [if_neg (by simp)]
      refine ⟨?_, same, rfl, rfl, rfl, ?_, rfl⟩
      · simp [heapAfter, active]
      · simp [cancelledAfter, handling]

theorem beginTimeout_moved (rep : q.Rep A) {now : Int} (done : q.beginTimeout now = some d) :
    Moved q (.beginTimeout now) d := by
  obtain ⟨e, begun, fields, holds⟩ := beginTimeout_eq rep.toHolds now
  rw [begun] at done
  cases done
  have member (x : Nat) : x ∈ e.held ↔ q.heldAfter (.beginTimeout now) x := by
    rw [holds.held]
    simp [heldAfter, rep.toHolds.held]
  have heap : e.heap = q.heap := by rw [fields]
  have unqueued : e.unqueued = q.unqueued := by rw [fields]
  have counter : e.counter = q.counter := by rw [fields]
  exact ⟨heap, member, rfl, unqueued, counter, rfl, rfl⟩

theorem endTimeout_moved (rep : q.Rep A) {b : TimeoutBatch} (running : q.batch = some b)
    {clock : Int} (done : q.endTimeout b clock = some d) : Moved q (.endTimeout clock) d := by
  have apart := rep.batchApart running
  obtain ⟨e, B, ended, holds, same, others, own⟩ :=
    endTimeout_eq rep.toHolds apart.nodup apart.live apart.outside clock
  obtain ⟨timerfd, lastReset, frame⟩ := e.followEarliest_frame clock
  rw [ended, frame] at done
  cases done
  have heap (x : Nat) : e.heap x = q.heapAfter (.endTimeout clock) x := by
    simp only [heapAfter, running, Option.elim_some]
    by_cases expired : x ∈ addresses b.expiredTimers
    · obtain ⟨t, found⟩ := apart.live x expired
      rw [if_pos expired, (own x expired t found).1, found]
      rfl
    · rw [if_neg expired, (others x expired).2]
  refine ⟨funext heap, fun x => ?_, same.batch, same.unqueued, same.counter, same.cancelledTimers,
    same.isHandlingTimeout⟩
  change x ∈ e.held ↔ _
  rw [holds.held]
  simp only [heldAfter, running, Option.elim_some, rep.toHolds.held, ← heap]
  by_cases expired : x ∈ addresses b.expiredTimers
  · obtain ⟨t, found⟩ := apart.live x expired
    obtain ⟨outcome, queued⟩ := own x expired t found
    rw [queued, outcome]
    simp [expired, apart.outside x expired]
  · simp [expired, (others x expired).1]

theorem runTimer_moved {b : TimeoutBatch} (running : q.batch = some b)
    (done : q.runTimer b = some d) : Moved q .runTimer d := by
  obtain ⟨entry, -, rest⟩ := Option.bind_eq_some_iff.mp done
  obtain ⟨t, -, rest⟩ := Option.bind_eq_some_iff.mp rest
  cases rest
  refine ⟨rfl, fun x => Iff.rfl, ?_, rfl, rfl, rfl, rfl⟩
  simp [batchAfter, running]

theorem step_moved (rep : q.Rep A) {a : Act} (next : q.step a = some d) : Moved q a d := by
  obtain ⟨enabled, done⟩ := exec_of_step next
  cases a with
  | newTimer timer when interval sequence =>
    cases done
    exact ⟨rfl, fun x => Iff.rfl, rfl, rfl, rfl, rfl, rfl⟩
  | addTimerInLoop timer clock => exact addTimerInLoop_moved rep next
  | cancelTimerInLoop timer sequence => exact cancelTimerInLoop_moved rep done
  | beginTimeout now => exact beginTimeout_moved rep done
  | runTimer =>
    obtain ⟨b, running, -⟩ := (Option.any_eq_true _ _).mp enabled
    exact runTimer_moved running (by simpa [exec, running] using done)
  | endTimeout clock =>
    obtain ⟨b, running, -⟩ := (Option.any_eq_true _ _).mp enabled
    exact endTimeout_moved rep running (by simpa [exec, running] using done)
  | fire =>
    cases done
    unfold fire
    split <;> exact ⟨rfl, fun x => Iff.rfl, rfl, rfl, rfl, rfl, rfl⟩

end Moved

/-! ## Live timers -/

/-- Where the live timers are, and how they are numbered. -/
structure Sequenced (q : TimerQueue) : Prop where
  rep : q.Rep q.held
  complete : ∀ x t, q.heap x = some t → x ∈ q.held ∨ x ∈ q.loose
  bounded : ∀ x t, q.heap x = some t → x < UINTPTR_MAX ∧ t.sequence ≤ q.counter
  unique : ∀ x y t u, q.heap x = some t → q.heap y = some u → t.sequence = u.sequence → x = y
  handling : q.batch.isSome = true → q.isHandlingTimeout = true

theorem new_sequenced (isHandlingTimeout : Bool) : (new isHandlingTimeout).Sequenced where
  rep := (new_rep isHandlingTimeout).toHolds.held ▸ new_rep isHandlingTimeout
  complete := nofun
  bounded := nofun
  unique := nofun
  handling := nofun

section Live
variable {q d : TimerQueue} {a : Act}

/-- The same `Timer` object, perhaps set to another time. -/
def SameObject (t u : Timer) : Prop := u.sequence = t.sequence ∧ u.interval = t.interval

theorem isRepeated_of_sameObject {t u : Timer} (same : SameObject t u) :
    u.isRepeated = t.isRepeated := by
  simp only [Timer.isRepeated, same.2]

theorem sameObject_of_resetOutcome {now : Int} {timer : Nat} {t u : Timer}
    (again : q.resetOutcome now timer t = some u) : SameObject t u := by
  unfold resetOutcome at again
  split at again
  · cases again
    exact ⟨rfl, rfl⟩
  · cases again

/-- A timer that is live after a step was live before, at the same address, or is new. -/
theorem live_before (moved : Moved q a d) {x : Nat} {u : Timer} (live : d.heap x = some u) :
    (∃ t, q.heap x = some t ∧ SameObject t u) ∨
      ∃ when interval, a = .newTimer x when interval u.sequence := by
  have same (found : q.heap x = some u) : ∃ t, q.heap x = some t ∧ SameObject t u :=
    ⟨u, found, rfl, rfl⟩
  rw [moved.heap] at live
  cases a with
  | newTimer timer when interval sequence =>
    by_cases self : x = timer
    · subst self
      rw [heapAfter, Function.update_self] at live
      cases live
      exact .inr ⟨when, interval, rfl⟩
    · rw [heapAfter, Function.update_of_ne self] at live
      exact .inl (same live)
  | cancelTimerInLoop timer sequence =>
    simp only [heapAfter] at live
    split at live
    · by_cases self : x = timer
      · subst self
        rw [Function.update_self] at live
        cases live
      · rw [Function.update_of_ne self] at live
        exact .inl (same live)
    · exact .inl (same live)
  | endTimeout clock =>
    left
    cases running : q.batch with
    | none =>
      simp only [heapAfter, running, Option.elim_none] at live
      exact same live
    | some b =>
      simp only [heapAfter, running, Option.elim_some] at live
      split at live
      · obtain ⟨t, found, again⟩ := Option.bind_eq_some_iff.mp live
        exact ⟨t, found, sameObject_of_resetOutcome again⟩
      · exact same live
  | addTimerInLoop | beginTimeout | runTimer | fire => exact .inl (same live)

/-- Sequence numbers only go up. -/
theorem counter_le (moved : Moved q a d) (enabled : q.Enabled a) : q.counter ≤ d.counter := by
  rw [moved.counter]
  cases a with
  | newTimer => exact Nat.le_of_lt enabled.2.2
  | addTimerInLoop | cancelTimerInLoop | beginTimeout | runTimer | endTimeout | fire =>
    exact Nat.le_refl _

theorem mem_loose {x : Nat} : x ∈ q.loose ↔
    x ∈ q.unqueued ∨ ∃ b, q.batch = some b ∧ x ∈ addresses b.expiredTimers := by
  rw [loose, List.mem_append]
  cases q.batch with
  | none => simp
  | some b => simp

/-- A live timer leaves the timers to be added by its `addTimerInLoop` only. -/
theorem mem_unqueuedAfter (h : q.Sequenced) (enabled : q.Enabled a) {x : Nat} {t : Timer}
    (found : q.heap x = some t) :
    x ∈ q.unqueuedAfter a ↔ x ∈ q.unqueued ∧ ∀ clock, a ≠ .addTimerInLoop x clock := by
  cases a with
  | newTimer timer when interval sequence =>
    have other : x ≠ timer := by
      rintro rfl
      rw [enabled.1] at found
      cases found
    simp [unqueuedAfter, other]
  | addTimerInLoop timer clock =>
    have nodup : q.unqueued.Nodup := h.rep.looseNodup.of_append_left
    simp only [unqueuedAfter, nodup.mem_erase_iff]
    constructor
    · rintro ⟨other, waiting⟩
      exact ⟨waiting, fun clock same => other (by cases same; rfl)⟩
    · rintro ⟨waiting, other⟩
      exact ⟨fun same => other clock (by rw [same]), waiting⟩
  | cancelTimerInLoop | beginTimeout | runTimer | endTimeout | fire => simp [unqueuedAfter]

/-- No step loses a live timer. -/
theorem step_complete (h : q.Sequenced) (moved : Moved q a d) (enabled : q.Enabled a) {x : Nat}
    {u : Timer} (live : d.heap x = some u) : x ∈ d.held ∨ x ∈ d.loose := by
  rw [mem_loose, moved.held, moved.unqueued, moved.batch]
  rcases live_before moved live with ⟨t, found, -⟩ | ⟨when, interval, rfl⟩
  · have before := h.complete x t found
    rw [mem_loose] at before
    cases a with
    | newTimer timer when interval sequence =>
      simp only [heldAfter, unqueuedAfter, batchAfter, List.mem_append]
      tauto
    | addTimerInLoop timer clock =>
      simp only [heldAfter, unqueuedAfter, batchAfter]
      by_cases self : x = timer
      · exact .inl (.inl self)
      · rw [List.mem_erase_of_ne self]
        tauto
    | cancelTimerInLoop timer sequence =>
      simp only [heldAfter, unqueuedAfter, batchAfter]
      rcases before with held | loose
      · refine .inl ⟨held, fun active self => ?_⟩
        rw [moved.heap, heapAfter, if_pos active, self, Function.update_self] at live
        cases live
      · exact .inr loose
    | beginTimeout now =>
      simp only [heldAfter, unqueuedAfter, batchAfter, Option.some.injEq, exists_eq_left']
      have idle : q.batch = none := enabled
      simp only [idle, reduceCtorEq, false_and, exists_false] at before
      tauto
    | runTimer =>
      obtain ⟨b, running, -⟩ := (Option.any_eq_true _ _).mp enabled
      simp only [heldAfter, unqueuedAfter, batchAfter, running, Option.map_some,
        Option.some.injEq, exists_eq_left'] at before ⊢
      exact before
    | endTimeout clock =>
      obtain ⟨b, running, -⟩ := (Option.any_eq_true _ _).mp enabled
      rw [moved.heap] at live
      simp only [heldAfter, unqueuedAfter, running, Option.elim_some, live, Option.isSome_some,
        Option.some.injEq, exists_eq_left'] at before ⊢
      tauto
    | fire => exact before
  · exact .inr (.inl (List.mem_append_right _ (List.mem_singleton_self _)))

theorem step_sequenced (h : q.Sequenced) (next : q.step a = some d) : d.Sequenced := by
  have moved := step_moved h.rep next
  obtain ⟨enabled, -⟩ := exec_of_step next
  have counter := counter_le moved enabled
  refine ⟨?_, fun x u live => step_complete h moved enabled live, ?_, ?_, ?_⟩
  · obtain ⟨B, rep⟩ := step_rep h.rep next
    rw [rep.toHolds.held]
    exact rep
  · intro x u live
    rcases live_before moved live with ⟨t, found, same⟩ | ⟨when, interval, rfl⟩
    · obtain ⟨address, sequence⟩ := h.bounded x t found
      have number := same.1
      exact ⟨address, by omega⟩
    · exact ⟨enabled.2.1, Nat.le_of_eq moved.counter.symm⟩
  · intro x y u v liveX liveY shared
    rcases live_before moved liveX with ⟨t, foundX, sameX⟩ | ⟨when, interval, rfl⟩
    · rcases live_before moved liveY with ⟨s, foundY, sameY⟩ | ⟨when, interval, rfl⟩
      · exact h.unique x y t s foundX foundY (sameX.1.symm.trans (shared.trans sameY.1))
      · have old := (h.bounded x t foundX).2
        have fresh := enabled.2.2
        have number := sameX.1
        omega
    · rcases live_before moved liveY with ⟨s, foundY, sameY⟩ | ⟨when, interval, same⟩
      · have old := (h.bounded y s foundY).2
        have fresh := enabled.2.2
        have number := sameY.1
        omega
      · injection same
  · intro running
    rw [moved.handling]
    rw [moved.batch] at running
    cases a with
    | beginTimeout => rfl
    | endTimeout => cases running
    | runTimer => exact h.handling (by simpa [batchAfter] using running)
    | newTimer | addTimerInLoop | cancelTimerInLoop | fire => exact h.handling running

/-- An action that can come has a result. -/
theorem step_of_enabled (h : q.Sequenced) (enabled : q.Enabled a) :
    ∃ d, q.step a = some d ∧ Moved q a d ∧ d.Sequenced := by
  obtain ⟨d, -, done, -⟩ := exec_rep h.rep enabled
  have next : q.step a = some d := (if_pos enabled).trans done
  exact ⟨d, next, step_moved h.rep next, step_sequenced h next⟩

/-! ## The batch -/

theorem expiredEntries_eq {now : Int} {entries : List TimerEntry}
    (sorted : entries.Pairwise (· < ·))
    (expired : q.timers.filter (· < toLex (now, UINTPTR_MAX)) = entries.toFinset) :
    q.expiredEntries now = entries := by
  have nodup : entries.Nodup := sorted.imp fun before => ne_of_lt before
  rw [expiredEntries, expired]
  exact (List.toFinset_sort (r := (· ≤ ·)) nodup).mpr (sorted.imp fun before => le_of_lt before)

/-- The timer that is run next is live, and has not been run in this batch. -/
theorem runTimer_next (h : q.Sequenced) (enabled : q.Enabled .runTimer) :
    ∃ b x t, q.batch = some b ∧
      b.expiredTimers[b.ran]?.map (fun entry => (ofLex entry).2) = some x ∧
      q.heap x = some t ∧ x ∉ (addresses b.expiredTimers).take b.ran := by
  obtain ⟨b, taken, more⟩ := (Option.any_eq_true _ _).mp enabled
  have bound : b.ran < b.expiredTimers.length := of_decide_eq_true more
  have apart := h.rep.batchApart taken
  have place : b.ran < (addresses b.expiredTimers).length := by simpa [addresses] using bound
  have address : b.expiredTimers[b.ran]?.map (fun entry => (ofLex entry).2) =
      some (addresses b.expiredTimers)[b.ran] := by
    simp [addresses, List.getElem?_eq_getElem bound]
  obtain ⟨t, found⟩ := apart.live _ (List.getElem_mem place)
  refine ⟨b, _, t, taken, address, found, fun earlier => ?_⟩
  obtain ⟨i, before, same⟩ := List.mem_take_iff_getElem.mp earlier
  have index := (apart.nodup.getElem_inj_iff (i := i) (j := b.ran)).mp same
  omega

/-- Every action but the end of a timeout leaves the timers of the batch as they are. -/
theorem heap_of_batch (h : q.Sequenced) (moved : Moved q a d) (enabled : q.Enabled a)
    (goesOn : ∀ clock, a ≠ .endTimeout clock) {b : TimeoutBatch} (taken : q.batch = some b)
    {x : Nat} (expired : x ∈ addresses b.expiredTimers) : d.heap x = q.heap x := by
  have apart := h.rep.batchApart taken
  rw [moved.heap]
  cases a with
  | newTimer timer when interval sequence =>
    refine Function.update_of_ne ?_ _ _
    rintro rfl
    obtain ⟨t, found⟩ := apart.live x expired
    rw [enabled.1] at found
    cases found
  | cancelTimerInLoop timer sequence =>
    simp only [heapAfter]
    split
    · rename_i active
      refine Function.update_of_ne ?_ _ _
      rintro rfl
      exact apart.outside x expired (h.rep.toHolds.mem_active_iff.mp active).1
    · rfl
  | endTimeout clock => exact absurd rfl (goesOn clock)
  | addTimerInLoop | beginTimeout | runTimer | fire => rfl

/-- A timer that has been run stays so until the timeout ends. -/
theorem step_ran (moved : Moved q a d) (enabled : q.Enabled a)
    (goesOn : ∀ clock, a ≠ .endTimeout clock) {b : TimeoutBatch} (taken : q.batch = some b)
    {x : Nat} (ran : x ∈ (addresses b.expiredTimers).take b.ran) :
    ∃ c, d.batch = some c ∧ x ∈ (addresses c.expiredTimers).take c.ran := by
  rw [moved.batch]
  cases a with
  | beginTimeout now =>
    have idle : q.batch = none := enabled
    rw [taken] at idle
    cases idle
  | runTimer =>
    refine ⟨{ b with ran := b.ran + 1 }, by rw [batchAfter, taken, Option.map_some], ?_⟩
    exact (List.take_prefix_take_left (Nat.le_succ b.ran)).subset ran
  | endTimeout clock => exact absurd rfl (goesOn clock)
  | newTimer | addTimerInLoop | cancelTimerInLoop | fire => exact ⟨b, taken, ran⟩

end Live

end TimerQueue
end Arale
