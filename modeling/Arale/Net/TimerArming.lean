import Arale.Lib.Schedules
import Arale.Net.TimerSteps

/-!
# The timer descriptor never sleeps over a waiting timer

The descriptor is set only when an added timer becomes the earliest and at the end
of `handleTimeout`, where a non-positive earliest time is skipped. Whatever is added,
cancelled or fired in whatever order, outside `handleTimeout` a non-empty queue has
the descriptor armed, or fired and unread, no later than its earliest timer or 100
microseconds after the last `resetTimerfd`. Deadlines may pass at any moment, also
before they are due.
-/

namespace TimerArming

open Arale Schedules TimerQueue

/-- The descriptor is armed, or has fired and is unread. -/
def Pending (fd : TimerFd) (deadline : Int) : Prop := fd = .armed deadline ∨ fd = .fired deadline

/-- The deadline is no later than the earliest timer or the grace of the last reset. -/
def Armed (q : TimerQueue) : Prop :=
  ∀ first, q.begin? = some first → ∃ deadline reset, Pending q.timerfd deadline ∧
    q.lastReset = some reset ∧ deadline ≤ max (ofLex first).1 (reset + 100)

/-- The same against every timer of the queue. -/
def Covered (q : TimerQueue) : Prop :=
  ∃ deadline reset, Pending q.timerfd deadline ∧ q.lastReset = some reset ∧
    ∀ entry ∈ q.timers, deadline ≤ max (ofLex entry).1 (reset + 100)

/-- When the queue has to be covered: while timers are being run, only the timers the
end of `handleTimeout` will not arm for count. -/
def Due (q : TimerQueue) : Prop :=
  ∃ entry ∈ q.timers, q.batch.isSome = true → (ofLex entry).1 ≤ 0

/-- What every run with a positive clock keeps. -/
structure Watched (q : TimerQueue) : Prop where
  represented : ∃ A, q.Rep A
  covered : Due q → Covered q
  clock : ∀ b, q.batch = some b → 0 < b.now

theorem Covered.armed {q : TimerQueue} (covered : Covered q) : Armed q := by
  intro first isFirst
  obtain ⟨deadline, reset, pending, last, bound⟩ := covered
  exact ⟨deadline, reset, pending, last, bound first (begin?_mem isFirst)⟩

theorem new_watched (isHandlingTimeout : Bool) : Watched (.new isHandlingTimeout) where
  represented := ⟨∅, new_rep isHandlingTimeout⟩
  covered := fun ⟨_, member, _⟩ => absurd member (Finset.notMem_empty _)
  clock := fun _ h => nomatch h

/-! ## Setting the descriptor -/

theorem microseconds_howMuchTimeFromNow (when now : Int) :
    (howMuchTimeFromNow when now).microseconds = max (when - now) 100 := by
  simp only [howMuchTimeFromNow, Timespec.microseconds]
  split <;> omega

/-- A reset for a time no later than any timer covers the queue. -/
theorem resetTimerfd_covered {q : TimerQueue} {when : Int} (clock : Int)
    (earliest : ∀ entry ∈ q.timers, when ≤ (ofLex entry).1) :
    Covered (q.resetTimerfd when clock) := by
  refine ⟨_, clock, Or.inl rfl, rfl, fun entry member => ?_⟩
  have bound := earliest entry member
  rw [microseconds_howMuchTimeFromNow]
  omega

theorem begin?_le {q : TimerQueue} {first : TimerEntry} (isFirst : q.begin? = some first)
    {entry : TimerEntry} (member : entry ∈ q.timers) : (ofLex first).1 ≤ (ofLex entry).1 := by
  unfold begin? at isFirst
  split at isFirst
  · cases isFirst
    exact Prod.Lex.monotone_fst _ _ (Finset.min'_le _ _ member)
  · cases isFirst

theorem begin?_eq_none {q : TimerQueue} (empty : q.begin? = none) : q.timers = ∅ := by
  unfold begin? at empty
  split at empty
  · cases empty
  · exact Finset.not_nonempty_iff_eq_empty.mp ‹_›

theorem isEarliest_iff {q : TimerQueue} {when : Int} :
    q.isEarliest when = true ↔ ∀ entry ∈ q.timers, when < (ofLex entry).1 := by
  cases isFirst : q.begin? with
  | none => simp [isEarliest, isFirst, begin?_eq_none isFirst]
  | some first =>
    simp only [isEarliest, isFirst, decide_eq_true_eq]
    constructor
    · intro earlier entry member
      exact lt_of_lt_of_le earlier (begin?_le isFirst member)
    · intro all
      exact all first (begin?_mem isFirst)

/-! ## Steps -/

section Steps
variable {q d : TimerQueue}

/-- Fewer timers and the same descriptor. -/
theorem covered_of_subset (covered : Due q → Covered q) (fewer : d.timers ⊆ q.timers)
    (timerfd : d.timerfd = q.timerfd) (lastReset : d.lastReset = q.lastReset)
    (batch : d.batch.isSome = q.batch.isSome) : Due d → Covered d := by
  rintro ⟨entry, member, early⟩
  obtain ⟨deadline, reset, pending, last, bound⟩ :=
    covered ⟨entry, fewer member, batch ▸ early⟩
  exact ⟨deadline, reset, timerfd ▸ pending, lastReset.trans last,
    fun other member => bound other (fewer member)⟩

theorem addTimerInLoop_covered (covered : Due q → Covered q) {timer : Nat} {t : Timer}
    (found : q.heap timer = some t) (clock : Int) :
    Due (if q.isEarliest t.expiration then (q.enqueue timer).resetTimerfd t.expiration clock
        else q.enqueue timer) →
      Covered (if q.isEarliest t.expiration then
          (q.enqueue timer).resetTimerfd t.expiration clock
        else q.enqueue timer) := by
  have entries {entry : TimerEntry} (member : entry ∈ (q.enqueue timer).timers) :
      (ofLex entry).1 = t.expiration ∨ entry ∈ q.timers := by
    rcases Finset.mem_insert.mp member with rfl | before
    · exact Or.inl (by simp [entryOf, found])
    · exact Or.inr before
  by_cases leads : q.isEarliest t.expiration = true
  · rw [if_pos leads]
    intro _
    refine resetTimerfd_covered clock fun entry member => ?_
    rcases entries member with same | before
    · exact Int.le_of_eq same.symm
    · exact le_of_lt (isEarliest_iff.mp leads entry before)
  · rw [if_neg leads]
    obtain ⟨first, isIn, earlier⟩ : ∃ first ∈ q.timers, (ofLex first).1 ≤ t.expiration := by
      simpa [isEarliest_iff] using leads
    rintro ⟨entry, member, early⟩
    have due : Due q := by
      rcases entries member with same | before
      · refine ⟨first, isIn, fun running => ?_⟩
        have := early running
        omega
      · exact ⟨entry, before, early⟩
    obtain ⟨deadline, reset, pending, last, bound⟩ := covered due
    refine ⟨deadline, reset, pending, last, fun entry member => ?_⟩
    rcases entries member with same | before
    · have := bound first isIn
      omega
    · exact bound entry before

/-- Every entry `getExpiredTimers` leaves is later than a positive clock. -/
theorem not_due_of_filter {now : Int} (positive : 0 < now)
    (timers : d.timers = q.timers.filter (¬ · < toLex (now, UINTPTR_MAX)))
    (running : d.batch.isSome = true) : ¬ Due d := by
  rintro ⟨entry, member, early⟩
  rw [timers, Finset.mem_filter] at member
  have late : now ≤ (ofLex entry).1 :=
    Prod.Lex.monotone_fst _ _ (not_lt.mp member.2)
  have := early running
  omega

/-- The end of `handleTimeout`: a skipped, non-positive earliest timer was added while
timers were run, and the descriptor has been set for it then. -/
theorem endTimeout_covered (covered : Due q → Covered q) {A : Finset Nat} (rep : q.Rep A)
    {b : TimeoutBatch} (running : q.batch = some b) (positive : 0 < b.now) {clock : Int}
    (ended : q.endTimeout b clock = some d) : Due d → Covered d := by
  have apart := rep.batchApart running
  obtain ⟨e, B, done, holds, same, others, own⟩ :=
    endTimeout_eq rep.toHolds apart.nodup apart.live apart.outside clock
  rw [ended] at done
  cases done
  have kept {entry : TimerEntry} (member : entry ∈ e.timers) (early : (ofLex entry).1 ≤ 0) :
      entry ∈ q.timers := by
    obtain ⟨held, t, found, key⟩ := holds.key member
    by_cases expired : (ofLex entry).2 ∈ addresses b.expiredTimers
    · obtain ⟨before, live⟩ := apart.live _ expired
      have later := le_of_resetOutcome ((own _ expired before live).1.symm.trans found)
      omega
    · obtain ⟨mem, heap⟩ := others _ expired
      exact rep.toHolds.mem_timers_iff.mpr ⟨mem.mp held, t, heap ▸ found, key⟩
  unfold followEarliest
  cases isFirst : e.begin? with
  | none =>
    rintro ⟨entry, member, -⟩
    have empty : entry ∈ e.timers := member
    rw [begin?_eq_none isFirst] at empty
    cases empty
  | some first =>
    by_cases valid : 0 < (ofLex first).1
    · simp only [if_pos valid]
      exact fun _ => resetTimerfd_covered clock fun entry member => begin?_le isFirst member
    · simp only [if_neg valid]
      intro _
      have early : (ofLex first).1 ≤ 0 := by omega
      have before := kept (begin?_mem isFirst) early
      obtain ⟨deadline, reset, pending, last, bound⟩ :=
        covered ⟨first, before, fun _ => early⟩
      refine ⟨deadline, reset, same.timerfd ▸ pending, same.lastReset.trans last, ?_⟩
      intro entry member
      have := bound first before
      have := begin?_le isFirst member
      omega

theorem fire_covered (covered : Due q → Covered q) : Due q.fire → Covered q.fire := by
  unfold fire
  split
  · rename_i deadline armed
    intro due
    obtain ⟨deadline', reset, pending, last, bound⟩ := covered due
    refine ⟨deadline, reset, Or.inr rfl, last, fun entry member => ?_⟩
    have same : deadline' = deadline := by
      rcases pending with h | h
      · rw [armed] at h
        cases h
        rfl
      · rw [armed] at h
        cases h
    exact same ▸ bound entry member
  · exact covered

theorem cancelTimerInLoop_frame {A : Finset Nat} (holds : q.Holds A) {timer sequence : Nat}
    (done : q.cancelTimerInLoop timer sequence = some d) :
    d.timers ⊆ q.timers ∧ d.timerfd = q.timerfd ∧ d.lastReset = q.lastReset ∧
      d.batch = q.batch := by
  by_cases active : toLex (timer, sequence) ∈ q.activeTimers
  · obtain ⟨held, t, found, rfl⟩ := holds.mem_active_iff.mp active
    rw [cancelTimerInLoop_held holds found held] at done
    cases done
    exact ⟨Finset.erase_subset _ _, rfl, rfl, rfl⟩
  · rw [cancelTimerInLoop_missing holds active] at done
    cases done
    split
    · obtain ⟨noted, -, frame⟩ := q.recordCancelled_frame (toLex (timer, sequence))
      rw [frame]
      exact ⟨Finset.Subset.refl _, rfl, rfl, rfl⟩
    · exact ⟨Finset.Subset.refl _, rfl, rfl, rfl⟩

/-- The current time is positive when a timeout is handled. -/
def ClockPositive : Act → Prop
  | .beginTimeout now => 0 < now
  | _ => True

instance : (a : Act) → Decidable (ClockPositive a)
  | .beginTimeout now => inferInstanceAs (Decidable (0 < now))
  | .newTimer _ _ _ _ | .addTimerInLoop _ _ | .cancelTimerInLoop _ _ | .runTimer
  | .endTimeout _ | .fire => inferInstanceAs (Decidable True)

/-- A running timeout was begun at a positive time. -/
theorem step_clock {A : Finset Nat} (rep : q.Rep A) (clock : ∀ b, q.batch = some b → 0 < b.now)
    {a : Act} (positive : ClockPositive a) (next : q.step a = some d) :
    ∀ b, d.batch = some b → 0 < b.now := by
  intro b running
  rw [(step_moved rep next).batch] at running
  cases a with
  | beginTimeout now =>
    cases running
    exact positive
  | runTimer =>
    obtain ⟨c, taken, rfl⟩ := Option.map_eq_some_iff.mp running
    exact clock c taken
  | endTimeout => cases running
  | newTimer | addTimerInLoop | cancelTimerInLoop | fire => exact clock b running

theorem step_watched (watched : Watched q) {a : Act} (positive : ClockPositive a)
    (next : q.step a = some d) : Watched d := by
  obtain ⟨A, rep⟩ := watched.represented
  obtain ⟨enabled, done⟩ := exec_of_step next
  refine ⟨step_rep rep next, ?_, step_clock rep watched.clock positive next⟩
  cases a with
  | newTimer timer when interval sequence =>
    cases done
    exact covered_of_subset watched.covered (Finset.Subset.refl _) rfl rfl rfl
  | addTimerInLoop timer clock =>
    obtain ⟨outside, t, found⟩ := rep.looseLive timer (List.mem_append_left _ enabled)
    have holds : Holds { q with unqueued := q.unqueued.erase timer } A :=
      ⟨rep.live, rep.timers, rep.active⟩
    rw [exec, addTimerInLoop_eq holds found outside clock] at done
    cases done
    have covered : Due { q with unqueued := q.unqueued.erase timer } →
        Covered { q with unqueued := q.unqueued.erase timer } := watched.covered
    exact addTimerInLoop_covered covered found clock
  | cancelTimerInLoop timer sequence =>
    obtain ⟨fewer, timerfd, lastReset, batch⟩ := cancelTimerInLoop_frame rep.toHolds done
    exact covered_of_subset watched.covered fewer timerfd lastReset (by rw [batch])
  | beginTimeout now =>
    obtain ⟨e, begun, fields, -⟩ := beginTimeout_eq rep.toHolds now
    rw [exec, begun] at done
    cases done
    refine fun due => absurd due ?_
    exact not_due_of_filter positive (congrArg TimerQueue.timers fields) rfl
  | runTimer =>
    obtain ⟨b, running, more⟩ := (Option.any_eq_true _ _).mp enabled
    have ran : q.runTimer b = some d := by simpa [exec, running] using done
    obtain ⟨entry, -, rest⟩ := Option.bind_eq_some_iff.mp ran
    obtain ⟨t, -, rest⟩ := Option.bind_eq_some_iff.mp rest
    cases rest
    exact covered_of_subset watched.covered (Finset.Subset.refl _) rfl rfl (by simp [running])
  | endTimeout clock =>
    obtain ⟨b, running, -⟩ := (Option.any_eq_true _ _).mp enabled
    have ended : q.endTimeout b clock = some d := by simpa [exec, running] using done
    exact endTimeout_covered watched.covered rep running (watched.clock b running) ended
  | fire =>
    cases done
    exact fire_covered watched.covered

end Steps

/-- After every operation, a `handleTimeout` with all its callbacks counting as one, a
non-empty queue has its descriptor armed or fired, and not too late. -/
theorem timerfd_armed_throughout (isHandlingTimeout : Bool) (actions : List Act)
    (positive : ∀ a ∈ actions, ClockPositive a) :
    Throughout step (fun q => q.batch = none → Armed q) (.new isHandlingTimeout) actions := by
  refine throughout_of_along (I := Watched)
    (fun q a d watched positive next => step_watched watched positive next) ?_
    (new_watched isHandlingTimeout) (along_of_forall step _ positive)
  intro q watched idle first isFirst
  refine (watched.covered ⟨first, begin?_mem isFirst, fun running => ?_⟩).armed first isFirst
  rw [idle] at running
  cases running

/-- A timer at a non-positive time is added while another one is being run. -/
theorem add_in_callback_armed_throughout :
    let actions : List Act := [.newTimer 1 50 none 1, .addTimerInLoop 1 10, .fire,
      .beginTimeout 200, .runTimer, .newTimer 2 (-5) none 2, .addTimerInLoop 2 201,
      .endTimeout 210]
    (∀ a ∈ actions, ClockPositive a) ∧
      Throughout step (fun q => q.batch = none → Armed q) (.new false) actions := by
  have positive : ∀ a ∈ [Act.newTimer 1 50 none 1, .addTimerInLoop 1 10, .fire,
      .beginTimeout 200, .runTimer, .newTimer 2 (-5) none 2, .addTimerInLoop 2 201,
      .endTimeout 210], ClockPositive a := by decide
  exact ⟨positive, timerfd_armed_throughout false _ positive⟩

end TimerArming
