import Arale.Net.TimerSteps

/-!
# Cancelled timers

`cancelTimerInLoop` frees a timer that it finds in `activeTimers_`; during a timeout it
notes any other id in `cancelledTimers_`, which only `resetTimers` reads. So a timer that
has been run in the current batch is not set again, but one that waits there for its run is
run all the same. The tracked queue knows which timers have been inserted, which of them
have been cancelled since, and which of those have had their callback invoked.
-/

namespace Arale

structure TimerID where
  timer : Nat
  sequence : Nat
  deriving DecidableEq, Repr

namespace TimerQueue

/-- The id `addTimer` has returned for the timer at an address. -/
def idOf (q : TimerQueue) (timer : Nat) : Option TimerID :=
  (q.heap timer).map fun t => ⟨timer, t.sequence⟩

/-- The id is that of a live timer. -/
def Names (q : TimerQueue) (id : TimerID) : Prop := q.idOf id.timer = some id

/-- The part of the current batch that is still to be run. -/
def toRun (q : TimerQueue) : List Nat :=
  q.batch.elim [] fun b => (addresses b.expiredTimers).drop b.ran

/-- The id's timer waits in the current batch for its run. -/
def AwaitsRun (q : TimerQueue) (id : TimerID) : Prop := q.Names id ∧ id.timer ∈ q.toRun

instance (q : TimerQueue) (id : TimerID) : Decidable (q.AwaitsRun id) :=
  inferInstanceAs (Decidable (q.idOf id.timer = some id ∧ id.timer ∈ q.toRun))

/-- The ids of the timers whose callback an action invokes. -/
def invoked (q : TimerQueue) : Act → List TimerID
  | .runTimer =>
    (q.batch.bind fun b => b.expiredTimers[b.ran]?.bind fun entry => q.idOf (ofLex entry).2).toList
  | _ => []

section Ids
variable {q d : TimerQueue} {a : Act} {id : TimerID}

theorem names_iff : q.Names id ↔ ∃ t, q.heap id.timer = some t ∧ t.sequence = id.sequence := by
  simp only [Names, idOf, Option.map_eq_some_iff]
  constructor
  · rintro ⟨t, found, same⟩
    exact ⟨t, found, congrArg TimerID.sequence same⟩
  · rintro ⟨t, found, same⟩
    exact ⟨t, found, by rw [same]⟩

/-- An id of a timer that is live after a step is new, or named a live timer before. -/
theorem names_before (moved : Moved q a d) (enabled : q.Enabled a) (names : d.Names id) :
    q.Names id ∨ q.counter < id.sequence := by
  obtain ⟨u, live, number⟩ := names_iff.mp names
  rcases live_before moved live with ⟨t, found, same⟩ | ⟨when, interval, rfl⟩
  · exact .inl (names_iff.mpr ⟨t, found, same.1.symm.trans number⟩)
  · have fresh := enabled.2.2
    exact .inr (number ▸ fresh)

theorem active_iff_held (h : q.Sequenced) (names : q.Names id) :
    toLex (id.timer, id.sequence) ∈ q.activeTimers ↔ id.timer ∈ q.held := by
  rw [h.rep.toHolds.mem_active_iff]
  exact ⟨fun both => both.1, fun held => ⟨held, names_iff.mp names⟩⟩

/-- What is run next: the first of the timers still to be run. -/
theorem invoked_runTimer (h : q.Sequenced) (enabled : q.Enabled .runTimer) :
    ∃ b id, q.batch = some b ∧ id.timer ∉ (addresses b.expiredTimers).take b.ran ∧ q.Names id ∧
      q.toRun = id.timer :: (addresses b.expiredTimers).drop (b.ran + 1) ∧
      q.invoked .runTimer = [id] := by
  obtain ⟨b, x, t, taken, address, found, fresh⟩ := runTimer_next h enabled
  have named : q.idOf x = some ⟨x, t.sequence⟩ := by
    rw [idOf, found]
    rfl
  obtain ⟨entry, next, rfl⟩ := Option.map_eq_some_iff.mp address
  obtain ⟨bound, here⟩ := List.getElem?_eq_some_iff.mp next
  have place : b.ran < (addresses b.expiredTimers).length := by simpa [addresses] using bound
  refine ⟨b, ⟨(ofLex entry).2, t.sequence⟩, taken, fresh, named, ?_, ?_⟩
  · rw [toRun, taken, Option.elim_some, List.drop_eq_getElem_cons place]
    simp only [addresses, List.getElem_map, here]
  · simp [invoked, taken, next, named]

end Ids

/-! ## What a cancellation achieves -/

/-- A cancelled timer is gone, or it has been run in the current batch and is noted. -/
structure Silenced (q : TimerQueue) (cancelled : List TimerID) : Prop where
  old : ∀ id ∈ cancelled, id.sequence ≤ q.counter
  done : ∀ id ∈ cancelled, q.Names id → toLex (id.timer, id.sequence) ∈ q.cancelledTimers ∧
    ∃ b, q.batch = some b ∧ id.timer ∈ (addresses b.expiredTimers).take b.ran

section Silenced
variable {q d : TimerQueue} {a : Act} {id : TimerID} {cancelled : List TimerID}

theorem mem_cancelledAfter (busy : q.batch.isSome = true) (enabled : q.Enabled a)
    {entry : ActiveTimerEntry} (noted : entry ∈ q.cancelledTimers) :
    entry ∈ q.cancelledAfter a := by
  cases a with
  | cancelTimerInLoop timer sequence =>
    simp only [cancelledAfter]
    split
    · exact Finset.mem_insert_of_mem noted
    · exact noted
  | beginTimeout now =>
    have idle : q.batch = none := enabled
    rw [idle] at busy
    cases busy
  | newTimer | addTimerInLoop | runTimer | endTimeout | fire => exact noted

theorem step_silenced (moved : Moved q a d) (enabled : q.Enabled a)
    (before : q.Silenced cancelled) : d.Silenced cancelled := by
  have counter := counter_le moved enabled
  refine ⟨fun id member => Nat.le_trans (before.old id member) counter, ?_⟩
  intro id member names
  rcases names_before moved enabled names with named | fresh
  · obtain ⟨noted, b, taken, ran⟩ := before.done id member named
    by_cases ends : ∃ clock, a = .endTimeout clock
    · -- `resetTimers` finds the id in `cancelledTimers_`
      obtain ⟨clock, rfl⟩ := ends
      obtain ⟨t, found, number⟩ := names_iff.mp named
      obtain ⟨u, live, -⟩ := names_iff.mp names
      rw [moved.heap, heapAfter, taken, Option.elim_some, if_pos (List.mem_of_mem_take ran), found,
        Option.bind_some, resetOutcome, number, if_neg fun again => again.2 noted] at live
      cases live
    · refine ⟨?_, step_ran moved enabled (fun clock same => ends ⟨clock, same⟩) taken ran⟩
      rw [moved.cancelled]
      exact mem_cancelledAfter (by rw [taken]; rfl) enabled noted
  · have old := before.old id member
    omega

/-- Cancelling an inserted timer that does not wait in the batch for its run. -/
theorem cancel_silenced (h : q.Sequenced)
    (moved : Moved q (.cancelTimerInLoop id.timer id.sequence) d) (before : q.Silenced cancelled)
    (old : id.sequence ≤ q.counter) (inserted : q.Names id → id.timer ∉ q.unqueued)
    (inTime : ¬ q.AwaitsRun id) : d.Silenced (cancelled ++ [id]) := by
  have kept : d.Silenced cancelled := step_silenced moved trivial before
  have counter : q.counter ≤ d.counter := counter_le moved trivial
  constructor
  · intro other member
    rcases List.mem_append.mp member with earlier | now
    · exact kept.old other earlier
    · rw [List.mem_singleton.mp now]
      omega
  · intro other member names
    rcases List.mem_append.mp member with earlier | now
    · exact kept.done other earlier names
    · cases List.mem_singleton.mp now
      have named : q.Names id := by
        refine (names_before moved trivial names).resolve_right fun fresh => ?_
        omega
      obtain ⟨t, found, -⟩ := names_iff.mp named
      have missing : toLex (id.timer, id.sequence) ∉ q.activeTimers := by
        intro active
        obtain ⟨u, live, -⟩ := names_iff.mp names
        rw [moved.heap, heapAfter, if_pos active, Function.update_self] at live
        cases live
      have outside := mt (active_iff_held h named).mpr missing
      have loose := mem_loose.mp ((h.complete _ t found).resolve_left outside)
      obtain ⟨b, taken, expired⟩ := loose.resolve_left (inserted named)
      have handling := h.handling (by rw [taken]; rfl)
      refine ⟨?_, b, moved.batch.trans taken, ?_⟩
      · rw [moved.cancelled, cancelledAfter, if_pos ⟨missing, handling⟩]
        exact Finset.mem_insert_self _ _
      · rw [← List.take_append_drop b.ran (addresses b.expiredTimers)] at expired
        refine (List.mem_append.mp expired).resolve_right fun waits => inTime ⟨named, ?_⟩
        rw [toRun, taken]
        exact waits

theorem invoked_silenced (h : q.Sequenced) (enabled : q.Enabled a) (before : q.Silenced cancelled) :
    ∀ id ∈ q.invoked a, id ∉ cancelled := by
  cases a with
  | runTimer =>
    obtain ⟨b, next, taken, fresh, named, -, ran⟩ := invoked_runTimer h enabled
    rw [ran]
    intro id member cancelled
    cases List.mem_singleton.mp member
    obtain ⟨-, c, running, earlier⟩ := before.done next cancelled named
    rw [taken] at running
    cases running
    exact fresh earlier
  | newTimer | addTimerInLoop | cancelTimerInLoop | beginTimeout | endTimeout | fire =>
    exact fun id member => absurd member List.not_mem_nil

/-- A timer that waits in the batch for its run goes on to wait, or is run, cancelled or not. -/
theorem step_awaitsRun (h : q.Sequenced) (moved : Moved q a d) (enabled : q.Enabled a)
    (awaits : q.AwaitsRun id) : d.AwaitsRun id ∨ id ∈ q.invoked a := by
  obtain ⟨named, waits⟩ := awaits
  cases taken : q.batch with
  | none => simp [toRun, taken] at waits
  | some b =>
    have rest : id.timer ∈ (addresses b.expiredTimers).drop b.ran := by
      simpa [toRun, taken] using waits
    have names (goesOn : ∀ clock, a ≠ .endTimeout clock) : d.Names id := by
      rw [Names, idOf, heap_of_batch h moved enabled goesOn taken (List.mem_of_mem_drop rest)]
      exact named
    have batch := moved.batch
    cases a with
    | beginTimeout now =>
      have idle : q.batch = none := enabled
      rw [taken] at idle
      cases idle
    | runTimer =>
      obtain ⟨c, next, running, -, nextNamed, places, ran⟩ := invoked_runTimer h enabled
      rw [taken] at running
      cases running
      rw [batchAfter, taken, Option.map_some] at batch
      rw [places] at waits
      rcases List.mem_cons.mp waits with here | later
      · have again : q.idOf next.timer = some id := by
          rw [← here]
          exact named
        rw [ran, Option.some.inj (nextNamed.symm.trans again)]
        exact .inr (List.mem_singleton_self id)
      · refine .inl ⟨names (fun _ ends => by cases ends), ?_⟩
        rw [toRun, batch]
        exact later
    | endTimeout clock =>
      obtain ⟨c, running, ended⟩ := (Option.any_eq_true _ _).mp enabled
      rw [taken] at running
      cases running
      have length : b.ran = (addresses b.expiredTimers).length := by
        simpa [addresses] using of_decide_eq_true ended
      rw [length, List.drop_length] at rest
      cases rest
    | newTimer | addTimerInLoop | cancelTimerInLoop | fire =>
      have same : d.batch = q.batch := batch
      refine .inl ⟨names (fun _ ends => by cases ends), ?_⟩
      rw [toRun, same, taken]
      exact rest

end Silenced
end TimerQueue

/-- A timer queue with the ids it has inserted, those of them cancelled since, and those of
these whose callback was invoked afterwards. -/
structure TimerCancels where
  queue : TimerQueue
  inserted : List TimerID
  cancelled : List TimerID
  late : List TimerID

namespace TimerCancels

open TimerQueue

def new (isHandlingTimeout : Bool) : TimerCancels := ⟨.new isHandlingTimeout, [], [], []⟩

def insertedAfter (c : TimerCancels) : Act → List TimerID
  | .addTimerInLoop timer _ => c.inserted ++ (c.queue.idOf timer).toList
  | _ => c.inserted

def cancelledAfter (c : TimerCancels) : Act → List TimerID
  | .cancelTimerInLoop timer sequence =>
    if ⟨timer, sequence⟩ ∈ c.inserted then c.cancelled ++ [⟨timer, sequence⟩] else c.cancelled
  | _ => c.cancelled

def step (c : TimerCancels) (a : Act) : Option TimerCancels :=
  (c.queue.step a).map fun d =>
    { queue := d
      inserted := c.insertedAfter a
      cancelled := c.cancelledAfter a
      late := c.late ++ (c.queue.invoked a).filter fun id => id ∈ c.cancelled }

/-- No timer is cancelled while it waits in the current batch for its run. -/
def InTime (c : TimerCancels) : Act → Prop
  | .cancelTimerInLoop timer sequence => ¬ c.queue.AwaitsRun ⟨timer, sequence⟩
  | _ => True

/-- The inserted ids: those of the timers in the sets and in the batch are among them, and
no timer that is still to be added has one of them. -/
structure Tracked (c : TimerCancels) : Prop where
  sequenced : c.queue.Sequenced
  old : ∀ id ∈ c.inserted, id.sequence ≤ c.queue.counter
  once : ∀ id ∈ c.inserted, c.queue.Names id → id.timer ∉ c.queue.unqueued
  all : ∀ id, c.queue.Names id → id.timer ∉ c.queue.unqueued → id ∈ c.inserted

theorem new_tracked (isHandlingTimeout : Bool) : (new isHandlingTimeout).Tracked where
  sequenced := new_sequenced isHandlingTimeout
  old := nofun
  once := nofun
  all := nofun

section Steps
variable {c c' : TimerCancels} {a : Act}

theorem mem_insertedAfter {id : TimerID} : id ∈ c.insertedAfter a ↔
    id ∈ c.inserted ∨ ∃ clock, a = .addTimerInLoop id.timer clock ∧ c.queue.Names id := by
  cases a with
  | addTimerInLoop timer clock =>
    simp only [insertedAfter, List.mem_append, Option.mem_toList]
    constructor
    · rintro (before | here)
      · exact .inl before
      · obtain ⟨t, found, rfl⟩ := Option.map_eq_some_iff.mp here
        exact .inr ⟨clock, rfl, names_iff.mpr ⟨t, found, rfl⟩⟩
    · rintro (before | ⟨time, same, named⟩)
      · exact .inl before
      · cases same
        exact .inr named
  | newTimer | cancelTimerInLoop | beginTimeout | runTimer | endTimeout | fire =>
    simp [insertedAfter]

theorem step_tracked (inv : c.Tracked) (next : c.step a = some c') : c'.Tracked := by
  obtain ⟨d, moves, rfl⟩ := Option.map_eq_some_iff.mp next
  have moved := step_moved inv.sequenced.rep moves
  obtain ⟨enabled, -⟩ := exec_of_step moves
  have counter := counter_le moved enabled
  have older : ∀ id ∈ c.insertedAfter a, id.sequence ≤ c.queue.counter := by
    intro id member
    rcases mem_insertedAfter.mp member with before | ⟨clock, -, named⟩
    · exact inv.old id before
    · obtain ⟨t, found, number⟩ := names_iff.mp named
      exact number ▸ (inv.sequenced.bounded _ t found).2
  refine ⟨step_sequenced inv.sequenced moves, ?_, ?_, ?_⟩
  · exact fun id member => Nat.le_trans (older id member) counter
  · intro id member names waits
    have old := older id member
    have named := (names_before moved enabled names).resolve_right (by omega)
    obtain ⟨t, found, -⟩ := names_iff.mp named
    rw [moved.unqueued, mem_unqueuedAfter inv.sequenced enabled found] at waits
    rcases mem_insertedAfter.mp member with before | ⟨clock, adds, -⟩
    · exact inv.once id before named waits.1
    · exact waits.2 clock adds
  · intro id names outside
    obtain ⟨u, live, number⟩ := names_iff.mp names
    rw [moved.unqueued] at outside
    rcases live_before moved live with ⟨t, found, same⟩ | ⟨when, interval, rfl⟩
    · have named : c.queue.Names id := names_iff.mpr ⟨t, found, same.1.symm.trans number⟩
      rw [mem_unqueuedAfter inv.sequenced enabled found] at outside
      refine mem_insertedAfter.mpr ?_
      by_cases waits : id.timer ∈ c.queue.unqueued
      · obtain ⟨clock, adds⟩ : ∃ clock, a = .addTimerInLoop id.timer clock := by
          by_contra never
          exact outside ⟨waits, fun clock adds => never ⟨clock, adds⟩⟩
        exact .inr ⟨clock, adds, named⟩
      · exact .inl (inv.all id named waits)
    · exact absurd (List.mem_append_right _ (List.mem_singleton_self _)) outside

/-- What every run keeps in which timers are cancelled in time. -/
structure Quiet (c : TimerCancels) : Prop where
  tracked : c.Tracked
  inserted : ∀ id ∈ c.cancelled, id ∈ c.inserted
  silenced : c.queue.Silenced c.cancelled
  late : c.late = []

theorem step_quiet (quiet : c.Quiet) (inTime : c.InTime a) (next : c.step a = some c') :
    c'.Quiet := by
  have tracked := step_tracked quiet.tracked next
  obtain ⟨d, moves, rfl⟩ := Option.map_eq_some_iff.mp next
  have sequenced := quiet.tracked.sequenced
  have moved := step_moved sequenced.rep moves
  obtain ⟨enabled, -⟩ := exec_of_step moves
  have late : c.late ++ (c.queue.invoked a).filter (fun id => id ∈ c.cancelled) = [] := by
    have none := invoked_silenced sequenced enabled quiet.silenced
    rw [quiet.late, List.nil_append]
    simpa using none
  have kept := step_silenced moved enabled quiet.silenced
  cases a with
  | cancelTimerInLoop timer sequence =>
    refine ⟨tracked, ?_, ?_, late⟩
    · intro id member
      simp only [cancelledAfter] at member
      split at member
      · rename_i known
        rcases List.mem_append.mp member with before | now
        · exact quiet.inserted id before
        · rw [List.mem_singleton.mp now]
          exact known
      · exact quiet.inserted id member
    · simp only [cancelledAfter]
      split
      · rename_i known
        exact cancel_silenced sequenced moved quiet.silenced (quiet.tracked.old _ known)
          (quiet.tracked.once _ known) inTime
      · exact kept
  | addTimerInLoop timer clock =>
    exact ⟨tracked, fun id member => List.mem_append_left _ (quiet.inserted id member), kept, late⟩
  | newTimer | beginTimeout | runTimer | endTimeout | fire =>
    exact ⟨tracked, quiet.inserted, kept, late⟩

/-- A cancelled timer has been run, or waits for its run. -/
def Doomed (c : TimerCancels) : Prop := c.late ≠ [] ∨ ∃ id ∈ c.cancelled, c.queue.AwaitsRun id

theorem step_doomed (tracked : c.Tracked) (doomed : c.Doomed) (next : c.step a = some c') :
    c'.Doomed := by
  obtain ⟨d, moves, rfl⟩ := Option.map_eq_some_iff.mp next
  have moved := step_moved tracked.sequenced.rep moves
  obtain ⟨enabled, -⟩ := exec_of_step moves
  rcases doomed with late | ⟨id, cancelled, awaits⟩
  · exact .inl (by simp [late])
  · rcases step_awaitsRun tracked.sequenced moved enabled awaits with still | runs
    · refine .inr ⟨id, ?_, still⟩
      cases a with
      | cancelTimerInLoop timer sequence =>
        simp only [cancelledAfter]
        split
        · exact List.mem_append_left _ cancelled
        · exact cancelled
      | newTimer | addTimerInLoop | beginTimeout | runTimer | endTimeout | fire => exact cancelled
    · left
      have member : id ∈ (c.queue.invoked a).filter fun id => id ∈ c.cancelled := by
        simp [runs, cancelled]
      intro none
      rw [(List.append_eq_nil_iff.mp none).2] at member
      cases member

theorem doomed_of_not_inTime (tracked : c.Tracked) (tooLate : ¬ c.InTime a)
    (next : c.step a = some c') : c'.Doomed := by
  obtain ⟨d, moves, rfl⟩ := Option.map_eq_some_iff.mp next
  have moved := step_moved tracked.sequenced.rep moves
  obtain ⟨enabled, -⟩ := exec_of_step moves
  cases a with
  | cancelTimerInLoop timer sequence =>
    have awaits : c.queue.AwaitsRun ⟨timer, sequence⟩ := not_not.mp tooLate
    have outside : timer ∉ c.queue.unqueued := by
      intro waits
      cases taken : c.queue.batch with
      | none => simp [AwaitsRun, toRun, taken] at awaits
      | some b =>
        have expired : timer ∈ (addresses b.expiredTimers).drop b.ran := by
          simpa [toRun, taken] using awaits.2
        exact (tracked.sequenced.rep.batchApart taken).unqueued timer waits
          (List.mem_of_mem_drop expired)
    have known := tracked.all ⟨timer, sequence⟩ awaits.1 outside
    refine .inr ⟨⟨timer, sequence⟩, ?_, ?_⟩
    · simp [cancelledAfter, known]
    · exact (step_awaitsRun tracked.sequenced moved enabled awaits).resolve_right List.not_mem_nil
  | newTimer | addTimerInLoop | beginTimeout | runTimer | endTimeout | fire =>
    exact absurd trivial tooLate

end Steps

/-- In a run in which no timer is cancelled while it waits in the current batch for its run,
no callback is invoked once its inserted timer has been cancelled; a run that ends outside
`handleTimeout` without such an invocation is one of these. -/
theorem cancelled_never_run (isHandlingTimeout : Bool) (actions : List Act) :
    (Schedules.Along step InTime (new isHandlingTimeout) actions →
      Schedules.Throughout step (fun c => c.late = []) (new isHandlingTimeout) actions) ∧
    ∀ c, Schedules.run step (new isHandlingTimeout) actions = some c → c.queue.batch = none →
      c.late = [] → Schedules.Along step InTime (new isHandlingTimeout) actions := by
  have tracked := new_tracked isHandlingTimeout
  constructor
  · intro inTime
    exact Schedules.throughout_of_along
      (fun c a c' quiet inTime next => step_quiet quiet inTime next) (fun c quiet => quiet.late)
      ⟨tracked, nofun, ⟨nofun, nofun⟩, rfl⟩ inTime
  · intro c done idle late
    refine Schedules.along_of_undamaged (fun c a c' inv next => step_tracked inv next)
      (fun c a c' inv tooLate next => doomed_of_not_inTime inv tooLate next)
      (fun c a c' inv doomed next => step_doomed inv doomed next) tracked done ?_
    rintro (ran | ⟨id, -, awaits⟩)
    · exact ran late
    · simp [AwaitsRun, toRun, idle] at awaits

/-- A timeout with two timers due, after the first of them has been run. -/
theorem first_of_two_run :
    ∃ c, Schedules.run step (new false) [.newTimer 1 10 (some 5) 1, .addTimerInLoop 1 0,
        .newTimer 2 20 none 2, .addTimerInLoop 2 0, .beginTimeout 30, .runTimer] = some c ∧
      c.Tracked ∧ c.queue.batch = some ⟨30, [toLex (10, 1), toLex (20, 2)], 1⟩ ∧
      c.queue.Names ⟨2, 2⟩ ∧ c.inserted = [⟨1, 1⟩, ⟨2, 2⟩] ∧ c.cancelled = [] ∧ c.late = [] := by
  obtain ⟨c, added, idle, due, named, known, clean, quiet⟩ :
      ∃ c, Schedules.run step (new false) [.newTimer 1 10 (some 5) 1, .addTimerInLoop 1 0,
          .newTimer 2 20 none 2, .addTimerInLoop 2 0] = some c ∧ c.queue.batch = none ∧
        c.queue.expiredEntries 30 = [toLex (10, 1), toLex (20, 2)] ∧ c.queue.Names ⟨2, 2⟩ ∧
        c.inserted = [⟨1, 1⟩, ⟨2, 2⟩] ∧ c.cancelled = [] ∧ c.late = [] :=
    ⟨_, rfl, rfl, expiredEntries_eq (by decide) (by decide), rfl, rfl, rfl, rfl⟩
  have tracked : c.Tracked := Schedules.run_invariant (P := fun _ _ => True)
    (fun c a c' inv _ next => step_tracked inv next) (new_tracked false)
    (Schedules.along_true _ _) added
  obtain ⟨d, begun, moved, sequenced⟩ :=
    step_of_enabled tracked.sequenced (a := .beginTimeout 30) idle
  have batch : d.batch = some ⟨30, [toLex (10, 1), toLex (20, 2)], 0⟩ := by
    rw [moved.batch, batchAfter, due]
  obtain ⟨e, ran, moved', -⟩ := step_of_enabled sequenced (a := .runTimer) (by
    rw [Enabled, batch]
    rfl)
  have first : c.step (.beginTimeout 30) = some ⟨d, c.inserted, c.cancelled, c.late ++ []⟩ := by
    rw [step, begun]
    rfl
  have second : step ⟨d, c.inserted, c.cancelled, c.late ++ []⟩ .runTimer =
      some ⟨e, c.inserted, c.cancelled, []⟩ := by
    simp [step, ran, insertedAfter, cancelledAfter, clean, quiet]
  have tracked' : Tracked ⟨e, c.inserted, c.cancelled, []⟩ :=
    step_tracked (step_tracked tracked first) second
  have begins : Schedules.run step c [.beginTimeout 30, .runTimer] =
      some ⟨e, c.inserted, c.cancelled, []⟩ :=
    Schedules.run_cons_eq_some.mpr ⟨_, first, Schedules.run_cons_eq_some.mpr ⟨_, second, rfl⟩⟩
  have heap : e.heap = c.queue.heap := moved'.heap.trans moved.heap
  refine ⟨_, Schedules.run_append added begins, tracked', ?_, ?_, known, clean, rfl⟩
  · rw [moved'.batch, batchAfter, batch]
    rfl
  · rw [Names, idOf, heap]
    exact named

/-- A repeated timer cancels itself in its callback; the other one of its batch is run. -/
theorem self_cancel_never_run :
    let actions : List Act := [.newTimer 1 10 (some 5) 1, .addTimerInLoop 1 0,
      .newTimer 2 20 none 2, .addTimerInLoop 2 0, .beginTimeout 30, .runTimer,
      .cancelTimerInLoop 1 1, .runTimer, .endTimeout 31, .beginTimeout 40, .endTimeout 41]
    Schedules.Along step InTime (new false) actions ∧
      Schedules.Throughout step (fun c => c.late = []) (new false) actions := by
  have inTime : Schedules.Along step InTime (new false) ([.newTimer 1 10 (some 5) 1,
      .addTimerInLoop 1 0, .newTimer 2 20 none 2, .addTimerInLoop 2 0, .beginTimeout 30,
      .runTimer] ++ [.cancelTimerInLoop 1 1, .runTimer, .endTimeout 31, .beginTimeout 40,
      .endTimeout 41]) := by
    refine Schedules.Along.append ?_ fun m reached => ⟨?_, fun _ _ => ?_⟩
    · exact ⟨trivial, fun _ _ => ⟨trivial, fun _ _ => ⟨trivial, fun _ _ => ⟨trivial, fun _ _ =>
        ⟨trivial, fun _ _ => ⟨trivial, fun _ _ => trivial⟩⟩⟩⟩⟩⟩
    · obtain ⟨c, run, -, batch, -⟩ := first_of_two_run
      rw [run] at reached
      cases reached
      rintro ⟨-, waits⟩
      rw [toRun, batch] at waits
      exact absurd waits (by decide)
    · exact ⟨trivial, fun _ _ => ⟨trivial, fun _ _ => ⟨trivial, fun _ _ => ⟨trivial, fun _ _ =>
        trivial⟩⟩⟩⟩
  exact ⟨inTime, (cancelled_never_run false _).1 inTime⟩

/-- The callback of the first of two due timers cancels the second, which is run after that. -/
theorem cancelled_in_batch_run :
    ∃ c, Schedules.run step (new false) [.newTimer 1 10 (some 5) 1, .addTimerInLoop 1 0,
        .newTimer 2 20 none 2, .addTimerInLoop 2 0, .beginTimeout 30, .runTimer,
        .cancelTimerInLoop 2 2, .runTimer] = some c ∧
      c.cancelled = [⟨2, 2⟩] ∧ c.late = [⟨2, 2⟩] := by
  obtain ⟨c, reached, tracked, batch, named, known, clean, quiet⟩ := first_of_two_run
  obtain ⟨d, cancels, moved, sequenced⟩ :=
    step_of_enabled tracked.sequenced (a := .cancelTimerInLoop 2 2) trivial
  have stays : d.batch = some ⟨30, [toLex (10, 1), toLex (20, 2)], 1⟩ := moved.batch.trans batch
  have enabled : d.Enabled .runTimer := by
    rw [Enabled, stays]
    rfl
  obtain ⟨e, ran, -, -⟩ := step_of_enabled sequenced enabled
  have awaits : c.queue.AwaitsRun ⟨2, 2⟩ := by
    refine ⟨named, ?_⟩
    rw [toRun, batch]
    decide
  obtain ⟨named', -⟩ :=
    (step_awaitsRun tracked.sequenced moved trivial awaits).resolve_right List.not_mem_nil
  have invoked : d.invoked .runTimer = [⟨2, 2⟩] := by
    have place : d.idOf 2 = some ⟨2, 2⟩ := named'
    simp [TimerQueue.invoked, stays, place]
  have first : c.step (.cancelTimerInLoop 2 2) = some ⟨d, c.inserted, [⟨2, 2⟩], []⟩ := by
    simp [step, cancels, insertedAfter, cancelledAfter, known, clean, quiet, TimerQueue.invoked]
  have second : step ⟨d, c.inserted, [⟨2, 2⟩], []⟩ .runTimer =
      some ⟨e, c.inserted, [⟨2, 2⟩], [⟨2, 2⟩]⟩ := by
    simp [step, ran, insertedAfter, cancelledAfter, invoked]
  have goesOn : Schedules.run step c [.cancelTimerInLoop 2 2, .runTimer] =
      some ⟨e, c.inserted, [⟨2, 2⟩], [⟨2, 2⟩]⟩ :=
    Schedules.run_cons_eq_some.mpr ⟨_, first, Schedules.run_cons_eq_some.mpr ⟨_, second, rfl⟩⟩
  exact ⟨_, Schedules.run_append reached goesOn, rfl, rfl⟩

end TimerCancels
end Arale
