import Arale.Net.TimerSteps

/-!
# Firing and ownership of timers

A timer queue together with what its runs leave behind: the timers that were due when
the last `handleTimeout` began, those it has run, all runs and all deletions. A `Timer`
object is known by its sequence number, since its address may be used again. Callbacks
are arbitrary: between any two steps of a timeout, timers are added and cancelled.
-/

namespace Arale

structure TimerHistory where
  queue : TimerQueue
  /-- the timers of `timers_` that were due when the last `handleTimeout` began, in order -/
  due : List Timer
  /-- the timers it has run -/
  ran : List Timer
  /-- every timer that was ever run -/
  runs : List Timer
  /-- the sequence number of every timer that was deleted -/
  deleted : List Nat

namespace TimerHistory

open TimerQueue

def new (isHandlingTimeout : Bool) : TimerHistory where
  queue := .new isHandlingTimeout
  due := []
  ran := []
  runs := []
  deleted := []

/-- The timers of `timers_` with an expiration up to `now`, in the order of the set. -/
def dueTimers (q : TimerQueue) (now : Int) : List Timer :=
  (q.timers.sort.filterMap fun entry => q.heap (ofLex entry).2).filter fun t => t.expiration ≤ now

/-- The timer whose callback an action invokes. -/
def running (q : TimerQueue) : Act → List Timer
  | .runTimer =>
    (q.batch.bind fun b => b.expiredTimers[b.ran]?.bind fun entry => q.heap (ofLex entry).2).toList
  | _ => []

/-- The sequence numbers of the timers an action deletes: by the branch of
`cancelTimerInLoop` for a timer it finds, and by that of `resetTimers` for one that is not
set again. -/
def deletes (q : TimerQueue) : Act → List Nat
  | .cancelTimerInLoop timer sequence =>
    if toLex (timer, sequence) ∈ q.activeTimers then ((q.heap timer).map Timer.sequence).toList
    else []
  | .endTimeout _ =>
    q.batch.elim [] fun b => (addresses b.expiredTimers).filterMap fun timer =>
      (q.heap timer).bind fun t =>
        if (q.resetOutcome b.now timer t).isNone then some t.sequence else none
  | _ => []

def dueAfter (h : TimerHistory) : Act → List Timer
  | .beginTimeout now => dueTimers h.queue now
  | _ => h.due

def ranAfter (h : TimerHistory) : Act → List Timer
  | .beginTimeout _ => []
  | a => h.ran ++ running h.queue a

def step (h : TimerHistory) (a : Act) : Option TimerHistory :=
  (h.queue.step a).map fun d =>
    { queue := d
      due := h.dueAfter a
      ran := h.ranAfter a
      runs := h.runs ++ running h.queue a
      deleted := h.deleted ++ deletes h.queue a }

/-! ## Deletions -/

section Steps
variable {q d : TimerQueue} {a : Act}

/-- The recorded deletions are the timers that leave the heap. -/
theorem mem_deletes_iff (h : q.Sequenced) (moved : Moved q a d) (enabled : q.Enabled a)
    {s : Nat} : s ∈ deletes q a ↔
      ∃ x t, q.heap x = some t ∧ t.sequence = s ∧ d.heap x = none := by
  have stays (same : d.heap = q.heap) :
      ¬ ∃ x t, q.heap x = some t ∧ t.sequence = s ∧ d.heap x = none := by
    rintro ⟨x, t, found, -, gone⟩
    rw [same, found] at gone
    cases gone
  rw [moved.heap] at *
  cases a with
  | newTimer timer when interval sequence =>
    refine iff_of_false List.not_mem_nil ?_
    rintro ⟨x, t, found, -, gone⟩
    by_cases self : x = timer
    · rw [heapAfter, self, Function.update_self] at gone
      cases gone
    · rw [heapAfter, Function.update_of_ne self, found] at gone
      cases gone
  | cancelTimerInLoop timer sequence =>
    by_cases active : toLex (timer, sequence) ∈ q.activeTimers
    · obtain ⟨-, t, found, rfl⟩ := h.rep.toHolds.mem_active_iff.mp active
      simp only [deletes, heapAfter, if_pos active, found, Option.map_some, Option.toList_some,
        List.mem_singleton]
      constructor
      · rintro rfl
        exact ⟨timer, t, found, rfl, Function.update_self _ _ _⟩
      · rintro ⟨x, u, foundX, rfl, gone⟩
        by_cases self : x = timer
        · rw [self, found] at foundX
          cases foundX
          rfl
        · rw [Function.update_of_ne self, foundX] at gone
          cases gone
    · simp only [deletes, if_neg active]
      exact iff_of_false List.not_mem_nil (stays (by simp [heapAfter, active]))
  | endTimeout clock =>
    obtain ⟨b, running, -⟩ := (Option.any_eq_true _ _).mp enabled
    simp only [deletes, heapAfter, running, Option.elim_some, List.mem_filterMap]
    constructor
    · rintro ⟨x, expired, freed⟩
      obtain ⟨t, found, outcome⟩ := Option.bind_eq_some_iff.mp freed
      split at outcome
      · rename_i none
        cases outcome
        refine ⟨x, t, found, rfl, ?_⟩
        rw [if_pos expired, found]
        exact Option.isNone_iff_eq_none.mp none
      · cases outcome
    · rintro ⟨x, t, found, rfl, gone⟩
      by_cases expired : x ∈ addresses b.expiredTimers
      · rw [if_pos expired, found, Option.bind_some] at gone
        exact ⟨x, expired, by simp [found, gone]⟩
      · rw [if_neg expired, found] at gone
        cases gone
  | addTimerInLoop | beginTimeout | runTimer | fire =>
    exact iff_of_false List.not_mem_nil (stays rfl)

/-- One step deletes no timer twice. -/
theorem nodup_deletes (h : q.Sequenced) (a : Act) : (deletes q a).Nodup := by
  cases a with
  | cancelTimerInLoop timer sequence =>
    simp only [deletes]
    split
    · cases q.heap timer <;> simp
    · exact List.nodup_nil
  | endTimeout clock =>
    cases running : q.batch with
    | none => simp [deletes, running]
    | some b =>
      simp only [deletes, running, Option.elim_some]
      refine (h.rep.batchApart running).nodup.filterMap ?_
      intro x y s freedX freedY
      obtain ⟨t, foundX, outcomeX⟩ := Option.bind_eq_some_iff.mp freedX
      obtain ⟨u, foundY, outcomeY⟩ := Option.bind_eq_some_iff.mp freedY
      refine h.unique x y t u foundX foundY ?_
      split at outcomeX <;> split at outcomeY <;> simp_all
  | newTimer | addTimerInLoop | beginTimeout | runTimer | fire => exact List.nodup_nil

/-- The deleted timers: never live again, and deleted once. -/
structure Deletions (q : TimerQueue) (deleted : List Nat) : Prop where
  live : ∀ x t, q.heap x = some t → t.sequence ∉ deleted
  old : ∀ s ∈ deleted, s ≤ q.counter
  once : deleted.Nodup

theorem step_deletions {deleted : List Nat} (h : q.Sequenced) (moved : Moved q a d)
    (enabled : q.Enabled a) (before : Deletions q deleted) :
    Deletions d (deleted ++ deletes q a) := by
  have counter := counter_le moved enabled
  refine ⟨?_, ?_, ?_⟩
  · intro x u live member
    rcases live_before moved live with ⟨t, found, same⟩ | ⟨when, interval, rfl⟩
    · rw [same.1] at member
      rcases List.mem_append.mp member with old | new
      · exact before.live x t found old
      · obtain ⟨y, v, foundY, shared, gone⟩ := (mem_deletes_iff h moved enabled).mp new
        rw [h.unique y x v t foundY found shared, live] at gone
        cases gone
    · have fresh := enabled.2.2
      have old := before.old u.sequence (by simpa [deletes] using member)
      omega
  · intro s member
    rcases List.mem_append.mp member with old | new
    · exact Nat.le_trans (before.old s old) counter
    · obtain ⟨x, t, found, rfl, -⟩ := (mem_deletes_iff h moved enabled).mp new
      exact Nat.le_trans (h.bounded x t found).2 counter
  · refine before.once.append (nodup_deletes h a) fun s old new => ?_
    obtain ⟨x, t, found, rfl, -⟩ := (mem_deletes_iff h moved enabled).mp new
    exact before.live x t found old

/-! ## Batches -/

/-- `timers_` from its first entry to its last. -/
def entries (q : TimerQueue) : List TimerEntry := q.timers.sort

theorem dueTimers_eq (q : TimerQueue) (now : Int) : dueTimers q now =
    ((entries q).filterMap fun entry => q.heap (ofLex entry).2).filter fun t =>
      t.expiration ≤ now :=
  rfl

/-- `lower_bound` of the sentry cuts the set where expirations pass `now`. -/
theorem expiredEntries_eq_filter (h : q.Sequenced) (now : Int) :
    q.expiredEntries now = (entries q).filter fun entry => (ofLex entry).1 ≤ now := by
  have same : q.timers.filter (· < toLex (now, UINTPTR_MAX)) =
      q.timers.filter fun entry => (ofLex entry).1 ≤ now := by
    refine Finset.filter_congr fun entry member => ?_
    obtain ⟨-, t, found, -⟩ := h.rep.toHolds.key member
    have address := (h.bounded _ t found).1
    rw [Prod.Lex.lt_iff]
    change (ofLex entry).1 < now ∨ (ofLex entry).1 = now ∧ (ofLex entry).2 < UINTPTR_MAX ↔ _
    omega
  rw [expiredEntries, same, entries]
  refine List.Perm.eq_of_pairwise' (r := (· ≤ ·)) (Finset.pairwise_sort _ _)
    ((Finset.pairwise_sort _ _).filter _) ?_
  refine (List.perm_ext_iff_of_nodup (Finset.sort_nodup _ _)
    ((Finset.sort_nodup _ _).filter _)).mpr fun entry => ?_
  simp

/-- The timers a timeout takes out of the sets are those that are due. -/
theorem heap_expired (h : q.Sequenced) (now : Int) :
    (addresses (q.expiredEntries now)).map q.heap = (dueTimers q now).map some := by
  have live : ∀ entry ∈ entries q, ∃ t, q.heap (ofLex entry).2 = some t ∧
      t.expiration = (ofLex entry).1 := by
    intro entry member
    exact (h.rep.toHolds.key ((Finset.mem_sort _).mp member)).2
  rw [expiredEntries_eq_filter h, dueTimers_eq, addresses]
  generalize entries q = line at live
  induction line with
  | nil => rfl
  | cons entry rest ih =>
    obtain ⟨t, found, key⟩ := live entry List.mem_cons_self
    have later := ih fun other member => live other (List.mem_cons_of_mem _ member)
    by_cases due : (ofLex entry).1 ≤ now
    · simpa [List.filter_cons, found, key, due] using later
    · simpa [List.filter_cons, found, key, due] using later

theorem pairwise_dueTimers (h : q.Sequenced) (now : Int) :
    (dueTimers q now).Pairwise fun t u =>
      t.expiration ≤ u.expiration ∧ t.sequence ≠ u.sequence := by
  refine (List.pairwise_filterMap.mpr ?_).filter _
  have sorted := (Finset.pairwise_sort q.timers (· ≤ ·)).and (Finset.sort_nodup q.timers (· ≤ ·))
  refine sorted.imp_of_mem ?_
  rintro x y inX inY ⟨before, distinct⟩ t foundX u foundY
  have represented := h.rep.represented
  rw [Finset.mem_sort] at inX inY
  obtain ⟨-, t', foundX', keyX⟩ := h.rep.toHolds.key inX
  obtain ⟨-, u', foundY', keyY⟩ := h.rep.toHolds.key inY
  rw [foundX] at foundX'
  rw [foundY] at foundY'
  cases foundX'
  cases foundY'
  constructor
  · rw [Prod.Lex.le_iff] at before
    omega
  · intro shared
    exact distinct (represented.once x inX y inY (h.unique _ _ t u foundX foundY shared))

/-- The batch against the timers that were due: the first ones have been run. -/
structure Batches (q : TimerQueue) (due ran : List Timer) : Prop where
  taken : ∀ b, q.batch = some b →
    (addresses b.expiredTimers).map q.heap = due.map some ∧ ran = due.take b.ran
  idle : q.batch = none → ran = due
  pairwise : due.Pairwise fun t u => t.expiration ≤ u.expiration ∧ t.sequence ≠ u.sequence

theorem running_eq {b : TimeoutBatch} (taken : q.batch = some b) {x : Nat}
    (address : b.expiredTimers[b.ran]?.map (fun entry => (ofLex entry).2) = some x) :
    running q .runTimer = (q.heap x).toList := by
  obtain ⟨entry, next, rfl⟩ := Option.map_eq_some_iff.mp address
  simp [running, taken, next]

end Steps

section Histories
variable {h : TimerHistory} {d : TimerQueue} {a : Act}

theorem step_batches (sequenced : h.queue.Sequenced) (moved : Moved h.queue a d)
    (enabled : h.queue.Enabled a) (before : Batches h.queue h.due h.ran) :
    Batches d (h.dueAfter a) (h.ranAfter a) := by
  -- an action during which the batch stays as it is and no timer is run
  have quiet (goesOn : ∀ clock, a ≠ .endTimeout clock) (same : d.batch = h.queue.batch) :
      Batches d h.due h.ran := by
    refine ⟨fun b taken => ?_, fun idle => before.idle (same ▸ idle), before.pairwise⟩
    rw [same] at taken
    obtain ⟨timers, ran⟩ := before.taken b taken
    refine ⟨?_, ran⟩
    rw [← timers]
    exact List.map_congr_left fun x expired =>
      heap_of_batch sequenced moved enabled goesOn taken expired
  cases a with
  | beginTimeout now =>
    have batch := moved.batch
    have heap := moved.heap
    refine ⟨fun b taken => ?_, fun idle => ?_, pairwise_dueTimers sequenced now⟩
    · rw [batch] at taken
      cases taken
      rw [heap]
      exact ⟨heap_expired sequenced now, rfl⟩
    · rw [batch] at idle
      cases idle
  | runTimer =>
    obtain ⟨b, x, t, taken, address, found, -⟩ := runTimer_next sequenced enabled
    have ran := running_eq taken address
    obtain ⟨timers, sofar⟩ := before.taken b taken
    have batch : d.batch = some { b with ran := b.ran + 1 } := by
      rw [moved.batch, batchAfter, taken, Option.map_some]
    have heap := moved.heap
    have next : h.due[b.ran]? = some t := by
      have at_ran := congrArg (fun timers => timers[b.ran]?) timers
      rw [List.getElem?_map, addresses, List.getElem?_map, address, Option.map_some, found,
        List.getElem?_map] at at_ran
      simpa [eq_comm] using at_ran
    refine ⟨fun c running => ?_, fun idle => ?_, before.pairwise⟩
    · rw [batch] at running
      cases running
      refine ⟨?_, ?_⟩
      · rw [heap]
        exact timers
      · simp [dueAfter, ranAfter, ran, found, sofar, List.take_add_one, next]
    · rw [batch] at idle
      cases idle
  | endTimeout clock =>
    obtain ⟨b, taken, ended⟩ := (Option.any_eq_true _ _).mp enabled
    obtain ⟨timers, sofar⟩ := before.taken b taken
    have length : b.ran = h.due.length := by
      have lengths := congrArg List.length timers
      simp only [addresses, List.length_map] at lengths
      exact (of_decide_eq_true ended).trans lengths
    have batch := moved.batch
    refine ⟨fun c running => ?_, fun _ => ?_, before.pairwise⟩
    · rw [batch] at running
      cases running
    · simp [ranAfter, dueAfter, running, sofar, length]
  | newTimer | addTimerInLoop | cancelTimerInLoop | fire =>
    simpa [dueAfter, ranAfter, running] using
      quiet (fun _ ends => by cases ends) moved.batch

/-! ## One-shot timers -/

/-- A timer without an interval that has been run waits to be freed, and is run once. -/
structure Spent (q : TimerQueue) (runs : List Timer) : Prop where
  old : ∀ t ∈ runs, t.sequence ≤ q.counter
  waits : ∀ t ∈ runs, t.isRepeated = false → ∀ x u, q.heap x = some u → u.sequence = t.sequence →
    u.isRepeated = false ∧ ∃ b, q.batch = some b ∧ x ∈ (addresses b.expiredTimers).take b.ran
  once : ((runs.filter fun t => !t.isRepeated).map Timer.sequence).Nodup

/-- A spent timer still waits after a step that leaves it alive. -/
theorem step_waits {q : TimerQueue} {runs : List Timer} (moved : Moved q a d)
    (enabled : q.Enabled a) (before : Spent q runs) {t : Timer} (member : t ∈ runs)
    (oneShot : t.isRepeated = false) {x : Nat} {u : Timer}
    (live : d.heap x = some u) (shared : u.sequence = t.sequence) :
    u.isRepeated = false ∧ ∃ b, d.batch = some b ∧ x ∈ (addresses b.expiredTimers).take b.ran := by
  rcases live_before moved live with ⟨v, found, same⟩ | ⟨when, interval, rfl⟩
  · obtain ⟨spent, b, taken, ran⟩ :=
      before.waits t member oneShot x v found (same.1.symm.trans shared)
    have single : u.isRepeated = false := (isRepeated_of_sameObject same).trans spent
    refine ⟨single, ?_⟩
    by_cases ends : ∃ clock, a = .endTimeout clock
    · obtain ⟨clock, rfl⟩ := ends
      have expired : x ∈ addresses b.expiredTimers := List.mem_of_mem_take ran
      rw [moved.heap, heapAfter, taken, Option.elim_some, if_pos expired, found, Option.bind_some,
        resetOutcome, if_neg (by simp [spent])] at live
      cases live
    · exact step_ran moved enabled (fun clock same => ends ⟨clock, same⟩) taken ran
  · have fresh := enabled.2.2
    have old := before.old t member
    omega

theorem step_spent {q : TimerQueue} {runs : List Timer} (sequenced : q.Sequenced)
    (moved : Moved q a d) (enabled : q.Enabled a) (before : Spent q runs) :
    Spent d (runs ++ running q a) := by
  have counter := counter_le moved enabled
  have kept : Spent d runs :=
    ⟨fun t member => Nat.le_trans (before.old t member) counter,
      fun t member oneShot x u live shared =>
        step_waits moved enabled before member oneShot live shared,
      before.once⟩
  cases a with
  | runTimer =>
    obtain ⟨b, x, t, taken, address, found, fresh⟩ := runTimer_next sequenced enabled
    have heap : d.heap = q.heap := moved.heap
    have batch : d.batch = some { b with ran := b.ran + 1 } := by
      rw [moved.batch, batchAfter, taken, Option.map_some]
    rw [running_eq taken address, found, Option.toList_some]
    refine ⟨?_, ?_, ?_⟩
    · intro u member
      rcases List.mem_append.mp member with old | new
      · exact kept.old u old
      · rw [List.mem_singleton.mp new]
        exact Nat.le_trans (sequenced.bounded x t found).2 counter
    · intro u member oneShot y v live shared
      rcases List.mem_append.mp member with old | new
      · exact kept.waits u old oneShot y v live shared
      · rw [List.mem_singleton.mp new] at oneShot shared
        rw [heap] at live
        have here := sequenced.unique y x v t live found shared
        subst here
        rw [found] at live
        cases live
        refine ⟨oneShot, _, batch, ?_⟩
        rw [List.take_add_one, addresses, List.getElem?_map, address]
        exact List.mem_append_right _ (List.mem_singleton_self y)
    · by_cases oneShot : t.isRepeated = false
      · -- an earlier run of the same timer would be another place of the batch
        have unseen : ∀ u ∈ runs, u.isRepeated = false → u.sequence ≠ t.sequence := by
          intro u member single shared
          obtain ⟨-, c, running, earlier⟩ := before.waits u member single x t found shared.symm
          rw [taken] at running
          cases running
          exact fresh earlier
        simp only [List.filter_append, List.map_append]
        refine before.once.append (by simp [oneShot]) ?_
        intro s old new
        obtain ⟨u, member, rfl⟩ := List.mem_map.mp old
        obtain ⟨v, member', shared⟩ := List.mem_map.mp new
        obtain ⟨inRuns, single⟩ := List.mem_filter.mp member
        rw [List.mem_singleton.mp (List.mem_filter.mp member').1] at shared
        exact unseen u inRuns (by simpa using single) shared.symm
      · have repeated : t.isRepeated = true := by simpa using oneShot
        simpa [List.filter_append, repeated] using before.once
  | newTimer | addTimerInLoop | cancelTimerInLoop | beginTimeout | endTimeout | fire =>
    simpa [running] using kept

/-! ## Whole runs -/

structure Accounted (h : TimerHistory) : Prop where
  sequenced : h.queue.Sequenced
  deletions : Deletions h.queue h.deleted
  batches : Batches h.queue h.due h.ran
  spent : Spent h.queue h.runs

theorem new_accounted (isHandlingTimeout : Bool) : (new isHandlingTimeout).Accounted where
  sequenced := new_sequenced isHandlingTimeout
  deletions := ⟨nofun, nofun, List.nodup_nil⟩
  batches := ⟨nofun, fun _ => rfl, List.Pairwise.nil⟩
  spent := ⟨nofun, nofun, List.nodup_nil⟩

theorem step_accounted {h' : TimerHistory} (inv : h.Accounted) (next : h.step a = some h') :
    h'.Accounted := by
  obtain ⟨d, moves, rfl⟩ := Option.map_eq_some_iff.mp next
  have moved := step_moved inv.sequenced.rep moves
  obtain ⟨enabled, -⟩ := exec_of_step moves
  exact ⟨step_sequenced inv.sequenced moves,
    step_deletions inv.sequenced moved enabled inv.deletions,
    step_batches inv.sequenced moved enabled inv.batches,
    step_spent inv.sequenced moved enabled inv.spent⟩

/-- The last timeout has run the timers that were due, from the earliest on and each once, all
of them when it is over; a timer without an interval is run at most once; no timer is deleted
twice, and no timer that is live, in a set or still to be run has been deleted. -/
structure Owned (h : TimerHistory) : Prop where
  order : h.due.Pairwise fun t u => t.expiration ≤ u.expiration
  distinct : (h.due.map Timer.sequence).Nodup
  ran : h.ran <+: h.due
  all : h.queue.batch = none → h.ran = h.due
  oneShot : ((h.runs.filter fun t => !t.isRepeated).map Timer.sequence).Nodup
  deletedOnce : h.deleted.Nodup
  live : ∀ x t, h.queue.heap x = some t → t.sequence ∉ h.deleted
  timers : ∀ entry ∈ h.queue.timers,
    ∃ t, h.queue.heap (ofLex entry).2 = some t ∧ t.sequence ∉ h.deleted
  activeTimers : ∀ entry ∈ h.queue.activeTimers,
    ∃ t, h.queue.heap (ofLex entry).1 = some t ∧ t.sequence ∉ h.deleted
  toRun : ∀ b, h.queue.batch = some b → ∀ entry ∈ b.expiredTimers.drop b.ran,
    ∃ t, h.queue.heap (ofLex entry).2 = some t ∧ t.sequence ∉ h.deleted

theorem Accounted.owned (inv : h.Accounted) : h.Owned := by
  have pairwise := inv.batches.pairwise
  have live {x : Nat} (found : ∃ t, h.queue.heap x = some t) :
      ∃ t, h.queue.heap x = some t ∧ t.sequence ∉ h.deleted := by
    obtain ⟨t, found⟩ := found
    exact ⟨t, found, inv.deletions.live x t found⟩
  refine ⟨pairwise.imp fun both => both.1, List.pairwise_map.mpr (pairwise.imp fun both => both.2),
    ?_, inv.batches.idle, inv.spent.once, inv.deletions.once, inv.deletions.live, ?_, ?_, ?_⟩
  · cases taken : h.queue.batch with
    | none => simp [inv.batches.idle taken]
    | some b =>
      rw [(inv.batches.taken b taken).2]
      exact List.take_prefix _ _
  · intro entry member
    obtain ⟨-, t, found, -⟩ := inv.sequenced.rep.toHolds.key member
    exact live ⟨t, found⟩
  · intro entry member
    obtain ⟨t, found, -⟩ := inv.sequenced.rep.represented.activeKey entry member
    exact live ⟨t, found⟩
  · intro b taken entry member
    refine live ((inv.sequenced.rep.batchApart taken).live _ ?_)
    exact List.mem_map_of_mem (List.mem_of_mem_drop member)

/-- A cancellation leaves every timer but that of its id where it is, and everything where
it is if that timer is deleted already. A timeout deletes timers of its batch only, and a
repeated one only if its own id was cancelled. -/
def SparesOthers (h : TimerHistory) : Act → Prop
  | .cancelTimerInLoop timer sequence =>
    ∀ d, h.queue.step (.cancelTimerInLoop timer sequence) = some d →
      (∀ x t, h.queue.heap x = some t → (x, t.sequence) ≠ (timer, sequence) →
        d.heap x = some t ∧
        (toLex (t.expiration, x) ∈ d.timers ↔ toLex (t.expiration, x) ∈ h.queue.timers) ∧
        (toLex (x, t.sequence) ∈ d.activeTimers ↔
          toLex (x, t.sequence) ∈ h.queue.activeTimers)) ∧
      (sequence ∈ h.deleted → d.heap = h.queue.heap ∧ d.timers = h.queue.timers ∧
        d.activeTimers = h.queue.activeTimers)
  | .endTimeout clock =>
    ∀ d b, h.queue.batch = some b → h.queue.step (.endTimeout clock) = some d →
      ∀ x t, h.queue.heap x = some t → d.heap x = none →
        x ∈ addresses b.expiredTimers ∧
          (t.isRepeated = true → toLex (x, t.sequence) ∈ h.queue.cancelledTimers)
  | _ => True

theorem Accounted.cancel_sparesOthers (inv : h.Accounted) (timer sequence : Nat) :
    h.SparesOthers (.cancelTimerInLoop timer sequence) := by
  intro d next
  have moved := step_moved inv.sequenced.rep next
  have before := inv.sequenced.rep.toHolds
  have after := (step_sequenced inv.sequenced next).rep.toHolds
  constructor
  · intro x t found other
    have stays : toLex (timer, sequence) ∈ h.queue.activeTimers → x ≠ timer := by
      rintro active rfl
      obtain ⟨-, u, found', rfl⟩ := before.mem_active_iff.mp active
      rw [found] at found'
      cases found'
      exact other rfl
    have heap : d.heap x = some t := by
      rw [moved.heap, heapAfter]
      split
      · rename_i active
        rw [Function.update_of_ne (stays active), found]
      · exact found
    have held : x ∈ d.held ↔ x ∈ h.queue.held := by
      rw [moved.held]
      exact ⟨fun both => both.1, fun member => ⟨member, stays⟩⟩
    refine ⟨heap, ?_, ?_⟩
    · rw [after.mem_timers_iff, before.mem_timers_iff, held, heap, found]
    · rw [after.mem_active_iff, before.mem_active_iff, held, heap, found]
  · intro stale
    have missing : toLex (timer, sequence) ∉ h.queue.activeTimers := by
      intro active
      obtain ⟨-, t, found, rfl⟩ := before.mem_active_iff.mp active
      exact inv.deletions.live timer t found stale
    have heap : d.heap = h.queue.heap := by
      rw [moved.heap, heapAfter, if_neg missing]
    have held : d.held = h.queue.held := by
      ext x
      rw [moved.held]
      simp [heldAfter, missing]
    exact ⟨heap, by rw [after.timers, before.timers, heap, held],
      by rw [after.active, before.active, heap, held]⟩

theorem Accounted.endTimeout_sparesOthers (inv : h.Accounted) (clock : Int) :
    h.SparesOthers (.endTimeout clock) := by
  intro d b taken next x t found gone
  have moved := step_moved inv.sequenced.rep next
  rw [moved.heap, heapAfter, taken, Option.elim_some] at gone
  split at gone
  · rename_i expired
    refine ⟨expired, fun repeated => ?_⟩
    by_contra kept
    rw [found, Option.bind_some, resetOutcome, if_pos ⟨repeated, kept⟩] at gone
    cases gone
  · rw [found] at gone
    cases gone

theorem Accounted.sparesOthers (inv : h.Accounted) (a : Act) : h.SparesOthers a := by
  cases a with
  | cancelTimerInLoop timer sequence => exact inv.cancel_sparesOthers timer sequence
  | endTimeout clock => exact inv.endTimeout_sparesOthers clock
  | newTimer | addTimerInLoop | beginTimeout | runTimer | fire => trivial

theorem Accounted.isSome_step (inv : h.Accounted) (enabled : h.queue.Enabled a) :
    (h.step a).isSome = true := by
  obtain ⟨d, B, done, -⟩ := exec_rep inv.sequenced.rep enabled
  rw [step, TimerQueue.step, if_pos enabled, done]
  rfl

/-- Every run from the constructor, whatever its callbacks add and cancel; an action that can
come follows no pointer to a deleted timer. -/
theorem fired_and_owned (isHandlingTimeout : Bool) (actions : List Act) :
    Schedules.Throughout step Owned (new isHandlingTimeout) actions ∧
      Schedules.Along step SparesOthers (new isHandlingTimeout) actions ∧
      Schedules.Along step (fun h a => h.queue.Enabled a → (h.step a).isSome = true)
        (new isHandlingTimeout) actions := by
  have start := new_accounted isHandlingTimeout
  have keeps (h : TimerHistory) (a : Act) (h' : TimerHistory) (inv : h.Accounted)
      (next : h.step a = some h') : h'.Accounted := step_accounted inv next
  refine ⟨?_, ?_, ?_⟩
  · exact Schedules.throughout_of_along (fun h a h' inv _ next => keeps h a h' inv next)
      (fun h inv => inv.owned) start (Schedules.along_true _ actions)
  · exact Schedules.along_of_invariant keeps (fun h a inv => inv.sparesOthers a) start actions
  · exact Schedules.along_of_invariant keeps (fun h a inv => inv.isSome_step) start actions

end Histories

end TimerHistory
end Arale
