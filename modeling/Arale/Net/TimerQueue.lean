import Mathlib.Data.Finset.Max
import Mathlib.Data.Finset.Sort
import Mathlib.Data.Prod.Lex
import Arale.Lib.Schedules

/-!
# The timer queue of a loop

`TimerQueue` of `net/TimerQueue.cc` with the timers it points to. Pointers are
addresses into a heap, and reading a freed one is no result (`none`); `std::set` is
a finite set with the order of its keys. `handleTimeout` is cut where user code
runs: its beginning, each timer's `run()`, and its end, so that callbacks can add
and cancel in between. A failed assertion is recorded and execution goes on.
`delete it->first` after `activeTimers_.erase` is read as deleting the timer that
was looked up.
-/

namespace Arale

/-- Times are microseconds since the epoch. A positive `interval_` is kept as what
`addTime` adds for it, any other one as `none`. -/
structure Timer where
  expiration : Int
  interval : Option Nat
  sequence : Nat
  deriving DecidableEq, Repr

namespace Timer

def isRepeated (t : Timer) : Bool := t.interval.isSome

def reset (t : Timer) (time : Int) : Timer :=
  { t with expiration :=
      match t.interval with
      | some delta => time + delta
      | none => 0 }

end Timer

structure Timespec where
  tv_sec : Int
  tv_nsec : Int

def Timespec.microseconds (ts : Timespec) : Int := ts.tv_sec * 1000000 + ts.tv_nsec / 1000

def howMuchTimeFromNow (when now : Int) : Timespec :=
  let microseconds := when - now
  let microseconds := if microseconds < 100 then 100 else microseconds
  ⟨microseconds / 1000000, microseconds % 1000000 * 1000⟩

/-- The descriptor as a one-shot deadline; `fired` is readable. -/
inductive TimerFd where
  | disarmed
  | armed (deadline : Int)
  | fired (deadline : Int)
  deriving DecidableEq, Repr

/-- Where an `assert` of the queue stands. -/
inductive TimerAssert where
  | cancelSizes
  | cancelErasedTimer
  | cancelErasedActive
  /-- `cancelledTimers_.insert` found the entry already there -/
  | cancelRecorded
  | insertSizes
  | insertedTimer
  | insertedActive
  | expiredSizes
  | expiredErasedActive
  | resetSizes
  | timeoutSizes
  deriving DecidableEq, Repr

abbrev TimerEntry := Int ×ₗ Nat
abbrev ActiveTimerEntry := Nat ×ₗ Nat

/-- The locals of a running `handleTimeout`. -/
structure TimeoutBatch where
  now : Int
  expiredTimers : List TimerEntry
  /-- how many of them have been run -/
  ran : Nat

structure TimerQueue where
  timers : Finset TimerEntry
  activeTimers : Finset ActiveTimerEntry
  isHandlingTimeout : Bool
  cancelledTimers : Finset ActiveTimerEntry
  heap : Nat → Option Timer
  /-- the last value of `Timer::counter_` used -/
  counter : Nat
  /-- timers that `addTimer` has allocated and whose `addTimerInLoop` is to come -/
  unqueued : List Nat
  batch : Option TimeoutBatch
  timerfd : TimerFd
  /-- the clock at the last `resetTimerfd` -/
  lastReset : Option Int
  failures : List TimerAssert

def UINTPTR_MAX : Nat := 2 ^ 64 - 1

namespace TimerQueue

/-- The constructor; it leaves `isHandlingTimeout_` as it finds it. -/
def new (isHandlingTimeout : Bool) : TimerQueue where
  timers := ∅
  activeTimers := ∅
  isHandlingTimeout := isHandlingTimeout
  cancelledTimers := ∅
  heap := fun _ => none
  counter := 0
  unqueued := []
  batch := none
  timerfd := .disarmed
  lastReset := none
  failures := []

def check (q : TimerQueue) (site : TimerAssert) (cond : Bool) : TimerQueue :=
  if cond then q else { q with failures := q.failures ++ [site] }

def sizesAgree (q : TimerQueue) : Bool := q.timers.card == q.activeTimers.card

/-- `*timers_.begin()`. -/
def begin? (q : TimerQueue) : Option TimerEntry :=
  if h : q.timers.Nonempty then some (q.timers.min' h) else none

def resetTimerfd (q : TimerQueue) (when clock : Int) : TimerQueue :=
  { q with timerfd := .armed (clock + (howMuchTimeFromNow when clock).microseconds)
           lastReset := some clock }

/-- The deadline passes; an unarmed descriptor has none. -/
def fire (q : TimerQueue) : TimerQueue :=
  match q.timerfd with
  | .armed deadline => { q with timerfd := .fired deadline }
  | _ => q

/-- Reading a descriptor that has not fired fails and changes nothing. -/
def readTimerfd (q : TimerQueue) : TimerQueue :=
  match q.timerfd with
  | .fired _ => { q with timerfd := .disarmed }
  | _ => q

/-- `it == timers_.end() || when < it->first` with `it = timers_.begin()`. -/
def isEarliest (q : TimerQueue) (when : Int) : Bool :=
  match q.begin? with
  | none => true
  | some first => decide (when < (ofLex first).1)

def insert (q : TimerQueue) (timer : Nat) : Option (TimerQueue × Bool) := do
  let q := q.check .insertSizes q.sizesAgree
  let t ← q.heap timer
  let when := t.expiration
  let needResetTimerfd := q.isEarliest when
  let entry : TimerEntry := toLex (when, timer)
  let active : ActiveTimerEntry := toLex (timer, t.sequence)
  let q := { q with timers := Insert.insert entry q.timers }.check .insertedTimer
    (decide (entry ∉ q.timers))
  let q := { q with activeTimers := Insert.insert active q.activeTimers }.check .insertedActive
    (decide (active ∉ q.activeTimers))
  some (q.check .insertSizes q.sizesAgree, needResetTimerfd)

/-- The `new Timer` of `addTimer`. -/
def newTimer (q : TimerQueue) (timer : Nat) (when : Int) (interval : Option Nat)
    (sequence : Nat) : TimerQueue :=
  { q with heap := Function.update q.heap timer (some ⟨when, interval, sequence⟩)
           counter := sequence
           unqueued := q.unqueued ++ [timer] }

def addTimerInLoop (q : TimerQueue) (timer : Nat) (clock : Int) : Option TimerQueue := do
  let (q, earliestChanged) ← q.insert timer
  let t ← q.heap timer
  some (if earliestChanged then q.resetTimerfd t.expiration clock else q)

/-- The branch of `cancelTimerInLoop` for a timer found in `activeTimers_`. -/
def eraseAndDelete (q : TimerQueue) (timer : Nat) (canceledTimer : ActiveTimerEntry) :
    Option TimerQueue := do
  let t ← q.heap timer
  let entry : TimerEntry := toLex (t.expiration, timer)
  let q := { q with timers := q.timers.erase entry }.check .cancelErasedTimer
    (decide (entry ∈ q.timers))
  let q := { q with activeTimers := q.activeTimers.erase canceledTimer }.check
    .cancelErasedActive (decide (canceledTimer ∈ q.activeTimers))
  some { q with heap := Function.update q.heap timer none }

/-- The branch for a timer that is not there while timers are being run. -/
def recordCancelled (q : TimerQueue) (canceledTimer : ActiveTimerEntry) : TimerQueue :=
  { q with cancelledTimers := Insert.insert canceledTimer q.cancelledTimers }.check
    .cancelRecorded (decide (canceledTimer ∉ q.cancelledTimers))

def cancelTimerInLoop (q : TimerQueue) (timer sequence : Nat) : Option TimerQueue := do
  let q := q.check .cancelSizes q.sizesAgree
  let canceledTimer : ActiveTimerEntry := toLex (timer, sequence)
  let q ←
    if canceledTimer ∈ q.activeTimers then q.eraseAndDelete timer canceledTimer
    else if q.isHandlingTimeout then some (q.recordCancelled canceledTimer)
    else some q
  some (q.check .cancelSizes q.sizesAgree)

/-- One round of the loop of `getExpiredTimers`. -/
def eraseActive (q : TimerQueue) (expired : TimerEntry) : Option TimerQueue := do
  let timer := (ofLex expired).2
  let t ← q.heap timer
  let entry : ActiveTimerEntry := toLex (timer, t.sequence)
  some ({ q with activeTimers := q.activeTimers.erase entry }.check .expiredErasedActive
    (decide (entry ∈ q.activeTimers)))

/-- The entries before `timers_.lower_bound(sentry)`, in order. -/
def expiredEntries (q : TimerQueue) (now : Int) : List TimerEntry :=
  (q.timers.filter (· < toLex (now, UINTPTR_MAX))).sort

def getExpiredTimers (q : TimerQueue) (now : Int) : Option (TimerQueue × List TimerEntry) := do
  let q := q.check .expiredSizes q.sizesAgree
  let expiredTimers := q.expiredEntries now
  let q := { q with timers := q.timers.filter (¬ · < toLex (now, UINTPTR_MAX)) }
  let q ← expiredTimers.foldlM eraseActive q
  some (q.check .expiredSizes q.sizesAgree, expiredTimers)

/-- One round of the loop of `resetTimers`. -/
def resetOne (now : Int) (q : TimerQueue) (expired : TimerEntry) : Option TimerQueue := do
  let timer := (ofLex expired).2
  let t ← q.heap timer
  let entry : ActiveTimerEntry := toLex (timer, t.sequence)
  if t.isRepeated ∧ entry ∉ q.cancelledTimers then
    let (q, _) ← { q with heap := Function.update q.heap timer (some (t.reset now)) }.insert timer
    some q
  else
    some { q with heap := Function.update q.heap timer none }

/-- The end of `resetTimers`: the descriptor follows the earliest timer if its time is
valid. -/
def rearm (q : TimerQueue) (clock : Int) : Option TimerQueue :=
  match q.begin? with
  | none => some q
  | some first => do
    let t ← q.heap (ofLex first).2
    some (if 0 < t.expiration then q.resetTimerfd t.expiration clock else q)

def resetTimers (q : TimerQueue) (timers : List TimerEntry) (now clock : Int) :
    Option TimerQueue := do
  let q := q.check .resetSizes q.sizesAgree
  let q ← timers.foldlM (resetOne now) q
  let q ← q.rearm clock
  some (q.check .resetSizes q.sizesAgree)

/-- `handleTimeout` up to its loop over the expired timers. -/
def beginTimeout (q : TimerQueue) (now : Int) : Option TimerQueue := do
  let q := q.check .timeoutSizes q.sizesAgree
  let q := q.readTimerfd
  let (q, expiredTimers) ← q.getExpiredTimers now
  some { q with isHandlingTimeout := true
                cancelledTimers := ∅
                batch := some ⟨now, expiredTimers, 0⟩ }

/-- `it->second->run()`; what the callback does are steps of their own. -/
def runTimer (q : TimerQueue) (b : TimeoutBatch) : Option TimerQueue := do
  let entry ← b.expiredTimers[b.ran]?
  let _ ← q.heap (ofLex entry).2
  some { q with batch := some { b with ran := b.ran + 1 } }

/-- `handleTimeout` after that loop. -/
def endTimeout (q : TimerQueue) (b : TimeoutBatch) (clock : Int) : Option TimerQueue := do
  let q := { q with isHandlingTimeout := false, batch := none }
  let q ← q.resetTimers b.expiredTimers b.now clock
  some (q.check .timeoutSizes q.sizesAgree)

inductive Act where
  | newTimer (timer : Nat) (when : Int) (interval : Option Nat) (sequence : Nat)
  | addTimerInLoop (timer : Nat) (clock : Int)
  | cancelTimerInLoop (timer sequence : Nat)
  | beginTimeout (now : Int)
  | runTimer
  | endTimeout (clock : Int)
  /-- the descriptor's deadline passes -/
  | fire
  deriving DecidableEq, Repr

/-- When each action can come: `new` returns a free address and the counter goes up,
a timer is added once, and a timeout runs all its timers before it ends. -/
def Enabled (q : TimerQueue) : Act → Prop
  | .newTimer timer _ _ sequence =>
    q.heap timer = none ∧ timer < UINTPTR_MAX ∧ q.counter < sequence
  | .addTimerInLoop timer _ => timer ∈ q.unqueued
  | .cancelTimerInLoop _ _ => True
  | .beginTimeout _ => q.batch = none
  | .runTimer => (q.batch.any fun b => decide (b.ran < b.expiredTimers.length)) = true
  | .endTimeout _ => (q.batch.any fun b => decide (b.ran = b.expiredTimers.length)) = true
  | .fire => True

instance (q : TimerQueue) : (a : Act) → Decidable (q.Enabled a)
  | .newTimer timer _ _ sequence => inferInstanceAs
      (Decidable (q.heap timer = none ∧ timer < UINTPTR_MAX ∧ q.counter < sequence))
  | .addTimerInLoop timer _ => inferInstanceAs (Decidable (timer ∈ q.unqueued))
  | .cancelTimerInLoop _ _ => inferInstanceAs (Decidable True)
  | .beginTimeout _ => decidable_of_iff (q.batch.isNone = true) Option.isNone_iff_eq_none
  | .runTimer => inferInstanceAs (Decidable (_ = true))
  | .endTimeout _ => inferInstanceAs (Decidable (_ = true))
  | .fire => inferInstanceAs (Decidable True)

/-- `none` is a read through a pointer to no timer. -/
def exec (q : TimerQueue) : Act → Option TimerQueue
  | .newTimer timer when interval sequence => some (q.newTimer timer when interval sequence)
  | .addTimerInLoop timer clock =>
    { q with unqueued := q.unqueued.erase timer }.addTimerInLoop timer clock
  | .cancelTimerInLoop timer sequence => q.cancelTimerInLoop timer sequence
  | .beginTimeout now => q.beginTimeout now
  | .runTimer => q.batch.bind q.runTimer
  | .endTimeout clock => q.batch.bind fun b => q.endTimeout b clock
  | .fire => some q.fire

def step (q : TimerQueue) (a : Act) : Option TimerQueue := if q.Enabled a then q.exec a else none

/-! ## What the two sets hold

Both sets are images of one set of addresses, and every operation is described by
what it does to that set. -/

section Entries
variable (heap : Nat → Option Timer)

/-- A timer's entry in `timers_`. -/
def entryOf (timer : Nat) : TimerEntry := toLex ((heap timer).elim 0 Timer.expiration, timer)

/-- A timer's entry in `activeTimers_`. -/
def activeOf (timer : Nat) : ActiveTimerEntry := toLex (timer, (heap timer).elim 0 Timer.sequence)

theorem entryOf_injective : Function.Injective (entryOf heap) := fun _ _ same =>
  congrArg (fun entry => (ofLex entry).2) same

theorem activeOf_injective : Function.Injective (activeOf heap) := fun _ _ same =>
  congrArg (fun entry => (ofLex entry).1) same

variable {heap}

theorem entryOf_eq {timer : Nat} {t : Timer} (h : heap timer = some t) :
    entryOf heap timer = toLex (t.expiration, timer) := by
  rw [entryOf, h]
  rfl

theorem activeOf_eq {timer : Nat} {t : Timer} (h : heap timer = some t) :
    activeOf heap timer = toLex (timer, t.sequence) := by
  rw [activeOf, h]
  rfl

end Entries

/-- The queue holds exactly the timers at the addresses `A`. -/
structure Holds (q : TimerQueue) (A : Finset Nat) : Prop where
  live : ∀ timer ∈ A, ∃ t, q.heap timer = some t
  timers : q.timers = A.image (entryOf q.heap)
  active : q.activeTimers = A.image (activeOf q.heap)

section Holds
variable {q : TimerQueue} {A : Finset Nat}

theorem Holds.sizesAgree (holds : q.Holds A) : q.sizesAgree = true := by
  rw [TimerQueue.sizesAgree, holds.timers, holds.active,
    Finset.card_image_of_injective _ (entryOf_injective _),
    Finset.card_image_of_injective _ (activeOf_injective _), beq_self_eq_true]

theorem Holds.mem_timers (holds : q.Holds A) {timer : Nat} :
    entryOf q.heap timer ∈ q.timers ↔ timer ∈ A := by
  rw [holds.timers, (entryOf_injective q.heap).mem_finset_image]

theorem Holds.mem_active (holds : q.Holds A) {timer : Nat} :
    activeOf q.heap timer ∈ q.activeTimers ↔ timer ∈ A := by
  rw [holds.active, (activeOf_injective q.heap).mem_finset_image]

@[simp] theorem check_true (q : TimerQueue) (site : TimerAssert) : q.check site true = q := rfl

/-- The two sets depend only on the timers they hold. -/
theorem Holds.of_heap {d : TimerQueue} (holds : q.Holds A) (timers : d.timers = q.timers)
    (active : d.activeTimers = q.activeTimers) (heap : ∀ timer ∈ A, d.heap timer = q.heap timer) :
    d.Holds A := by
  refine ⟨fun timer member => heap timer member ▸ holds.live timer member, ?_, ?_⟩
  · rw [timers, holds.timers]
    refine Finset.image_congr fun timer member => ?_
    simp only [entryOf, heap timer member]
  · rw [active, holds.active]
    refine Finset.image_congr fun timer member => ?_
    simp only [activeOf, heap timer member]

/-- Writing to a timer outside the queue. -/
theorem Holds.of_update (holds : q.Holds A) {timer : Nat} (outside : timer ∉ A)
    (contents : Option Timer) :
    Holds { q with heap := Function.update q.heap timer contents } A := by
  refine holds.of_heap rfl rfl fun other member => Function.update_of_ne ?_ _ _
  rintro rfl
  exact outside member

/-- Both sets gain the entry of a timer. -/
def enqueue (q : TimerQueue) (timer : Nat) : TimerQueue :=
  { q with timers := Insert.insert (entryOf q.heap timer) q.timers
           activeTimers := Insert.insert (activeOf q.heap timer) q.activeTimers }

/-- Both sets lose the entry of a timer. -/
def dequeue (q : TimerQueue) (timer : Nat) : TimerQueue :=
  { q with timers := q.timers.erase (entryOf q.heap timer)
           activeTimers := q.activeTimers.erase (activeOf q.heap timer) }

theorem enqueue_holds (holds : q.Holds A) {timer : Nat} {t : Timer}
    (found : q.heap timer = some t) : (q.enqueue timer).Holds (Insert.insert timer A) where
  live := by
    intro other member
    rcases Finset.mem_insert.mp member with rfl | member
    · exact ⟨t, found⟩
    · exact holds.live other member
  timers := by simp only [enqueue, holds.timers, Finset.image_insert]
  active := by simp only [enqueue, holds.active, Finset.image_insert]

theorem dequeue_holds (holds : q.Holds A) (timer : Nat) :
    (q.dequeue timer).Holds (A.erase timer) where
  live := fun other member => holds.live other (Finset.mem_of_mem_erase member)
  timers := by simp only [dequeue, holds.timers, Finset.image_erase (entryOf_injective _)]
  active := by simp only [dequeue, holds.active, Finset.image_erase (activeOf_injective _)]

/-- `insert` of an allocated timer the queue does not hold: no assertion fails. -/
theorem insert_eq (holds : q.Holds A) {timer : Nat} {t : Timer} (found : q.heap timer = some t)
    (new : timer ∉ A) : q.insert timer = some (q.enqueue timer, q.isEarliest t.expiration) := by
  have entry := entryOf_eq found
  have active := activeOf_eq found
  have noEntry : toLex (t.expiration, timer) ∉ q.timers := by
    rw [← entry, holds.mem_timers]
    exact new
  have noActive : toLex (timer, t.sequence) ∉ q.activeTimers := by
    rw [← active, holds.mem_active]
    exact new
  have sizes := (enqueue_holds holds found).sizesAgree
  simp only [enqueue, entry, active] at sizes ⊢
  simp [insert, holds.sizesAgree, found, noEntry, noActive, sizes]

/-- A cancelled timer that the queue holds is taken out and freed. -/
theorem cancelTimerInLoop_held (holds : q.Holds A) {timer : Nat} {t : Timer}
    (found : q.heap timer = some t) (held : timer ∈ A) :
    q.cancelTimerInLoop timer t.sequence =
      some { q.dequeue timer with heap := Function.update q.heap timer none } := by
  have entry := entryOf_eq found
  have active := activeOf_eq found
  have hasEntry : toLex (t.expiration, timer) ∈ q.timers := by
    rw [← entry, holds.mem_timers]
    exact held
  have hasActive : toLex (timer, t.sequence) ∈ q.activeTimers := by
    rw [← active, holds.mem_active]
    exact held
  have erased : q.eraseAndDelete timer (toLex (timer, t.sequence)) =
      some { q.dequeue timer with heap := Function.update q.heap timer none } := by
    simp [eraseAndDelete, dequeue, entry, active, found, hasEntry, hasActive]
  have sizes : sizesAgree { q.dequeue timer with heap := Function.update q.heap timer none } =
      true := (dequeue_holds holds timer).sizesAgree
  simp only [cancelTimerInLoop, holds.sizesAgree, check_true, if_pos hasActive, erased]
  simp only [Option.bind_eq_bind, Option.bind_some, sizes, check_true]

theorem Holds.mem_timers_iff (holds : q.Holds A) {when : Int} {timer : Nat} :
    toLex (when, timer) ∈ q.timers ↔
      timer ∈ A ∧ ∃ t, q.heap timer = some t ∧ t.expiration = when := by
  rw [holds.timers, Finset.mem_image]
  constructor
  · rintro ⟨other, member, same⟩
    obtain ⟨t, found⟩ := holds.live other member
    rw [entryOf_eq found] at same
    cases same
    exact ⟨member, t, found, rfl⟩
  · rintro ⟨member, t, found, rfl⟩
    exact ⟨timer, member, entryOf_eq found⟩

/-- An entry of `timers_` points to a live timer and carries its expiration. -/
theorem Holds.key (holds : q.Holds A) {entry : TimerEntry} (member : entry ∈ q.timers) :
    (ofLex entry).2 ∈ A ∧ ∃ t, q.heap (ofLex entry).2 = some t ∧ t.expiration = (ofLex entry).1 :=
  holds.mem_timers_iff.mp member

theorem Holds.mem_active_iff (holds : q.Holds A) {timer sequence : Nat} :
    toLex (timer, sequence) ∈ q.activeTimers ↔
      timer ∈ A ∧ ∃ t, q.heap timer = some t ∧ t.sequence = sequence := by
  rw [holds.active, Finset.mem_image]
  constructor
  · rintro ⟨other, member, same⟩
    obtain ⟨t, found⟩ := holds.live other member
    rw [activeOf_eq found] at same
    cases same
    exact ⟨member, t, found, rfl⟩
  · rintro ⟨member, t, found, rfl⟩
    exact ⟨timer, member, activeOf_eq found⟩

theorem cancelled_holds (holds : q.Holds A) (timer : Nat) :
    Holds { q.dequeue timer with heap := Function.update q.heap timer none } (A.erase timer) :=
  (dequeue_holds holds timer).of_update (Finset.notMem_erase timer A) none

/-- Any other cancellation leaves the timers alone and is at most noted. -/
theorem cancelTimerInLoop_missing (holds : q.Holds A) {timer sequence : Nat}
    (missing : toLex (timer, sequence) ∉ q.activeTimers) :
    q.cancelTimerInLoop timer sequence =
      some (if q.isHandlingTimeout then q.recordCancelled (toLex (timer, sequence)) else q) := by
  have noted : (q.recordCancelled (toLex (timer, sequence))).sizesAgree = true := by
    unfold recordCancelled check
    split <;> exact holds.sizesAgree
  simp only [cancelTimerInLoop, holds.sizesAgree, check_true, if_neg missing]
  cases q.isHandlingTimeout with
  | true => simp [noted]
  | false => simp [holds.sizesAgree]

/-- The loop of `getExpiredTimers` over timers that `activeTimers_` holds. -/
theorem foldlM_eraseActive {expired : List Nat} (nodup : expired.Nodup) {q : TimerQueue}
    {B : Finset Nat} (live : ∀ timer ∈ B, ∃ t, q.heap timer = some t)
    (held : ∀ timer ∈ expired, timer ∈ B) (active : q.activeTimers = B.image (activeOf q.heap)) :
    (expired.map (entryOf q.heap)).foldlM eraseActive q =
      some { q with activeTimers := (B \ expired.toFinset).image (activeOf q.heap) } := by
  induction expired generalizing q B with
  | nil => simp [← active]
  | cons timer rest ih =>
    obtain ⟨fresh, nodupRest⟩ := List.nodup_cons.mp nodup
    obtain ⟨t, found⟩ := live timer (held timer List.mem_cons_self)
    have hasActive : toLex (timer, t.sequence) ∈ q.activeTimers := by
      rw [active, ← activeOf_eq found, (activeOf_injective _).mem_finset_image]
      exact held timer List.mem_cons_self
    have first : q.eraseActive (entryOf q.heap timer) =
        some { q with activeTimers := (B.erase timer).image (activeOf q.heap) } := by
      rw [Finset.image_erase (activeOf_injective _), ← active, activeOf_eq found]
      simp [eraseActive, entryOf, found, hasActive]
    rw [List.map_cons, List.foldlM_cons, first]
    have later := ih nodupRest
      (q := { q with activeTimers := (B.erase timer).image (activeOf q.heap) }) (B := B.erase timer)
      (fun other member => live other (Finset.mem_of_mem_erase member))
      (fun other member => Finset.mem_erase.mpr ⟨fun same => fresh (same ▸ member),
        held other (List.mem_cons_of_mem _ member)⟩) rfl
    simp only [Option.bind_eq_bind, Option.bind_some]
    rw [later, List.toFinset_cons, Finset.sdiff_insert, Finset.erase_sdiff_comm]

/-- The addresses of a list of entries. -/
def addresses (entries : List TimerEntry) : List Nat := entries.map fun entry => (ofLex entry).2

/-- Entries of held timers are determined by their addresses. -/
theorem Holds.entries_eq (holds : q.Holds A) {entries : List TimerEntry}
    (held : ∀ entry ∈ entries, entry ∈ q.timers) :
    entries = (addresses entries).map (entryOf q.heap) := by
  rw [addresses, List.map_map]
  refine (List.map_id entries).symm.trans (List.map_congr_left fun entry member => ?_)
  obtain ⟨timer, -, rfl⟩ := Finset.mem_image.mp (holds.timers ▸ held entry member)
  rfl

theorem mem_expiredEntries {now : Int} {entry : TimerEntry} :
    entry ∈ q.expiredEntries now ↔ entry ∈ q.timers ∧ entry < toLex (now, UINTPTR_MAX) := by
  rw [expiredEntries, Finset.mem_sort, Finset.mem_filter]

theorem Holds.expiredEntries_eq (holds : q.Holds A) (now : Int) :
    q.expiredEntries now = (addresses (q.expiredEntries now)).map (entryOf q.heap) :=
  holds.entries_eq fun _ member => (mem_expiredEntries.mp member).1

theorem Holds.mem_expired (holds : q.Holds A) {now : Int} {timer : Nat} :
    timer ∈ addresses (q.expiredEntries now) ↔
      timer ∈ A ∧ entryOf q.heap timer < toLex (now, UINTPTR_MAX) := by
  rw [← holds.mem_timers, ← mem_expiredEntries]
  constructor
  · intro member
    rw [holds.expiredEntries_eq now]
    exact List.mem_map_of_mem member
  · exact fun member => List.mem_map_of_mem (f := fun entry => (ofLex entry).2) member

theorem Holds.nodup_expired (holds : q.Holds A) (now : Int) :
    (addresses (q.expiredEntries now)).Nodup := by
  have sorted : (q.expiredEntries now).Nodup := Finset.sort_nodup _ _
  rw [holds.expiredEntries_eq now] at sorted
  exact sorted.of_map _

/-- `getExpiredTimers` moves the expired timers out of both sets. -/
theorem getExpiredTimers_eq (holds : q.Holds A) (now : Int) :
    ∃ d : TimerQueue, q.getExpiredTimers now = some (d, q.expiredEntries now) ∧
      d = { q with timers := q.timers.filter (¬ · < toLex (now, UINTPTR_MAX))
                   activeTimers := d.activeTimers } ∧
      d.Holds (A \ (addresses (q.expiredEntries now)).toFinset) := by
  have kept : A \ (addresses (q.expiredEntries now)).toFinset =
      A.filter fun timer => ¬ entryOf q.heap timer < toLex (now, UINTPTR_MAX) := by
    ext timer
    simp only [Finset.mem_sdiff, List.mem_toFinset, holds.mem_expired, Finset.mem_filter]
    tauto
  have rest := foldlM_eraseActive (holds.nodup_expired now)
    (q := { q with timers := q.timers.filter (¬ · < toLex (now, UINTPTR_MAX)) })
    holds.live (fun timer member => (holds.mem_expired.mp member).1) holds.active
  have after : Holds
      { q with
        timers := q.timers.filter (¬ · < toLex (now, UINTPTR_MAX))
        activeTimers := (A \ (addresses (q.expiredEntries now)).toFinset).image
          (activeOf q.heap) }
      (A \ (addresses (q.expiredEntries now)).toFinset) := by
    refine ⟨fun timer member => holds.live timer (Finset.mem_sdiff.mp member).1, ?_, rfl⟩
    simp only [kept, holds.timers, Finset.filter_image]
  refine ⟨_, ?_, rfl, after⟩
  rw [← holds.expiredEntries_eq now] at rest
  simp only [getExpiredTimers, holds.sizesAgree, check_true, rest, Option.bind_eq_bind,
    Option.bind_some, after.sizesAgree]

/-- What no loop over expired timers touches. -/
structure SameRest (q d : TimerQueue) : Prop where
  isHandlingTimeout : d.isHandlingTimeout = q.isHandlingTimeout
  cancelledTimers : d.cancelledTimers = q.cancelledTimers
  counter : d.counter = q.counter
  unqueued : d.unqueued = q.unqueued
  batch : d.batch = q.batch
  timerfd : d.timerfd = q.timerfd
  lastReset : d.lastReset = q.lastReset
  failures : d.failures = q.failures

/-- What `resetTimers` makes of an expired timer: it is set again, or freed. -/
def resetOutcome (q : TimerQueue) (now : Int) (timer : Nat) (t : Timer) : Option Timer :=
  if t.isRepeated = true ∧ toLex (timer, t.sequence) ∉ q.cancelledTimers then some (t.reset now)
  else none

theorem le_of_resetOutcome {now : Int} {timer : Nat} {t u : Timer}
    (again : q.resetOutcome now timer t = some u) : now ≤ u.expiration := by
  unfold resetOutcome at again
  split at again
  · rename_i repeated
    cases again
    obtain ⟨delta, interval⟩ := Option.isSome_iff_exists.mp repeated.1
    simp only [Timer.reset, interval]
    omega
  · cases again

/-- One round of `resetTimers` on an allocated timer the queue does not hold: the
timer is queued again, or freed. -/
theorem resetOne_eq (holds : q.Holds A) {entry : TimerEntry} {timer : Nat}
    (address : (ofLex entry).2 = timer) {t : Timer} (found : q.heap timer = some t)
    (outside : timer ∉ A) (now : Int) :
    ∃ d B, resetOne now q entry = some d ∧ d.Holds B ∧ SameRest q d ∧
      (∀ other ≠ timer, (other ∈ B ↔ other ∈ A) ∧ d.heap other = q.heap other) ∧
      d.heap timer = q.resetOutcome now timer t ∧
      (timer ∈ B ↔ (q.resetOutcome now timer t).isSome = true) := by
  by_cases again : t.isRepeated = true ∧ toLex (timer, t.sequence) ∉ q.cancelledTimers
  · have before := holds.of_update outside (some (t.reset now))
    have stored : Function.update q.heap timer (some (t.reset now)) timer = some (t.reset now) :=
      Function.update_self _ _ _
    have inserted := insert_eq before stored outside
    have outcome : q.resetOutcome now timer t = some (t.reset now) := if_pos again
    refine ⟨_, Insert.insert timer A, ?_, enqueue_holds before stored,
      ⟨rfl, rfl, rfl, rfl, rfl, rfl, rfl, rfl⟩,
      fun other distinct => ⟨by simp [distinct], Function.update_of_ne distinct _ _⟩,
      stored.trans outcome.symm, by simp [outcome]⟩
    simp [resetOne, address, found, again, inserted]
  · have outcome : q.resetOutcome now timer t = none := if_neg again
    refine ⟨{ q with heap := Function.update q.heap timer none }, A, ?_, ?_,
      ⟨rfl, rfl, rfl, rfl, rfl, rfl, rfl, rfl⟩,
      fun other distinct => ⟨Iff.rfl, Function.update_of_ne distinct _ _⟩,
      (Function.update_self _ _ _).trans outcome.symm, by simp [outcome, outside]⟩
    · simp [resetOne, address, found, again]
    · exact holds.of_update outside none

theorem SameRest.trans {q d e : TimerQueue} (first : SameRest q d) (last : SameRest d e) :
    SameRest q e where
  isHandlingTimeout := last.isHandlingTimeout.trans first.isHandlingTimeout
  cancelledTimers := last.cancelledTimers.trans first.cancelledTimers
  counter := last.counter.trans first.counter
  unqueued := last.unqueued.trans first.unqueued
  batch := last.batch.trans first.batch
  timerfd := last.timerfd.trans first.timerfd
  lastReset := last.lastReset.trans first.lastReset
  failures := last.failures.trans first.failures

/-- The loop of `resetTimers` over allocated timers the queue does not hold. -/
theorem foldlM_resetOne (now : Int) {entries : List TimerEntry}
    (nodup : (addresses entries).Nodup) {q : TimerQueue} {A : Finset Nat} (holds : q.Holds A)
    (live : ∀ timer ∈ addresses entries, ∃ t, q.heap timer = some t)
    (outside : ∀ timer ∈ addresses entries, timer ∉ A) :
    ∃ d B, entries.foldlM (resetOne now) q = some d ∧ d.Holds B ∧ SameRest q d ∧
      (∀ other ∉ addresses entries, (other ∈ B ↔ other ∈ A) ∧ d.heap other = q.heap other) ∧
      ∀ timer ∈ addresses entries, ∀ t, q.heap timer = some t →
        d.heap timer = q.resetOutcome now timer t ∧
          (timer ∈ B ↔ (q.resetOutcome now timer t).isSome = true) := by
  induction entries generalizing q A with
  | nil =>
    exact ⟨q, A, rfl, holds, ⟨rfl, rfl, rfl, rfl, rfl, rfl, rfl, rfl⟩, fun _ _ => ⟨Iff.rfl, rfl⟩,
      by simp [addresses]⟩
  | cons entry rest ih =>
    obtain ⟨fresh, nodupRest⟩ := List.nodup_cons.mp nodup
    obtain ⟨t, found⟩ := live _ List.mem_cons_self
    obtain ⟨e, B, one, holdsB, same, others, own, queued⟩ :=
      resetOne_eq holds rfl found (outside _ List.mem_cons_self) now
    have distinct : ∀ other ∈ addresses rest, other ≠ (ofLex entry).2 := by
      rintro other member rfl
      exact fresh member
    obtain ⟨d, C, all, holdsC, same', others', own'⟩ := ih nodupRest holdsB
      (fun other member => by
        rw [(others other (distinct other member)).2]
        exact live other (List.mem_cons_of_mem _ member))
      (fun other member => by
        rw [(others other (distinct other member)).1]
        exact outside other (List.mem_cons_of_mem _ member))
    refine ⟨d, C, ?_, holdsC, same.trans same', ?_, ?_⟩
    · rw [List.foldlM_cons, one]
      exact all
    · intro other absent
      obtain ⟨notTimer, notRest⟩ := List.ne_and_not_mem_of_not_mem_cons absent
      obtain ⟨mem, heap⟩ := others other notTimer
      obtain ⟨mem', heap'⟩ := others' other notRest
      exact ⟨mem'.trans mem, heap'.trans heap⟩
    · intro other member u here
      rcases List.mem_cons.mp member with rfl | member
      · rw [found] at here
        cases here
        obtain ⟨mem', heap'⟩ := others' _ fresh
        exact ⟨heap'.trans own, mem'.trans queued⟩
      · have outcome := own' other member u ((others other (distinct other member)).2.trans here)
        simpa only [resetOutcome, same.cancelledTimers] using outcome

theorem begin?_mem {first : TimerEntry} (h : q.begin? = some first) : first ∈ q.timers := by
  unfold begin? at h
  split at h
  · cases h
    exact Finset.min'_mem _ _
  · cases h

/-- The descriptor follows the key of the first entry. -/
def followEarliest (q : TimerQueue) (clock : Int) : TimerQueue :=
  match q.begin? with
  | none => q
  | some first => if 0 < (ofLex first).1 then q.resetTimerfd (ofLex first).1 clock else q

theorem followEarliest_frame (q : TimerQueue) (clock : Int) :
    ∃ timerfd lastReset,
      q.followEarliest clock = { q with timerfd := timerfd, lastReset := lastReset } := by
  unfold followEarliest
  split
  · exact ⟨q.timerfd, q.lastReset, rfl⟩
  · split
    · exact ⟨_, _, rfl⟩
    · exact ⟨q.timerfd, q.lastReset, rfl⟩

/-- The end of `resetTimers` reads the timer, which agrees with its key. -/
theorem rearm_eq (holds : q.Holds A) (clock : Int) :
    q.rearm clock = some (q.followEarliest clock) := by
  unfold rearm followEarliest
  cases h : q.begin? with
  | none => rfl
  | some first =>
    obtain ⟨-, t, found, key⟩ := holds.key (begin?_mem h)
    simp [found, key]

theorem addTimerInLoop_eq (holds : q.Holds A) {timer : Nat} {t : Timer}
    (found : q.heap timer = some t) (new : timer ∉ A) (clock : Int) :
    q.addTimerInLoop timer clock =
      some (if q.isEarliest t.expiration then (q.enqueue timer).resetTimerfd t.expiration clock
        else q.enqueue timer) := by
  have same : (q.enqueue timer).heap timer = some t := found
  simp [addTimerInLoop, insert_eq holds found new, same]

/-- The clean part of `handleTimeout`'s beginning. -/
theorem beginTimeout_eq (holds : q.Holds A) (now : Int) :
    ∃ d : TimerQueue, q.beginTimeout now = some
        { d with isHandlingTimeout := true
                 cancelledTimers := ∅
                 batch := some ⟨now, q.expiredEntries now, 0⟩ } ∧
      d = { q with timers := q.timers.filter (¬ · < toLex (now, UINTPTR_MAX))
                   activeTimers := d.activeTimers
                   timerfd := q.readTimerfd.timerfd } ∧
      d.Holds (A \ (addresses (q.expiredEntries now)).toFinset) := by
  have frame : q.readTimerfd = { q with timerfd := q.readTimerfd.timerfd } := by
    unfold readTimerfd
    split <;> rfl
  have read : q.readTimerfd.Holds A := by
    rw [frame]
    exact ⟨holds.live, holds.timers, holds.active⟩
  have entries : q.readTimerfd.expiredEntries now = q.expiredEntries now := by
    rw [frame]
    rfl
  obtain ⟨d, expired, fields, held⟩ := getExpiredTimers_eq read now
  rw [entries] at expired held
  refine ⟨d, ?_, fields.trans (by rw [frame]), held⟩
  simp [beginTimeout, holds.sizesAgree, expired]

/-- The end of `handleTimeout` on expired timers that are allocated and not queued. -/
theorem endTimeout_eq (holds : q.Holds A) {b : TimeoutBatch}
    (nodup : (addresses b.expiredTimers).Nodup)
    (live : ∀ timer ∈ addresses b.expiredTimers, ∃ t, q.heap timer = some t)
    (outside : ∀ timer ∈ addresses b.expiredTimers, timer ∉ A) (clock : Int) :
    ∃ d B, q.endTimeout b clock = some (d.followEarliest clock) ∧ d.Holds B ∧
      SameRest { q with isHandlingTimeout := false, batch := none } d ∧
      (∀ other ∉ addresses b.expiredTimers,
        (other ∈ B ↔ other ∈ A) ∧ d.heap other = q.heap other) ∧
      ∀ timer ∈ addresses b.expiredTimers, ∀ t, q.heap timer = some t →
        d.heap timer = q.resetOutcome b.now timer t ∧
          (timer ∈ B ↔ (q.resetOutcome b.now timer t).isSome = true) := by
  have start : Holds { q with isHandlingTimeout := false, batch := none } A :=
    ⟨holds.live, holds.timers, holds.active⟩
  obtain ⟨d, B, looped, held, same, others, own⟩ :=
    foldlM_resetOne b.now nodup start live outside
  refine ⟨d, B, ?_, held, same, others, own⟩
  have sizes : (d.followEarliest clock).sizesAgree = true := by
    obtain ⟨timerfd, lastReset, frame⟩ := d.followEarliest_frame clock
    rw [frame]
    exact held.sizesAgree
  simp only [endTimeout, resetTimers, start.sizesAgree, check_true, looped, Option.bind_eq_bind,
    Option.bind_some, rearm_eq held clock, sizes]

end Holds

/-! ## Runs -/

/-- Allocated timers outside the two sets: those to be added and those of the batch. -/
def loose (q : TimerQueue) : List Nat :=
  q.unqueued ++ q.batch.elim [] fun b => addresses b.expiredTimers

/-- The invariant of every run. -/
structure Rep (q : TimerQueue) (A : Finset Nat) : Prop extends q.Holds A where
  looseLive : ∀ timer ∈ q.loose, timer ∉ A ∧ ∃ t, q.heap timer = some t
  looseNodup : q.loose.Nodup
  asserted : ∀ site ∈ q.failures, site = .cancelRecorded

theorem new_rep (isHandlingTimeout : Bool) : (new isHandlingTimeout).Rep ∅ where
  live := fun _ member => absurd member (Finset.notMem_empty _)
  timers := rfl
  active := rfl
  looseLive := fun _ member => absurd member List.not_mem_nil
  looseNodup := List.nodup_nil
  asserted := fun _ member => absurd member List.not_mem_nil

section Runs
variable {q : TimerQueue} {A : Finset Nat}

theorem newTimer_rep (rep : q.Rep A) {timer : Nat} (free : q.heap timer = none) (when : Int)
    (interval : Option Nat) (sequence : Nat) :
    (q.newTimer timer when interval sequence).Rep A := by
  have outside : timer ∉ A := by
    intro member
    obtain ⟨t, found⟩ := rep.live timer member
    rw [free] at found
    cases found
  have notLoose : timer ∉ q.loose := by
    intro member
    obtain ⟨-, t, found⟩ := rep.looseLive timer member
    rw [free] at found
    cases found
  have holds := rep.toHolds.of_update outside (some ⟨when, interval, sequence⟩)
  have perm : (q.newTimer timer when interval sequence).loose.Perm (timer :: q.loose) := by
    simp only [loose, newTimer, List.append_assoc, List.singleton_append]
    exact List.perm_middle
  refine ⟨⟨holds.live, holds.timers, holds.active⟩, ?_, ?_, rep.asserted⟩
  · intro other member
    rcases List.mem_cons.mp (perm.mem_iff.mp member) with rfl | before
    · exact ⟨outside, _, Function.update_self _ _ _⟩
    · obtain ⟨notIn, t, found⟩ := rep.looseLive other before
      refine ⟨notIn, t, (Function.update_of_ne ?_ _ _).trans found⟩
      rintro rfl
      exact notLoose before
  · exact perm.nodup_iff.mpr (List.nodup_cons.mpr ⟨notLoose, rep.looseNodup⟩)

/-- A timer that was to be added is queued. -/
theorem addTimerInLoop_rep (rep : q.Rep A) {timer : Nat} (waiting : timer ∈ q.unqueued)
    (clock : Int) :
    ∃ d, addTimerInLoop { q with unqueued := q.unqueued.erase timer } timer clock = some d ∧
      d.Rep (Insert.insert timer A) := by
  have member : timer ∈ q.loose := List.mem_append_left _ waiting
  obtain ⟨outside, t, found⟩ := rep.looseLive timer member
  have holds : Holds { q with unqueued := q.unqueued.erase timer } A :=
    ⟨rep.live, rep.timers, rep.active⟩
  have erased : loose { q with unqueued := q.unqueued.erase timer } = q.loose.erase timer :=
    (List.erase_append_left _ waiting).symm
  have queued := enqueue_holds holds found
  have rest : ∀ other ∈ q.loose.erase timer,
      other ∉ Insert.insert timer A ∧ ∃ t, q.heap other = some t := by
    intro other member
    obtain ⟨distinct, member⟩ := (rep.looseNodup.mem_erase_iff).mp member
    obtain ⟨notIn, live⟩ := rep.looseLive other member
    exact ⟨by simp [distinct, notIn], live⟩
  refine ⟨_, addTimerInLoop_eq holds found outside clock, ?_⟩
  split
  · refine ⟨⟨queued.live, queued.timers, queued.active⟩, ?_, ?_, rep.asserted⟩
    · exact fun other member => rest other (erased ▸ member)
    · exact erased ▸ rep.looseNodup.erase timer
  · refine ⟨queued, ?_, ?_, rep.asserted⟩
    · exact fun other member => rest other (erased ▸ member)
    · exact erased ▸ rep.looseNodup.erase timer

theorem recordCancelled_frame (q : TimerQueue) (canceledTimer : ActiveTimerEntry) :
    ∃ noted, (noted = [] ∨ noted = [.cancelRecorded]) ∧ q.recordCancelled canceledTimer =
      { q with cancelledTimers := Insert.insert canceledTimer q.cancelledTimers
               failures := q.failures ++ noted } := by
  unfold recordCancelled check
  split
  · exact ⟨[], Or.inl rfl, by simp⟩
  · exact ⟨[.cancelRecorded], Or.inr rfl, rfl⟩

theorem cancelTimerInLoop_rep (rep : q.Rep A) (timer sequence : Nat) :
    ∃ d B, q.cancelTimerInLoop timer sequence = some d ∧ d.Rep B := by
  by_cases active : toLex (timer, sequence) ∈ q.activeTimers
  · obtain ⟨held, t, found, rfl⟩ := rep.toHolds.mem_active_iff.mp active
    refine ⟨_, A.erase timer, cancelTimerInLoop_held rep.toHolds found held,
      ⟨cancelled_holds rep.toHolds timer, ?_, rep.looseNodup, rep.asserted⟩⟩
    intro other member
    obtain ⟨notIn, t, live⟩ := rep.looseLive other member
    refine ⟨fun kept => notIn (Finset.mem_of_mem_erase kept), t, ?_⟩
    refine (Function.update_of_ne ?_ _ _).trans live
    rintro rfl
    exact notIn held
  · refine ⟨_, A, cancelTimerInLoop_missing rep.toHolds active, ?_⟩
    split
    · obtain ⟨noted, kind, frame⟩ := q.recordCancelled_frame (toLex (timer, sequence))
      rw [frame]
      refine ⟨⟨rep.live, rep.timers, rep.active⟩, rep.looseLive, rep.looseNodup, ?_⟩
      intro site member
      rcases List.mem_append.mp member with member | member
      · exact rep.asserted site member
      · rcases kind with rfl | rfl
        · cases member
        · exact List.mem_singleton.mp member
    · exact rep

theorem beginTimeout_rep (rep : q.Rep A) (idle : q.batch = none) (now : Int) :
    ∃ d B, q.beginTimeout now = some d ∧ d.Rep B := by
  obtain ⟨e, begun, fields, holds⟩ := beginTimeout_eq rep.toHolds now
  have heap : e.heap = q.heap := by rw [fields]
  have unqueued : e.unqueued = q.unqueued := by rw [fields]
  have failures : e.failures = q.failures := by rw [fields]
  have before : q.loose = q.unqueued := by simp [loose, idle]
  have expired {timer : Nat} (member : timer ∈ addresses (q.expiredEntries now)) : timer ∈ A :=
    (rep.toHolds.mem_expired.mp member).1
  refine ⟨_, _, begun, ⟨⟨holds.live, holds.timers, holds.active⟩, ?_, ?_, ?_⟩⟩
  · intro timer member
    rcases List.mem_append.mp member with waiting | taken
    · obtain ⟨outside, live⟩ := rep.looseLive timer (before ▸ unqueued ▸ waiting)
      exact ⟨fun kept => outside (Finset.mem_sdiff.mp kept).1, heap ▸ live⟩
    · refine ⟨fun kept => (Finset.mem_sdiff.mp kept).2 (List.mem_toFinset.mpr taken), ?_⟩
      exact heap ▸ rep.live timer (expired taken)
  · refine List.Nodup.append (unqueued ▸ before ▸ rep.looseNodup) (rep.toHolds.nodup_expired now) ?_
    intro timer waiting taken
    exact (rep.looseLive timer (before ▸ unqueued ▸ waiting)).1 (expired taken)
  · exact fun site member => rep.asserted site (failures ▸ member)

theorem runTimer_rep (rep : q.Rep A) {b : TimeoutBatch} (running : q.batch = some b)
    (more : b.ran < b.expiredTimers.length) : ∃ d, q.runTimer b = some d ∧ d.Rep A := by
  have member : (ofLex b.expiredTimers[b.ran]).2 ∈ q.loose := by
    refine List.mem_append_right _ ?_
    rw [running]
    exact List.mem_map_of_mem (List.getElem_mem more)
  obtain ⟨-, t, found⟩ := rep.looseLive _ member
  have same : loose { q with batch := some { b with ran := b.ran + 1 } } = q.loose := by
    simp [loose, running]
  refine ⟨{ q with batch := some { b with ran := b.ran + 1 } }, ?_,
    ⟨⟨rep.live, rep.timers, rep.active⟩, ?_, ?_, rep.asserted⟩⟩
  · simp [runTimer, List.getElem?_eq_getElem more, found]
  · exact fun timer member => rep.looseLive timer (same ▸ member)
  · exact same ▸ rep.looseNodup

/-- The timers of the batch are allocated, distinct, not queued and not to be added. -/
structure BatchApart (q : TimerQueue) (A : Finset Nat) (b : TimeoutBatch) : Prop where
  nodup : (addresses b.expiredTimers).Nodup
  live : ∀ timer ∈ addresses b.expiredTimers, ∃ t, q.heap timer = some t
  outside : ∀ timer ∈ addresses b.expiredTimers, timer ∉ A
  unqueued : ∀ timer ∈ q.unqueued, timer ∉ addresses b.expiredTimers

theorem Rep.batchApart (rep : q.Rep A) {b : TimeoutBatch} (running : q.batch = some b) :
    BatchApart q A b := by
  have taken {timer : Nat} (member : timer ∈ addresses b.expiredTimers) : timer ∈ q.loose :=
    List.mem_append_right _ (by rw [running]; exact member)
  have nodup := rep.looseNodup
  rw [loose, running] at nodup
  obtain ⟨-, distinct, disjoint⟩ := List.nodup_append'.mp nodup
  exact ⟨distinct, fun timer member => (rep.looseLive timer (taken member)).2,
    fun timer member => (rep.looseLive timer (taken member)).1,
    fun timer here there => disjoint here there⟩

theorem endTimeout_rep (rep : q.Rep A) {b : TimeoutBatch} (running : q.batch = some b)
    (clock : Int) : ∃ d B, q.endTimeout b clock = some d ∧ d.Rep B := by
  have apart := rep.batchApart running
  obtain ⟨e, B, ended, holds, same, others, -⟩ :=
    endTimeout_eq rep.toHolds apart.nodup apart.live apart.outside clock
  obtain ⟨timerfd, lastReset, frame⟩ := e.followEarliest_frame clock
  have rest : loose { e with timerfd := timerfd, lastReset := lastReset } = q.unqueued := by
    simp [loose, same.unqueued, same.batch]
  rw [frame] at ended
  refine ⟨_, B, ended, ⟨⟨holds.live, holds.timers, holds.active⟩, ?_, ?_, ?_⟩⟩
  · intro timer member
    rw [rest] at member
    obtain ⟨outside, t, found⟩ := rep.looseLive timer (List.mem_append_left _ member)
    obtain ⟨mem, heap⟩ := others timer (apart.unqueued timer member)
    exact ⟨fun kept => outside (mem.mp kept), t, heap.trans found⟩
  · rw [rest]
    exact rep.looseNodup.of_append_left
  · exact fun site member => rep.asserted site (same.failures ▸ member)

/-- An action that can come has a result: no pointer it follows dangles. -/
theorem exec_rep (rep : q.Rep A) {a : Act} (enabled : q.Enabled a) :
    ∃ d B, q.exec a = some d ∧ d.Rep B := by
  cases a with
  | newTimer timer when interval sequence =>
    exact ⟨_, A, rfl, newTimer_rep rep enabled.1 when interval sequence⟩
  | addTimerInLoop timer clock =>
    obtain ⟨d, done, after⟩ := addTimerInLoop_rep rep enabled clock
    exact ⟨d, _, done, after⟩
  | cancelTimerInLoop timer sequence => exact cancelTimerInLoop_rep rep timer sequence
  | beginTimeout now => exact beginTimeout_rep rep enabled now
  | runTimer =>
    obtain ⟨b, running, more⟩ := (Option.any_eq_true _ _).mp enabled
    obtain ⟨d, done, after⟩ := runTimer_rep rep running (of_decide_eq_true more)
    exact ⟨d, A, by rw [exec, running]; exact done, after⟩
  | endTimeout clock =>
    obtain ⟨b, running, -⟩ := (Option.any_eq_true _ _).mp enabled
    obtain ⟨d, B, done, after⟩ := endTimeout_rep rep running clock
    exact ⟨d, B, by rw [exec, running]; exact done, after⟩
  | fire =>
    refine ⟨q.fire, A, rfl, ?_⟩
    unfold fire
    split
    · exact ⟨⟨rep.live, rep.timers, rep.active⟩, rep.looseLive, rep.looseNodup, rep.asserted⟩
    · exact rep

theorem step_rep (rep : q.Rep A) {a : Act} {d : TimerQueue} (next : q.step a = some d) :
    ∃ B, d.Rep B := by
  unfold step at next
  split at next
  · obtain ⟨e, B, done, after⟩ := exec_rep rep ‹_›
    rw [next] at done
    cases done
    exact ⟨B, after⟩
  · cases next

end Runs

/-- The two sets hold the same timers, each once, under its own current key, and
no assertion but the one on `cancelledTimers_` has failed. -/
structure Represented (q : TimerQueue) : Prop where
  same : ∀ timer t, q.heap timer = some t →
    (toLex (t.expiration, timer) ∈ q.timers ↔ toLex (timer, t.sequence) ∈ q.activeTimers)
  key : ∀ entry ∈ q.timers, ∃ t, q.heap (ofLex entry).2 = some t ∧ t.expiration = (ofLex entry).1
  activeKey : ∀ entry ∈ q.activeTimers,
    ∃ t, q.heap (ofLex entry).1 = some t ∧ t.sequence = (ofLex entry).2
  once : ∀ x ∈ q.timers, ∀ y ∈ q.timers, (ofLex x).2 = (ofLex y).2 → x = y
  activeOnce : ∀ x ∈ q.activeTimers, ∀ y ∈ q.activeTimers, (ofLex x).1 = (ofLex y).1 → x = y
  sizes : q.timers.card = q.activeTimers.card
  asserted : ∀ site ∈ q.failures, site = .cancelRecorded

theorem Rep.represented {q : TimerQueue} {A : Finset Nat} (rep : q.Rep A) : q.Represented where
  same := fun timer t found => by
    rw [← entryOf_eq found, ← activeOf_eq found, rep.toHolds.mem_timers, rep.toHolds.mem_active]
  key := fun entry member => (rep.toHolds.key member).2
  activeKey := fun entry member => (rep.toHolds.mem_active_iff.mp member).2
  once := by
    intro x inX y inY address
    rw [rep.timers, Finset.mem_image] at inX inY
    obtain ⟨timer, -, rfl⟩ := inX
    obtain ⟨other, -, rfl⟩ := inY
    exact congrArg _ address
  activeOnce := by
    intro x inX y inY address
    rw [rep.active, Finset.mem_image] at inX inY
    obtain ⟨timer, -, rfl⟩ := inX
    obtain ⟨other, -, rfl⟩ := inY
    exact congrArg _ address
  sizes := by simpa [sizesAgree] using rep.toHolds.sizesAgree
  asserted := rep.asserted

/-- Every run from the constructor, whatever its callbacks add and cancel: the sets
represent the same timers at every point, and no step follows a dangling pointer. -/
theorem represented_throughout (isHandlingTimeout : Bool) (actions : List Act) :
    Schedules.Throughout step Represented (new isHandlingTimeout) actions ∧
      Schedules.Along step (fun q a => q.Enabled a → (q.exec a).isSome = true)
        (new isHandlingTimeout) actions := by
  have start : ∃ A, (new isHandlingTimeout).Rep A := ⟨∅, new_rep isHandlingTimeout⟩
  have keeps (q : TimerQueue) (a : Act) (d : TimerQueue) (rep : ∃ A, q.Rep A)
      (next : q.step a = some d) : ∃ A, d.Rep A :=
    step_rep rep.choose_spec next
  constructor
  · refine Schedules.throughout_of_along (I := fun q => ∃ A, q.Rep A)
      (fun q a d rep _ next => keeps q a d rep next) ?_ start (Schedules.along_true _ actions)
    rintro q ⟨A, rep⟩
    exact rep.represented
  · refine Schedules.along_of_invariant keeps ?_ start actions
    rintro q a ⟨A, rep⟩ enabled
    obtain ⟨d, B, done, -⟩ := exec_rep rep enabled
    rw [done]
    rfl

end TimerQueue

end Arale
