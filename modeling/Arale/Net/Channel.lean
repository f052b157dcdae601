import Arale.Lib.Schedules

/-!
# Channels: interest masks and event dispatch

`Channel` as declared in `net/Channel.h`: one descriptor, the events it asks for
and the events the poller reported. The five `enable*`/`disable*` calls are kept
literally, as operations on one `int` mask. `update()` and `remove()` also hand
the channel to the poller, which changes `index_` and nothing else of a channel;
that half belongs to the pollers and is not part of this module.
-/

namespace Arale

/-! The `poll(2)` bits, with the values of `<poll.h>`. -/
def POLLIN : BitVec 32 := 0x001#32
def POLLPRI : BitVec 32 := 0x002#32
def POLLOUT : BitVec 32 := 0x004#32
def POLLERR : BitVec 32 := 0x008#32
def POLLHUP : BitVec 32 := 0x010#32
def POLLNVAL : BitVec 32 := 0x020#32
def POLLRDHUP : BitVec 32 := 0x2000#32

def kNoneEvent : BitVec 32 := 0#32
def kReadEvent : BitVec 32 := POLLIN ||| POLLPRI
def kWriteEvent : BitVec 32 := POLLOUT

/-- The conversion of an `int` mask to `bool`. -/
def anyBit (mask : BitVec 32) : Bool := mask != 0#32

/-- The four callbacks of a channel. -/
inductive Handler where
  | close
  | error
  | read
  | write
  deriving DecidableEq, Repr

structure Channel where
  fd : Int
  events : BitVec 32
  revents : BitVec 32
  isInLoop : Bool
  index : Int
  tied : Bool
  callbacks : List Handler
  deriving DecidableEq, Repr

namespace Channel

/-- The constructor; `callbacks` lists the setters the owner has called. -/
def new (socketFD : Int) (callbacks : List Handler) : Channel where
  fd := socketFD
  events := kNoneEvent
  revents := kNoneEvent
  isInLoop := false
  index := -1
  tied := false
  callbacks := callbacks

def update (c : Channel) : Channel := { c with isInLoop := true }

def remove (c : Channel) : Channel := { c with isInLoop := false }

def tieTo (c : Channel) : Channel := { c with tied := true }

def set_revents (c : Channel) (revents : BitVec 32) : Channel := { c with revents := revents }

def setIndex (c : Channel) (index : Int) : Channel := { c with index := index }

def enableRead (c : Channel) : Channel :=
  update { c with events := c.events ||| kReadEvent }

def disableRead (c : Channel) : Channel :=
  update { c with events := c.events &&& ~~~kReadEvent }

def enableWrite (c : Channel) : Channel :=
  update { c with events := c.events ||| kWriteEvent }

/-- As written in the header: the mask is and-ed with `kWriteEvent` itself. -/
def disableWrite (c : Channel) : Channel :=
  update { c with events := c.events &&& kWriteEvent }

def disableAll (c : Channel) : Channel := update { c with events := kNoneEvent }

def isReading (c : Channel) : Bool := anyBit (c.events &&& kReadEvent)

def isWriting (c : Channel) : Bool := anyBit (c.events &&& kWriteEvent)

def isNoneEvent (c : Channel) : Bool := c.events == kNoneEvent

/-- The callbacks `handleEventWithGuard` invokes, in its order. It reads
`revents_` only, which no callback of the loop thread changes. -/
def handleEventWithGuard (c : Channel) : List Handler :=
  let hangUp : List Handler :=
    if anyBit (c.revents &&& POLLHUP) && !anyBit (c.revents &&& POLLIN) then [.close] else []
  let failed : List Handler :=
    if anyBit (c.revents &&& (POLLERR ||| POLLNVAL)) then [.error] else []
  let readable : List Handler :=
    if anyBit (c.revents &&& (POLLIN ||| POLLPRI ||| POLLRDHUP)) then [.read] else []
  let writable : List Handler := if anyBit (c.revents &&& POLLOUT) then [.write] else []
  (hangUp ++ failed ++ readable ++ writable).filter (· ∈ c.callbacks)

/-- A tied channel is dispatched only while its owner is alive. -/
def handleEvent (c : Channel) (ownerAlive : Bool) : List Handler :=
  if c.tied && !ownerAlive then [] else c.handleEventWithGuard

/-! ## What each call does to the two interests, whatever the mask was -/

theorem or_mask_and (e m : BitVec 32) : (e ||| m) &&& m = m := by
  ext i hi
  simp only [BitVec.getElem_or, BitVec.getElem_and]
  cases m[i] <;> simp

@[simp] theorem isReading_new (fd : Int) (callbacks : List Handler) :
    (new fd callbacks).isReading = false := by
  simp only [isReading, new]
  decide

@[simp] theorem isWriting_new (fd : Int) (callbacks : List Handler) :
    (new fd callbacks).isWriting = false := by
  simp only [isWriting, new]
  decide

@[simp] theorem isReading_enableRead (c : Channel) : c.enableRead.isReading = true := by
  simp only [isReading, enableRead, update, or_mask_and]
  decide

@[simp] theorem isWriting_enableRead (c : Channel) : c.enableRead.isWriting = c.isWriting := by
  have disjoint : kReadEvent &&& kWriteEvent = 0#32 := by decide
  simp only [isWriting, enableRead, update, BitVec.and_or_distrib_right, disjoint, BitVec.or_zero]

@[simp] theorem isReading_disableRead (c : Channel) : c.disableRead.isReading = false := by
  have cleared : ~~~kReadEvent &&& kReadEvent = 0#32 := by decide
  simp only [isReading, disableRead, update, BitVec.and_assoc, cleared, BitVec.and_zero]
  decide

@[simp] theorem isWriting_disableRead (c : Channel) : c.disableRead.isWriting = c.isWriting := by
  have kept : ~~~kReadEvent &&& kWriteEvent = kWriteEvent := by decide
  simp only [isWriting, disableRead, update, BitVec.and_assoc, kept]

@[simp] theorem isReading_enableWrite (c : Channel) : c.enableWrite.isReading = c.isReading := by
  have disjoint : kWriteEvent &&& kReadEvent = 0#32 := by decide
  simp only [isReading, enableWrite, update, BitVec.and_or_distrib_right, disjoint,
    BitVec.or_zero]

@[simp] theorem isWriting_enableWrite (c : Channel) : c.enableWrite.isWriting = true := by
  simp only [isWriting, enableWrite, update, or_mask_and]
  decide

/-- Read interest is lost by `disableWrite`. -/
@[simp] theorem isReading_disableWrite (c : Channel) : c.disableWrite.isReading = false := by
  have disjoint : kWriteEvent &&& kReadEvent = 0#32 := by decide
  simp only [isReading, disableWrite, update, BitVec.and_assoc, disjoint, BitVec.and_zero]
  decide

/-- Write interest survives `disableWrite`. -/
@[simp] theorem isWriting_disableWrite (c : Channel) : c.disableWrite.isWriting = c.isWriting := by
  simp only [isWriting, disableWrite, update, BitVec.and_assoc, BitVec.and_self]

@[simp] theorem isReading_disableAll (c : Channel) : c.disableAll.isReading = false := by
  simp only [isReading, disableAll, update]
  decide

@[simp] theorem isWriting_disableAll (c : Channel) : c.disableAll.isWriting = false := by
  simp only [isWriting, disableAll, update]
  decide

end Channel

/-! ## Sequences of calls on one channel -/

inductive InterestCall where
  | enableRead
  | disableRead
  | enableWrite
  | disableWrite
  | disableAll
  deriving DecidableEq, Repr

def Channel.apply (c : Channel) : InterestCall → Channel
  | .enableRead => c.enableRead
  | .disableRead => c.disableRead
  | .enableWrite => c.enableWrite
  | .disableWrite => c.disableWrite
  | .disableAll => c.disableAll

theorem Channel.apply_fd (c : Channel) (call : InterestCall) : (c.apply call).fd = c.fd := by
  cases call <;> rfl

theorem Channel.apply_index (c : Channel) (call : InterestCall) :
    (c.apply call).index = c.index := by
  cases call <;> rfl

end Arale

namespace ChannelInterest

open Arale Schedules

/-- The calls that are meant to decide read interest. -/
def readGroup (c : InterestCall) : Bool :=
  c == .enableRead || c == .disableRead || c == .disableAll

/-- The calls that are meant to decide write interest. -/
def writeGroup (c : InterestCall) : Bool :=
  c == .enableWrite || c == .disableWrite || c == .disableAll

/-- Each interest is what the last call of its own group asked for. -/
def Independent (c : Channel) (calls : List InterestCall) : Prop :=
  (c.isReading = true ↔ lastAmong readGroup calls = some .enableRead) ∧
  (c.isWriting = true ↔ lastAmong writeGroup calls = some .enableWrite)

/-- No `disableWrite` comes after the `enableRead` that decides read interest,
nor after an `enableWrite` that no later `enableWrite` or `disableAll` replaces. -/
def DisableWriteHarmless (calls : List InterestCall) : Prop :=
  (∀ pre post, calls = pre ++ .enableRead :: post →
    (∀ c ∈ post, readGroup c = false) → .disableWrite ∉ post) ∧
  (∀ pre post, calls = pre ++ .enableWrite :: post →
    (∀ c ∈ post, (c == .enableWrite || c == .disableAll) = false) → .disableWrite ∉ post)

/-- Read interest as the code keeps it: `disableWrite` is one more way to lose it. -/
theorem isReading_foldl (fd : Int) (callbacks : List Handler) (calls : List InterestCall) :
    (calls.foldl Channel.apply (.new fd callbacks)).isReading = true ↔
      lastAmong (fun c => readGroup c || c == .disableWrite) calls = some .enableRead := by
  refine flag_foldl_iff (fun c : Channel => c.isReading = true) (fun c call => ?_) (by simp) calls
  cases call <;> simp [Channel.apply, readGroup]

/-- Write interest as the code keeps it: `disableWrite` has no say in it. -/
theorem isWriting_foldl (fd : Int) (callbacks : List Handler) (calls : List InterestCall) :
    (calls.foldl Channel.apply (.new fd callbacks)).isWriting = true ↔
      lastAmong (fun c => c == .enableWrite || c == .disableAll) calls = some .enableWrite := by
  refine flag_foldl_iff (fun c : Channel => c.isWriting = true) (fun c call => ?_) (by simp) calls
  cases call <;> simp [Channel.apply]

theorem writeGroup_eq_widened (c : InterestCall) :
    writeGroup c = ((c == .enableWrite || c == .disableAll) || c == .disableWrite) := by
  cases c <;> rfl

/-- After any sequence of calls on a fresh channel the two interests are
independent exactly when every `disableWrite` in it was harmless. -/
theorem interests_independent_iff (fd : Int) (callbacks : List Handler)
    (calls : List InterestCall) :
    Independent (calls.foldl Channel.apply (.new fd callbacks)) calls ↔
      DisableWriteHarmless calls := by
  have reads := lastAmong_widen_iff readGroup (d := .disableWrite) (e := .enableRead) rfl
    (by decide) calls
  have writes := lastAmong_widen_iff (fun c => c == .enableWrite || c == .disableAll)
    (d := .disableWrite) (e := .enableWrite) rfl (by decide) calls
  have widened : lastAmong writeGroup calls =
      lastAmong (fun c => (c == .enableWrite || c == .disableAll) || c == .disableWrite) calls := by
    rw [show writeGroup = fun c => (c == .enableWrite || c == .disableAll) || c == .disableWrite
      from funext writeGroup_eq_widened]
  rw [Independent, DisableWriteHarmless, isReading_foldl, isWriting_foldl, widened]
  exact and_congr (Iff.trans iff_comm reads) writes

/-- One `enableRead` and one pair of write calls already lose read interest and
keep write interest. -/
theorem disableWrite_swaps_interests :
    ¬ Independent ([.enableRead, .enableWrite, .disableWrite].foldl Channel.apply
      (.new 5 [])) [.enableRead, .enableWrite, .disableWrite] := by
  intro independent
  have reading := independent.1.mpr rfl
  revert reading
  decide

end ChannelInterest
