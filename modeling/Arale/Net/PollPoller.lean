import Mathlib.Data.List.Nodup
import Mathlib.Logic.Function.Basic
import Arale.Lib.Schedules
import Arale.Net.Channel

/-!
# The poll poller and its channels

`PollPoller` of `net/PollPoller.cc`: a vector of `pollfd`s, a map from descriptors to
channels, and in each registered channel the slot of its entry. An entry that poll is to
ignore holds `-fd - 1` for `fd`. Pointers to channels are the members of an index type.
A failed assertion, an index beyond the vector and a null channel are recorded as faults
and leave the rest as it is. Two channels may have one descriptor if they are never
registered together.
-/

namespace Arale

universe u

structure Pollfd where
  fd : Int
  events : BitVec 16
  revents : BitVec 16
  deriving DecidableEq, Repr

namespace Pollfd

/-- The descriptor behind an entry that may be ignored. -/
def key (pfd : Pollfd) : Int := if pfd.fd < 0 then -pfd.fd - 1 else pfd.fd

/-- `revents > 0`, on a `short`. -/
def isActive (pfd : Pollfd) : Bool := 0 < pfd.revents.toInt

end Pollfd

inductive PollFault where
  | addNotFound
  | updateFound
  | updateIndex
  | updateSame
  | removeFound
  | removeIndex
  | removeNoneEvent
  | removeErased
  | removeMoved
  | activeFound
  | activeSame
  deriving DecidableEq, Repr

structure PollPoller (ι : Type u) where
  /-- the channel objects -/
  channel : ι → Channel
  pollfds : List Pollfd
  channels : Std.TreeMap Int ι compare
  faults : List PollFault

namespace PollPoller

variable {ι : Type u} [DecidableEq ι]

/-- A fresh poller and channels that have never been registered. -/
def new (fds : ι → Int) : PollPoller ι where
  channel := fun ch => .new (fds ch) []
  pollfds := []
  channels := ∅
  faults := []

def check (p : PollPoller ι) (site : PollFault) (cond : Bool) : PollPoller ι :=
  if cond then p else { p with faults := p.faults ++ [site] }

def setChannel (p : PollPoller ι) (ch : ι) (f : Channel → Channel) : PollPoller ι :=
  { p with channel := Function.update p.channel ch (f (p.channel ch)) }

/-- What `updateChannel` writes to the entry of a registered channel. -/
def refresh (pfd : Pollfd) (c : Channel) : Pollfd where
  fd := if c.isNoneEvent then -c.fd - 1 else pfd.fd
  events := c.events.setWidth 16
  revents := 0

def updateChannel (p : PollPoller ι) (ch : ι) : PollPoller ι :=
  let c := p.channel ch
  if c.index < 0 then
    let p := p.check .addNotFound p.channels[c.fd]?.isNone
    let pfd : Pollfd := ⟨c.fd, c.events.setWidth 16, 0⟩
    let p := { p with pollfds := p.pollfds ++ [pfd] }
    let p := p.setChannel ch fun c => c.setIndex ((p.pollfds.length : Int) - 1)
    { p with channels := p.channels.insert pfd.fd ch }
  else
    let p := p.check .updateFound p.channels[c.fd]?.isSome
    match p.pollfds[c.index.toNat]? with
    | none => p.check .updateIndex false
    | some pfd =>
      let p := p.check .updateSame (pfd.fd == c.fd || pfd.fd == -c.fd - 1)
      { p with pollfds := p.pollfds.set c.index.toNat (refresh pfd c) }

/-- The last entry takes the place of another one, which is then at the back. -/
def swapBack (p : PollPoller ι) (index : Nat) : PollPoller ι :=
  match p.pollfds.getLast? with
  | none => p.check .removeIndex false
  | some back =>
    let p := { p with pollfds := p.pollfds.set index back }
    match p.channels[back.key]? with
    | none => p.check .removeMoved false
    | some moved => p.setChannel moved fun c => c.setIndex index

def removeChannel (p : PollPoller ι) (ch : ι) : PollPoller ι :=
  let fd := (p.channel ch).fd
  let p := p.check .removeFound p.channels[fd]?.isSome
  let index := (p.channel ch).index
  let p := p.check .removeIndex (0 ≤ index && index < p.pollfds.length)
  let p := p.check .removeNoneEvent (p.channel ch).isNoneEvent
  let p := { p with channels := p.channels.erase fd }.check .removeErased p.channels[fd]?.isSome
  let p := if index.toNat ≠ p.pollfds.length - 1 then p.swapBack index.toNat else p
  { p with pollfds := p.pollfds.dropLast }

/-- The loop of `fillActiveChannels` from an entry on, with the channels pushed. -/
def fillActiveChannels (p : PollPoller ι) : List Pollfd → Int → PollPoller ι × List ι
  | [], _ => (p, [])
  | pfd :: rest, numEvents =>
    if numEvents = 0 then (p, [])
    else if pfd.isActive then
      match p.channels[pfd.fd]? with
      | none => (p.check .activeFound false, [])
      | some ch =>
        let p := p.check .activeSame ((p.channel ch).fd == pfd.fd)
        let p := p.setChannel ch fun c => c.set_revents (pfd.revents.signExtend 32)
        let (p, active) := fillActiveChannels p rest (numEvents - 1)
        (p, ch :: active)
    else fillActiveChannels p rest numEvents

/-- What the kernel writes back: nothing is reported for a negative descriptor. -/
def report (reported : Nat → BitVec 16) (i : Nat) (pfd : Pollfd) : Pollfd :=
  { pfd with revents := if pfd.fd < 0 then 0 else reported i }

/-- `poll`, where the kernel reports `reported i` for the entry at `i`. -/
def poll (p : PollPoller ι) (reported : Nat → BitVec 16) : PollPoller ι × List ι :=
  let p := { p with pollfds := p.pollfds.mapIdx (report reported) }
  let nEvents := p.pollfds.countP Pollfd.isActive
  if 0 < nEvents then p.fillActiveChannels p.pollfds nEvents else (p, [])

/-- The channel is in `channels_`. -/
def Registered (p : PollPoller ι) (ch : ι) : Prop := p.channels[(p.channel ch).fd]? = some ch

instance (p : PollPoller ι) (ch : ι) : Decidable (p.Registered ch) :=
  inferInstanceAs (Decidable (_ = _))

/-- The channel has never been registered and no registered channel has its descriptor. -/
def Fresh (p : PollPoller ι) (ch : ι) : Prop :=
  (p.channel ch).index < 0 ∧ p.channels[(p.channel ch).fd]? = none

instance (p : PollPoller ι) (ch : ι) : Decidable (p.Fresh ch) :=
  inferInstanceAs (Decidable (_ ∧ _))

inductive Act (ι : Type u) where
  | call (ch : ι) (call : InterestCall)
  | update (ch : ι)
  | remove (ch : ι)
  | poll (reported : Nat → BitVec 16)

/-- Calls are made on fresh or registered channels, so never on one that was removed; a
channel is removed only while it is registered and has no enabled event. -/
def step (p : PollPoller ι) : Act ι → Option (PollPoller ι)
  | .call ch call =>
    if p.Fresh ch ∨ p.Registered ch then
      some ((p.setChannel ch fun c => c.apply call).updateChannel ch)
    else none
  | .update ch =>
    if p.Fresh ch ∨ p.Registered ch then some (p.updateChannel ch) else none
  | .remove ch =>
    if p.Registered ch ∧ (p.channel ch).isNoneEvent = true then
      some ((p.setChannel ch Channel.remove).removeChannel ch)
    else none
  | .poll reported => some (p.poll reported).1

/-! ## Every entry has its channel and every registered channel its entry -/

/-- A channel asks for bits that fit the `short` of an entry. -/
def Narrow (mask : BitVec 32) : Prop := mask &&& 7#32 = mask

/-- The entry a registered channel points at. -/
structure Entry (p : PollPoller ι) (ch : ι) (i : Nat) (pfd : Pollfd) : Prop where
  index : (p.channel ch).index = i
  slot : p.pollfds[i]? = some pfd
  key : pfd.key = (p.channel ch).fd

/-- The invariant of every run. -/
structure Kept (fds : ι → Int) (p : PollPoller ι) : Prop where
  fd : ∀ ch, (p.channel ch).fd = fds ch
  narrow : ∀ ch, Narrow (p.channel ch).events
  slots : ∀ (i : Nat) (pfd : Pollfd), p.pollfds[i]? = some pfd →
    ∃ ch, p.channels[pfd.key]? = some ch ∧ (p.channel ch).index = i
  entries : ∀ (fd : Int) (ch : ι), p.channels[fd]? = some ch →
    fds ch = fd ∧ ∃ i pfd, p.Entry ch i pfd
  size : p.channels.size = p.pollfds.length
  clean : p.faults = []

omit [DecidableEq ι] in
theorem new_kept (fds : ι → Int) : Kept fds (new fds) where
  fd := fun _ => rfl
  narrow := fun _ => BitVec.zero_and
  slots := fun i pfd slot => by cases slot
  entries := fun fd ch found => by cases found
  size := rfl
  clean := rfl

omit [DecidableEq ι] in
theorem check_eq (p : PollPoller ι) (site : PollFault) (cond : Bool) :
    p.check site cond = { p with faults := p.faults ++ if cond then [] else [site] } := by
  cases cond <;> simp [check]

theorem key_of_nonneg {fd : Int} (nonneg : 0 ≤ fd) (events revents : BitVec 16) :
    Pollfd.key ⟨fd, events, revents⟩ = fd := by
  simp only [Pollfd.key]
  omega

theorem key_ignored {fd : Int} (nonneg : 0 ≤ fd) (events revents : BitVec 16) :
    Pollfd.key ⟨-fd - 1, events, revents⟩ = fd := by
  simp only [Pollfd.key]
  omega

theorem fd_of_key (pfd : Pollfd) : pfd.fd = pfd.key ∨ pfd.fd = -pfd.key - 1 := by
  simp only [Pollfd.key]
  omega

theorem narrow_apply {c : Channel} (narrow : Narrow c.events) (call : InterestCall) :
    Narrow (c.apply call).events := by
  have masked (m : BitVec 32) (h : m &&& 7#32 = m) : (c.events ||| m) &&& 7#32 = c.events ||| m :=
    by rw [BitVec.and_or_distrib_right, narrow, h]
  have cut (m : BitVec 32) : (c.events &&& m) &&& 7#32 = c.events &&& m := by
    rw [BitVec.and_assoc, BitVec.and_comm m, ← BitVec.and_assoc, narrow]
  cases call with
  | enableRead => exact masked _ (by decide)
  | disableRead => exact cut _
  | enableWrite => exact masked _ (by decide)
  | disableWrite => exact cut _
  | disableAll => exact BitVec.zero_and

section Kept
variable {fds : ι → Int} {p : PollPoller ι}

/-- A change of a channel that leaves its descriptor and its slot alone. -/
theorem Kept.setChannel (kept : Kept fds p) (ch : ι) {f : Channel → Channel}
    (fd : (f (p.channel ch)).fd = (p.channel ch).fd)
    (index : (f (p.channel ch)).index = (p.channel ch).index)
    (narrow : Narrow (f (p.channel ch)).events) : Kept fds (p.setChannel ch f) := by
  have same (a : ι) : ((p.setChannel ch f).channel a).fd = (p.channel a).fd ∧
      ((p.setChannel ch f).channel a).index = (p.channel a).index := by
    by_cases self : a = ch
    · subst self
      simp [PollPoller.setChannel, fd, index]
    · simp [PollPoller.setChannel, self]
  refine ⟨fun a => (same a).1.trans (kept.fd a), fun a => ?_, fun i pfd slot => ?_,
    fun x a found => ?_, kept.size, kept.clean⟩
  · by_cases self : a = ch
    · subst self
      simpa [PollPoller.setChannel] using narrow
    · simpa [PollPoller.setChannel, self] using kept.narrow a
  · obtain ⟨a, found, at_i⟩ := kept.slots i pfd slot
    exact ⟨a, found, (same a).2.trans at_i⟩
  · obtain ⟨key, i, pfd, entry⟩ := kept.entries x a found
    exact ⟨key, i, pfd, (same a).2.trans entry.index, entry.slot, entry.key.trans (same a).1.symm⟩

omit [DecidableEq ι] in
/-- Two registered channels with one slot are one channel. -/
theorem Kept.eq_of_index (kept : Kept fds p) {a b : ι} {x y : Int} (ha : p.channels[x]? = some a)
    (hb : p.channels[y]? = some b) (same : (p.channel a).index = (p.channel b).index) : a = b := by
  obtain ⟨rfl, i, pfd, first⟩ := kept.entries x a ha
  obtain ⟨rfl, j, other, second⟩ := kept.entries y b hb
  have slots : i = j := by
    have := first.index.symm.trans (same.trans second.index)
    omega
  subst slots
  have entries : some pfd = some other := first.slot.symm.trans second.slot
  cases entries
  have keys : fds a = fds b := by
    rw [← kept.fd a, ← kept.fd b, ← first.key, ← second.key]
  rw [keys, hb] at ha
  exact (Option.some.inj ha).symm

/-- The first branch of `updateChannel`. -/
theorem updateChannel_fresh {ch : ι} (fresh : p.Fresh ch) :
    p.updateChannel ch =
      { p with
        channel := Function.update p.channel ch ((p.channel ch).setIndex p.pollfds.length)
        pollfds := p.pollfds ++ [⟨(p.channel ch).fd, (p.channel ch).events.setWidth 16, 0⟩]
        channels := p.channels.insert (p.channel ch).fd ch } := by
  simp [updateChannel, fresh.1, fresh.2, check_eq, PollPoller.setChannel]

/-- The second branch. -/
theorem updateChannel_registered {ch : ι} (registered : p.Registered ch) {i : Nat} {pfd : Pollfd}
    (entry : p.Entry ch i pfd) :
    p.updateChannel ch =
      { p with pollfds := p.pollfds.set i (refresh pfd (p.channel ch)) } := by
  have old : ¬ (i : Int) < 0 := by omega
  have same := fd_of_key pfd
  rw [entry.key] at same
  have found : p.channels[(p.channel ch).fd]? = some ch := registered
  simp [updateChannel, entry.index, old, found, entry.slot, check_eq, same]

theorem updateChannel_kept_fresh (kept : Kept fds p) {ch : ι} (nonneg : 0 ≤ fds ch)
    (fresh : p.Fresh ch) : Kept fds (p.updateChannel ch) := by
  have free : p.channels[fds ch]? = none := by
    rw [← kept.fd ch]
    exact fresh.2
  have other {a : ι} {x : Int} (found : p.channels[x]? = some a) : a ≠ ch ∧ x ≠ fds ch := by
    constructor
    · rintro rfl
      obtain ⟨-, i, pfd, entry⟩ := kept.entries x a found
      have := fresh.1
      rw [entry.index] at this
      omega
    · rintro rfl
      rw [free] at found
      cases found
  rw [updateChannel_fresh fresh, kept.fd ch]
  refine ⟨fun a => ?_, fun a => ?_, fun i pfd slot => ?_, fun x a found => ?_, ?_, kept.clean⟩
  · by_cases self : a = ch
    · subst self
      simpa [Channel.setIndex] using kept.fd a
    · simpa [self] using kept.fd a
  · by_cases self : a = ch
    · subst self
      simpa [Channel.setIndex] using kept.narrow a
    · simpa [self] using kept.narrow a
  · rcases Nat.lt_trichotomy i p.pollfds.length with old | last | beyond
    · rw [List.getElem?_append_left old] at slot
      obtain ⟨a, found, at_i⟩ := kept.slots i pfd slot
      obtain ⟨ne, away⟩ := other found
      exact ⟨a, by simpa [Std.TreeMap.getElem?_insert, away.symm] using found,
        by simpa [ne] using at_i⟩
    · subst last
      simp only [List.getElem?_concat_length, Option.some.injEq] at slot
      subst slot
      exact ⟨ch, by simp [key_of_nonneg nonneg], by simp [Channel.setIndex]⟩
    · rw [List.getElem?_eq_none (by simpa [Nat.succ_le_iff] using beyond)] at slot
      cases slot
  · by_cases here : x = fds ch
    · subst here
      have self : ch = a := by simpa using found
      subst self
      exact ⟨rfl, p.pollfds.length, _, by simp [Channel.setIndex], List.getElem?_concat_length ..,
        by simp [Channel.setIndex, kept.fd, key_of_nonneg nonneg]⟩
    · have old : p.channels[x]? = some a := by
        simpa [Std.TreeMap.getElem?_insert, Ne.symm here] using found
      obtain ⟨key, i, pfd, entry⟩ := kept.entries x a old
      have ne := (other old).1
      have bound := (List.getElem?_eq_some_iff.mp entry.slot).1
      exact ⟨key, i, pfd, by simpa [ne] using entry.index,
        (List.getElem?_append_left bound).trans entry.slot, by simpa [ne] using entry.key⟩
  · have absent : p.channels.contains (fds ch) = false := by
      rw [Std.TreeMap.contains_eq_isSome_getElem?, free]
      rfl
    simp [Std.TreeMap.size_insert, absent, kept.size]

omit [DecidableEq ι] in
theorem key_refresh {c : Channel} (nonneg : 0 ≤ c.fd) {pfd : Pollfd} (key : pfd.key = c.fd) :
    (refresh pfd c).key = c.fd := by
  by_cases none : c.isNoneEvent = true
  · simpa [refresh, none] using key_ignored nonneg _ _
  · simpa [refresh, none, Pollfd.key] using key

theorem updateChannel_kept_registered (kept : Kept fds p) {ch : ι} (nonneg : 0 ≤ fds ch)
    (registered : p.Registered ch) : Kept fds (p.updateChannel ch) := by
  obtain ⟨-, i, pfd, entry⟩ := kept.entries _ ch registered
  have key : (refresh pfd (p.channel ch)).key = pfd.key := by
    rw [entry.key]
    exact key_refresh (by rwa [kept.fd ch]) entry.key
  have bound := (List.getElem?_eq_some_iff.mp entry.slot).1
  rw [updateChannel_registered registered entry]
  refine ⟨kept.fd, kept.narrow, fun j other slot => ?_, fun x a found => ?_, ?_, kept.clean⟩
  · by_cases same : j = i
    · subst same
      rw [List.getElem?_set_self bound] at slot
      cases slot
      rw [key]
      exact kept.slots j pfd entry.slot
    · rw [List.getElem?_set_ne (Ne.symm same)] at slot
      exact kept.slots j other slot
  · obtain ⟨atKey, j, other, its⟩ := kept.entries x a found
    by_cases same : j = i
    · subst same
      have entries : some other = some pfd := its.slot.symm.trans entry.slot
      cases entries
      exact ⟨atKey, j, _, its.index, List.getElem?_set_self bound, key.trans its.key⟩
    · exact ⟨atKey, j, other, its.index, (List.getElem?_set_ne (Ne.symm same)).trans its.slot,
        its.key⟩
  · simpa using kept.size

omit [DecidableEq ι] in
theorem ne_of_index_ne {a b : ι} {x y : Int} (ha : p.channels[x]? = some a)
    (hb : p.channels[y]? = some b) (ne : (p.channel a).index ≠ (p.channel b).index) : x ≠ y := by
  rintro rfl
  rw [hb] at ha
  cases ha
  exact ne rfl

/-- What is left of the vector once the last slot is gone. -/
theorem getElem?_set_dropLast {pollfds : List Pollfd} {i : Nat} (bound : i < pollfds.length)
    (back : Pollfd) (j : Nat) :
    ((pollfds.set i back).dropLast)[j]? =
      if j < pollfds.length - 1 then if j = i then some back else pollfds[j]? else none := by
  rw [List.getElem?_dropLast, List.length_set, List.getElem?_set]
  by_cases same : j = i
  · simp [same, bound]
  · simp [same, Ne.symm same]

/-- `removeChannel` on a registered channel: the last entry goes to the freed slot and its
channel is told, which changes nothing where the freed slot is the last one. -/
theorem removeChannel_eq (kept : Kept fds p) {ch : ι} (registered : p.Registered ch)
    (idle : (p.channel ch).isNoneEvent = true) :
    ∃ i pfd back moved, p.Entry ch i pfd ∧ p.pollfds.getLast? = some back ∧
      p.channels[back.key]? = some moved ∧
      (p.channel moved).index = ((p.pollfds.length - 1 : Nat) : Int) ∧
      p.removeChannel ch =
        { p with
          channel := Function.update p.channel moved ((p.channel moved).setIndex i)
          pollfds := (p.pollfds.set i back).dropLast
          channels := p.channels.erase (p.channel ch).fd } := by
  obtain ⟨-, i, pfd, entry⟩ := kept.entries _ ch registered
  have bound := (List.getElem?_eq_some_iff.mp entry.slot).1
  have found : p.channels[(p.channel ch).fd]? = some ch := registered
  obtain ⟨back, last⟩ : ∃ back, p.pollfds.getLast? = some back := by
    cases h : p.pollfds.getLast? with
    | none =>
      rw [List.getLast?_eq_none_iff.mp h] at bound
      exact absurd bound (Nat.not_lt_zero i)
    | some back => exact ⟨back, rfl⟩
  have atLast : p.pollfds[p.pollfds.length - 1]? = some back := by
    rwa [← List.getLast?_eq_getElem?]
  obtain ⟨moved, here, index⟩ := kept.slots _ back atLast
  refine ⟨i, pfd, back, moved, entry, last, here, index, ?_⟩
  by_cases freed : i = p.pollfds.length - 1
  · have same : moved = ch := kept.eq_of_index here found (by rw [index, entry.index, freed])
    subst same
    subst freed
    have stays : (p.channel moved).setIndex ((p.pollfds.length - 1 : Nat) : Int) =
        p.channel moved := by
      rw [← index]
      rfl
    have unmoved : p.pollfds.set (p.pollfds.length - 1) back = p.pollfds := by
      rw [← Option.some.inj (atLast.symm.trans (List.getElem?_eq_getElem bound)).symm]
      exact List.set_getElem_self bound
    simp [removeChannel, check_eq, found, entry.index, bound, idle, stays, unmoved]
  · have away : back.key ≠ (p.channel ch).fd :=
      ne_of_index_ne here found (by rw [index, entry.index]; omega)
    have still : (p.channels.erase (p.channel ch).fd)[back.key]? = some moved := by
      simpa [Std.TreeMap.getElem?_erase, away.symm] using here
    simp [removeChannel, check_eq, found, entry.index, bound, idle, freed, swapBack, last, still,
      PollPoller.setChannel]

/-- The channels that stay keep their entries, one of them in another slot. -/
theorem removeChannel_entry (kept : Kept fds p) {ch : ι} (registered : p.Registered ch)
    (idle : (p.channel ch).isNoneEvent = true) {a : ι} (stays : a ≠ ch)
    (member : p.Registered a) {j : Nat} {other : Pollfd} (its : p.Entry a j other) :
    ∃ k, (p.removeChannel ch).Entry a k other := by
  obtain ⟨i, pfd, back, moved, entry, last, here, index, removed⟩ :=
    removeChannel_eq kept registered idle
  have bound := (List.getElem?_eq_some_iff.mp entry.slot).1
  have inside := (List.getElem?_eq_some_iff.mp its.slot).1
  have ne : j ≠ i := by
    rintro rfl
    exact stays (kept.eq_of_index member registered (its.index.trans entry.index.symm))
  rw [removed]
  by_cases self : a = moved
  · subst self
    -- the last channel takes the freed slot
    have late : j = p.pollfds.length - 1 := by
      have := its.index.symm.trans index
      omega
    have atBack : p.pollfds[j]? = some back := by
      rw [late, ← List.getLast?_eq_getElem?]
      exact last
    have same : back = other := Option.some.inj (atBack.symm.trans its.slot)
    subst same
    refine ⟨i, by simp [Channel.setIndex], ?_, by simpa [Channel.setIndex] using its.key⟩
    rw [getElem?_set_dropLast bound, if_pos (by omega), if_pos rfl]
  · have early : j < p.pollfds.length - 1 := by
      by_contra late
      have same : (p.channel a).index = (p.channel moved).index := by
        rw [its.index, index]
        omega
      exact self (kept.eq_of_index member here same)
    refine ⟨j, by simpa [self] using its.index, ?_, by simpa [self] using its.key⟩
    rw [getElem?_set_dropLast bound, if_pos early, if_neg ne]
    exact its.slot

/-- Removal touches nothing of a channel but its slot. -/
theorem removeChannel_channel (kept : Kept fds p) {ch : ι} (registered : p.Registered ch)
    (idle : (p.channel ch).isNoneEvent = true) (a : ι) :
    ((p.removeChannel ch).channel a).fd = (p.channel a).fd ∧
      ((p.removeChannel ch).channel a).events = (p.channel a).events := by
  obtain ⟨i, pfd, back, moved, -, -, -, -, removed⟩ := removeChannel_eq kept registered idle
  rw [removed]
  by_cases self : a = moved
  · subst self
    simp [Channel.setIndex]
  · simp [self]

theorem registered_of_removeChannel (kept : Kept fds p) {ch : ι} (registered : p.Registered ch)
    (idle : (p.channel ch).isNoneEvent = true) {a : ι} {x : Int}
    (left : (p.removeChannel ch).channels[x]? = some a) : p.channels[x]? = some a ∧ a ≠ ch := by
  obtain ⟨i, pfd, back, moved, -, -, -, -, removed⟩ := removeChannel_eq kept registered idle
  rw [removed, Std.TreeMap.getElem?_erase] at left
  split at left
  · cases left
  · rename_i away
    refine ⟨left, ?_⟩
    rintro rfl
    exact away (Std.compare_eq_iff_eq.mpr ((kept.fd a).trans (kept.entries x a left).1))

theorem removeChannel_kept (kept : Kept fds p) {ch : ι} (registered : p.Registered ch)
    (idle : (p.channel ch).isNoneEvent = true) : Kept fds (p.removeChannel ch) := by
  obtain ⟨i, pfd, back, moved, entry, last, here, index, removed⟩ :=
    removeChannel_eq kept registered idle
  have bound := (List.getElem?_eq_some_iff.mp entry.slot).1
  have found : p.channels[(p.channel ch).fd]? = some ch := registered
  have channel := removeChannel_channel kept registered idle
  refine ⟨fun a => (channel a).1.trans (kept.fd a), fun a => ?_, fun j other slot => ?_,
    fun x a left => ?_, ?_, ?_⟩
  · rw [(channel a).2]
    exact kept.narrow a
  · rw [removed] at slot ⊢
    rw [getElem?_set_dropLast bound] at slot
    split at slot
    · rename_i early
      split at slot
      · rename_i same
        subst same
        cases slot
        have away : back.key ≠ (p.channel ch).fd :=
          ne_of_index_ne here found (by rw [index, entry.index]; omega)
        exact ⟨moved, by simpa [Std.TreeMap.getElem?_erase, away.symm] using here,
          by simp [Channel.setIndex]⟩
      · rename_i ne
        obtain ⟨a, its, at_j⟩ := kept.slots j other slot
        have unmoved : a ≠ moved := by
          rintro rfl
          omega
        have away : other.key ≠ (p.channel ch).fd :=
          ne_of_index_ne its found (by rw [at_j, entry.index]; omega)
        exact ⟨a, by simpa [Std.TreeMap.getElem?_erase, away.symm] using its,
          by simpa [unmoved] using at_j⟩
    · cases slot
  · obtain ⟨old, stays⟩ := registered_of_removeChannel kept registered idle left
    obtain ⟨rfl, j, other, its⟩ := kept.entries x a old
    have member : p.Registered a := by rwa [Registered, kept.fd a]
    obtain ⟨k, entry⟩ := removeChannel_entry kept registered idle stays member its
    exact ⟨rfl, k, other, entry⟩
  · have present : p.channels.contains (p.channel ch).fd = true := by
      rw [Std.TreeMap.contains_eq_isSome_getElem?, found]
      rfl
    rw [removed]
    simp [Std.TreeMap.size_erase, present, kept.size]
  · rw [removed]
    exact kept.clean

end Kept

/-! ## What a poll hands out -/

/-- What the loop over some entries leaves: the channels of the active ones in their
order, with the reported events, and nothing else changed. -/
structure Filled (p : PollPoller ι) (entries : List Pollfd) (q : PollPoller ι) (active : List ι) :
    Prop where
  pushed : active.map some = (entries.filter Pollfd.isActive).map fun pfd => p.channels[pfd.fd]?
  revents : ∀ pfd ∈ entries, pfd.isActive = true → ∀ ch, p.channels[pfd.fd]? = some ch →
    (q.channel ch).revents = pfd.revents.signExtend 32
  others : ∀ ch ∉ active, q.channel ch = p.channel ch
  unchanged : ∀ ch, q.channel ch = (p.channel ch).set_revents (q.channel ch).revents
  pollfds : q.pollfds = p.pollfds
  channels : q.channels = p.channels
  faults : q.faults = p.faults

/-- Every active entry is under its descriptor in `channels_`. -/
def Findable (p : PollPoller ι) (entries : List Pollfd) : Prop :=
  ∀ pfd ∈ entries, pfd.isActive = true →
    ∃ ch, p.channels[pfd.fd]? = some ch ∧ (p.channel ch).fd = pfd.fd

omit [DecidableEq ι] in
theorem filled_nil (p : PollPoller ι) {entries : List Pollfd}
    (quiet : entries.countP Pollfd.isActive = 0) : Filled p entries p [] where
  pushed := by
    rw [List.countP_eq_zero] at quiet
    rw [List.filter_eq_nil_iff.mpr quiet]
    rfl
  revents := fun pfd mem active => absurd active (List.countP_eq_zero.mp quiet pfd mem)
  others := fun _ _ => rfl
  unchanged := fun _ => rfl
  pollfds := rfl
  channels := rfl
  faults := rfl

theorem Findable.setChannel {p : PollPoller ι} {entries : List Pollfd} (found : p.Findable entries)
    (ch : ι) (revents : BitVec 32) :
    (p.setChannel ch fun c => c.set_revents revents).Findable entries := by
  intro pfd mem active
  obtain ⟨a, at_fd, fd⟩ := found pfd mem active
  refine ⟨a, at_fd, ?_⟩
  by_cases self : a = ch
  · subst self
    simpa [PollPoller.setChannel, Channel.set_revents] using fd
  · simpa [PollPoller.setChannel, self] using fd

omit [DecidableEq ι] in
theorem Filled.skip {p q : PollPoller ι} {pfd : Pollfd} {rest : List Pollfd} {active : List ι}
    (filled : Filled p rest q active) (quiet : ¬ pfd.isActive = true) :
    Filled p (pfd :: rest) q active where
  pushed := by rw [List.filter_cons_of_neg quiet, filled.pushed]
  revents := by
    intro other mem reported
    rcases List.mem_cons.mp mem with rfl | mem
    · exact absurd reported quiet
    · exact filled.revents other mem reported
  others := filled.others
  unchanged := filled.unchanged
  pollfds := filled.pollfds
  channels := filled.channels
  faults := filled.faults

omit [DecidableEq ι] in
theorem Filled.mem_iff {p q : PollPoller ι} {entries : List Pollfd} {active : List ι}
    (filled : Filled p entries q active) (ch : ι) :
    ch ∈ active ↔ ∃ pfd ∈ entries, pfd.isActive = true ∧ p.channels[pfd.fd]? = some ch := by
  have here : some ch ∈ active.map some ↔ ch ∈ active := by simp
  rw [← here, filled.pushed, List.mem_map]
  simp only [List.mem_filter, and_assoc]

/-- One active entry, whose channel none of the later ones is for. -/
theorem Filled.cons {p q : PollPoller ι} {pfd : Pollfd} {rest : List Pollfd} {active : List ι}
    {ch : ι} (filled : Filled (p.setChannel ch fun c => c.set_revents (pfd.revents.signExtend 32))
      rest q active)
    (at_fd : p.channels[pfd.fd]? = some ch) (here : pfd.isActive = true)
    (apart : ∀ other ∈ rest, other.isActive = true → p.channels[other.fd]? ≠ some ch) :
    Filled p (pfd :: rest) q (ch :: active) := by
  have fresh : ch ∉ active := by
    intro again
    obtain ⟨other, mem, reported, same⟩ := (filled.mem_iff ch).mp again
    exact apart other mem reported same
  have now := filled.others ch fresh
  simp only [PollPoller.setChannel, Function.update_self] at now
  refine ⟨?_, fun other mem reported a found => ?_, fun a absent => ?_, fun a => ?_,
    filled.pollfds, filled.channels, filled.faults⟩
  · rw [List.filter_cons_of_pos here, List.map_cons, List.map_cons, at_fd, filled.pushed]
    rfl
  · rcases List.mem_cons.mp mem with rfl | mem
    · rw [at_fd] at found
      cases found
      rw [now]
      rfl
    · exact filled.revents other mem reported a found
  · rw [List.mem_cons, not_or] at absent
    rw [filled.others a absent.2]
    simp [PollPoller.setChannel, absent.1]
  · have kept := filled.unchanged a
    by_cases self : a = ch
    · subst self
      rw [kept]
      simp [PollPoller.setChannel, Channel.set_revents]
    · simpa [PollPoller.setChannel, self] using kept

theorem fillActiveChannels_filled (p : PollPoller ι) {entries : List Pollfd}
    (found : p.Findable entries) (distinct : entries.Pairwise fun a b => a.key ≠ b.key) :
    Filled p entries
      (p.fillActiveChannels entries (entries.countP Pollfd.isActive : Nat)).1
      (p.fillActiveChannels entries (entries.countP Pollfd.isActive : Nat)).2 := by
  induction entries generalizing p with
  | nil => exact filled_nil p rfl
  | cons pfd rest ih =>
    obtain ⟨apart, distinct⟩ := List.pairwise_cons.mp distinct
    have later : p.Findable rest := fun other mem => found other (List.mem_cons_of_mem pfd mem)
    by_cases here : pfd.isActive = true
    · obtain ⟨ch, at_fd, fd⟩ := found pfd List.mem_cons_self here
      have nonzero : ((rest.countP Pollfd.isActive + 1 : Nat) : Int) ≠ 0 := by omega
      have fewer : ((rest.countP Pollfd.isActive + 1 : Nat) : Int) - 1 =
          (rest.countP Pollfd.isActive : Nat) := by omega
      have filled := ih (p.setChannel ch fun c => c.set_revents (pfd.revents.signExtend 32))
        (later.setChannel ch _) distinct
      simp only [fillActiveChannels, List.countP_cons_of_pos here, if_neg nonzero, if_pos here,
        at_fd, check_eq, fd, beq_self_eq_true, if_true, List.append_nil, fewer]
      refine filled.cons at_fd here fun other mem reported same => apart other mem ?_
      obtain ⟨a, its, otherFd⟩ := later other mem reported
      rw [same] at its
      cases its
      rw [Pollfd.key, Pollfd.key, ← fd, ← otherFd]
    · rw [List.countP_cons_of_neg here]
      by_cases quiet : rest.countP Pollfd.isActive = 0
      · have none : ((rest.countP Pollfd.isActive : Nat) : Int) = 0 := by omega
        simp only [fillActiveChannels, if_pos none]
        exact filled_nil p (by rwa [List.countP_cons_of_neg here])
      · have some : ((rest.countP Pollfd.isActive : Nat) : Int) ≠ 0 := by omega
        have filled := ih p later distinct
        simp only [fillActiveChannels, if_neg some, if_neg here]
        exact filled.skip here

section Polled
variable {fds : ι → Int} {p : PollPoller ι}

theorem key_report (reported : Nat → BitVec 16) (i : Nat) (pfd : Pollfd) :
    (report reported i pfd).key = pfd.key := rfl

/-- Nothing is reported for an ignored entry. -/
theorem key_of_isActive {reported : Nat → BitVec 16} {i : Nat} {pfd : Pollfd}
    (active : (report reported i pfd).isActive = true) : pfd.key = pfd.fd := by
  by_cases ignored : pfd.fd < 0
  · simp [report, ignored, Pollfd.isActive] at active
  · rw [Pollfd.key, if_neg ignored]

omit [DecidableEq ι] in
/-- The state in which `fillActiveChannels` starts. -/
theorem Kept.report (kept : Kept fds p) (reported : Nat → BitVec 16) :
    Kept fds { p with pollfds := p.pollfds.mapIdx (report reported) } := by
  refine ⟨kept.fd, kept.narrow, fun i pfd slot => ?_, fun x a found => ?_, ?_, kept.clean⟩
  · rw [List.getElem?_mapIdx] at slot
    obtain ⟨old, at_i, rfl⟩ := Option.map_eq_some_iff.mp slot
    exact kept.slots i old at_i
  · obtain ⟨key, i, pfd, entry⟩ := kept.entries x a found
    exact ⟨key, i, PollPoller.report reported i pfd, entry.index,
      by simp only [List.getElem?_mapIdx, entry.slot, Option.map_some], entry.key⟩
  · simpa using kept.size

omit [DecidableEq ι] in
theorem Kept.pairwise_key (kept : Kept fds p) : p.pollfds.Pairwise fun a b => a.key ≠ b.key := by
  rw [List.pairwise_iff_getElem]
  intro i j hi hj lt same
  obtain ⟨a, first, at_i⟩ := kept.slots i _ (List.getElem?_eq_getElem hi)
  obtain ⟨b, second, at_j⟩ := kept.slots j _ (List.getElem?_eq_getElem hj)
  exact ne_of_index_ne first second (by rw [at_i, at_j]; omega) same

omit [DecidableEq ι] in
theorem findable_report (kept : Kept fds p) (reported : Nat → BitVec 16) :
    Findable { p with pollfds := p.pollfds.mapIdx (report reported) }
      (p.pollfds.mapIdx (report reported)) := by
  intro pfd mem active
  obtain ⟨i, slot⟩ := List.mem_iff_getElem?.mp mem
  obtain ⟨ch, at_key, -⟩ := (kept.report reported).slots i pfd slot
  rw [List.getElem?_mapIdx] at slot
  obtain ⟨old, -, rfl⟩ := Option.map_eq_some_iff.mp slot
  rw [key_report, key_of_isActive active] at at_key
  exact ⟨ch, at_key, (kept.fd ch).trans (kept.entries _ ch at_key).1⟩

theorem poll_filled (kept : Kept fds p) (reported : Nat → BitVec 16) :
    Filled { p with pollfds := p.pollfds.mapIdx (report reported) }
      (p.pollfds.mapIdx (report reported)) (p.poll reported).1 (p.poll reported).2 := by
  rw [poll]
  split
  · exact fillActiveChannels_filled _ (findable_report kept reported)
      (kept.report reported).pairwise_key
  · rename_i quiet
    exact filled_nil _ (Nat.eq_zero_of_not_pos quiet)

/-- The registered channels that `poll` pushes are the ones behind the active entries. -/
theorem mem_poll_iff (kept : Kept fds p) (reported : Nat → BitVec 16) (ch : ι) :
    ch ∈ (p.poll reported).2 ↔ p.Registered ch ∧
      ∃ i pfd, p.Entry ch i pfd ∧ (report reported i pfd).isActive = true := by
  have filled := poll_filled kept reported
  rw [filled.mem_iff]
  constructor
  · rintro ⟨pfd, mem, active, at_fd⟩
    obtain ⟨i, slot⟩ := List.mem_iff_getElem?.mp mem
    rw [List.getElem?_mapIdx] at slot
    obtain ⟨old, at_i, rfl⟩ := Option.map_eq_some_iff.mp slot
    obtain ⟨key, j, other, entry⟩ := kept.entries _ ch at_fd
    have registered : p.Registered ch := by
      rw [Registered, kept.fd ch, key]
      exact at_fd
    obtain ⟨a, at_key, index⟩ := kept.slots i old at_i
    rw [key_of_isActive active] at at_key
    have same : ch = a := Option.some.inj (at_fd.symm.trans at_key)
    subst same
    exact ⟨registered, i, old, ⟨index, at_i, (key_of_isActive active).trans (key.symm.trans
      (kept.fd ch).symm)⟩, active⟩
  · rintro ⟨registered, i, pfd, entry, active⟩
    refine ⟨report reported i pfd, List.mem_of_getElem? (i := i) ?_, active, ?_⟩
    · simp only [List.getElem?_mapIdx, entry.slot, Option.map_some]
    · have at_fd : p.channels[(p.channel ch).fd]? = some ch := registered
      rwa [← entry.key, key_of_isActive active] at at_fd

theorem nodup_poll (kept : Kept fds p) (reported : Nat → BitVec 16) :
    (p.poll reported).2.Nodup := by
  have kept' := kept.report reported
  apply List.Nodup.of_map some
  rw [(poll_filled kept reported).pushed, List.Nodup, List.pairwise_map]
  refine (kept'.pairwise_key.filter _).imp_of_mem fun {a b} ha hb apart same => apart ?_
  obtain ⟨ma, activeA⟩ := List.mem_filter.mp ha
  obtain ⟨mb, activeB⟩ := List.mem_filter.mp hb
  obtain ⟨x, at_a, fdA⟩ := findable_report kept reported a ma activeA
  obtain ⟨y, at_b, fdB⟩ := findable_report kept reported b mb activeB
  have one : x = y := Option.some.inj (at_a.symm.trans (same.trans at_b))
  subst one
  rw [Pollfd.key, Pollfd.key, ← fdA, ← fdB]

theorem poll_kept (kept : Kept fds p) (reported : Nat → BitVec 16) :
    Kept fds (p.poll reported).1 := by
  have filled := poll_filled kept reported
  have kept' := kept.report reported
  have channel (ch : ι) : ((p.poll reported).1.channel ch).fd = (p.channel ch).fd ∧
      ((p.poll reported).1.channel ch).events = (p.channel ch).events ∧
      ((p.poll reported).1.channel ch).index = (p.channel ch).index := by
    rw [filled.unchanged ch]
    exact ⟨rfl, rfl, rfl⟩
  refine ⟨fun ch => (channel ch).1.trans (kept.fd ch), fun ch => ?_, fun i pfd slot => ?_,
    fun x a found => ?_, ?_, filled.faults.trans kept.clean⟩
  · rw [(channel ch).2.1]
    exact kept.narrow ch
  · rw [filled.pollfds] at slot
    rw [filled.channels]
    obtain ⟨a, found, index⟩ := kept'.slots i pfd slot
    exact ⟨a, found, (channel a).2.2.trans index⟩
  · rw [filled.channels] at found
    obtain ⟨key, i, pfd, entry⟩ := kept'.entries x a found
    refine ⟨key, i, pfd, (channel a).2.2.trans entry.index, ?_, entry.key.trans (channel a).1.symm⟩
    rw [filled.pollfds]
    exact entry.slot
  · rw [filled.channels, filled.pollfds]
    exact kept'.size

end Polled

theorem updateChannel_kept {fds : ι → Int} {p : PollPoller ι} (kept : Kept fds p) {ch : ι}
    (nonneg : 0 ≤ fds ch) (usable : p.Fresh ch ∨ p.Registered ch) :
    Kept fds (p.updateChannel ch) := by
  rcases usable with fresh | registered
  · exact updateChannel_kept_fresh kept nonneg fresh
  · exact updateChannel_kept_registered kept nonneg registered

/-- A change of a channel that leaves its descriptor and its slot alone leaves it fresh
or registered. -/
theorem usable_setChannel {p : PollPoller ι} {ch : ι} (usable : p.Fresh ch ∨ p.Registered ch)
    {f : Channel → Channel} (fd : (f (p.channel ch)).fd = (p.channel ch).fd)
    (index : (f (p.channel ch)).index = (p.channel ch).index) :
    (p.setChannel ch f).Fresh ch ∨ (p.setChannel ch f).Registered ch := by
  simpa [Fresh, Registered, setChannel, fd, index] using usable

theorem step_kept {fds : ι → Int} (nonneg : ∀ ch, 0 ≤ fds ch) {p q : PollPoller ι}
    (kept : Kept fds p) {a : Act ι} (next : p.step a = some q) : Kept fds q := by
  cases a with
  | call ch call =>
    obtain ⟨usable, ⟨⟩⟩ := Option.ite_none_right_eq_some.mp next
    have fd := Channel.apply_fd (p.channel ch) call
    have index := Channel.apply_index (p.channel ch) call
    exact updateChannel_kept (kept.setChannel ch fd index (narrow_apply (kept.narrow ch) call))
      (nonneg ch) (usable_setChannel usable fd index)
  | update ch =>
    obtain ⟨usable, ⟨⟩⟩ := Option.ite_none_right_eq_some.mp next
    exact updateChannel_kept kept (nonneg ch) usable
  | remove ch =>
    obtain ⟨⟨registered, idle⟩, ⟨⟩⟩ := Option.ite_none_right_eq_some.mp next
    exact removeChannel_kept (kept.setChannel ch rfl rfl (kept.narrow ch))
      (by simpa [Registered, setChannel, Channel.remove] using registered)
      (by simpa [setChannel, Channel.isNoneEvent, Channel.remove] using idle)
  | poll reported =>
    cases next
    exact poll_kept kept reported

end PollPoller

end Arale
