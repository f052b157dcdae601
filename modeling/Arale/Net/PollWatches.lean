import Arale.Net.PollPoller

/-!
# What the poll poller keeps and what it watches

The slots, the map and the descriptors of `PollPoller` stay in step through every run,
so a poll always hands out the right channels. Whether an entry is live is another
matter: `updateChannel` turns the descriptor of an entry that is to be ignored to
`-fd - 1` and nothing ever turns it back.
-/

namespace PollBookkeeping

open Arale Schedules PollPoller

universe u

variable {ι : Type u} [DecidableEq ι]

/-- After the kernel has reported, exactly the channels of the active entries are handed
out, each once and with what was reported for it, and every one of them is found. -/
structure HandsOut (p : PollPoller ι) (reported : Nat → BitVec 16) : Prop where
  mem_iff : ∀ ch, ch ∈ (p.poll reported).2 ↔ p.Registered ch ∧
    ∃ pfd, (p.pollfds.mapIdx (report reported))[(p.channel ch).index.toNat]? = some pfd ∧
      0 < pfd.revents.toInt
  nodup : (p.poll reported).2.Nodup
  revents : ∀ ch ∈ (p.poll reported).2, ∀ pfd,
    (p.pollfds.mapIdx (report reported))[(p.channel ch).index.toNat]? = some pfd →
      ((p.poll reported).1.channel ch).revents = pfd.revents.signExtend 32
  found : (p.poll reported).1.faults = []

structure Bookkept (p : PollPoller ι) : Prop where
  size : p.pollfds.length = p.channels.size
  range : ∀ ch, p.Registered ch →
    0 ≤ (p.channel ch).index ∧ (p.channel ch).index < p.pollfds.length
  distinct : ∀ a b, p.Registered a → p.Registered b →
    (p.channel a).index = (p.channel b).index → a = b
  fd : ∀ ch, p.Registered ch → ∃ pfd, p.pollfds[(p.channel ch).index.toNat]? = some pfd ∧
    (pfd.fd = (p.channel ch).fd ∨ pfd.fd = -(p.channel ch).fd - 1)
  active : ∀ reported, HandsOut p reported
  noFault : p.faults = []

section Kept
variable {fds : ι → Int} {p : PollPoller ι}

theorem handsOut_of_kept (kept : Kept fds p) (reported : Nat → BitVec 16) :
    HandsOut p reported := by
  have filled := poll_filled kept reported
  refine ⟨fun ch => ?_, nodup_poll kept reported, fun ch mem pfd slot => ?_,
    filled.faults.trans kept.clean⟩
  · rw [mem_poll_iff kept]
    constructor
    · rintro ⟨registered, i, pfd, entry, active⟩
      refine ⟨registered, report reported i pfd, ?_, of_decide_eq_true active⟩
      simp [entry.index, entry.slot]
    · rintro ⟨registered, pfd, slot, active⟩
      obtain ⟨-, i, old, entry⟩ := kept.entries _ ch registered
      refine ⟨registered, i, old, entry, ?_⟩
      simp only [entry.index, Int.toNat_natCast, List.getElem?_mapIdx, entry.slot,
        Option.map_some, Option.some.injEq] at slot
      subst slot
      exact decide_eq_true active
  · obtain ⟨registered, i, old, entry, active⟩ := (mem_poll_iff kept reported ch).mp mem
    simp only [entry.index, Int.toNat_natCast, List.getElem?_mapIdx, entry.slot,
      Option.map_some, Option.some.injEq] at slot
    subst slot
    refine filled.revents _ (List.mem_of_getElem? (i := i) ?_) active ch ?_
    · simp [entry.slot]
    · have at_fd : p.channels[(p.channel ch).fd]? = some ch := registered
      rwa [← entry.key, key_of_isActive active] at at_fd

theorem bookkept_of_kept (kept : Kept fds p) : Bookkept p := by
  refine ⟨kept.size.symm, fun ch registered => ?_, fun a b ha hb => kept.eq_of_index ha hb,
    fun ch registered => ?_, handsOut_of_kept kept, kept.clean⟩
  · obtain ⟨-, i, pfd, entry⟩ := kept.entries _ ch registered
    have bound := (List.getElem?_eq_some_iff.mp entry.slot).1
    rw [entry.index]
    omega
  · obtain ⟨-, i, pfd, entry⟩ := kept.entries _ ch registered
    refine ⟨pfd, by simpa [entry.index] using entry.slot, ?_⟩
    rw [← entry.key]
    exact fd_of_key pfd

end Kept

/-- Through every run of calls, updates, removals and polls on channels with non-negative
descriptors the books are in order after each of them. -/
theorem bookkeeping_kept (fds : ι → Int) (nonneg : ∀ ch, 0 ≤ fds ch) (actions : List (Act ι)) :
    Throughout step Bookkept (new fds) actions :=
  throughout_of_along (P := fun _ _ => True)
    (fun _ _ _ kept _ next => step_kept nonneg kept next) (fun _ => bookkept_of_kept)
    (new_kept fds) (along_true _ actions)

/-- Two channels; the first leaves and the second takes its slot while it is ignored. -/
theorem two_channels_bookkept :
    (∀ ch : Bool, 0 ≤ (if ch then (5 : Int) else 6)) ∧
      Throughout step Bookkept (new fun ch : Bool => if ch then 5 else 6)
        [.call true .enableRead, .call false .enableWrite, .call true .disableAll,
          .call false .disableAll, .remove true, .poll fun _ => 1, .call false .enableRead] := by
  have nonneg : ∀ ch : Bool, 0 ≤ (if ch then (5 : Int) else 6) := by decide
  exact ⟨nonneg, bookkeeping_kept _ nonneg _⟩

end PollBookkeeping

namespace PollInterest

open Arale Schedules PollPoller

universe u

variable {ι : Type u} [DecidableEq ι]

/-- The entry a channel points at. -/
def entryOf (p : PollPoller ι) (ch : ι) : Option Pollfd := p.pollfds[(p.channel ch).index.toNat]?

/-- The entry is live for what the channel asks for, and ignored if that is nothing. -/
def Exact (c : Channel) (pfd : Pollfd) : Prop :=
  if c.isNoneEvent = true then pfd.fd < 0
  else pfd.fd = c.fd ∧ pfd.events.signExtend 32 = c.events

/-- Every registered channel has its exact entry, and poll watches the descriptors and
events the registered channels ask for. -/
structure Watches (p : PollPoller ι) : Prop where
  entry : ∀ ch, p.Registered ch → ∃ pfd, entryOf p ch = some pfd ∧ Exact (p.channel ch) pfd
  watched : ∀ fd e,
    (∃ pfd ∈ p.pollfds, 0 ≤ pfd.fd ∧ pfd.fd = fd ∧ pfd.events.signExtend 32 = e) ↔
      ∃ ch, p.Registered ch ∧ (p.channel ch).fd = fd ∧ (p.channel ch).events = e ∧ e ≠ kNoneEvent

/-- A channel is first seen with an event enabled, and one that has none enabled while it
is registered gets none. -/
def EnablesFirst (p : PollPoller ι) : Act ι → Prop
  | .call ch call =>
    (p.Fresh ch → ((p.channel ch).apply call).isNoneEvent = false) ∧
    (p.Registered ch → (p.channel ch).isNoneEvent = true →
      ((p.channel ch).apply call).isNoneEvent = true)
  | .update ch => p.Fresh ch → (p.channel ch).isNoneEvent = false
  | .remove _ => True
  | .poll _ => True

section Kept
variable {fds : ι → Int} {p : PollPoller ι}

omit [DecidableEq ι] in
theorem entryOf_eq {ch : ι} {i : Nat} {pfd : Pollfd} (entry : p.Entry ch i pfd) :
    entryOf p ch = some pfd := by
  simpa [entryOf, entry.index] using entry.slot

omit [DecidableEq ι] in
theorem entryOf_some (kept : Kept fds p) {ch : ι} (registered : p.Registered ch) :
    ∃ i pfd, p.Entry ch i pfd ∧ entryOf p ch = some pfd := by
  obtain ⟨-, i, pfd, entry⟩ := kept.entries _ ch registered
  exact ⟨i, pfd, entry, entryOf_eq entry⟩

/-- Three bits survive the way through a `short`. -/
theorem signExtend_of_narrow {mask : BitVec 32} (narrow : Narrow mask) :
    (mask.setWidth 16).signExtend 32 = mask := by
  have small : mask.toNat < 8 := by
    rw [← narrow, BitVec.toNat_and]
    exact Nat.lt_of_le_of_lt Nat.and_le_right (by decide)
  have all : ∀ n < 8, ((BitVec.ofNat 32 n).setWidth 16).signExtend 32 = BitVec.ofNat 32 n := by
    decide
  simpa using all mask.toNat small

/-- Every registered channel but one has its exact entry. -/
def ExactBut (p : PollPoller ι) (ch : ι) : Prop :=
  ∀ a ≠ ch, p.Registered a → ∃ pfd, entryOf p a = some pfd ∧ Exact (p.channel a) pfd

def ExactAll (p : PollPoller ι) : Prop :=
  ∀ ch, p.Registered ch → ∃ pfd, entryOf p ch = some pfd ∧ Exact (p.channel ch) pfd

omit [DecidableEq ι] in
/-- Exact entries watch the right descriptors. -/
theorem watches_iff (kept : Kept fds p) (nonneg : ∀ ch, 0 ≤ fds ch) :
    Watches p ↔ ExactAll p := by
  refine ⟨fun watches => watches.entry, fun exactly => ⟨exactly, fun fd e => ⟨?_, ?_⟩⟩⟩
  · rintro ⟨pfd, mem, live, rfl, rfl⟩
    obtain ⟨i, slot⟩ := List.mem_iff_getElem?.mp mem
    obtain ⟨ch, at_key, index⟩ := kept.slots i pfd slot
    have registered : p.Registered ch := by
      rw [Registered, kept.fd ch, (kept.entries _ ch at_key).1]
      exact at_key
    obtain ⟨its, entry, fits⟩ := exactly ch registered
    have same : its = pfd := by
      rw [entryOf, index, Int.toNat_natCast, slot] at entry
      exact (Option.some.inj entry).symm
    subst same
    rw [Exact] at fits
    split at fits
    · omega
    · rename_i asks
      refine ⟨ch, registered, fits.1.symm, fits.2.symm, fun none => asks ?_⟩
      rw [Channel.isNoneEvent, ← fits.2, none]
      rfl
  · rintro ⟨ch, registered, rfl, rfl, asks⟩
    obtain ⟨pfd, entry, fits⟩ := exactly ch registered
    have busy : ¬ (p.channel ch).isNoneEvent = true := fun none => asks (eq_of_beq none)
    rw [Exact, if_neg busy] at fits
    refine ⟨pfd, List.mem_of_getElem? entry, ?_, fits.1, fits.2⟩
    rw [fits.1, kept.fd ch]
    exact nonneg ch

omit [DecidableEq ι] in
theorem ExactAll.but (all : ExactAll p) (ch : ι) : ExactBut p ch :=
  fun a _ registered => all a registered

theorem ExactBut.setChannel {ch : ι} (others : ExactBut p ch) (f : Channel → Channel) :
    ExactBut (p.setChannel ch f) ch := by
  intro a ne registered
  have same : (p.setChannel ch f).channel a = p.channel a := by
    simp [PollPoller.setChannel, ne]
  rw [Registered, same] at registered
  rw [entryOf, same]
  exact others a ne registered

/-- A first update leaves an exact entry if it comes with an event enabled. -/
theorem exactAll_fresh_iff (kept : Kept fds p) {ch : ι} (nonneg : 0 ≤ fds ch)
    (fresh : p.Fresh ch) (others : ExactBut p ch) :
    ExactAll (p.updateChannel ch) ↔ (p.channel ch).isNoneEvent = false := by
  have entry : entryOf (p.updateChannel ch) ch =
      some ⟨(p.channel ch).fd, (p.channel ch).events.setWidth 16, 0⟩ := by
    rw [updateChannel_fresh fresh]
    simp [entryOf, Channel.setIndex]
  have channel : (p.updateChannel ch).channel ch =
      (p.channel ch).setIndex p.pollfds.length := by
    rw [updateChannel_fresh fresh]
    simp
  have registered : (p.updateChannel ch).Registered ch := by
    rw [updateChannel_fresh fresh]
    simp [Registered, Channel.setIndex]
  constructor
  · intro all
    obtain ⟨pfd, its, fits⟩ := all ch registered
    rw [entry] at its
    cases its
    rw [channel, Exact] at fits
    split at fits
    · rw [kept.fd ch] at fits
      exact absurd fits (Int.not_lt.mpr nonneg)
    · rename_i asks
      exact Bool.eq_false_iff.mpr asks
  · intro asks a member
    by_cases self : a = ch
    · subst self
      refine ⟨_, entry, ?_⟩
      rw [channel, Exact, if_neg (by simpa [Channel.isNoneEvent, Channel.setIndex] using asks)]
      exact ⟨rfl, signExtend_of_narrow (kept.narrow a)⟩
    · have same : (p.updateChannel ch).channel a = p.channel a := by
        rw [updateChannel_fresh fresh]
        simp [self]
      have old : p.Registered a := by
        rw [Registered, same, updateChannel_fresh fresh, Std.TreeMap.getElem?_insert] at member
        split at member
        · exact absurd (Option.some.inj member).symm self
        · exact member
      obtain ⟨pfd, its, fits⟩ := others a self old
      refine ⟨pfd, ?_, by rwa [same]⟩
      rw [entryOf, same, updateChannel_fresh fresh]
      exact (List.getElem?_append_left (List.getElem?_eq_some_iff.mp its).1).trans its

/-- A later update leaves an exact entry if no event is enabled or the entry is live. -/
theorem exactAll_registered_iff (kept : Kept fds p) {ch : ι} (nonneg : 0 ≤ fds ch)
    (registered : p.Registered ch) {i : Nat} {pfd : Pollfd} (entry : p.Entry ch i pfd)
    (others : ExactBut p ch) :
    ExactAll (p.updateChannel ch) ↔
      ((p.channel ch).isNoneEvent = false → pfd.fd = (p.channel ch).fd) := by
  have updated := updateChannel_registered registered entry
  have bound := (List.getElem?_eq_some_iff.mp entry.slot).1
  have its : entryOf (p.updateChannel ch) ch = some (refresh pfd (p.channel ch)) := by
    rw [updated]
    simp [entryOf, entry.index, bound]
  have channel : (p.updateChannel ch).channel = p.channel := by rw [updated]
  have fits : Exact (p.channel ch) (refresh pfd (p.channel ch)) ↔
      ((p.channel ch).isNoneEvent = false → pfd.fd = (p.channel ch).fd) := by
    by_cases idle : (p.channel ch).isNoneEvent = true
    · have ignored : -(p.channel ch).fd - 1 < 0 := by
        rw [kept.fd ch]
        omega
      simp [Exact, refresh, idle, ignored]
    · simp [Exact, refresh, idle, signExtend_of_narrow (kept.narrow ch)]
  constructor
  · intro all
    obtain ⟨left, same, exactly⟩ := all ch (by rw [updated]; exact registered)
    rw [its] at same
    cases same
    rw [channel] at exactly
    exact fits.mp exactly
  · intro live a member
    rw [channel]
    by_cases self : a = ch
    · subst self
      exact ⟨_, its, fits.mpr live⟩
    · have old : p.Registered a := by
        rw [updated] at member
        exact member
      obtain ⟨other, at_a, exactly⟩ := others a self old
      obtain ⟨-, j, _, entryA⟩ := kept.entries _ a old
      have apart : i ≠ j := by
        rintro rfl
        exact self (kept.eq_of_index old registered (entryA.index.trans entry.index.symm))
      refine ⟨other, ?_, exactly⟩
      rw [entryOf, channel, updated, ← at_a, entryOf, entryA.index]
      exact List.getElem?_set_ne (by simpa using apart)

/-- Removal moves an entry with its channel. -/
theorem exactAll_remove (kept : Kept fds p) {ch : ι} (registered : p.Registered ch)
    (idle : (p.channel ch).isNoneEvent = true) (others : ExactBut p ch) :
    ExactAll (p.removeChannel ch) := by
  intro a member
  obtain ⟨fd, events⟩ := removeChannel_channel kept registered idle a
  obtain ⟨old, stays⟩ := registered_of_removeChannel kept registered idle member
  rw [fd] at old
  obtain ⟨i, pfd, entry, its⟩ := entryOf_some kept old
  obtain ⟨other, same, fits⟩ := others a stays old
  rw [its] at same
  cases same
  obtain ⟨k, moved⟩ := removeChannel_entry kept registered idle stays old entry
  refine ⟨pfd, entryOf_eq moved, ?_⟩
  simpa [Exact, Channel.isNoneEvent, events, fd] using fits

/-- A poll changes what was reported and nothing else of an entry. -/
theorem exactAll_poll (kept : Kept fds p) (reported : Nat → BitVec 16) (all : ExactAll p) :
    ExactAll (p.poll reported).1 := by
  have filled := poll_filled kept reported
  intro a member
  have fd : ((p.poll reported).1.channel a).fd = (p.channel a).fd := by
    rw [filled.unchanged a]
    rfl
  have index : ((p.poll reported).1.channel a).index = (p.channel a).index := by
    rw [filled.unchanged a]
    rfl
  have events : ((p.poll reported).1.channel a).events = (p.channel a).events := by
    rw [filled.unchanged a]
    rfl
  rw [Registered, filled.channels, fd] at member
  obtain ⟨pfd, its, fits⟩ := all a member
  refine ⟨report reported (p.channel a).index.toNat pfd, ?_, ?_⟩
  · rw [entryOf, filled.pollfds, index, List.getElem?_mapIdx]
    rw [entryOf] at its
    rw [its]
    rfl
  · simpa [Exact, Channel.isNoneEvent, events, fd, report] using fits

omit [DecidableEq ι] in
theorem not_registered_of_fresh {ch : ι} (fresh : p.Fresh ch) : ¬ p.Registered ch := by
  intro registered
  rw [Registered, fresh.2] at registered
  cases registered

omit [DecidableEq ι] in
/-- An exact entry is live if the channel asks for something. -/
theorem exact_fd_iff {c : Channel} (nonneg : 0 ≤ c.fd) {pfd : Pollfd} (fits : Exact c pfd) :
    pfd.fd = c.fd ↔ c.isNoneEvent = false := by
  rw [Exact] at fits
  split at fits
  · rename_i idle
    simp only [idle, Bool.true_eq_false, iff_false]
    omega
  · rename_i asks
    simpa [Bool.eq_false_iff.mpr asks] using fits.1

/-- A call on a channel, by what it makes of the mask. -/
theorem exactAll_touch_iff (kept : Kept fds p) (nonneg : ∀ ch, 0 ≤ fds ch) (all : ExactAll p)
    {ch : ι} (usable : p.Fresh ch ∨ p.Registered ch) {f : Channel → Channel}
    (fd : (f (p.channel ch)).fd = (p.channel ch).fd)
    (index : (f (p.channel ch)).index = (p.channel ch).index)
    (narrow : Narrow (f (p.channel ch)).events) :
    ExactAll ((p.setChannel ch f).updateChannel ch) ↔
      (p.Fresh ch → (f (p.channel ch)).isNoneEvent = false) ∧
      (p.Registered ch → (p.channel ch).isNoneEvent = true →
        (f (p.channel ch)).isNoneEvent = true) := by
  have kept' := kept.setChannel ch fd index narrow
  have others := (all.but ch).setChannel f
  have now : (p.setChannel ch f).channel ch = f (p.channel ch) := by
    simp [PollPoller.setChannel]
  rcases usable with fresh | registered
  · have fresh' : (p.setChannel ch f).Fresh ch := by
      simpa [Fresh, PollPoller.setChannel, fd, index] using fresh
    rw [exactAll_fresh_iff kept' (nonneg ch) fresh' others, now]
    simp [fresh, not_registered_of_fresh fresh]
  · have registered' : (p.setChannel ch f).Registered ch := by
      simpa [Registered, PollPoller.setChannel, fd] using registered
    obtain ⟨i, pfd, entry, its⟩ := entryOf_some kept' registered'
    have same : entryOf p ch = some pfd := by
      simpa [entryOf, now, index, PollPoller.setChannel] using its
    obtain ⟨other, here, fits⟩ := all ch registered
    rw [same] at here
    cases here
    have live := exact_fd_iff (by rw [kept.fd ch]; exact nonneg ch) fits
    rw [exactAll_registered_iff kept' (nonneg ch) registered' entry others, now, fd, live]
    simp only [registered, true_implies, Bool.eq_false_iff, not_imp_not]
    refine ⟨fun h => ⟨fun fresh => absurd registered (not_registered_of_fresh fresh), h⟩,
      fun h => h.2⟩

theorem step_exactAll_iff (nonneg : ∀ ch, 0 ≤ fds ch) (all : ExactAll p) (kept : Kept fds p)
    (a : Act ι) : (∀ q, p.step a = some q → ExactAll q) ↔ EnablesFirst p a := by
  cases a with
  | call ch call =>
    have touch (usable : p.Fresh ch ∨ p.Registered ch) := exactAll_touch_iff kept nonneg all usable
      (f := fun c => c.apply call) (Channel.apply_fd _ call) (Channel.apply_index _ call)
      (narrow_apply (kept.narrow ch) call)
    constructor
    · intro after
      refine ⟨fun fresh => ?_, fun registered => ?_⟩
      · exact ((touch (.inl fresh)).mp (after _ (if_pos (.inl fresh)))).1 fresh
      · exact ((touch (.inr registered)).mp (after _ (if_pos (.inr registered)))).2 registered
    · intro first q next
      obtain ⟨usable, ⟨⟩⟩ := Option.ite_none_right_eq_some.mp next
      exact (touch usable).mpr first
  | update ch =>
    have touch (usable : p.Fresh ch ∨ p.Registered ch) := exactAll_touch_iff kept nonneg all usable
      (f := id) rfl rfl (kept.narrow ch)
    have same : p.setChannel ch id = p := by simp [PollPoller.setChannel]
    rw [same] at touch
    constructor
    · intro after fresh
      exact ((touch (.inl fresh)).mp (after _ (if_pos (.inl fresh)))).1 fresh
    · intro first q next
      obtain ⟨usable, ⟨⟩⟩ := Option.ite_none_right_eq_some.mp next
      exact (touch usable).mpr ⟨first, fun _ idle => idle⟩
  | remove ch =>
    refine ⟨fun _ => trivial, fun _ q next => ?_⟩
    obtain ⟨⟨registered, idle⟩, ⟨⟩⟩ := Option.ite_none_right_eq_some.mp next
    exact exactAll_remove (kept.setChannel ch rfl rfl (kept.narrow ch))
      (by simpa [Registered, PollPoller.setChannel, Channel.remove] using registered)
      (by simpa [PollPoller.setChannel, Channel.isNoneEvent, Channel.remove] using idle)
      ((all.but ch).setChannel _)
  | poll reported =>
    refine ⟨fun _ => trivial, ?_⟩
    rintro - q ⟨⟩
    exact exactAll_poll kept reported all

end Kept

/-- Along every run on channels with non-negative descriptors, poll watches what the
channels ask for after each call exactly when every channel is first seen with an event
enabled and is never given one again after it had none. -/
theorem poll_watches_iff (fds : ι → Int) (nonneg : ∀ ch, 0 ≤ fds ch) (actions : List (Act ι)) :
    Throughout step Watches (new fds) actions ↔ Along step EnablesFirst (new fds) actions := by
  refine throughout_iff_along (J := Kept fds) (R := fun _ _ => True)
    (fun p a watches kept _ => ?_) (fun _ _ _ kept _ next => step_kept nonneg kept next)
    ((watches_iff (new_kept fds) nonneg).mpr ?_) (new_kept fds) (along_true _ actions)
  · rw [← step_exactAll_iff nonneg ((watches_iff kept nonneg).mp watches) kept a]
    exact forall₂_congr fun q next => watches_iff (step_kept nonneg kept next) nonneg
  · intro ch registered
    cases registered

/-- Two channels that are enabled, disabled and removed once each. -/
theorem two_channels_poll_watches_iff :
    (∀ ch : Bool, 0 ≤ (if ch then (5 : Int) else 6)) ∧
      (Throughout step Watches (new fun ch : Bool => if ch then 5 else 6)
          [.call true .enableRead, .call false .enableWrite, .call true .disableAll,
            .remove true, .call false .disableAll, .remove false] ↔
        Along step EnablesFirst (new fun ch : Bool => if ch then 5 else 6)
          [.call true .enableRead, .call false .enableWrite, .call true .disableAll,
            .remove true, .call false .disableAll, .remove false]) := by
  have nonneg : ∀ ch : Bool, 0 ≤ (if ch then (5 : Int) else 6) := by decide
  exact ⟨nonneg, poll_watches_iff _ nonneg _⟩

/-- A channel that is enabled again after `disableAll` is not watched. -/
theorem enabled_again_not_watched :
    (∀ _ : Unit, (0 : Int) ≤ 5) ∧
      ¬ Throughout step Watches (new fun _ : Unit => 5)
        [.call () .enableRead, .call () .disableAll, .call () .enableRead] := by
  refine ⟨fun _ => by decide, ?_⟩
  rintro ⟨-, first⟩
  obtain ⟨-, second⟩ := first _ rfl
  obtain ⟨-, third⟩ := second _ rfl
  obtain ⟨pfd, its, fits⟩ := (third _ rfl : Watches _).entry () (by decide)
  cases its
  revert fits
  rw [Exact]
  decide

end PollInterest
