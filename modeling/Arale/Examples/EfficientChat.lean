import Mathlib.Data.List.Sort
import Arale.Lib.CopyOnWrite
import Arale.Lib.Schedules

/-!
# The chat server with a shared list of connections

`ChatServerThreadedEfficient.cc`: the threads share one list. A message is sent along the list
that its thread has found, outside the mutex, while other threads add and remove connections.
In whatever way the threads interleave, each message goes to those who were in the list when it
took the mutex, to each of them once, and to nobody else.
-/

namespace Arale

open CopyOnWrite Schedules

namespace EfficientChat

/-- What a thread is in the middle of. -/
inductive Activity where
  | idle
  /-- `onConnection`, `mutex_` is taken -/
  | connection (conn : Nat) (isConnected : Bool)
  /-- `connections_` is unique -/
  | owned (conn : Nat) (isConnected : Bool)
  /-- the list has been changed -/
  | changed
  /-- `onMessage`, `mutex_` is taken -/
  | message (msg : List UInt8)
  /-- the pointer has been copied -/
  | copied (broadcast : Nat)
  /-- the loop, outside the critical section, with the position of its iterator -/
  | sending (broadcast next : Nat)
  deriving DecidableEq, Repr

/-- The thread is in a critical section. -/
def Activity.critical : Activity → Bool
  | .idle | .sending _ _ => false
  | _ => true

/-- The broadcast of a thread and how far it is. -/
def Activity.broadcast : Activity → Option (Nat × Nat)
  | .copied b => some (b, 0)
  | .sending b next => some (b, next)
  | _ => none

/-- History of a call of `onMessage`: those who were in the list when it was found, and those
to whom the message has been sent. -/
structure Broadcast where
  msg : List UInt8
  members : List Nat
  sent : List Nat
  deriving DecidableEq, Repr

/-- The server with `n` threads; `cell` is `connections_`. `present` is the list as it would be
without pointers: it is changed and looked at in one step. -/
structure ChatServer (n : Nat) where
  cell : Cell (Fin n) (List Nat)
  mutex : Option (Fin n)
  activity : Fin n → Activity
  present : List Nat
  broadcasts : List Broadcast

variable {n : Nat}

def start (n : Nat) : ChatServer n := ⟨.new [], none, fun _ => .idle, [], []⟩

instance (c : Cell (Fin n) (List Nat)) : Decidable c.Unique :=
  inferInstanceAs (Decidable (∀ t, c.held t ≠ some c.current))

/-- `insert` and `erase` of a set, which is kept in order. -/
def change (conn : Nat) (isConnected : Bool) (list : List Nat) : List Nat :=
  if isConnected then
    if conn ∈ list then list else list.orderedInsert (· ≤ ·) conn
  else list.erase conn

inductive Act (n : Nat) where
  /-- `onConnection` takes `mutex_` -/
  | lockConnection (t : Fin n) (conn : Nat) (isConnected : Bool)
  /-- the test of `unique()`, and the copy -/
  | makeUnique (t : Fin n)
  | changeList (t : Fin n)
  /-- `onMessage` takes `mutex_` -/
  | lockMessage (t : Fin n) (msg : List UInt8)
  | copyPointer (t : Fin n)
  | unlock (t : Fin n)
  /-- one round of the loop in `onMessage`; at its end the pointer goes -/
  | send (t : Fin n)

def ChatServer.become (s : ChatServer n) (t : Fin n) (a : Activity) : ChatServer n :=
  { s with activity := Function.update s.activity t a }

def step (s : ChatServer n) : Act n → Option (ChatServer n)
  | .lockConnection t conn isConnected =>
    if s.mutex = none ∧ s.activity t = .idle then
      some ({ s with mutex := some t }.become t (.connection conn isConnected))
    else none
  | .makeUnique t =>
    match s.activity t with
    | .connection conn isConnected =>
      some ({ s with cell := if s.cell.Unique then s.cell else s.cell.copy }.become t
        (.owned conn isConnected))
    | _ => none
  | .changeList t =>
    match s.activity t with
    | .owned conn isConnected =>
      some ({ s with
        cell := s.cell.modify (change conn isConnected)
        present := change conn isConnected s.present }.become t .changed)
    | _ => none
  | .lockMessage t msg =>
    if s.mutex = none ∧ s.activity t = .idle then
      some ({ s with mutex := some t }.become t (.message msg))
    else none
  | .copyPointer t =>
    match s.activity t with
    | .message msg =>
      some ({ s with
        cell := s.cell.acquire t
        broadcasts := s.broadcasts ++ [(⟨msg, s.present, []⟩ : Broadcast)] }.become t
          (.copied s.broadcasts.length))
    | _ => none
  | .unlock t =>
    match s.activity t with
    | .changed => some ({ s with mutex := none }.become t .idle)
    | .copied b => some ({ s with mutex := none }.become t (.sending b 0))
    | _ => none
  | .send t =>
    match s.activity t, s.cell.seen t with
    | .sending b next, some list =>
      match list[next]? with
      | some conn =>
        some ({ s with
          broadcasts := s.broadcasts.modify b fun x => { x with sent := x.sent ++ [conn] } }.become
            t (.sending b (next + 1)))
      | none => some ({ s with cell := s.cell.release t }.become t .idle)
    | _, _ => none

/-- The list without pointers is that of the server, whoever has begun to send sees the list of
that moment and is as far as it says, and whoever has not is through. -/
structure Sound (s : ChatServer n) : Prop where
  value : s.cell.value = s.present
  nodup : s.present.Nodup
  members : ∀ (b : Nat) x, s.broadcasts[b]? = some x → x.members.Nodup
  locked : ∀ t, (s.activity t).critical = true → s.mutex = some t
  unique : ∀ t conn isConnected, s.activity t = .owned conn isConnected → s.cell.Unique
  reads : ∀ t b next, (s.activity t).broadcast = some (b, next) → ∃ x, s.broadcasts[b]? = some x ∧
    s.cell.seen t = some x.members ∧ x.sent = x.members.take next
  apart : ∀ t r b next next', (s.activity t).broadcast = some (b, next) →
    (s.activity r).broadcast = some (b, next') → t = r
  through : ∀ b x, s.broadcasts[b]? = some x →
    (∃ t next, (s.activity t).broadcast = some (b, next)) ∨ x.sent = x.members

section Steps
variable {s s' : ChatServer n} {t : Fin n}

theorem start_sound : Sound (start n) where
  value := rfl
  nodup := List.nodup_nil
  members := by simp [start]
  locked t critical := by cases critical
  unique t conn isConnected owned := by cases owned
  reads t b next reading := by cases reading
  apart t r b next next' reading := by cases reading
  through b x found := by cases found

theorem nodup_change {list : List Nat} (nodup : list.Nodup) (conn : Nat) (isConnected : Bool) :
    (change conn isConnected list).Nodup := by
  rw [change]
  split
  · split
    · exact nodup
    · rename_i fresh
      exact (List.perm_orderedInsert _ conn list).nodup_iff.mpr (List.nodup_cons.mpr ⟨fresh, nodup⟩)
  · exact nodup.erase conn

/-- A thread goes on: what is true of the others stays, and it has to be true of itself. -/
theorem become_sound {a : Activity} (value : s.cell.value = s.present) (nodup : s.present.Nodup)
    (members : ∀ (b : Nat) x, s.broadcasts[b]? = some x → x.members.Nodup)
    (locked : a.critical = true → s.mutex = some t)
    (lockedOthers : ∀ r ≠ t, (s.activity r).critical = true → s.mutex = some r)
    (unique : ∀ conn isConnected, a = .owned conn isConnected → s.cell.Unique)
    (uniqueOthers : ∀ r ≠ t, ∀ conn isConnected, s.activity r = .owned conn isConnected →
      s.cell.Unique)
    (reads : ∀ b next, a.broadcast = some (b, next) → ∃ x, s.broadcasts[b]? = some x ∧
      s.cell.seen t = some x.members ∧ x.sent = x.members.take next)
    (readsOthers : ∀ r ≠ t, ∀ b next, (s.activity r).broadcast = some (b, next) →
      ∃ x, s.broadcasts[b]? = some x ∧ s.cell.seen r = some x.members ∧
        x.sent = x.members.take next)
    (apart : ∀ r ≠ t, ∀ b next next', a.broadcast = some (b, next) →
      (s.activity r).broadcast ≠ some (b, next'))
    (apartOthers : ∀ r ≠ t, ∀ q ≠ t, ∀ b next next', (s.activity r).broadcast = some (b, next) →
      (s.activity q).broadcast = some (b, next') → r = q)
    (through : ∀ b x, s.broadcasts[b]? = some x → (∃ next, a.broadcast = some (b, next)) ∨
      (∃ r ≠ t, ∃ next, (s.activity r).broadcast = some (b, next)) ∨ x.sent = x.members) :
    Sound (s.become t a) := by
  have self : (s.become t a).activity t = a := Function.update_self _ _ _
  have others {r : Fin n} (other : r ≠ t) : (s.become t a).activity r = s.activity r :=
    Function.update_of_ne other _ _
  refine ⟨value, nodup, members, fun r => ?_, fun r => ?_, fun r => ?_, fun r q b next next' => ?_,
    fun b x found => ?_⟩
  · by_cases same : r = t
    · rwa [same, self]
    · rw [others same]
      exact lockedOthers r same
  · by_cases same : r = t
    · rwa [same, self]
    · rw [others same]
      exact uniqueOthers r same
  · by_cases same : r = t
    · rwa [same, self]
    · rw [others same]
      exact readsOthers r same
  · by_cases one : r = t
    · by_cases two : q = t
      · exact fun _ _ => one.trans two.symm
      · rw [one, self, others two]
        exact fun mine its => absurd its (apart q two b next next' mine)
    · by_cases two : q = t
      · rw [two, self, others one]
        exact fun its mine => absurd its (apart r one b next' next mine)
      · rw [others one, others two]
        exact apartOthers r one q two b next next'
  · rcases through b x found with ⟨next, mine⟩ | ⟨r, other, next, its⟩ | all
    · exact Or.inl ⟨t, next, by rw [self, mine]⟩
    · exact Or.inl ⟨r, next, by rw [others other, its]⟩
    · exact Or.inr all

/-- Whoever is in a critical section keeps the others out. -/
theorem Sound.alone (h : Sound s) (critical : (s.activity t).critical = true) {r : Fin n}
    (other : r ≠ t) : (s.activity r).critical = false := by
  by_contra inside
  have mine := h.locked t critical
  have its := h.locked r (Bool.not_eq_false _ ▸ inside)
  exact other (Option.some.inj (its.symm.trans mine))

theorem Sound.apart' (h : Sound s) {r q : Fin n} (other : r ≠ q) (b next next' : Nat)
    (one : (s.activity r).broadcast = some (b, next)) :
    (s.activity q).broadcast ≠ some (b, next') :=
  fun two => other (h.apart r q b next next' one two)

/-- A step that readers do not see. -/
theorem quiet_sound (h : Sound s) {a : Activity} {cell : Cell (Fin n) (List Nat)}
    {mutex : Option (Fin n)} {present : List Nat} (value : cell.value = present)
    (nodup : present.Nodup) (locked : a.critical = true → mutex = some t)
    (lockedOthers : ∀ r ≠ t, (s.activity r).critical = true → mutex = some r)
    (unique : ∀ conn isConnected, a = .owned conn isConnected → cell.Unique)
    (uniqueOthers : ∀ r ≠ t, ∀ conn isConnected, s.activity r = .owned conn isConnected →
      cell.Unique)
    (seen : ∀ r, cell.seen r = s.cell.seen r) (same : a.broadcast = (s.activity t).broadcast) :
    Sound (ChatServer.become { s with cell := cell, mutex := mutex, present := present } t a) := by
  refine become_sound value nodup h.members locked lockedOthers unique uniqueOthers ?_ ?_ ?_ ?_ ?_
  · intro b next reading
    rw [seen]
    exact h.reads t b next (same ▸ reading)
  · intro r _ b next reading
    rw [seen]
    exact h.reads r b next reading
  · intro r other b next next' mine
    exact h.apart' (Ne.symm other) b next next' (same ▸ mine)
  · exact fun r _ q _ b next next' => h.apart r q b next next'
  · intro b x found
    rcases h.through b x found with ⟨r, next, reading⟩ | all
    · by_cases mine : r = t
      · subst mine
        exact Or.inl ⟨next, same.trans reading⟩
      · exact Or.inr (Or.inl ⟨r, mine, next, reading⟩)
    · exact Or.inr (Or.inr all)

/-- A thread that takes the mutex finds everybody outside. -/
theorem lock_sound (h : Sound s) (free : s.mutex = none) (idle : s.activity t = .idle)
    {a : Activity} (notOwned : ∀ conn isConnected, a ≠ .owned conn isConnected)
    (quiet : a.broadcast = none) :
    Sound (ChatServer.become { s with mutex := some t } t a) := by
  have outside (r : Fin n) : (s.activity r).critical ≠ true := by
    intro inside
    have holds := h.locked r inside
    rw [free] at holds
    cases holds
  exact quiet_sound h h.value h.nodup (fun _ => rfl) (fun r _ inside => absurd inside (outside r))
    (fun conn up owned => absurd owned (notOwned conn up)) (fun r _ => h.unique r) (fun _ => rfl)
    (by rw [quiet, idle]; rfl)

/-- A thread that is alone changes the list. -/
theorem critical_sound (h : Sound s) (critical : (s.activity t).critical = true) {a : Activity}
    {cell : Cell (Fin n) (List Nat)} {mutex : Option (Fin n)} {present : List Nat}
    (value : cell.value = present) (nodup : present.Nodup)
    (locked : a.critical = true → mutex = some t)
    (unique : ∀ conn isConnected, a = .owned conn isConnected → cell.Unique)
    (seen : ∀ r, cell.seen r = s.cell.seen r) (same : a.broadcast = (s.activity t).broadcast) :
    Sound (ChatServer.become { s with cell := cell, mutex := mutex, present := present } t a) := by
  refine quiet_sound h value nodup locked (fun r other inside => ?_) unique
    (fun r other conn up owned => ?_) seen same
  · exact absurd inside (by rw [h.alone critical other]; decide)
  · have outside := h.alone critical other
    rw [owned] at outside
    cases outside

theorem makeUnique_sound (h : Sound s) {conn : Nat} {isConnected : Bool}
    (here : s.activity t = .connection conn isConnected) :
    Sound (ChatServer.become
      { s with cell := if s.cell.Unique then s.cell else s.cell.copy } t
      (.owned conn isConnected)) := by
  have critical : (s.activity t).critical = true := by rw [here]; rfl
  have mutex := h.locked t critical
  have same : (Activity.owned conn isConnected).broadcast = (s.activity t).broadcast := by
    rw [here]
    rfl
  split
  · rename_i unique
    exact critical_sound h critical h.value h.nodup (fun _ => mutex) (fun _ _ _ => unique)
      (fun _ => rfl) same
  · exact critical_sound h critical (Cell.value_copy.trans h.value) h.nodup (fun _ => mutex)
      (fun _ _ _ => Cell.unique_copy) Cell.seen_copy same

theorem changeList_sound (h : Sound s) {conn : Nat} {isConnected : Bool}
    (here : s.activity t = .owned conn isConnected) :
    Sound (ChatServer.become { s with
      cell := s.cell.modify (change conn isConnected)
      present := change conn isConnected s.present } t .changed) := by
  have critical : (s.activity t).critical = true := by rw [here]; rfl
  have unique := h.unique t conn isConnected here
  refine critical_sound h critical ?_ (nodup_change h.nodup conn isConnected)
    (fun _ => h.locked t critical) (fun conn up owned => by cases owned)
    (Cell.seen_modify unique _) (by rw [here]; rfl)
  rw [Cell.value_modify, h.value]

theorem getElem?_concat_iff {l : List Broadcast} {x y : Broadcast} {b : Nat} :
    (l ++ [y])[b]? = some x ↔ l[b]? = some x ∨ b = l.length ∧ x = y := by
  rcases Nat.lt_trichotomy b l.length with old | rfl | beyond
  · rw [List.getElem?_append_left old]
    have : b ≠ l.length := by omega
    simp [this]
  · simp [eq_comm]
  · have last : (l ++ [y])[b]? = none :=
      List.getElem?_eq_none (by rw [List.length_append, List.length_singleton]; omega)
    have before : l[b]? = none := List.getElem?_eq_none (by omega)
    have : b ≠ l.length := by omega
    simp [last, before, this]

theorem copyPointer_sound (h : Sound s) {msg : List UInt8} (here : s.activity t = .message msg) :
    Sound (ChatServer.become { s with
      cell := s.cell.acquire t
      broadcasts := s.broadcasts ++ [⟨msg, s.present, []⟩] } t (.copied s.broadcasts.length)) := by
  have critical : (s.activity t).critical = true := by rw [here]; rfl
  refine become_sound h.value h.nodup ?_ (fun _ => h.locked t critical) (fun r _ => h.locked r)
    (fun conn up owned => by cases owned) ?_ ?_ ?_ ?_ (fun r _ q _ => h.apart r q) ?_
  · intro b x found
    rcases getElem?_concat_iff.mp found with old | ⟨-, rfl⟩
    · exact h.members b x old
    · exact h.nodup
  · intro r other conn up owned
    have outside := h.alone critical other
    rw [owned] at outside
    cases outside
  · rintro b next ⟨⟩
    refine ⟨_, getElem?_concat_iff.mpr (Or.inr ⟨rfl, rfl⟩), ?_, rfl⟩
    rw [Cell.seen_acquire_self, h.value]
  · intro r other b next reading
    obtain ⟨x, found, seen, sent⟩ := h.reads r b next reading
    exact ⟨x, getElem?_concat_iff.mpr (Or.inl found),
      (Cell.seen_acquire_of_ne other).trans seen, sent⟩
  · rintro r other b next next' ⟨⟩ reading
    obtain ⟨x, found, -⟩ := h.reads r _ next' reading
    exact absurd (List.getElem?_eq_some_iff.mp found).1 (Nat.lt_irrefl _)
  · intro b x found
    rcases getElem?_concat_iff.mp found with old | ⟨rfl, -⟩
    · rcases h.through b x old with ⟨r, next, reading⟩ | all
      · refine Or.inr (Or.inl ⟨r, ?_, next, reading⟩)
        rintro rfl
        rw [here] at reading
        cases reading
      · exact Or.inr (Or.inr all)
    · exact Or.inl ⟨0, rfl⟩

/-- The list that a thread is sending along, and what it has sent. -/
theorem Sound.sending (h : Sound s) {b next : Nat} {list : List Nat}
    (here : s.activity t = .sending b next) (seen : s.cell.seen t = some list) :
    ∃ x, s.broadcasts[b]? = some x ∧ x.members = list ∧ x.sent = list.take next := by
  obtain ⟨x, found, its, sent⟩ := h.reads t b next (by rw [here]; rfl)
  rw [seen] at its
  cases its
  exact ⟨x, found, rfl, sent⟩

theorem send_sound (h : Sound s) {b next conn : Nat} {list : List Nat}
    (here : s.activity t = .sending b next) (seen : s.cell.seen t = some list)
    (member : list[next]? = some conn) :
    Sound (ChatServer.become { s with
      broadcasts := s.broadcasts.modify b fun x => { x with sent := x.sent ++ [conn] } } t
        (.sending b (next + 1))) := by
  obtain ⟨x, found, rfl, sent⟩ := h.sending here seen
  have mine : (s.activity t).broadcast = some (b, next) := by rw [here]; rfl
  have changed : (s.broadcasts.modify b fun x => { x with sent := x.sent ++ [conn] })[b]? =
      some { x with sent := x.sent ++ [conn] } := by
    rw [List.getElem?_modify_eq, found]
    rfl
  have kept {i : Nat} (other : i ≠ b) :
      (s.broadcasts.modify b fun x => { x with sent := x.sent ++ [conn] })[i]? =
        s.broadcasts[i]? :=
    List.getElem?_modify_ne _ _ (Ne.symm other)
  refine become_sound h.value h.nodup ?_ (fun inside => by cases inside) (fun r _ => h.locked r)
    (fun conn up owned => by cases owned) (fun r _ => h.unique r) ?_ ?_ ?_
    (fun r _ q _ => h.apart r q) ?_
  · intro i y its
    by_cases same : i = b
    · subst same
      rw [changed] at its
      cases its
      exact h.members i x found
    · rw [kept same] at its
      exact h.members i y its
  · rintro i k ⟨⟩
    refine ⟨_, changed, seen, ?_⟩
    rw [List.take_add_one, member, sent]
    rfl
  · intro r other i k reading
    have apart : i ≠ b := by
      rintro rfl
      exact h.apart' other i k next reading mine
    rw [kept apart]
    exact h.reads r i k reading
  · rintro r other i k l ⟨⟩
    exact h.apart' (Ne.symm other) b next l mine
  · intro i y its
    by_cases same : i = b
    · exact Or.inl ⟨next + 1, same ▸ rfl⟩
    · rw [kept same] at its
      rcases h.through i y its with ⟨r, k, reading⟩ | all
      · refine Or.inr (Or.inl ⟨r, ?_, k, reading⟩)
        rintro rfl
        exact same (Prod.mk.inj (Option.some.inj (reading.symm.trans mine))).1
      · exact Or.inr (Or.inr all)

theorem finish_sound (h : Sound s) {b next : Nat} {list : List Nat}
    (here : s.activity t = .sending b next) (seen : s.cell.seen t = some list)
    (finished : list[next]? = none) :
    Sound (ChatServer.become { s with cell := s.cell.release t } t .idle) := by
  obtain ⟨x, found, rfl, sent⟩ := h.sending here seen
  have mine : (s.activity t).broadcast = some (b, next) := by rw [here]; rfl
  refine become_sound h.value h.nodup h.members (fun inside => by cases inside)
    (fun r _ => h.locked r) (fun conn up owned => by cases owned) ?_
    (fun i k reading => by cases reading) ?_ (fun r _ i k l reading => by cases reading)
    (fun r _ q _ => h.apart r q) ?_
  · exact fun r _ conn up owned => Cell.unique_release (h.unique r conn up owned)
  · intro r other i k reading
    rw [Cell.seen_release_of_ne other]
    exact h.reads r i k reading
  · intro i y its
    rcases h.through i y its with ⟨r, k, reading⟩ | all
    · by_cases self : r = t
      · subst self
        obtain ⟨rfl, rfl⟩ := Prod.mk.inj (Option.some.inj (reading.symm.trans mine))
        rw [found] at its
        cases its
        refine Or.inr (Or.inr ?_)
        rw [sent, List.take_of_length_le (List.getElem?_eq_none_iff.mp finished)]
      · exact Or.inr (Or.inl ⟨r, self, k, reading⟩)
    · exact Or.inr (Or.inr all)

theorem step_sound (h : Sound s) {a : Act n} (next : step s a = some s') : Sound s' := by
  cases a with
  | lockConnection t conn isConnected =>
    obtain ⟨⟨free, idle⟩, ⟨⟩⟩ := Option.ite_none_right_eq_some.mp next
    exact lock_sound h free idle (fun _ _ => by simp) rfl
  | makeUnique t =>
    simp only [step] at next
    split at next
    · cases next
      exact makeUnique_sound h (by assumption)
    · cases next
  | changeList t =>
    simp only [step] at next
    split at next
    · cases next
      exact changeList_sound h (by assumption)
    · cases next
  | lockMessage t msg =>
    obtain ⟨⟨free, idle⟩, ⟨⟩⟩ := Option.ite_none_right_eq_some.mp next
    exact lock_sound h free idle (fun _ _ => by simp) rfl
  | copyPointer t =>
    simp only [step] at next
    split at next
    · cases next
      exact copyPointer_sound h (by assumption)
    · cases next
  | unlock t =>
    simp only [step] at next
    split at next
    · rename_i here
      cases next
      exact critical_sound h (by rw [here]; rfl) h.value h.nodup (fun inside => by cases inside)
        (fun _ _ owned => by cases owned) (fun _ => rfl) (by rw [here]; rfl)
    · rename_i b here
      cases next
      exact critical_sound h (by rw [here]; rfl) h.value h.nodup (fun inside => by cases inside)
        (fun _ _ owned => by cases owned) (fun _ => rfl) (by rw [here]; rfl)
    · cases next
  | send t =>
    simp only [step] at next
    split at next
    · rename_i here seen
      split at next
      · rename_i member
        cases next
        exact send_sound h here seen member
      · rename_i finished
        cases next
        exact finish_sound h here seen finished
    · cases next

end Steps

/-- Nobody is sending a broadcast any more. -/
def Finished (s : ChatServer n) (b : Nat) : Prop :=
  ∀ t next, (s.activity t).broadcast ≠ some (b, next)

/-- In every run of the threads, in whatever way they interleave, the shared list is the one
that an atomic variable would have; each message is sent, in order and once each, to those who
were in the list when it took the mutex, and when its thread is through to all of them. -/
theorem sends_to_snapshot {actions : List (Act n)} {s : ChatServer n}
    (done : run step (start n) actions = some s) :
    s.cell.value = s.present ∧ s.present.Nodup ∧ ∀ (b : Nat) x, s.broadcasts[b]? = some x →
      x.members.Nodup ∧ x.sent <+: x.members ∧ (Finished s b → x.sent = x.members) := by
  have sound : Sound s :=
    run_invariant (P := fun _ _ => True) (fun _ _ _ h _ next => step_sound h next) start_sound
      (along_true _ _) done
  refine ⟨sound.value, sound.nodup, fun b x found => ⟨sound.members b x found, ?_, ?_⟩⟩
  · rcases sound.through b x found with ⟨t, next, reading⟩ | all
    · obtain ⟨y, same, -, sent⟩ := sound.reads t b next reading
      rw [found] at same
      cases same
      rw [sent]
      exact List.take_prefix _ _
    · exact ⟨[], by rw [all, List.append_nil]⟩
  · intro finished
    rcases sound.through b x found with ⟨t, next, reading⟩ | all
    · exact absurd reading (finished t next)
    · exact all

/-- One thread sends to two members while another one removes the second of them. -/
theorem sends_to_snapshot_two :
    ∃ s, run step (start 2) [.lockConnection 0 7 true, .makeUnique 0, .changeList 0, .unlock 0,
        .lockConnection 1 8 true, .makeUnique 1, .changeList 1, .unlock 1, .lockMessage 0 [104],
        .copyPointer 0, .unlock 0, .send 0, .lockConnection 1 8 false, .makeUnique 1, .changeList 1,
        .unlock 1, .send 0, .send 0] = some s ∧
      s.present = [7] ∧ s.broadcasts = [⟨[104], [7, 8], [7, 8]⟩] ∧
      (s.cell.value = s.present ∧ s.present.Nodup ∧ ∀ (b : Nat) x, s.broadcasts[b]? = some x →
        x.members.Nodup ∧ x.sent <+: x.members ∧ (Finished s b → x.sent = x.members)) := by
  refine ⟨_, rfl, rfl, rfl, ?_⟩
  exact @sends_to_snapshot 2 [.lockConnection 0 7 true, .makeUnique 0, .changeList 0, .unlock 0,
    .lockConnection 1 8 true, .makeUnique 1, .changeList 1, .unlock 1, .lockMessage 0 [104],
    .copyPointer 0, .unlock 0, .send 0, .lockConnection 1 8 false, .makeUnique 1, .changeList 1,
    .unlock 1, .send 0, .send 0] _ rfl

end EfficientChat
end Arale
