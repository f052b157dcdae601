import Mathlib.Data.List.Induction

/-!
# Schedules of a partial machine

A machine is a partial step function `S → A → Option S`; `none` means that the
action is not possible in that state. A schedule is a list of actions, so the
interleavings of several parties are the schedules over the union of their
actions. Conditions on a run are conditions on each state together with the
action about to be taken there. Nothing here mentions a particular program.
-/

namespace Schedules

universe u v

section Machine
variable {S : Type u} {A : Type v} (step : S → A → Option S)

/-- The state after a whole schedule, if every action of it was possible. -/
def run : S → List A → Option S
  | s, [] => some s
  | s, a :: rest => (step s a).bind fun t => run t rest

/-- `P` holds of every state of the run with the action taken from it. -/
def Along (P : S → A → Prop) : S → List A → Prop
  | _, [] => True
  | s, a :: rest => P s a ∧ ∀ t, step s a = some t → Along P t rest

/-- `I` holds in every state the run passes through. -/
def Throughout (I : S → Prop) : S → List A → Prop
  | s, [] => I s
  | s, a :: rest => I s ∧ ∀ t, step s a = some t → Throughout I t rest

variable {step}

theorem run_cons_eq_some {s t : S} {a : A} {rest : List A} :
    run step s (a :: rest) = some t ↔ ∃ m, step s a = some m ∧ run step m rest = some t := by
  simp [run, Option.bind_eq_some_iff]

/-- What one condition-respecting step preserves, a condition-respecting run preserves. -/
theorem run_invariant {P : S → A → Prop} {I : S → Prop}
    (keeps : ∀ s a t, I s → P s a → step s a = some t → I t)
    {s t : S} {actions : List A} (start : I s)
    (along : Along step P s actions) (done : run step s actions = some t) : I t := by
  induction actions generalizing s with
  | nil =>
    cases done
    exact start
  | cons a rest ih =>
    obtain ⟨m, hm, hrest⟩ := run_cons_eq_some.mp done
    exact ih (keeps s a m start along.1 hm) (along.2 m hm) hrest

theorem Along.cons {P : S → A → Prop} {s t : S} {a : A} {rest : List A} (here : P s a)
    (next : step s a = some t) (later : Along step P t rest) : Along step P s (a :: rest) := by
  refine ⟨here, fun u hu => ?_⟩
  rw [next] at hu
  cases hu
  exact later

theorem run_append {s m t : S} {first last : List A} (begun : run step s first = some m)
    (ended : run step m last = some t) : run step s (first ++ last) = some t := by
  induction first generalizing s with
  | nil =>
    cases begun
    exact ended
  | cons a rest ih =>
    obtain ⟨n, hn, hrest⟩ := run_cons_eq_some.mp begun
    exact run_cons_eq_some.mpr ⟨n, hn, ih hrest⟩

/-- The last step of a run, seen from its end. -/
theorem run_concat_eq_some {s t : S} {actions : List A} {a : A} :
    run step s (actions ++ [a]) = some t ↔
      ∃ m, run step s actions = some m ∧ step m a = some t := by
  induction actions generalizing s with
  | nil => simp [run]
  | cons b rest ih =>
    rw [List.cons_append, run_cons_eq_some]
    constructor
    · rintro ⟨n, first, later⟩
      obtain ⟨m, hm, last⟩ := ih.mp later
      exact ⟨m, run_cons_eq_some.mpr ⟨n, first, hm⟩, last⟩
    · rintro ⟨m, all, last⟩
      obtain ⟨n, first, hm⟩ := run_cons_eq_some.mp all
      exact ⟨n, first, ih.mpr ⟨m, hm, last⟩⟩

/-- What holds at first and is kept by every step holds of each state and its history. -/
theorem run_history {I : List A → S → Prop}
    (keeps : ∀ actions s a t, I actions s → step s a = some t → I (actions ++ [a]) t)
    {s t : S} {actions : List A} (start : I [] s) (done : run step s actions = some t) :
    I actions t := by
  induction actions using List.reverseRecOn generalizing t with
  | nil =>
    cases done
    exact start
  | append_singleton actions a ih =>
    obtain ⟨m, before, next⟩ := run_concat_eq_some.mp done
    exact keeps actions m a t (ih before) next

/-- Somewhere in a history `P` holds of what was before and of the action there. -/
def Happened (P : List A → A → Prop) (actions : List A) : Prop :=
  ∃ first a later, actions = first ++ a :: later ∧ P first a

theorem not_happened_nil (P : List A → A → Prop) : ¬ Happened P [] := by
  rintro ⟨first, a, later, split, -⟩
  exact absurd split.symm (List.append_ne_nil_of_right_ne_nil first (List.cons_ne_nil a later))

theorem happened_concat {P : List A → A → Prop} {actions : List A} {a : A} :
    Happened P (actions ++ [a]) ↔ Happened P actions ∨ P actions a := by
  constructor
  · rintro ⟨first, b, later, split, here⟩
    induction later using List.reverseRecOn with
    | nil =>
      obtain ⟨rfl, same⟩ := List.append_inj' split rfl
      cases same
      exact .inr here
    | append_singleton later c _ =>
      rw [← List.cons_append, ← List.append_assoc] at split
      exact .inl ⟨first, b, later, (List.append_inj' split rfl).1, here⟩
  · rintro (⟨first, b, later, rfl, here⟩ | here)
    · exact ⟨first, b, later ++ [a], by simp, here⟩
    · exact ⟨actions, a, [], rfl, here⟩

theorem happened_concat_of_not (P : List A → A → Prop) (actions : List A) (a : A)
    (not : ¬ P actions a) : Happened P (actions ++ [a]) ↔ Happened P actions := by
  rw [happened_concat, or_iff_left not]

theorem Along.append {P : S → A → Prop} {s : S} {first last : List A}
    (begun : Along step P s first)
    (ended : ∀ m, run step s first = some m → Along step P m last) :
    Along step P s (first ++ last) := by
  induction first generalizing s with
  | nil => exact ended s rfl
  | cons a rest ih =>
    refine ⟨begun.1, fun t ht => ih (begun.2 t ht) fun m hm => ended m ?_⟩
    exact run_cons_eq_some.mpr ⟨t, ht, hm⟩

theorem along_true (s : S) (actions : List A) : Along step (fun _ _ => True) s actions := by
  induction actions generalizing s with
  | nil => trivial
  | cons a rest ih => exact ⟨trivial, fun t _ => ih t⟩

/-- A condition on actions alone. -/
theorem along_of_forall (step : S → A → Option S) {P : A → Prop} (s : S) {actions : List A}
    (all : ∀ a ∈ actions, P a) : Along step (fun _ a => P a) s actions := by
  induction actions generalizing s with
  | nil => trivial
  | cons a rest ih =>
    exact ⟨all a List.mem_cons_self, fun t _ => ih t fun b hb => all b (List.mem_cons_of_mem a hb)⟩

/-- On runs that respect `R`, two conditions agree if they agree wherever an
invariant kept by the first one holds. -/
theorem along_congr {P Q R : S → A → Prop} {I : S → Prop}
    (agree : ∀ s a, I s → R s a → (P s a ↔ Q s a))
    (keeps : ∀ s a t, I s → R s a → P s a → step s a = some t → I t)
    {s : S} {actions : List A} (start : I s) (respects : Along step R s actions) :
    Along step P s actions ↔ Along step Q s actions := by
  induction actions generalizing s with
  | nil => exact Iff.rfl
  | cons a rest ih =>
    obtain ⟨hr, hrs⟩ := respects
    constructor
    · rintro ⟨hp, hrest⟩
      refine ⟨(agree s a start hr).mp hp, fun t ht => ?_⟩
      exact (ih (keeps s a t start hr hp ht) (hrs t ht)).mp (hrest t ht)
    · rintro ⟨hq, hrest⟩
      have hp := (agree s a start hr).mpr hq
      exact ⟨hp, fun t ht => (ih (keeps s a t start hr hp ht) (hrs t ht)).mpr (hrest t ht)⟩

theorem Throughout.start {I : S → Prop} {s : S} {actions : List A}
    (all : Throughout step I s actions) : I s := by
  cases actions with
  | nil => exact all
  | cons a rest => exact all.1

/-- What an invariant of every run says about the next action. -/
theorem along_of_invariant {I : S → Prop} {Q : S → A → Prop}
    (keeps : ∀ s a t, I s → step s a = some t → I t) (gives : ∀ s a, I s → Q s a)
    {s : S} (start : I s) (actions : List A) : Along step Q s actions := by
  induction actions generalizing s with
  | nil => trivial
  | cons a rest ih => exact ⟨gives s a start, fun t ht => ih (keeps s a t start ht)⟩

/-- What an invariant kept under a condition says about the next action. -/
theorem along_of_kept {P Q : S → A → Prop} {I : S → Prop}
    (keeps : ∀ s a t, I s → P s a → step s a = some t → I t)
    (gives : ∀ s a, I s → P s a → Q s a) {s : S} {actions : List A} (start : I s)
    (along : Along step P s actions) : Along step Q s actions := by
  induction actions generalizing s with
  | nil => trivial
  | cons a rest ih =>
    exact ⟨gives s a start along.1, fun t ht => ih (keeps s a t start along.1 ht) (along.2 t ht)⟩

/-- A condition-respecting run passes only through states of its invariant. -/
theorem throughout_of_along {P : S → A → Prop} {I J : S → Prop}
    (keeps : ∀ s a t, I s → P s a → step s a = some t → I t) (gives : ∀ s, I s → J s)
    {s : S} {actions : List A} (start : I s) (along : Along step P s actions) :
    Throughout step J s actions := by
  induction actions generalizing s with
  | nil => exact gives s start
  | cons a rest ih =>
    exact ⟨gives s start, fun t ht => ih (keeps s a t start along.1 ht) (along.2 t ht)⟩

/-- A run that ends without damage has met the condition at every step, if a step that
misses it does damage and damage stays. -/
theorem along_of_undamaged {I D : S → Prop} {Q : S → A → Prop}
    (keeps : ∀ s a t, I s → step s a = some t → I t)
    (damages : ∀ s a t, I s → ¬ Q s a → step s a = some t → D t)
    (stays : ∀ s a t, I s → D s → step s a = some t → D t)
    {s t : S} {actions : List A} (start : I s) (done : run step s actions = some t)
    (undamaged : ¬ D t) : Along step Q s actions := by
  induction actions generalizing s with
  | nil => trivial
  | cons a rest ih =>
    obtain ⟨m, hm, hrest⟩ := run_cons_eq_some.mp done
    refine .cons ?_ hm (ih (keeps s a m start hm) hrest)
    by_contra missed
    have damaged : I t ∧ D t := run_invariant (P := fun _ _ => True) (I := fun s => I s ∧ D s)
      (fun s a t both _ next => ⟨keeps s a t both.1 next, stays s a t both.1 both.2 next⟩)
      ⟨keeps s a m start hm, damages s a m start missed hm⟩ (along_true m rest) hrest
    exact undamaged damaged.2

/-- A property that one step keeps under exactly one condition holds throughout a
run exactly when every step of it meets the condition; `J` is what every run keeps. -/
theorem throughout_iff_along {I J : S → Prop} {Q R : S → A → Prop}
    (exact_step : ∀ s a, I s → J s → R s a → ((∀ t, step s a = some t → I t) ↔ Q s a))
    (keeps : ∀ s a t, J s → R s a → step s a = some t → J t)
    {s : S} {actions : List A} (start : I s) (side : J s) (respects : Along step R s actions) :
    Throughout step I s actions ↔ Along step Q s actions := by
  induction actions generalizing s with
  | nil => exact ⟨fun _ => trivial, fun _ => start⟩
  | cons a rest ih =>
    obtain ⟨hr, hrs⟩ := respects
    constructor
    · rintro ⟨-, hrest⟩
      refine ⟨(exact_step s a start side hr).mp fun t ht => (hrest t ht).start, fun t ht => ?_⟩
      exact (ih (hrest t ht).start (keeps s a t side hr ht) (hrs t ht)).mp (hrest t ht)
    · rintro ⟨hq, hrest⟩
      refine ⟨start, fun t ht => ?_⟩
      have ht' : I t := (exact_step s a start side hr).mpr hq t ht
      exact (ih ht' (keeps s a t side hr ht) (hrs t ht)).mpr (hrest t ht)

/-- The same where the property alone is not inductive: `I` implies it and is kept
by every step that meets the condition, and a step that misses it breaks the property. -/
theorem throughout_iff_along_of_stronger {P I : S → Prop} {Q : S → A → Prop}
    (gives : ∀ s, I s → P s)
    (keeps : ∀ s a t, I s → Q s a → step s a = some t → I t)
    (needs : ∀ s a, I s → (∀ t, step s a = some t → P t) → Q s a)
    {s : S} {actions : List A} (start : I s) :
    Throughout step P s actions ↔ Along step Q s actions := by
  constructor
  · intro all
    induction actions generalizing s with
    | nil => trivial
    | cons a rest ih =>
      have met := needs s a start fun t ht => (all.2 t ht).start
      exact ⟨met, fun t ht => ih (keeps s a t start met ht) (all.2 t ht)⟩
  · intro along
    exact throughout_of_along keeps gives start along

end Machine

section Family
variable {S : Type u} {A : Type v} (step : S → A → Option S)

/-- One member of a family of machines takes a step. -/
def stepAt (family : List S) (i : Nat) (a : A) : Option (List S) :=
  family[i]?.bind fun s => (step s a).map fun t => family.set i t

/-- All members take a step together, each with an action of its own. -/
def stepAll : List S → List A → Option (List S)
  | [], [] => some []
  | s :: family, a :: actions =>
    (step s a).bind fun t => (stepAll family actions).map fun rest => t :: rest
  | _, _ => none

variable {step} {I : S → Prop} {family family' : List S}

theorem forall_stepAt {i : Nat} {a : A} (all : ∀ s ∈ family, I s)
    (keeps : ∀ s t, family[i]? = some s → I s → step s a = some t → I t)
    (next : stepAt step family i a = some family') : ∀ s ∈ family', I s := by
  obtain ⟨s, member, stepped⟩ := Option.bind_eq_some_iff.mp next
  obtain ⟨t, ht, rfl⟩ := Option.map_eq_some_iff.mp stepped
  intro u hu
  rcases List.mem_or_eq_of_mem_set hu with old | rfl
  · exact all u old
  · exact keeps s u member (all s (List.mem_of_getElem? member)) ht

theorem forall_stepAll {Q : A → Prop} {actions : List A}
    (keeps : ∀ s a t, I s → Q a → step s a = some t → I t) (all : ∀ s ∈ family, I s)
    (each : ∀ a ∈ actions, Q a) (next : stepAll step family actions = some family') :
    ∀ s ∈ family', I s := by
  induction family generalizing actions family' with
  | nil =>
    cases actions with
    | nil =>
      cases next
      exact all
    | cons => cases next
  | cons s family ih =>
    cases actions with
    | nil => cases next
    | cons a actions =>
      obtain ⟨t, ht, rest⟩ := Option.bind_eq_some_iff.mp next
      obtain ⟨others, hothers, rfl⟩ := Option.map_eq_some_iff.mp rest
      rw [List.forall_mem_cons] at all each ⊢
      exact ⟨keeps s a t all.1 each.1 ht, ih all.2 each.2 hothers⟩

end Family

section LastCall
variable {A : Type u}

/-- The last call of a group, if there is one. -/
def lastAmong (group : A → Bool) (calls : List A) : Option A :=
  (calls.filter group).getLast?

theorem lastAmong_append (group : A → Bool) (first last : List A) :
    lastAmong group (first ++ last) = (lastAmong group last).or (lastAmong group first) := by
  simp only [lastAmong, List.filter_append, List.getLast?_append]

theorem lastAmong_concat (group : A → Bool) (calls : List A) (c : A) :
    lastAmong group (calls ++ [c]) = if group c then some c else lastAmong group calls := by
  rw [lastAmong_append]
  by_cases h : group c <;> simp [lastAmong, h]

/-- A flag that one call of a group sets and the others of it clear. -/
theorem flag_foldl_iff {S : Type} {apply : S → A → S} (flag : S → Prop) {group : A → Bool}
    {sets : A} (step : ∀ s a, flag (apply s a) ↔ if group a then a = sets else flag s)
    {start : S} (off : ¬ flag start) (calls : List A) :
    flag (calls.foldl apply start) ↔ lastAmong group calls = some sets := by
  induction calls using List.reverseRecOn with
  | nil => simp [lastAmong, off]
  | append_singleton calls a ih =>
    rw [List.foldl_append, lastAmong_concat, List.foldl_cons, List.foldl_nil, step]
    by_cases member : group a = true
    · rw [if_pos member, if_pos member, Option.some.injEq]
    · rw [if_neg member, if_neg member, ih]

theorem lastAmong_eq_none {group : A → Bool} {calls : List A} :
    lastAmong group calls = none ↔ ∀ c ∈ calls, group c = false := by
  simp [lastAmong]

theorem lastAmong_eq_some {group : A → Bool} {calls : List A} {e : A} :
    lastAmong group calls = some e ↔
      group e = true ∧ ∃ pre post, calls = pre ++ e :: post ∧ ∀ c ∈ post, group c = false := by
  induction calls using List.reverseRecOn with
  | nil => simp [lastAmong]
  | append_singleton calls c ih =>
    rw [lastAmong_concat]
    constructor
    · intro h
      by_cases hc : group c
      · have heq : c = e := by simpa [hc] using h
        subst heq
        exact ⟨hc, calls, [], rfl, by simp⟩
      · obtain ⟨he, pre, post, rfl, quiet⟩ := ih.mp (by simpa [hc] using h)
        refine ⟨he, pre, post ++ [c], by simp, ?_⟩
        intro d hd
        rcases List.mem_append.mp hd with hd | hd
        · exact quiet d hd
        · simpa [List.mem_singleton.mp hd] using hc
    · rintro ⟨he, pre, post, heq, quiet⟩
      rw [← lastAmong_concat, heq, lastAmong_append]
      have tail : lastAmong group (e :: post) = some e := by
        simp [lastAmong, he, List.filter_eq_nil_iff.mpr (by simpa using quiet)]
      rw [tail]
      rfl

/-- Widening a group by one more call `d` changes whether `e` is its last call
exactly when a `d` follows the last `e`. -/
theorem lastAmong_widen_iff [DecidableEq A] (group : A → Bool) {d e : A}
    (he : group e = true) (hde : d ≠ e) (calls : List A) :
    (lastAmong group calls = some e ↔
        lastAmong (fun c => group c || c == d) calls = some e) ↔
      ∀ pre post, calls = pre ++ e :: post → (∀ c ∈ post, group c = false) → d ∉ post := by
  constructor
  · intro same pre post heq quiet hd
    have narrow : lastAmong group calls = some e :=
      lastAmong_eq_some.mpr ⟨he, pre, post, heq, quiet⟩
    have wide := same.mp narrow
    rw [heq, show pre ++ e :: post = (pre ++ [e]) ++ post by simp, lastAmong_append] at wide
    cases tail : lastAmong (fun c => group c || c == d) post with
    | none => simpa using lastAmong_eq_none.mp tail d hd
    | some x =>
      have hx : x = e := by simpa [tail] using wide
      subst hx
      obtain ⟨-, p, q, hpost, -⟩ := lastAmong_eq_some.mp tail
      have absent := quiet x (by rw [hpost]; simp)
      rw [he] at absent
      cases absent
  · intro clear
    constructor
    · intro narrow
      obtain ⟨-, pre, post, heq, quiet⟩ := lastAmong_eq_some.mp narrow
      refine lastAmong_eq_some.mpr ⟨by simp [he], pre, post, heq, ?_⟩
      intro c hc
      have hne : c ≠ d := fun h => clear pre post heq quiet (h ▸ hc)
      simp [quiet c hc, hne]
    · intro wide
      obtain ⟨-, pre, post, heq, quiet⟩ := lastAmong_eq_some.mp wide
      refine lastAmong_eq_some.mpr ⟨he, pre, post, heq, ?_⟩
      intro c hc
      have := quiet c hc
      simp only [Bool.or_eq_false_iff] at this
      exact this.1

end LastCall

end Schedules
