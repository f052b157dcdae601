import Mathlib.Data.List.FinRange
import Mathlib.Logic.Function.Basic
import Arale.Examples.Codec
import Arale.Net.LoopEdges

/-!
# The chat server with one list of connections a thread

`ChatServerThreadedHighPerformance.cc`: a message that arrives on any connection is posted,
under one mutex, to the loop of every thread, and each thread sends it to the connections of
its own. The threads' loops are those of `EventLoop` and run in any interleaving. The mutex
orders the messages once for the whole server; every client gets a part of that order
without gaps.
-/

namespace Arale

open ByteOrder Schedules

namespace HighPerformanceChat

/-- What waits in a loop: the server's functor, or one of the library's own. -/
inductive Functor where
  | distributeMessage (msg : List UInt8)
  | other
  deriving DecidableEq, Repr

/-- A connection in `LocalConnections`, with `state_ == kConnected`. `output` is what has been
handed to `conn->send` in that state, `joined` how many messages its thread had distributed when
it came up; both are histories. -/
structure Member where
  conn : Nat
  connected : Bool
  output : List UInt8
  joined : Nat

/-- A thread of the server; `erased` and `distributed` are histories. -/
structure Worker where
  eventLoop : EventLoop Functor
  localConnections : List Member
  erased : List Member
  distributed : List (List UInt8)

/-- `onMessage` in its critical section, with the loops it has still to post to. -/
structure Posting (n : Nat) where
  poster : Fin n
  msg : List UInt8
  remaining : List (Fin n)

/-- The server with `n` threads, which have all entered `loops_`. `posted` is the history of
the messages for which `mutex_` was taken. -/
structure ChatServer (n : Nat) where
  worker : Fin n → Worker
  mutex : Option (Posting n)
  posted : List (List UInt8)

def Worker.start : Worker := ⟨.new, [], [], []⟩

def ChatServer.start (n : Nat) : ChatServer n := ⟨fun _ => .start, none, []⟩

inductive Act (n : Nat) where
  /-- whatever the loop of a thread does apart from running functors and posting messages -/
  | loopActs (i : Fin n) (a : EventLoop.Act Functor)
  | runFunctor (i : Fin n)
  /-- `onConnection`, UP -/
  | insert (i : Fin n) (conn : Nat)
  /-- `onConnection`, DOWN -/
  | erase (i : Fin n) (conn : Nat)
  /-- the codec shuts a connection down -/
  | shutdown (i : Fin n) (conn : Nat)
  /-- `onMessage` takes `mutex_` -/
  | lock (i : Fin n) (msg : List UInt8)
  /-- one round of its loop over `loops_` -/
  | postFuntor
  | unlock

/-- The thread is not inside the critical section of `onMessage`. -/
def ChatServer.Free {n : Nat} (s : ChatServer n) (i : Fin n) : Prop :=
  ∀ p ∈ s.mutex, p.poster ≠ i

instance {n : Nat} (s : ChatServer n) (i : Fin n) : Decidable (s.Free i) := by
  unfold ChatServer.Free
  infer_instance

/-- The thread is in a callback of a connection. -/
def Worker.InCallback (w : Worker) : Prop :=
  w.eventLoop.phase = .handling ∨ w.eventLoop.phase = .running

instance (w : Worker) : Decidable w.InCallback := inferInstanceAs (Decidable (_ ∨ _))

def ChatServer.set {n : Nat} (s : ChatServer n) (i : Fin n) (w : Worker) : ChatServer n :=
  { s with worker := Function.update s.worker i w }

section Source
variable (order : Order)

/-- `codec_.sendMessage(*it, msg)`. -/
def Member.send (msg : List UInt8) (m : Member) : Except Fault Member := do
  let bytes ← LengthHeaderCodec.sendMessage order msg
  .ok (if m.connected then { m with output := m.output ++ bytes } else m)

def sendToAll (msg : List UInt8) : List Member → Except Fault (List Member)
  | [] => .ok []
  | m :: rest => do
    let m ← m.send order msg
    let rest ← sendToAll msg rest
    .ok (m :: rest)

def distributeMessage (w : Worker) (msg : List UInt8) : Except Fault Worker := do
  let members ← sendToAll order msg w.localConnections
  .ok { w with localConnections := members, distributed := w.distributed ++ [msg] }

/-- The functor a loop has taken is called. -/
def perform (w : Worker) : Functor → Except Fault Worker
  | .distributeMessage msg => distributeMessage order w msg
  | .other => .ok w

/-- A failed assertion ends the program: there is no next state. -/
def step {n : Nat} (s : ChatServer n) : Act n → Option (ChatServer n)
  | .loopActs i a =>
    if (a.silent = true ∨ a.posts = some .other) ∧ (Quitting.byOther a = true ∨ s.Free i) then
      ((s.worker i).eventLoop.step a).map fun l => s.set i { s.worker i with eventLoop := l }
    else none
  | .runFunctor i =>
    if s.Free i then
      match (s.worker i).eventLoop.functors, (s.worker i).eventLoop.step .runFunctor with
      | functor :: _, some l =>
        match perform order { s.worker i with eventLoop := l } functor with
        | .ok w => some (s.set i w)
        | .error _ => none
      | _, _ => none
    else none
  | .insert i conn =>
    let w := s.worker i
    if s.Free i ∧ w.InCallback ∧ ∀ m ∈ w.localConnections ++ w.erased, m.conn ≠ conn then
      some (s.set i { w with
        localConnections := ⟨conn, true, [], w.distributed.length⟩ :: w.localConnections })
    else none
  | .erase i conn =>
    let w := s.worker i
    if s.Free i ∧ w.InCallback then
      some (s.set i { w with
        localConnections := w.localConnections.filter fun m => m.conn ≠ conn
        erased := (w.localConnections.filter fun m => m.conn = conn).map
          (fun m => { m with connected := false }) ++ w.erased })
    else none
  | .shutdown i conn =>
    let w := s.worker i
    if s.Free i ∧ w.InCallback then
      some (s.set i { w with localConnections := w.localConnections.map fun m =>
        if m.conn = conn then { m with connected := false } else m })
    else none
  | .lock i msg =>
    if s.mutex.isNone ∧ (s.worker i).eventLoop.phase = .handling ∧ msg.length ≤ 65535 then
      some { s with mutex := some ⟨i, msg, List.finRange n⟩, posted := s.posted ++ [msg] }
    else none
  | .postFuntor =>
    match s.mutex with
    | some ⟨i, msg, j :: rest⟩ =>
      let functor := Functor.distributeMessage msg
      ((s.worker j).eventLoop.step
          (if j = i then .callbackPosts functor else .otherPushes functor)).map fun l =>
        { s.set j { s.worker j with eventLoop := l } with mutex := some ⟨i, msg, rest⟩ }
    | _ => none
  | .unlock =>
    match s.mutex with
    | some ⟨_, _, []⟩ => some { s with mutex := none }
    | _ => none

end Source

/-! ## What a connection has been sent -/

/-- The messages among some functors. -/
def messages (functors : List Functor) : List (List UInt8) :=
  functors.filterMap fun
    | .distributeMessage msg => some msg
    | .other => none

/-- The message that is being posted, where it has still to be posted to this thread. -/
def ChatServer.inFlight {n : Nat} (s : ChatServer n) (i : Fin n) : List (List UInt8) :=
  match s.mutex with
  | some p => if i ∈ p.remaining then [p.msg] else []
  | none => []

/-- The messages this thread has yet to distribute. -/
def ChatServer.waiting {n : Nat} (s : ChatServer n) (i : Fin n) : List (List UInt8) :=
  messages (s.worker i).eventLoop.queue ++ s.inFlight i

/-- A connection has been sent what its thread distributed from its UP on, as long as it was
connected. -/
structure Sent (order : Order) (distributed : List (List UInt8)) (m : Member) : Prop where
  joined : m.joined ≤ distributed.length
  part : ∃ got, got <+: distributed.drop m.joined ∧
    LengthHeaderCodec.sendMessages order got = .ok m.output
  all : m.connected = true →
    LengthHeaderCodec.sendMessages order (distributed.drop m.joined) = .ok m.output

structure Kept (order : Order) (w : Worker) : Prop where
  queued : w.eventLoop.Queued
  sent : ∀ m ∈ w.localConnections ++ w.erased, Sent order w.distributed m
  erased : ∀ m ∈ w.erased, m.connected = false

/-- Every thread's share of the one order: what it has distributed, then what waits. -/
structure Ordered {n : Nat} (order : Order) (s : ChatServer n) : Prop where
  kept : ∀ i, Kept order (s.worker i)
  accounted : ∀ i, (s.worker i).distributed ++ s.waiting i = s.posted
  once : ∀ p ∈ s.mutex, p.remaining.Nodup
  short : ∀ msg ∈ s.posted, msg.length ≤ 65535

section Members
variable {order : Order} {distributed : List (List UInt8)} {m m' : Member} {msg : List UInt8}

theorem Sent.fresh (conn : Nat) : Sent order distributed ⟨conn, true, [], distributed.length⟩ := by
  refine ⟨Nat.le_refl _, ⟨[], List.nil_prefix, rfl⟩, fun _ => ?_⟩
  rw [List.drop_length]
  rfl

/-- Nothing is sent any more to a connection that is not connected. -/
theorem Sent.disconnect (h : Sent order distributed m) :
    Sent order distributed { m with connected := false } :=
  ⟨h.joined, h.part, fun connected => by cases connected⟩

theorem Sent.skip (h : Sent order distributed m) (off : m.connected = false) :
    Sent order (distributed ++ [msg]) m := by
  have joined := h.joined
  obtain ⟨got, begun, sent⟩ := h.part
  refine ⟨?_, ⟨got, ?_, sent⟩, fun connected => ?_⟩
  · rw [List.length_append]
    omega
  · rw [List.drop_append_of_le_length joined]
    exact begun.trans (List.prefix_append _ _)
  · rw [off] at connected
    cases connected

theorem Sent.send (h : Sent order distributed m) (done : m.send order msg = .ok m') :
    Sent order (distributed ++ [msg]) m' := by
  obtain ⟨bytes, handed, same⟩ := Buffer.bind_eq_ok.mp done
  have joined := h.joined
  by_cases connected : m.connected = true
  · rw [if_pos connected] at same
    cases same
    have grown : LengthHeaderCodec.sendMessages order ((distributed ++ [msg]).drop m.joined) =
        .ok (m.output ++ bytes) := by
      rw [List.drop_append_of_le_length joined]
      exact LengthHeaderCodec.sendMessages_concat (h.all connected) handed
    refine ⟨?_, ⟨_, List.prefix_refl _, grown⟩, fun _ => grown⟩
    rw [List.length_append]
    exact Nat.le_add_right_of_le joined
  · rw [if_neg connected] at same
    cases same
    exact h.skip (by simpa using connected)

theorem mem_sendToAll {ms ms' : List Member} (done : sendToAll order msg ms = .ok ms') :
    ∀ m' ∈ ms', ∃ m ∈ ms, m.send order msg = .ok m' := by
  induction ms generalizing ms' with
  | nil =>
    cases done
    simp
  | cons m ms ih =>
    obtain ⟨first, one, done⟩ := Buffer.bind_eq_ok.mp done
    obtain ⟨others, rest, same⟩ := Buffer.bind_eq_ok.mp done
    cases same
    intro m' member
    rcases List.mem_cons.mp member with rfl | member
    · exact ⟨m, List.mem_cons_self, one⟩
    · obtain ⟨m, old, sent⟩ := ih rest m' member
      exact ⟨m, List.mem_cons_of_mem _ old, sent⟩

/-- A functor that has been taken out of the queue and called. -/
theorem Kept.perform {w w' : Worker} (h : Kept order w) {functor : Functor}
    (done : perform order w functor = .ok w') :
    Kept order w' ∧ w'.eventLoop = w.eventLoop ∧
      w'.distributed = w.distributed ++ messages [functor] := by
  cases functor with
  | other =>
    cases done
    exact ⟨h, rfl, (List.append_nil _).symm⟩
  | distributeMessage msg =>
    obtain ⟨members, sent, same⟩ := Buffer.bind_eq_ok.mp done
    cases same
    refine ⟨⟨h.queued, ?_, h.erased⟩, rfl, rfl⟩
    intro m' member
    rcases List.mem_append.mp member with here | gone
    · obtain ⟨m, old, one⟩ := mem_sendToAll sent m' here
      exact (h.sent m (List.mem_append_left _ old)).send one
    · exact (h.sent m' (List.mem_append_right _ gone)).skip (h.erased m' gone)

end Members

section Steps
variable {order : Order} {n : Nat} {s s' : ChatServer n} {i : Fin n} {w : Worker}

theorem messages_append (xs ys : List Functor) :
    messages (xs ++ ys) = messages xs ++ messages ys := List.filterMap_append

/-- One thread changes, and its share of the order does not. -/
theorem Ordered.set (h : Ordered order s) (kept : Kept order w)
    (same : w.distributed ++ messages w.eventLoop.queue =
      (s.worker i).distributed ++ messages (s.worker i).eventLoop.queue) :
    Ordered order (s.set i w) := by
  refine ⟨?_, ?_, h.once, h.short⟩
  · intro j
    by_cases here : j = i
    · subst here
      simpa [ChatServer.set] using kept
    · simpa [ChatServer.set, here] using h.kept j
  · intro j
    have before := h.accounted j
    by_cases here : j = i
    · subst here
      rw [ChatServer.waiting, ← List.append_assoc, ← same, List.append_assoc] at before
      simpa [ChatServer.set, ChatServer.waiting, ChatServer.inFlight] using before
    · simpa [ChatServer.set, ChatServer.waiting, ChatServer.inFlight, here] using before

/-- What a thread does on its own leaves its messages where they are. -/
theorem queue_loopActs {l l' : EventLoop Functor} {a : EventLoop.Act Functor}
    (queued : l.Queued) (allowed : a.silent = true ∨ a.posts = some .other)
    (next : l.step a = some l') : messages l'.queue = messages l.queue := by
  rcases allowed with silent | posts
  · rw [EventLoop.step_queue_of_silent queued silent next]
  · rw [EventLoop.step_queue_of_posts posts next, messages_append]
    exact List.append_nil _

theorem mem_erased {ms : List Member} {m : Member} {conn : Nat}
    (member : m ∈ (ms.filter fun m => m.conn = conn).map fun m => { m with connected := false }) :
    ∃ old ∈ ms, m = { old with connected := false } := by
  obtain ⟨old, kept, same⟩ := List.mem_map.mp member
  exact ⟨old, List.mem_of_mem_filter kept, same.symm⟩

theorem Ordered.step (h : Ordered order s) {a : Act n} (next : step order s a = some s') :
    Ordered order s' := by
  cases a with
  | loopActs i a =>
    obtain ⟨⟨allowed, -⟩, next⟩ := by simpa [HighPerformanceChat.step] using next
    obtain ⟨l, stepped, rfl⟩ := next
    have kept := h.kept i
    refine h.set ⟨EventLoop.step_queued kept.queued stepped, kept.sent, kept.erased⟩ ?_
    rw [queue_loopActs kept.queued allowed stepped]
  | runFunctor i =>
    rw [HighPerformanceChat.step] at next
    split at next
    · split at next
      · rename_i functor rest l taken stepped
        split at next
        · rename_i w called
          cases next
          have kept := h.kept i
          have held : Kept order { s.worker i with eventLoop := l } :=
            ⟨EventLoop.step_queued kept.queued stepped, kept.sent, kept.erased⟩
          obtain ⟨kept', loop, distributed⟩ := held.perform called
          obtain ⟨front, head, queue⟩ := EventLoop.queue_runFunctor stepped
          rw [taken] at head
          cases head
          refine h.set kept' ?_
          rw [loop, distributed, queue, List.append_assoc]
          exact congrArg _ (messages_append [functor] l.queue).symm
        · cases next
      · cases next
    · cases next
  | insert i conn =>
    simp only [HighPerformanceChat.step] at next
    split at next
    · cases next
      have kept := h.kept i
      refine h.set ⟨kept.queued, ?_, kept.erased⟩ rfl
      intro m member
      rcases List.mem_cons.mp member with rfl | member
      · exact .fresh conn
      · exact kept.sent m member
    · cases next
  | erase i conn =>
    simp only [HighPerformanceChat.step] at next
    split at next
    · cases next
      have kept := h.kept i
      refine h.set ⟨kept.queued, ?_, ?_⟩ rfl
      · intro m member
        rcases List.mem_append.mp member with here | gone
        · exact kept.sent m (List.mem_append_left _ (List.mem_of_mem_filter here))
        · rcases List.mem_append.mp gone with now | before
          · obtain ⟨old, here, rfl⟩ := mem_erased now
            exact (kept.sent old (List.mem_append_left _ here)).disconnect
          · exact kept.sent m (List.mem_append_right _ before)
      · intro m gone
        rcases List.mem_append.mp gone with now | before
        · obtain ⟨old, -, rfl⟩ := mem_erased now
          rfl
        · exact kept.erased m before
    · cases next
  | shutdown i conn =>
    simp only [HighPerformanceChat.step] at next
    split at next
    · cases next
      have kept := h.kept i
      refine h.set ⟨kept.queued, ?_, kept.erased⟩ rfl
      intro m member
      rcases List.mem_append.mp member with here | gone
      · obtain ⟨old, there, rfl⟩ := List.mem_map.mp here
        have sent := kept.sent old (List.mem_append_left _ there)
        split
        · exact sent.disconnect
        · exact sent
      · exact kept.sent m (List.mem_append_right _ gone)
    · cases next
  | lock i msg =>
    simp only [HighPerformanceChat.step] at next
    split at next
    · rename_i can
      obtain ⟨free, -, small⟩ := can
      cases next
      rw [Option.isNone_iff_eq_none] at free
      refine ⟨h.kept, ?_, ?_, ?_⟩
      · intro j
        have before := h.accounted j
        simp only [ChatServer.waiting, ChatServer.inFlight, free, List.append_nil] at before
        simp [ChatServer.waiting, ChatServer.inFlight, ← before]
      · intro p posting
        cases posting
        exact List.nodup_finRange n
      · intro m member
        rcases List.mem_append.mp member with old | new
        · exact h.short m old
        · rwa [List.mem_singleton.mp new]
    · cases next
  | postFuntor =>
    simp only [HighPerformanceChat.step] at next
    split at next
    · rename_i i msg j rest posting
      obtain ⟨l, stepped, rfl⟩ := Option.map_eq_some_iff.mp next
      have once := (List.nodup_cons.mp (h.once _ posting)).1
      have posts : l.queue = (s.worker j).eventLoop.queue ++ [.distributeMessage msg] := by
        split at stepped
        · exact EventLoop.step_queue_of_posts rfl stepped
        · exact EventLoop.step_queue_of_posts rfl stepped
      refine ⟨?_, ?_, ?_, h.short⟩
      · intro k
        by_cases here : k = j
        · subst here
          have kept := h.kept k
          simpa [ChatServer.set] using
            (⟨EventLoop.step_queued kept.queued stepped, kept.sent, kept.erased⟩ :
              Kept order { s.worker k with eventLoop := l })
        · simpa [ChatServer.set, here] using h.kept k
      · intro k
        have before := h.accounted k
        by_cases here : k = j
        · subst here
          simp only [ChatServer.waiting, ChatServer.inFlight, posting, List.mem_cons_self,
            if_true] at before
          simp only [ChatServer.waiting, ChatServer.inFlight, ChatServer.set,
            Function.update_self, posts, messages_append, if_neg once, List.append_nil]
          exact before
        · simpa [ChatServer.waiting, ChatServer.inFlight, ChatServer.set, posting, here] using
            before
      · intro p same
        cases same
        exact (List.nodup_cons.mp (h.once _ posting)).2
    · cases next
  | unlock =>
    simp only [HighPerformanceChat.step] at next
    split at next
    · rename_i i msg posting
      cases next
      refine ⟨h.kept, ?_, by simp, h.short⟩
      intro j
      have before := h.accounted j
      simpa [ChatServer.waiting, ChatServer.inFlight, posting] using before
    · cases next

end Steps

end HighPerformanceChat
end Arale
