import Mathlib.Data.List.Nodup
import Mathlib.Logic.Function.Basic
import Arale.Net.LoopEdges

/-!
# The chat server with one list of connections under a mutex

`ChatServerThreaded.cc`: a message is sent to all connections while its thread holds the
mutex. Those of the thread itself are sent to at once, the others through the loops of their
threads. Nothing is lost or doubled in whatever way the threads interleave, but a message that
is sent at once can overtake earlier ones that wait in the loop of the same thread.
-/

namespace Arale

open Schedules

namespace ThreadedChat

/-- `number` is a history: how many messages had taken the mutex before. -/
structure Message where
  number : Nat
  text : List UInt8
  deriving DecidableEq, Repr

/-- What waits in a loop: `TcpConnection::send` of another thread's message, or whatever else. -/
inductive Functor where
  | send (conn : Nat) (message : Message)
  | other
  deriving DecidableEq, Repr

/-- A connection. `connected` is `state_ == kConnected`, `output` what has been handed to its
`sendInLoop`, `joined` how many messages had taken the mutex when it was inserted. -/
structure Client (n : Nat) where
  thread : Fin n
  connected : Bool
  output : List Message
  joined : Nat

/-- `onMessage` in its critical section, with the connections its loop has not come to. -/
structure Sending (n : Nat) where
  thread : Fin n
  message : Message
  remaining : List Nat

/-- The server with `n` threads. `posted` is the history of the messages for which `mutex_` was
taken. -/
structure ChatServer (n : Nat) where
  eventLoop : Fin n → EventLoop Functor
  clients : List (Client n)
  connections : List Nat
  mutex : Option (Sending n)
  posted : List Message

def start (n : Nat) : ChatServer n := ⟨fun _ => .new, [], [], none, []⟩

inductive Act (n : Nat) where
  /-- whatever the loop of a thread does apart from running functors and sending messages -/
  | loopActs (i : Fin n) (a : EventLoop.Act Functor)
  | runFunctor (i : Fin n)
  /-- `onConnection`, UP -/
  | insert (i : Fin n)
  /-- a connection is shut down or closed; other threads may see that before its callback -/
  | leave (conn : Nat)
  /-- `onConnection`, DOWN -/
  | erase (conn : Nat)
  /-- `onMessage` takes `mutex_` -/
  | lock (i : Fin n) (text : List UInt8)
  /-- one round of its loop over `connections_` -/
  | sendMessage
  | unlock

variable {n : Nat}

/-- The thread is not inside the critical section of `onMessage`. -/
def ChatServer.Free (s : ChatServer n) (i : Fin n) : Prop := ∀ p ∈ s.mutex, p.thread ≠ i

instance (s : ChatServer n) (i : Fin n) : Decidable (s.Free i) := by
  unfold ChatServer.Free
  infer_instance

/-- The thread is in a callback of a connection. -/
def ChatServer.InCallback (s : ChatServer n) (i : Fin n) : Prop :=
  (s.eventLoop i).phase = .handling ∨ (s.eventLoop i).phase = .running

instance (s : ChatServer n) (i : Fin n) : Decidable (s.InCallback i) :=
  inferInstanceAs (Decidable (_ ∨ _))

def ChatServer.setLoop (s : ChatServer n) (i : Fin n) (l : EventLoop Functor) : ChatServer n :=
  { s with eventLoop := Function.update s.eventLoop i l }

/-- `sendInLoop` of a connection is called with a message. -/
def ChatServer.handTo (s : ChatServer n) (conn : Nat) (message : Message) : ChatServer n :=
  { s with clients := s.clients.modify conn fun c => { c with output := c.output ++ [message] } }

def ChatServer.isConnected (s : ChatServer n) (conn : Nat) : Bool :=
  match s.clients[conn]? with
  | some client => client.connected
  | none => false

/-- The functor a loop has taken is called: `send` looks at the state once more. -/
def perform (s : ChatServer n) : Functor → ChatServer n
  | .send conn message => if s.isConnected conn then s.handTo conn message else s
  | .other => s

/-- `codec_.sendMessage(*it, msg)` in the thread `i`. -/
def send (s : ChatServer n) (i : Fin n) (conn : Nat) (message : Message) :
    Option (ChatServer n) :=
  match s.clients[conn]? with
  | some client =>
    if client.connected then
      if client.thread = i then some (s.handTo conn message)
      else ((s.eventLoop client.thread).step (.otherPushes (.send conn message))).map
        (s.setLoop client.thread)
    else some s
  | none => none

def step (s : ChatServer n) : Act n → Option (ChatServer n)
  | .loopActs i a =>
    if (a.silent = true ∨ a.posts = some .other) ∧ (Quitting.byOther a = true ∨ s.Free i) then
      ((s.eventLoop i).step a).map (s.setLoop i)
    else none
  | .runFunctor i =>
    if s.Free i then
      match (s.eventLoop i).functors, (s.eventLoop i).step .runFunctor with
      | functor :: _, some l => some (perform (s.setLoop i l) functor)
      | _, _ => none
    else none
  | .insert i =>
    if s.mutex.isNone ∧ s.InCallback i then
      some { s with
        clients := s.clients ++ [⟨i, true, [], s.posted.length⟩]
        connections := s.clients.length :: s.connections }
    else none
  | .leave conn =>
    match s.clients[conn]? with
    | some client =>
      if s.Free client.thread ∧ s.InCallback client.thread then
        some { s with clients := s.clients.modify conn fun c => { c with connected := false } }
      else none
    | none => none
  | .erase conn =>
    match s.clients[conn]? with
    | some client =>
      if s.mutex.isNone ∧ s.InCallback client.thread ∧ client.connected = false then
        some { s with connections := s.connections.erase conn }
      else none
    | none => none
  | .lock i text =>
    if s.mutex.isNone ∧ (s.eventLoop i).phase = .handling then
      let message := ⟨s.posted.length, text⟩
      some { s with
        mutex := some ⟨i, message, s.connections⟩
        posted := s.posted ++ [message] }
    else none
  | .sendMessage =>
    match s.mutex with
    | some ⟨i, message, conn :: rest⟩ =>
      (send s i conn message).map fun s => { s with mutex := some ⟨i, message, rest⟩ }
    | _ => none
  | .unlock =>
    match s.mutex with
    | some ⟨_, _, []⟩ => some { s with mutex := none }
    | _ => none

/-! ## What a connection gets -/

/-- The message of a functor that is for this connection. -/
def sendsTo (conn : Nat) : Functor → Option Message
  | .send c message => if c = conn then some message else none
  | .other => none

/-- The messages for a connection that wait in its loop. -/
def ChatServer.waiting (s : ChatServer n) (conn : Nat) (client : Client n) : List Message :=
  (s.eventLoop client.thread).queue.filterMap (sendsTo conn)

/-- The message that is being sent, where its loop has not come to this connection. -/
def ChatServer.inFlight (s : ChatServer n) (conn : Nat) : List Message :=
  match s.mutex with
  | some p => if conn ∈ p.remaining then [p.message] else []
  | none => []

/-- What there is of a connection; `due` are the messages that have taken the mutex since it
was inserted. -/
structure View where
  connected : Bool
  output : List Message
  waiting : List Message
  inFlight : List Message
  due : List Message

def ChatServer.view (s : ChatServer n) (conn : Nat) (client : Client n) : View :=
  ⟨client.connected, client.output, s.waiting conn client, s.inFlight conn,
    s.posted.drop client.joined⟩

/-- What a step does to a connection. When it is handed a message at once and the step is
`alone`, none waits. -/
inductive Change (alone : Prop) : View → View → Prop where
  | stays (v : View) : Change alone v v
  | leaves (v : View) : Change alone v { v with connected := false }
  | runs (b : Bool) (o w f d : List Message) (m : Message) :
      Change alone ⟨b, o, m :: w, f, d⟩ ⟨b, if b then o ++ [m] else o, w, f, d⟩
  | locks (b : Bool) (o w d : List Message) (m : Message) (member : Bool)
      (all : b = true → member = true) :
      Change alone ⟨b, o, w, [], d⟩ ⟨b, o, w, if member then [m] else [], d ++ [m]⟩
  | hands (o w d : List Message) (m : Message) (none : alone → w = []) :
      Change alone ⟨true, o, w, [m], d⟩ ⟨true, o ++ [m], w, [], d⟩
  | posts (o w d : List Message) (m : Message) :
      Change alone ⟨true, o, w, [m], d⟩ ⟨true, o, w ++ [m], [], d⟩
  | skips (o w d : List Message) (m : Message) :
      Change alone ⟨false, o, w, [m], d⟩ ⟨false, o, w, [], d⟩

/-- Nothing is doubled, and nothing is lost on the way to a connection that is connected. -/
structure Balanced (v : View) : Prop where
  atMost : ∀ m, v.output.count m + v.waiting.count m + v.inFlight.count m ≤ v.due.count m
  all : v.connected = true →
    ∀ m, v.output.count m + v.waiting.count m + v.inFlight.count m = v.due.count m

/-- The messages of a connection are in the order in which they took the mutex. -/
def Ordered (v : View) : Prop := (v.output ++ v.waiting).Sublist v.due

section Changes
variable {alone : Prop} {v v' : View}

theorem Balanced.change (h : Balanced v) (change : Change alone v v') : Balanced v' := by
  have most := h.atMost
  have all := h.all
  cases change with
  | stays => exact h
  | leaves =>
    refine ⟨most, fun connected => ?_⟩
    cases connected
  | runs b o w f d m =>
    cases b with
    | true =>
      have same := all rfl
      simp only [List.count_cons] at same
      have moved : ∀ x, (o ++ [m]).count x + w.count x + f.count x = d.count x := by
        intro x
        rw [← same x, List.count_append, List.count_singleton]
        omega
      exact ⟨fun x => Nat.le_of_eq (moved x), fun _ => moved⟩
    | false =>
      simp only [List.count_cons] at most
      refine ⟨fun x => ?_, fun connected => by cases connected⟩
      have before := most x
      simp only [Bool.false_eq_true, if_false]
      omega
  | locks b o w d m member all' =>
    simp only [List.count_nil, Nat.add_zero] at most all
    cases member with
    | true =>
      refine ⟨fun x => ?_, fun connected x => ?_⟩
      · have before := most x
        simp only [if_true, List.count_append]
        omega
      · have before := all connected x
        simp only [if_true, List.count_append]
        omega
    | false =>
      refine ⟨fun x => ?_, fun connected => ?_⟩
      · have before := most x
        simp only [Bool.false_eq_true, if_false, List.count_append, List.count_nil]
        omega
      · cases all' connected
  | hands o w d m none =>
    have moved : ∀ x, (o ++ [m]).count x + w.count x + ([] : List Message).count x =
        d.count x := by
      intro x
      have before := all rfl x
      rw [List.count_append, List.count_nil]
      simp only at before
      omega
    exact ⟨fun x => Nat.le_of_eq (moved x), fun _ => moved⟩
  | posts o w d m =>
    have moved : ∀ x, o.count x + (w ++ [m]).count x + ([] : List Message).count x =
        d.count x := by
      intro x
      have before := all rfl x
      rw [List.count_append, List.count_nil]
      simp only at before
      omega
    exact ⟨fun x => Nat.le_of_eq (moved x), fun _ => moved⟩
  | skips o w d m =>
    refine ⟨fun x => ?_, fun connected => by cases connected⟩
    have before := most x
    simp only [List.count_nil] at before ⊢
    omega

/-- A message that is being sent is the last one, and the connection has not got it yet. -/
theorem Balanced.not_mem (h : Balanced v) (nodup : v.due.Nodup) {m : Message}
    (flying : v.inFlight = [m]) : m ∉ v.output ++ v.waiting := by
  intro member
  have most := h.atMost m
  have once := List.nodup_iff_count_le_one.mp nodup m
  have some : 0 < (v.output ++ v.waiting).count m := List.count_pos_iff.mpr member
  rw [List.count_append] at some
  rw [flying, List.count_singleton_self] at most
  omega

theorem sublist_of_last {xs before : List Message} {m : Message}
    (sublist : xs.Sublist (before ++ [m])) (absent : m ∉ xs) : xs.Sublist before := by
  obtain ⟨front, back, rfl, first, last⟩ := List.sublist_append_iff.mp sublist
  cases List.sublist_singleton.mp last with
  | inl nothing =>
    rw [nothing, List.append_nil]
    exact first
  | inr here => exact absurd (by simp [here]) absent

theorem Ordered.change (h : Ordered v) (change : Change alone v v') (balanced : Balanced v)
    (nodup : v.due.Nodup) (last : ∀ m, v.inFlight = [m] → ∃ before, v.due = before ++ [m])
    (holds : alone) : Ordered v' := by
  rw [Ordered] at h ⊢
  cases change with
  | stays => exact h
  | leaves => exact h
  | runs b o w f d m =>
    cases b with
    | true => simpa using h
    | false =>
      refine List.Sublist.trans ?_ h
      exact (List.sublist_cons_self m w).append_left o
  | locks b o w d m member all => exact h.trans (List.sublist_append_left d [m])
  | hands o w d m none =>
    obtain ⟨before, rfl⟩ := last m rfl
    have fresh := balanced.not_mem nodup rfl
    obtain rfl := none holds
    simp only [List.append_nil] at h fresh ⊢
    exact (sublist_of_last h fresh).append_right [m]
  | posts o w d m =>
    obtain ⟨before, rfl⟩ := last m rfl
    have fresh := balanced.not_mem nodup rfl
    rw [← List.append_assoc]
    exact (sublist_of_last h fresh).append_right [m]
  | skips => exact h

end Changes

/-! ## Steps -/

/-- The message that is being sent took the mutex last, after all that are sent to came. -/
structure SendingLast (s : ChatServer n) (p : Sending n) : Prop where
  nodup : p.remaining.Nodup
  last : ∃ before, s.posted = before ++ [p.message]
  joined : ∀ conn ∈ p.remaining, ∃ client, s.clients[conn]? = some client ∧
    client.joined < s.posted.length

/-- What every run keeps apart from the messages of a connection. -/
structure Kept (s : ChatServer n) : Prop where
  queued : ∀ i, (s.eventLoop i).Queued
  numbered : s.posted.map (·.number) = List.range s.posted.length
  joined : ∀ client ∈ s.clients, client.joined ≤ s.posted.length
  addressed : ∀ i conn m, .send conn m ∈ (s.eventLoop i).queue →
    ∃ client, s.clients[conn]? = some client ∧ client.thread = i
  nodup : s.connections.Nodup
  inserted : ∀ conn ∈ s.connections, conn < s.clients.length
  present : ∀ conn client, s.clients[conn]? = some client → client.connected = true →
    conn ∈ s.connections
  sending : ∀ p ∈ s.mutex, SendingLast s p

/-- No message is sent at once to a connection for which others wait. -/
def NoneOvertaken (s : ChatServer n) : Act n → Prop
  | .sendMessage => ∀ p ∈ s.mutex, ∀ conn ∈ p.remaining.head?, ∀ client ∈ s.clients[conn]?,
      client.connected = true → client.thread = p.thread → s.waiting conn client = []
  | _ => True

section Steps
variable {s t : ChatServer n} {i : Fin n} {l : EventLoop Functor} {conn : Nat}
  {client : Client n}

theorem waiting_setLoop : (s.setLoop i l).waiting conn client =
    if client.thread = i then l.queue.filterMap (sendsTo conn) else s.waiting conn client := by
  by_cases here : client.thread = i
  · subst here
    simp [ChatServer.waiting, ChatServer.setLoop]
  · simp [ChatServer.waiting, ChatServer.setLoop, here]

/-- A loop moves on without touching the messages for connections. -/
theorem Kept.setLoop (h : Kept s) (queued : l.Queued)
    (kept : ∀ conn m, .send conn m ∈ l.queue → .send conn m ∈ (s.eventLoop i).queue) :
    Kept (s.setLoop i l) := by
  refine ⟨fun j => ?_, h.numbered, h.joined, fun j conn m member => ?_, h.nodup, h.inserted,
    h.present, fun p holding => ?_⟩
  · by_cases here : j = i
    · subst here
      simpa [ChatServer.setLoop] using queued
    · simpa [ChatServer.setLoop, here] using h.queued j
  · by_cases here : j = i
    · subst here
      refine h.addressed j conn m (kept conn m ?_)
      simpa [ChatServer.setLoop] using member
    · refine h.addressed j conn m ?_
      simpa [ChatServer.setLoop, here] using member
  · have sending := h.sending p holding
    exact ⟨sending.nodup, sending.last, sending.joined⟩

/-- A change of a connection that neither moves it to another thread nor connects it again. -/
structure Tame (f : Client n → Client n) : Prop where
  thread : ∀ c, (f c).thread = c.thread
  joined : ∀ c, (f c).joined = c.joined
  connected : ∀ c, (f c).connected = true → c.connected = true

theorem tame_send (m : Message) :
    Tame fun c : Client n => { c with output := c.output ++ [m] } :=
  ⟨fun _ => rfl, fun _ => rfl, fun _ connected => connected⟩

theorem tame_leave : Tame fun c : Client n => { c with connected := false } :=
  ⟨fun _ => rfl, fun _ => rfl, fun _ connected => by cases connected⟩

theorem slot_modify {f : Client n → Client n} {target : Nat} {client' : Client n}
    (slot : (s.clients.modify target f)[conn]? = some client') :
    ∃ client, s.clients[conn]? = some client ∧
      client' = if target = conn then f client else client := by
  rw [List.getElem?_modify] at slot
  obtain ⟨client, here, rfl⟩ := Option.map_eq_some_iff.mp slot
  refine ⟨client, here, ?_⟩
  split <;> rfl

theorem slot_of_modify {f : Client n → Client n} (target : Nat)
    (slot : s.clients[conn]? = some client) :
    (s.clients.modify target f)[conn]? = some (if target = conn then f client else client) := by
  rw [List.getElem?_modify, slot]
  split <;> simp_all

theorem Kept.modify (h : Kept s) {f : Client n → Client n} (tame : Tame f) (target : Nat) :
    Kept { s with clients := s.clients.modify target f } := by
  have thread (client : Client n) (conn : Nat) :
      (if target = conn then f client else client).thread = client.thread := by
    split
    · exact tame.thread client
    · rfl
  have joined (client : Client n) (conn : Nat) :
      (if target = conn then f client else client).joined = client.joined := by
    split
    · exact tame.joined client
    · rfl
  refine ⟨h.queued, h.numbered, fun client' member => ?_, fun i conn m member => ?_, h.nodup,
    fun conn member => ?_, fun conn client' slot connected => ?_, fun p holding => ?_⟩
  · obtain ⟨conn, slot⟩ := List.mem_iff_getElem?.mp member
    obtain ⟨client, here, rfl⟩ := slot_modify slot
    rw [joined]
    exact h.joined client (List.mem_of_getElem? here)
  · obtain ⟨client, slot, same⟩ := h.addressed i conn m member
    exact ⟨_, slot_of_modify target slot, (thread client conn).trans same⟩
  · rw [List.length_modify]
    exact h.inserted conn member
  · obtain ⟨client, here, rfl⟩ := slot_modify slot
    apply h.present conn client here
    split at connected
    · exact tame.connected client connected
    · exact connected
  · have sending := h.sending p holding
    refine ⟨sending.nodup, sending.last, fun conn member => ?_⟩
    obtain ⟨client, slot, before⟩ := sending.joined conn member
    exact ⟨_, slot_of_modify target slot, by rw [joined]; exact before⟩

/-- Every connection is new or has changed as a step may change it. -/
def Follows (alone : Prop) (s t : ChatServer n) : Prop :=
  ∀ conn client', t.clients[conn]? = some client' →
    (s.clients[conn]? = none ∧ t.view conn client' = ⟨true, [], [], [], []⟩) ∨
      ∃ client, s.clients[conn]? = some client ∧
        Change alone (s.view conn client) (t.view conn client')

theorem follows_setLoop {alone : Prop} (same : ∀ conn,
      l.queue.filterMap (sendsTo conn) = (s.eventLoop i).queue.filterMap (sendsTo conn)) :
    Follows alone s (s.setLoop i l) := by
  intro conn client slot
  refine .inr ⟨client, slot, ?_⟩
  have view : (s.setLoop i l).view conn client = s.view conn client := by
    rw [ChatServer.view, waiting_setLoop, same conn]
    split
    · rename_i here
      rw [← here]
      rfl
    · rfl
  rw [view]
  exact .stays _

theorem loopActs_step (h : Kept s) {a : EventLoop.Act Functor}
    (allowed : a.silent = true ∨ a.posts = some .other)
    (next : (s.eventLoop i).step a = some l) :
    Kept (s.setLoop i l) ∧ Follows (NoneOvertaken s (.loopActs i a)) s (s.setLoop i l) := by
  have queue : l.queue = (s.eventLoop i).queue ∨ l.queue = (s.eventLoop i).queue ++ [.other] := by
    rcases allowed with silent | posts
    · exact .inl (EventLoop.step_queue_of_silent (h.queued i) silent next)
    · exact .inr (EventLoop.step_queue_of_posts posts next)
  refine ⟨h.setLoop (EventLoop.step_queued (h.queued i) next) fun conn m member => ?_,
    follows_setLoop fun conn => ?_⟩
  · rcases queue with same | longer
    · rwa [same] at member
    · rw [longer] at member
      simpa using member
  · rcases queue with same | longer
    · rw [same]
    · rw [longer, List.filterMap_append]
      exact List.append_nil _

theorem runFunctor_step (h : Kept s) {functor : Functor} {rest : List Functor}
    (taken : (s.eventLoop i).functors = functor :: rest)
    (next : (s.eventLoop i).step .runFunctor = some l) :
    Kept (perform (s.setLoop i l) functor) ∧
      Follows (NoneOvertaken s (.runFunctor i)) s (perform (s.setLoop i l) functor) := by
  obtain ⟨front, head, queue⟩ := EventLoop.queue_runFunctor next
  rw [taken] at head
  cases head
  have kept : Kept (s.setLoop i l) := by
    refine h.setLoop (EventLoop.step_queued (h.queued i) next) fun conn m member => ?_
    rw [queue]
    exact List.mem_cons_of_mem _ member
  cases functor with
  | other =>
    refine ⟨kept, follows_setLoop fun conn => ?_⟩
    rw [queue]
    rfl
  | send target m =>
    obtain ⟨addressee, there, thread⟩ := h.addressed i target m (by simp [queue])
    have others (conn : Nat) (client : Client n) (other : target ≠ conn) :
        (s.setLoop i l).view conn client = s.view conn client := by
      rw [ChatServer.view, waiting_setLoop]
      split
      · rename_i here
        subst here
        simp [ChatServer.view, ChatServer.waiting, queue, sendsTo, other, ChatServer.setLoop,
          ChatServer.inFlight]
      · rfl
    have waits : s.waiting target addressee = m :: (s.setLoop i l).waiting target addressee := by
      rw [waiting_setLoop, if_pos thread, ChatServer.waiting, thread, queue]
      simp [sendsTo]
    have runs : Change (NoneOvertaken s (.runFunctor i)) (s.view target addressee)
        ⟨addressee.connected, if addressee.connected then addressee.output ++ [m]
          else addressee.output, (s.setLoop i l).waiting target addressee, s.inFlight target,
          s.posted.drop addressee.joined⟩ := by
      rw [ChatServer.view, waits]
      exact .runs _ _ _ _ _ m
    have sees : (s.setLoop i l).isConnected target = addressee.connected := by
      simp [ChatServer.isConnected, ChatServer.setLoop, there]
    rw [perform, sees]
    split
    · rename_i connected
      rw [if_pos connected] at runs
      refine ⟨kept.modify (tame_send m) target, fun conn client' slot => ?_⟩
      obtain ⟨client, here, rfl⟩ := slot_modify slot
      refine .inr ⟨client, here, ?_⟩
      by_cases same : target = conn
      · subst same
        cases there.symm.trans here
        rw [if_pos rfl]
        exact runs
      · rw [if_neg same]
        have view := others conn client same
        exact view ▸ .stays _
    · rename_i off
      rw [if_neg off] at runs
      refine ⟨kept, fun conn client here => .inr ⟨client, here, ?_⟩⟩
      by_cases same : target = conn
      · subst same
        cases there.symm.trans here
        exact runs
      · rw [others conn client same]
        exact .stays _

theorem inFlight_of_free (free : s.mutex = none) (conn : Nat) : s.inFlight conn = [] := by
  rw [ChatServer.inFlight, free]

theorem insert_step (h : Kept s) (free : s.mutex = none) :
    Kept { s with
      clients := s.clients ++ [⟨i, true, [], s.posted.length⟩]
      connections := s.clients.length :: s.connections } ∧
    Follows (NoneOvertaken s (.insert i)) s { s with
      clients := s.clients ++ [⟨i, true, [], s.posted.length⟩]
      connections := s.clients.length :: s.connections } := by
  have grown {conn : Nat} {client : Client n} (slot : s.clients[conn]? = some client) :
      (s.clients ++ [⟨i, true, [], s.posted.length⟩])[conn]? = some client := by
    rwa [List.getElem?_append_left (List.getElem?_eq_some_iff.mp slot).1]
  have slots {conn : Nat} {client : Client n}
      (slot : (s.clients ++ [⟨i, true, [], s.posted.length⟩])[conn]? = some client) :
      s.clients[conn]? = some client ∨
        conn = s.clients.length ∧ client = ⟨i, true, [], s.posted.length⟩ := by
    rcases Nat.lt_or_ge conn s.clients.length with old | new
    · rw [List.getElem?_append_left old] at slot
      exact .inl slot
    · rw [List.getElem?_append_right new] at slot
      obtain ⟨zero, same⟩ := List.getElem?_eq_some_iff.mp slot
      rw [List.length_singleton] at zero
      rw [List.getElem_singleton] at same
      exact .inr ⟨by omega, same.symm⟩
  constructor
  · refine ⟨h.queued, h.numbered, fun client member => ?_, fun j conn m member => ?_, ?_,
      fun conn member => ?_, fun conn client slot connected => ?_, fun p holding => ?_⟩
    · rcases List.mem_append.mp member with old | new
      · exact h.joined client old
      · cases List.mem_singleton.mp new
        exact Nat.le_refl _
    · obtain ⟨client, slot, thread⟩ := h.addressed j conn m member
      exact ⟨client, grown slot, thread⟩
    · refine List.nodup_cons.mpr ⟨fun member => ?_, h.nodup⟩
      exact absurd (h.inserted _ member) (Nat.lt_irrefl _)
    · rw [List.length_append, List.length_singleton]
      rcases List.mem_cons.mp member with rfl | old
      · exact Nat.lt_succ_self _
      · exact Nat.lt_succ_of_lt (h.inserted conn old)
    · rcases slots slot with old | ⟨rfl, -⟩
      · exact List.mem_cons_of_mem _ (h.present conn client old connected)
      · exact List.mem_cons_self
    · rw [free] at holding
      cases holding
  · intro conn client slot
    rcases slots slot with old | ⟨rfl, rfl⟩
    · exact .inr ⟨client, old, .stays _⟩
    · refine .inl ⟨List.getElem?_eq_none (Nat.le_refl _), ?_⟩
      have nothing : s.waiting s.clients.length ⟨i, true, [], s.posted.length⟩ = [] := by
        rw [ChatServer.waiting, List.filterMap_eq_nil_iff]
        intro functor member
        cases functor with
        | other => rfl
        | send target m =>
          obtain ⟨client, there, -⟩ := h.addressed i target m member
          have inside := (List.getElem?_eq_some_iff.mp there).1
          exact if_neg (by omega)
      have quiet := inFlight_of_free free s.clients.length
      have due : s.posted.drop s.posted.length = [] := List.drop_length
      change View.mk true []
        (s.waiting s.clients.length (⟨i, true, [], s.posted.length⟩ : Client n))
        (s.inFlight s.clients.length) (s.posted.drop s.posted.length) = _
      rw [nothing, quiet, due]

theorem lock_step (h : Kept s) (free : s.mutex = none) (text : List UInt8) :
    Kept { s with
      mutex := some ⟨i, ⟨s.posted.length, text⟩, s.connections⟩
      posted := s.posted ++ [⟨s.posted.length, text⟩] } ∧
    Follows (NoneOvertaken s (.lock i text)) s { s with
      mutex := some ⟨i, ⟨s.posted.length, text⟩, s.connections⟩
      posted := s.posted ++ [⟨s.posted.length, text⟩] } := by
  have longer : (s.posted ++ [(⟨s.posted.length, text⟩ : Message)]).length =
      s.posted.length + 1 := by simp
  constructor
  · refine ⟨h.queued, ?_, fun client member => ?_, h.addressed, h.nodup, h.inserted, h.present,
      fun p holding => ?_⟩
    · rw [longer, List.range_succ, ← h.numbered, List.map_append]
      rfl
    · rw [longer]
      exact Nat.le_succ_of_le (h.joined client member)
    · cases holding
      refine ⟨h.nodup, ⟨s.posted, rfl⟩, fun conn member => ?_⟩
      have inside := h.inserted conn member
      refine ⟨s.clients[conn], List.getElem?_eq_getElem inside, ?_⟩
      rw [longer]
      exact Nat.lt_succ_of_le (h.joined _ (List.getElem_mem inside))
  · intro conn client slot
    refine .inr ⟨client, slot, ?_⟩
    have joined := h.joined client (List.mem_of_getElem? slot)
    rw [ChatServer.view, inFlight_of_free free, ChatServer.view,
      List.drop_append_of_le_length joined]
    have member (connected : client.connected = true) : decide (conn ∈ s.connections) = true :=
      decide_eq_true (h.present conn client slot connected)
    have locks := @Change.locks (NoneOvertaken s (.lock i text)) _ client.output
      (s.waiting conn client) (s.posted.drop client.joined) ⟨s.posted.length, text⟩ _ member
    simp only [decide_eq_true_eq] at locks
    exact locks

theorem leave_step (h : Kept s) (target : Nat) :
    Kept { s with clients := s.clients.modify target fun c => { c with connected := false } } ∧
    Follows (NoneOvertaken s (.leave target)) s
      { s with clients := s.clients.modify target fun c => { c with connected := false } } := by
  refine ⟨h.modify tame_leave target, fun conn client' slot => ?_⟩
  obtain ⟨client, here, rfl⟩ := slot_modify slot
  refine .inr ⟨client, here, ?_⟩
  split
  · exact .leaves (s.view conn client)
  · exact .stays (s.view conn client)

theorem erase_step (h : Kept s) {target : Nat} (slot : s.clients[target]? = some client)
    (free : s.mutex = none) (off : client.connected = false) :
    Kept { s with connections := s.connections.erase target } ∧
    Follows (NoneOvertaken s (.erase target)) s
      { s with connections := s.connections.erase target } := by
  refine ⟨⟨h.queued, h.numbered, h.joined, h.addressed, h.nodup.erase target, ?_, ?_, ?_⟩,
    fun conn client here => .inr ⟨client, here, .stays _⟩⟩
  · exact fun conn member => h.inserted conn (List.mem_of_mem_erase member)
  · intro conn client' here connected
    refine (List.mem_erase_of_ne ?_).mpr (h.present conn client' here connected)
    rintro rfl
    cases slot.symm.trans here
    rw [off] at connected
    cases connected
  · intro p holding
    rw [free] at holding
    cases holding

theorem unlock_step (h : Kept s) {p : Sending n} (holding : s.mutex = some p)
    (through : p.remaining = []) :
    Kept { s with mutex := none } ∧
      Follows (NoneOvertaken s .unlock) s { s with mutex := none } := by
  refine ⟨⟨h.queued, h.numbered, h.joined, h.addressed, h.nodup, h.inserted, h.present,
    fun p free => by cases free⟩, fun conn client here => .inr ⟨client, here, ?_⟩⟩
  have quiet : s.inFlight conn = [] := by simp [ChatServer.inFlight, holding, through]
  have view : s.view conn client = ⟨client.connected, client.output, s.waiting conn client, [],
      s.posted.drop client.joined⟩ := by
    rw [ChatServer.view, quiet]
  rw [view]
  exact .stays _

theorem Kept.advance (h : Kept s) {m : Message} {rest : List Nat}
    (holding : s.mutex = some ⟨i, m, conn :: rest⟩) :
    Kept { s with mutex := some ⟨i, m, rest⟩ } := by
  refine ⟨h.queued, h.numbered, h.joined, h.addressed, h.nodup, h.inserted, h.present, ?_⟩
  intro p now
  cases now
  have sending := h.sending _ holding
  exact ⟨(List.nodup_cons.mp sending.nodup).2, sending.last,
    fun c member => sending.joined c (List.mem_cons_of_mem _ member)⟩

theorem view_advance (u : ChatServer n) (m : Message) (rest : List Nat) (c : Nat)
    (client : Client n) : ChatServer.view { u with mutex := some ⟨i, m, rest⟩ } c client =
      { u.view c client with inFlight := if c ∈ rest then [m] else [] } := rfl

/-- A message for a connection has been handed to the loop of its thread. -/
theorem Kept.setLoop_send (h : Kept s) (queued : l.Queued)
    (slot : s.clients[conn]? = some client) {m : Message}
    (queue : l.queue = (s.eventLoop client.thread).queue ++ [.send conn m]) :
    Kept (s.setLoop client.thread l) := by
  refine ⟨fun j => ?_, h.numbered, h.joined, fun j c m' member => ?_, h.nodup, h.inserted,
    h.present, fun p holding => ?_⟩
  · by_cases here : j = client.thread
    · subst here
      simpa [ChatServer.setLoop] using queued
    · simpa [ChatServer.setLoop, here] using h.queued j
  · by_cases here : j = client.thread
    · subst here
      have waits : .send c m' ∈ (s.eventLoop client.thread).queue ++ [.send conn m] := by
        rw [← queue]
        simpa [ChatServer.setLoop] using member
      rcases List.mem_append.mp waits with old | new
      · exact h.addressed _ c m' old
      · cases List.mem_singleton.mp new
        exact ⟨client, slot, rfl⟩
    · refine h.addressed j c m' ?_
      simpa [ChatServer.setLoop, here] using member
  · have sending := h.sending p holding
    exact ⟨sending.nodup, sending.last, sending.joined⟩

/-- One round of the loop over `connections_`. -/
theorem sendMessage_step (h : Kept s) {m : Message} {rest : List Nat}
    (holding : s.mutex = some ⟨i, m, conn :: rest⟩) {u : ChatServer n}
    (sent : send s i conn m = some u) :
    Kept { u with mutex := some ⟨i, m, rest⟩ } ∧
      Follows (NoneOvertaken s .sendMessage) s { u with mutex := some ⟨i, m, rest⟩ } := by
  have sending := h.sending _ holding
  have once : conn ∉ rest := (List.nodup_cons.mp sending.nodup).1
  have before : s.inFlight conn = [m] := by simp [ChatServer.inFlight, holding]
  have elsewhere {c : Nat} (other : conn ≠ c) :
      s.inFlight c = if c ∈ rest then [m] else [] := by
    simp [ChatServer.inFlight, holding, Ne.symm other]
  rw [send] at sent
  split at sent
  · rename_i client slot
    split at sent
    · rename_i connected
      split at sent
      · -- a connection of the thread itself
        rename_i own
        cases sent
        refine ⟨(h.modify (tame_send m) conn).advance holding, fun c client' slot' => ?_⟩
        obtain ⟨client₀, here, rfl⟩ := slot_modify slot'
        refine .inr ⟨client₀, here, ?_⟩
        by_cases same : conn = c
        · subst same
          cases slot.symm.trans here
          have hands := Change.hands client.output (s.waiting conn client)
            (s.posted.drop client.joined) m fun alone : NoneOvertaken s .sendMessage =>
              alone _ holding conn rfl client slot connected own
          rw [← connected] at hands
          rw [if_pos rfl, view_advance, if_neg once, ChatServer.view, before]
          exact hands
        · rw [if_neg same, view_advance, ← elsewhere same]
          exact .stays (s.view c client₀)
      · -- a connection of another thread
        rename_i foreign
        obtain ⟨l, pushed, rfl⟩ := Option.map_eq_some_iff.mp sent
        have queue := EventLoop.step_queue_of_posts rfl pushed
        have queued := EventLoop.step_queued (h.queued client.thread) pushed
        refine ⟨(h.setLoop_send queued slot queue).advance holding, fun c client' here => ?_⟩
        refine .inr ⟨client', here, ?_⟩
        rw [view_advance]
        by_cases same : conn = c
        · subst same
          cases slot.symm.trans here
          have posts := @Change.posts (NoneOvertaken s .sendMessage) client.output
            (s.waiting conn client) (s.posted.drop client.joined) m
          have waits : (s.setLoop client.thread l).waiting conn client =
              s.waiting conn client ++ [m] := by
            rw [waiting_setLoop, if_pos rfl, queue, List.filterMap_append]
            simp [ChatServer.waiting, sendsTo]
          rw [← connected, ← waits] at posts
          rw [if_neg once, ChatServer.view, before]
          exact posts
        · have waits : (s.setLoop client.thread l).waiting c client' = s.waiting c client' := by
            rw [waiting_setLoop]
            split
            · rename_i there
              rw [queue, List.filterMap_append, ChatServer.waiting, there]
              simp [sendsTo, same]
            · rfl
          have view : (s.setLoop client.thread l).view c client' = s.view c client' := by
            rw [ChatServer.view, waits]
            rfl
          rw [view, ← elsewhere same]
          exact .stays (s.view c client')
    · -- a connection that is not connected any more
      rename_i off
      cases sent
      refine ⟨h.advance holding, fun c client' here => .inr ⟨client', here, ?_⟩⟩
      by_cases same : conn = c
      · subst same
        cases slot.symm.trans here
        have skips := @Change.skips (NoneOvertaken s .sendMessage) client.output
          (s.waiting conn client) (s.posted.drop client.joined) m
        have down : client.connected = false := by simpa using off
        rw [← down] at skips
        rw [view_advance, if_neg once, ChatServer.view, before]
        exact skips
      · rw [view_advance, ← elsewhere same]
        exact .stays (s.view c client')
  · cases sent

theorem step_follows (h : Kept s) {a : Act n} (next : step s a = some t) :
    Kept t ∧ Follows (NoneOvertaken s a) s t := by
  cases a with
  | loopActs i a =>
    obtain ⟨⟨allowed, -⟩, l, moved, rfl⟩ := by simpa [step] using next
    exact loopActs_step h allowed moved
  | runFunctor i =>
    simp only [step] at next
    split at next
    · split at next
      · rename_i taken moved
        cases next
        exact runFunctor_step h taken moved
      · cases next
    · cases next
  | insert i =>
    simp only [step] at next
    obtain ⟨⟨free, -⟩, ⟨⟩⟩ := Option.ite_none_right_eq_some.mp next
    exact insert_step h (Option.isNone_iff_eq_none.mp free)
  | leave conn =>
    simp only [step] at next
    split at next
    · obtain ⟨-, ⟨⟩⟩ := Option.ite_none_right_eq_some.mp next
      exact leave_step h conn
    · cases next
  | erase conn =>
    simp only [step] at next
    split at next
    · rename_i client slot
      obtain ⟨⟨free, -, off⟩, ⟨⟩⟩ := Option.ite_none_right_eq_some.mp next
      exact erase_step h slot (Option.isNone_iff_eq_none.mp free) off
    · cases next
  | lock i text =>
    simp only [step] at next
    obtain ⟨⟨free, -⟩, ⟨⟩⟩ := Option.ite_none_right_eq_some.mp next
    exact lock_step h (Option.isNone_iff_eq_none.mp free) text
  | sendMessage =>
    simp only [step] at next
    split at next
    · rename_i holding
      obtain ⟨u, sent, rfl⟩ := Option.map_eq_some_iff.mp next
      exact sendMessage_step h holding sent
    · cases next
  | unlock =>
    simp only [step] at next
    split at next
    · rename_i holding
      cases next
      exact unlock_step h holding rfl
    · cases next

/-- What every run keeps: nothing is lost or doubled. -/
structure Delivering (s : ChatServer n) : Prop extends Kept s where
  balanced : ∀ conn client, s.clients[conn]? = some client → Balanced (s.view conn client)

theorem Delivering.step (h : Delivering s) {a : Act n} (next : step s a = some t) :
    Delivering t := by
  obtain ⟨kept, follows⟩ := step_follows h.toKept next
  refine ⟨kept, fun conn client slot => ?_⟩
  rcases follows conn client slot with ⟨-, fresh⟩ | ⟨client₀, before, change⟩
  · rw [fresh]
    exact ⟨fun _ => Nat.le_refl _, fun _ _ => rfl⟩
  · exact (h.balanced conn client₀ before).change change

end Steps

/-- Two clients of different threads, each with a message: they get the two in different
orders. -/
example : (run step (start 2) [.loopActs 0 .loop, .loopActs 0 (.pollReturns false),
      .loopActs 1 .loop, .loopActs 1 (.pollReturns false), .insert 0, .insert 1,
      .lock 0 [65], .sendMessage, .sendMessage, .unlock,
      .lock 1 [66], .sendMessage, .sendMessage, .unlock,
      .loopActs 0 .doPendingFunctors, .loopActs 0 .swap, .runFunctor 0,
      .loopActs 1 .doPendingFunctors, .loopActs 1 .swap, .runFunctor 1]).map
    (fun s => s.clients.map fun client => client.output.map (·.number)) =
      some [[0, 1], [1, 0]] := rfl

end ThreadedChat
end Arale
