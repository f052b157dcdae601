import Arale.Net.ServedSteps

/-!
# Connections of one loop, and their silence after DOWN

`activeChannels_` is filled before the handlers run, and a handler of one connection may
close another one whose turn is still to come: its read callback then delivers bytes to a
connection that has been told it is down. Each connection carries the phase of the common
loop and its own part of the queue and of the wake-up counter; the loop thread moves all
parts together and dispatches one channel at a time.
-/

namespace Arale

namespace LoopOfConnections

inductive Act where
  /-- one connection's own step, or a call on it by a handler of any other -/
  | on (i : Nat) (a : ServedConnection.Act)
  /-- `poll` returns, with what it found for each connection -/
  | poll (found : List (Bool × Option (BitVec 32)))
  /-- the loop thread moves on inside `loop()` -/
  | advance (a : EventLoop.Act ConnFunctor)

/-- The steps a connection takes without the others. -/
def isOwn : ServedConnection.Act → Bool
  | .poll _ _ => false
  | .advance .handleWakeup => true
  | .advance _ => false
  | _ => true

/-- A channel is dispatched when the one before it is done. -/
def hasTurn (family : List ServedConnection) : ServedConnection.Act → Bool
  | .handleEvent => family.all fun w => w.handlers.isEmpty
  | _ => true

def step (family : List ServedConnection) : Act → Option (List ServedConnection)
  | .on i a =>
    if isOwn a && hasTurn family a then Schedules.stepAt ServedConnection.step family i a else none
  | .poll found =>
    Schedules.stepAll ServedConnection.step family (found.map fun f => .poll f.1 f.2)
  | .advance a =>
    Schedules.stepAll ServedConnection.step family (family.map fun _ => .advance a)

/-- Established connections of a loop that has not been entered. -/
def start (memory : Nat → UInt8) (sameLoop : Bool) (conns : List (Int × ConnOptions)) :
    List ServedConnection :=
  conns.map fun conn => .start conn.1 conn.2 memory sameLoop

end LoopOfConnections

/-- No message is delivered after DOWN. -/
def Silent (notices : List Notice) : Prop :=
  ∀ before after, notices = before ++ .connectionCallback false :: after →
    .messageCallback ∉ after

/-- A read callback is left to run after the action: in the callbacks of the channel that
is being dispatched, or because its turn in the batch is still to come. -/
def ServedConnection.readDue (w : ServedConnection) (a : ServedConnection.Act) : Prop :=
  .read ∈ w.handlersAfter a ∨
    (w.activeAfter a = true ∧ .read ∈ w.conn.readWriteChannel.handleEvent true)

instance (w : ServedConnection) (a : ServedConnection.Act) : Decidable (w.readDue a) :=
  inferInstanceAs (Decidable (_ ∨ _))

/-- A connection is closed only while no read callback is left to run, and reading is not
started on a closed one. -/
structure ClosesQuietly (w : ServedConnection) (a : ServedConnection.Act) : Prop where
  closing : w.conn.state ≠ .kDisconnected → (w.deed a).state w.conn = .kDisconnected →
    ¬ w.readDue a
  closed : w.conn.state = .kDisconnected →
    w.deed a ≠ .startReadInLoop ∧ w.deed a ≠ .call true .startRead

namespace SilenceAfterDown

/-! ## Notices -/

theorem silent_append {old new : List Notice} (silent : Silent old)
    (quiet : .messageCallback ∉ new) : Silent (old ++ new) := by
  intro before after heq
  rw [List.append_eq_append_iff] at heq
  rcases heq with ⟨middle, -, tail⟩ | ⟨middle, split, tail⟩
  · intro message
    exact quiet (by rw [tail]; simp [message])
  · cases middle with
    | nil =>
      intro message
      refine quiet ?_
      simp only [List.nil_append] at tail
      rw [← tail]
      exact List.mem_cons_of_mem _ message
    | cons n middle =>
      simp only [List.cons_append, List.cons.injEq] at tail
      obtain ⟨rfl, rfl⟩ := tail
      rw [List.mem_append]
      rintro (message | message)
      · exact silent before middle split message
      · exact quiet message

theorem silent_of_up {notices : List Notice} (up : .connectionCallback false ∉ notices) :
    Silent notices := by
  rintro before after rfl
  exact absurd (by simp) up

/-- Messages are delivered by `handleRead` alone. -/
theorem read_of_message {c : TcpConnection} {d : Deed} (message : .messageCallback ∈ d.notices c) :
    ∃ r, d = .handleRead r := by
  cases d with
  | handleRead r => exact ⟨r, rfl⟩
  | connectionDestroyed =>
    simp only [Deed.notices] at message
    split at message <;> simp at message
  | handleClose | forceCloseInLoop | delayedClose =>
    simp only [Deed.notices, Deed.closing, TcpConnection.failure] at message
    grind
  | call inLoop asked =>
    cases inLoop <;> cases asked <;> simp only [Deed.notices, TcpConnection.failure] at message <;>
      grind
  | idle | send | sendFromOther | sendBufferFromOther | handleError | handleWrite | sendInLoop
  | shutdownInLoop | startReadInLoop | stopReadInLoop => cases message

/-- `handleRead` is run by the channel alone. -/
theorem due_of_read {w : ServedConnection} {a : ServedConnection.Act} {r : ReadOutcome}
    (reads : w.deed a = .handleRead r) : .read ∈ w.handlers := by
  cases a with
  | runHandler r' o =>
    simp only [ServedConnection.deed] at reads
    split at reads
    · cases reads
    · rename_i handler rest handlers
      cases handler with
      | read => simp [handlers]
      | _ => cases reads
  | runFunctor o =>
    simp only [ServedConnection.deed] at reads
    split at reads
    · cases reads
    · rename_i functor rest functors
      cases functor <;> cases reads
  | _ => cases reads

/-! ## The channel of a closed connection -/

/-- The channel asks for nothing but writing. -/
def WriteOnly (ch : Channel) : Prop := ch.events &&& ~~~kWriteEvent = 0#32

theorem eq_and_of_and_not {x y : BitVec 32} (h : x &&& ~~~y = 0#32) : x = x &&& y := by
  ext i hi
  have bit := congrArg (fun v : BitVec 32 => v[i]) h
  simp only [BitVec.getElem_and, BitVec.getElem_not, BitVec.getElem_zero] at bit
  simp only [BitVec.getElem_and]
  cases hx : x[i] <;> cases hy : y[i] <;> simp_all

theorem writeOnly_apply {ch : Channel} (only : WriteOnly ch) {call : InterestCall}
    (other : call ≠ .enableRead) : WriteOnly (ch.apply call) := by
  have cleared : kWriteEvent &&& ~~~kWriteEvent = 0#32 := by decide
  cases call with
  | enableRead => exact absurd rfl other
  | disableRead =>
    simp only [WriteOnly, Channel.apply, Channel.disableRead, Channel.update]
    rw [BitVec.and_assoc, BitVec.and_comm (~~~kReadEvent), ← BitVec.and_assoc, only,
      BitVec.zero_and]
  | enableWrite =>
    simp only [WriteOnly, Channel.apply, Channel.enableWrite, Channel.update,
      BitVec.and_or_distrib_right, cleared, BitVec.or_zero]
    exact only
  | disableWrite =>
    simp only [WriteOnly, Channel.apply, Channel.disableWrite, Channel.update, BitVec.and_assoc,
      cleared, BitVec.and_zero]
  | disableAll => simp [WriteOnly, Channel.apply, Channel.disableAll, Channel.update, kNoneEvent]

theorem writeOnly_calls {ch : Channel} (only : WriteOnly ch) {calls : List InterestCall}
    (others : .enableRead ∉ calls) : WriteOnly (calls.foldl Channel.apply ch) := by
  induction calls generalizing ch with
  | nil => exact only
  | cons call calls ih =>
    simp only [List.mem_cons, not_or] at others
    exact ih (writeOnly_apply only (Ne.symm others.1)) others.2

/-- Read interest is asked for by `startRead` alone. -/
theorem starts_of_enableRead {c : TcpConnection} {d : Deed} (asks : .enableRead ∈ d.interest c) :
    d = .startReadInLoop ∨ d = .call true .startRead := by
  cases d with
  | startReadInLoop => exact .inl rfl
  | call inLoop asked =>
    cases inLoop <;> cases asked <;> simp only [Deed.interest] at asks <;> grind
  | idle | sendFromOther | sendBufferFromOther | handleError | shutdownInLoop => cases asks
  | send | sendInLoop | handleWrite | stopReadInLoop | handleClose | forceCloseInLoop | handleRead
  | delayedClose | connectionDestroyed =>
    simp only [Deed.interest, Deed.buffering] at asks
    grind

/-- No call changes what `handleEvent` reads. -/
theorem handleEvent_calls (ch : Channel) (calls : List InterestCall) (alive : Bool) :
    (calls.foldl Channel.apply ch).handleEvent alive = ch.handleEvent alive := by
  induction calls generalizing ch with
  | nil => rfl
  | cons call calls ih =>
    rw [List.foldl_cons, ih]
    cases call <;> rfl

/-- The read callback is for a readable descriptor. -/
theorem readable_of_read {ch : Channel} (read : .read ∈ ch.handleEvent true) :
    anyBit (ch.revents &&& (POLLIN ||| POLLPRI ||| POLLRDHUP)) = true := by
  by_contra not
  simp only [Channel.handleEvent, Channel.handleEventWithGuard, if_neg not] at read
  split at read
  · cases read
  · simp at read

/-- A channel that asks for nothing but writing is not reported readable. -/
theorem read_not_reported {w : ServedConnection} {revents : BitVec 32}
    (only : WriteOnly w.conn.readWriteChannel) (reported : w.canReport revents = true) :
    .read ∉ (w.conn.readWriteChannel.set_revents revents).handleEvent true := by
  have within : revents &&& ~~~(w.conn.readWriteChannel.events |||
      (POLLERR ||| POLLHUP ||| POLLNVAL)) = 0#32 := by
    simp only [ServedConnection.canReport, Bool.and_eq_true, beq_iff_eq] at reported
    exact reported.2
  have writes := eq_and_of_and_not only
  have apart : kWriteEvent &&& (POLLIN ||| POLLPRI ||| POLLRDHUP) = 0#32 := by decide
  have others : (POLLERR ||| POLLHUP ||| POLLNVAL) &&& (POLLIN ||| POLLPRI ||| POLLRDHUP) =
      0#32 := by decide
  have silent : revents &&& (POLLIN ||| POLLPRI ||| POLLRDHUP) = 0#32 := by
    rw [eq_and_of_and_not within, BitVec.and_assoc, BitVec.and_or_distrib_right, others, writes,
      BitVec.and_assoc, apart]
    simp
  intro read
  have readable := readable_of_read read
  simp [Channel.set_revents, silent, anyBit] at readable

/-! ## Runs -/

/-- A closed connection asks for nothing but writing and has no read callback left. -/
structure Hushed (w : ServedConnection) : Prop where
  queued : w.conn.loop.Queued
  silent : Silent w.conn.notices
  down : .connectionCallback false ∈ w.conn.notices → w.conn.state = .kDisconnected
  writeOnly : w.conn.state = .kDisconnected → WriteOnly w.conn.readWriteChannel
  handlers : w.conn.state = .kDisconnected → .read ∉ w.handlers
  active : w.conn.state = .kDisconnected → w.active = true →
    .read ∉ w.conn.readWriteChannel.handleEvent true

theorem start_hushed (sockfd : Int) (options : ConnOptions) (memory : Nat → UInt8)
    (sameLoop : Bool) : Hushed (.start sockfd options memory sameLoop) := by
  have notices : (ServedConnection.start sockfd options memory sameLoop).conn.notices =
      [.connectionCallback true] := rfl
  have up : .connectionCallback false ∉
      (ServedConnection.start sockfd options memory sameLoop).conn.notices := by simp [notices]
  exact ⟨EventLoop.new_queued, silent_of_up up, fun down => absurd down up, nofun, nofun, nofun⟩

section Steps
variable {w t : ServedConnection} {a : ServedConnection.Act} {loop : EventLoop ConnFunctor}

/-- The channel after a step, by the calls of its deed. -/
theorem channel_after (p : ServedConnection.Performed w a t loop) :
    Deed.SameInterest (((w.deed a).interest (w.ready a loop)).foldl Channel.apply (w.polled a))
      t.conn.readWriteChannel := by
  rw [p.conn]
  exact Deed.channel_effect (w.ready a loop) (w.deed a)

theorem handleEvent_after (p : ServedConnection.Performed w a t loop) :
    t.conn.readWriteChannel.handleEvent true = (w.polled a).handleEvent true := by
  obtain ⟨inLoop, same⟩ := channel_after p
  rw [same]
  exact handleEvent_calls _ _ true

theorem silent_after (hushed : Hushed w) (p : ServedConnection.Performed w a t loop) :
    Silent t.conn.notices := by
  rw [p.notices]
  by_cases message : .messageCallback ∈ (w.deed a).notices w.conn
  · obtain ⟨r, reads⟩ := read_of_message message
    -- a connection that has been down is closed, and has no read callback left
    have up : .connectionCallback false ∉ w.conn.notices := fun down =>
      hushed.handlers (hushed.down down) (due_of_read reads)
    refine silent_of_up fun down => ?_
    rcases List.mem_append.mp down with old | new
    · exact up old
    · simp only [reads, Deed.notices] at message new
      split at new
      · rename_i eof
        simp [eof, Deed.closing, TcpConnection.failure] at message
      · simp at new
  · exact silent_append hushed.silent message

theorem down_after (hushed : Hushed w) (p : ServedConnection.Performed w a t loop)
    (down : .connectionCallback false ∈ t.conn.notices) : t.conn.state = .kDisconnected := by
  rw [p.notices] at down
  rw [p.state]
  rcases List.mem_append.mp down with old | new
  · exact Deed.state_of_disconnected (hushed.down old) _
  · exact Deed.state_of_down new

/-- The step that closes the connection. -/
theorem closing_hushed (hushed : Hushed w) (p : ServedConnection.Performed w a t loop)
    (before : w.conn.state ≠ .kDisconnected) (after : t.conn.state = .kDisconnected)
    (quiet : ClosesQuietly w a) : Hushed t := by
  have closes : (w.deed a).state w.conn = .kDisconnected := p.state.symm.trans after
  have notDue := quiet.closing before closes
  simp only [ServedConnection.readDue, not_or, not_and] at notDue
  have calls : (w.deed a).interest (w.ready a loop) = [.disableAll] :=
    Deed.interest_of_closes (c := w.ready a loop) before closes
  have polled : w.polled a = w.conn.readWriteChannel := by
    cases a with
    | poll => exact absurd closes before
    | _ => rfl
  refine ⟨p.loop_queued, silent_after hushed p, down_after hushed p, fun _ => ?_, fun _ => ?_,
    fun _ active => ?_⟩
  · obtain ⟨inLoop, same⟩ := channel_after p
    rw [same, calls]
    simp [WriteOnly, Channel.apply, Channel.disableAll, Channel.update, kNoneEvent]
  · rw [p.handlers]
    exact notDue.1
  · rw [handleEvent_after p, polled]
    exact notDue.2 (p.active ▸ active)

/-- A step on a connection that is closed already. -/
theorem closed_hushed (hushed : Hushed w) (p : ServedConnection.Performed w a t loop)
    (next : w.step a = some t) (closed : w.conn.state = .kDisconnected)
    (quiet : ClosesQuietly w a) : Hushed t := by
  have only : WriteOnly (w.polled a) := by
    rw [WriteOnly, w.polled_events]
    exact hushed.writeOnly closed
  have noRead : .enableRead ∉ (w.deed a).interest (w.ready a loop) := by
    intro asks
    rcases starts_of_enableRead asks with starts | starts
    · exact (quiet.closed closed).1 starts
    · exact (quiet.closed closed).2 starts
  refine ⟨p.loop_queued, silent_after hushed p, down_after hushed p, fun _ => ?_, fun _ => ?_,
    fun _ active => ?_⟩
  · obtain ⟨inLoop, same⟩ := channel_after p
    rw [same]
    exact writeOnly_calls only noRead
  · rw [p.handlers]
    cases a with
    | handleEvent =>
      cases ServedConnection.step_stepped hushed.queued next with
      | handleEvent turn => exact hushed.active closed turn.1
    | runHandler r o => exact fun due => hushed.handlers closed (List.mem_of_mem_tail due)
    | _ => exact hushed.handlers closed
  · rw [handleEvent_after p]
    rw [p.active] at active
    cases a with
    | poll wakeup revents =>
      cases revents with
      | none => exact hushed.active closed active
      | some revents =>
        cases ServedConnection.step_stepped hushed.queued next with
        | report _ _ may => exact read_not_reported (hushed.writeOnly closed) may
    | handleEvent => cases active
    | _ => exact hushed.active closed active

theorem step_hushed (hushed : Hushed w) (quiet : ClosesQuietly w a) (next : w.step a = some t) :
    Hushed t := by
  obtain ⟨loop, p⟩ := ServedConnection.step_performed hushed.queued next
  by_cases closed : w.conn.state = .kDisconnected
  · exact closed_hushed hushed p next closed quiet
  · by_cases after : t.conn.state = .kDisconnected
    · exact closing_hushed hushed p closed after quiet
    · exact ⟨p.loop_queued, silent_after hushed p, down_after hushed p,
        fun now => absurd now after, fun now => absurd now after, fun now => absurd now after⟩

/-- The common steps of the loop run no member function. -/
theorem closesQuietly_of_idle (idle : w.deed a = .idle) : ClosesQuietly w a := by
  refine ⟨fun before closes => ?_, fun _ => ?_⟩
  · rw [idle] at closes
    exact absurd closes before
  · simp [idle]

end Steps

open LoopOfConnections

/-- The condition, on the connection that takes the step. -/
def AllCloseQuietly (family : List ServedConnection) : LoopOfConnections.Act → Prop
  | .on i a => ∀ w, family[i]? = some w → ClosesQuietly w a
  | _ => True

theorem step_all_hushed {family family' : List ServedConnection} {a : LoopOfConnections.Act}
    (hushed : ∀ w ∈ family, Hushed w) (quiet : AllCloseQuietly family a)
    (next : step family a = some family') : ∀ w ∈ family', Hushed w := by
  cases a with
  | on i a =>
    simp only [step] at next
    split at next
    · exact Schedules.forall_stepAt hushed
        (fun w t member h stepped => step_hushed h (quiet w member) stepped) next
    · cases next
  | poll found =>
    refine Schedules.forall_stepAll (Q := fun a => ∀ w, ServedConnection.deed w a = .idle)
      (fun w a t h idle stepped => step_hushed h (closesQuietly_of_idle (idle w)) stepped) hushed
      ?_ next
    intro a member w
    obtain ⟨f, -, rfl⟩ := List.mem_map.mp member
    rfl
  | advance a =>
    refine Schedules.forall_stepAll (Q := fun a => ∀ w, ServedConnection.deed w a = .idle)
      (fun w a t h idle stepped => step_hushed h (closesQuietly_of_idle (idle w)) stepped) hushed
      ?_ next
    intro b member w
    obtain ⟨v, -, rfl⟩ := List.mem_map.mp member
    rfl

/-- In every run of the connections of a loop in which a connection is closed only while it
has no read callback left to run, and reading is not started on a closed one, no
connection is given a message after it has been told that it is down. -/
theorem silent_after_down (memory : Nat → UInt8) (sameLoop : Bool)
    (conns : List (Int × ConnOptions)) (actions : List LoopOfConnections.Act)
    (quiet : Schedules.Along step AllCloseQuietly (start memory sameLoop conns) actions) :
    Schedules.Throughout step (fun family => ∀ w ∈ family, Silent w.conn.notices)
      (start memory sameLoop conns) actions := by
  refine Schedules.throughout_of_along (I := fun family => ∀ w ∈ family, Hushed w)
    (fun _ _ _ hushed quiet next => step_all_hushed hushed quiet next)
    (fun _ hushed w member => (hushed w member).silent) ?_ quiet
  intro w member
  obtain ⟨conn, -, rfl⟩ := List.mem_map.mp member
  exact start_hushed conn.1 conn.2 memory sameLoop

/-- A handler closes another connection of its batch that has had its turn. -/
theorem closed_after_turn_silent :
    let actions : List LoopOfConnections.Act := [.advance .loop,
      .poll [(false, some POLLIN), (false, some POLLIN)], .on 1 .handleEvent,
      .on 1 (.runHandler (.delivered [1]) (.accepted 0)), .on 0 .handleEvent,
      .on 0 (.runHandler (.delivered [1]) (.accepted 0)), .on 1 (.call true .forceClose)]
    Schedules.Along step AllCloseQuietly (start (fun _ => 0) true [(7, {}), (8, {})]) actions ∧
      Schedules.Throughout step (fun family => ∀ w ∈ family, Silent w.conn.notices)
        (start (fun _ => 0) true [(7, {}), (8, {})]) actions := by
  have stays {w : ServedConnection} {a : ServedConnection.Act}
      (connected : w.conn.state = .kConnected) (still : (w.deed a).state w.conn = .kConnected) :
      ClosesQuietly w a := by
    refine ⟨fun _ closes => ?_, fun closed => ?_⟩
    · rw [still] at closes
      cases closes
    · rw [connected] at closed
      cases closed
  have quiet : Schedules.Along step AllCloseQuietly (start (fun _ => 0) true [(7, {}), (8, {})])
      [.advance .loop, .poll [(false, some POLLIN), (false, some POLLIN)], .on 1 .handleEvent,
        .on 1 (.runHandler (.delivered [1]) (.accepted 0)), .on 0 .handleEvent,
        .on 0 (.runHandler (.delivered [1]) (.accepted 0)), .on 1 (.call true .forceClose)] := by
    refine .cons trivial rfl <| .cons trivial rfl <| .cons ?_ rfl <| .cons ?_ rfl <|
      .cons ?_ rfl <| .cons ?_ rfl <| .cons ?_ rfl trivial
    · rintro w ⟨⟩
      exact stays rfl rfl
    · rintro w ⟨⟩
      exact stays rfl rfl
    · rintro w ⟨⟩
      exact stays rfl rfl
    · rintro w ⟨⟩
      exact stays rfl rfl
    · rintro w ⟨⟩
      exact ⟨fun _ _ => by decide, fun closed => by cases closed⟩
  exact ⟨quiet, silent_after_down (fun _ => 0) true [(7, {}), (8, {})] _ quiet⟩

/-- A handler closes another connection of its batch before its turn: the bytes that were
reported for it are delivered after it has been told that it is down. -/
theorem closed_before_turn_gets_message :
    ∃ family w, Schedules.run step (start (fun _ => 0) true [(7, {}), (8, {})])
        [.advance .loop, .poll [(false, some POLLIN), (false, some POLLIN)], .on 0 .handleEvent,
          .on 0 (.runHandler (.delivered [1]) (.accepted 0)), .on 1 (.call true .forceClose),
          .on 1 .handleEvent, .on 1 (.runHandler (.delivered [1]) (.accepted 0))] = some family ∧
      family[1]? = some w ∧ w.conn.notices = [.connectionCallback true, .connectionCallback false,
        .closeCallback, .messageCallback] ∧ ¬ ∀ w ∈ family, Silent w.conn.notices := by
  refine ⟨_, _, rfl, rfl, rfl, fun silent => ?_⟩
  exact silent _ (List.mem_cons_of_mem _ List.mem_cons_self) [.connectionCallback true]
    [.closeCallback, .messageCallback] rfl (by decide)

end SilenceAfterDown
end Arale
