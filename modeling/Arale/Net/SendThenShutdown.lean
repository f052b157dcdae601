import Arale.Net.ServedSteps

/-!
# A send followed by a shutdown

`shutdown` changes the state at once and leaves `shutdownInLoop` to the loop. The
overloads of `send` leave different things to it: `sendInLoop` itself, which asks for no
state, or, for a `Buffer*` sent from another thread, `send(const std::string&)`, which
asks for `kConnected` again. One message is followed from its `send` to the moment
`sendInLoop` runs with it.
-/

namespace Arale

/-- How a message is sent to a connection. -/
inductive Overload where
  /-- any of the three, in the loop thread -/
  | inLoop (data : List UInt8) (o : WriteOutcome)
  /-- `send(const void*, size_t)` or `send(const std::string&)` in another thread -/
  | pointer (data len : Nat)
  /-- `send(Buffer*)` in another thread -/
  | buffer (content : List UInt8)

/-- What has become of a message that a connected connection was given. -/
inductive Fate where
  /-- posted, with so many functors before it -/
  | waiting (ahead : Nat)
  /-- `sendInLoop` has run with it -/
  | handed
  /-- its functor has run without `sendInLoop` -/
  | dropped
  deriving DecidableEq, Repr

/-- A connection and one message sent to it. -/
structure SentMessage where
  served : ServedConnection
  /-- whether the functor holds a copy and calls `send` again -/
  copied : Bool
  fate : Fate
  /-- `shutdownInLoop` has run before `sendInLoop` ran with the message -/
  early : Bool

def Overload.act : Overload → ServedConnection.Act
  | .inLoop data o => .send data o
  | .pointer data len => .otherSend data len
  | .buffer content => .otherSendBuffer content

/-- A connected connection runs `sendInLoop` at once, or posts behind what is waiting. -/
def Overload.fate (w : ServedConnection) : Overload → Fate
  | .inLoop _ _ => .handed
  | .pointer _ _ | .buffer _ => .waiting w.conn.loop.queue.length

/-- The functor of a message that is sent from another thread. -/
def Overload.functor : Overload → Option ConnFunctor
  | .inLoop _ _ => none
  | .pointer data len => some (.sendInLoop data len)
  | .buffer content => some (.sendString content)

def Overload.copied : Overload → Bool
  | .buffer _ => true
  | _ => false

/-- Whether a member function gets to run `shutdownInLoop`. -/
def Deed.runsShutdownInLoop (c : TcpConnection) : Deed → Bool
  | .shutdownInLoop => true
  | .call true .shutdown => c.isConnected
  | .handleWrite o => c.drains o && c.state == .kDisconnecting
  | _ => false

/-- Whether a member function gets to run `sendInLoop`. -/
def Deed.runsSendInLoop (c : TcpConnection) : Deed → Bool
  | .sendInLoop _ _ => true
  | .send _ _ => c.isConnected
  | _ => false

namespace SentMessage

/-- The message as `send` leaves it, `t` being the connection after the call. -/
def sent (w t : ServedConnection) (overload : Overload) : SentMessage where
  served := t
  copied := overload.copied
  fate := overload.fate w
  early := false

/-- What an action does to the message. -/
def fateAfter (s : SentMessage) : ServedConnection.Act → Fate
  | .runFunctor o =>
    match s.fate with
    | .waiting 0 =>
      if (s.served.deed (.runFunctor o)).runsSendInLoop s.served.conn then .handed else .dropped
    | .waiting (ahead + 1) => .waiting ahead
    | fate => fate
  | _ => s.fate

def step (s : SentMessage) (a : ServedConnection.Act) : Option SentMessage :=
  (s.served.step a).map fun t =>
    { s with served := t
             fate := s.fateAfter a
             early := s.early ||
               (s.fate != .handed && (s.served.deed a).runsShutdownInLoop s.served.conn) }

/-- `sendInLoop` runs with the message, and before any `shutdownInLoop`. -/
def Delivered (s : SentMessage) : Prop := s.fate ≠ .dropped ∧ s.early = false

/-- The loop thread runs `shutdownInLoop` now and not by a posted functor. -/
def shutsDownAtOnce (w : ServedConnection) : ServedConnection.Act → Bool
  | .runFunctor _ => false
  | a => (w.deed a).runsShutdownInLoop w.conn

/-- While the message waits, `shutdownInLoop` does not overtake it on the loop thread,
and a copied message finds the connection connected. -/
def Undisturbed (s : SentMessage) (a : ServedConnection.Act) : Prop :=
  match s.fate with
  | .waiting _ => shutsDownAtOnce s.served a = false ∧
      (s.copied = true → (s.served.deed a).state s.served.conn = .kConnected)
  | _ => True

/-! ## The queue of a connected connection -/

/-- `shutdownInLoop` is posted by a call that ends `kConnected`. -/
structure Unshut (w : ServedConnection) : Prop where
  queued : w.conn.loop.Queued
  none : w.conn.state = .kConnected → .shutdownInLoop ∉ w.conn.loop.queue

theorem state_of_mayPost_shutdown {c : TcpConnection} {d : Deed}
    (posts : d.mayPost c .shutdownInLoop) : d.state c = .kDisconnecting := by
  cases d with
  | call inLoop asked =>
    cases inLoop <;> cases asked <;> simp_all [Deed.mayPost, Deed.state]
  | _ => simp_all [Deed.mayPost, ConnFunctor.isUserCallback]

theorem start_unshut (sockfd : Int) (options : ConnOptions) (memory : Nat → UInt8)
    (sameLoop : Bool) : Unshut (.start sockfd options memory sameLoop) :=
  ⟨EventLoop.new_queued, fun _ => List.not_mem_nil⟩

theorem step_unshut {w t : ServedConnection} {a : ServedConnection.Act} (h : Unshut w)
    (next : w.step a = some t) : Unshut t := by
  obtain ⟨loop, p⟩ := ServedConnection.step_performed h.queued next
  obtain ⟨added, queue, kinds⟩ := p.queue_after
  refine ⟨p.loop_queued, fun connected waits => ?_⟩
  have after := p.state.symm.trans connected
  rw [queue] at waits
  rcases List.mem_append.mp waits with before | posted
  · exact h.none (Deed.connected_of_state after) (p.rest_subset before)
  · rcases kinds _ posted with posts | destroyed
    · rw [state_of_mayPost_shutdown posts] at after
      cases after
    · cases destroyed

/-! ## The message in the queue -/

/-- The functor stands where it should, and no `shutdownInLoop` stands before it. -/
structure Behind (w : ServedConnection) (functor : ConnFunctor) (ahead : Nat) : Prop where
  place : w.conn.loop.queue[ahead]? = some functor
  free : .shutdownInLoop ∉ w.conn.loop.queue.take ahead

/-- A message on its way, or handed over. -/
structure OnItsWay (overload : Overload) (s : SentMessage) : Prop where
  queued : s.served.conn.loop.Queued
  copied : s.copied = overload.copied
  onTime : s.early = false
  fate : s.fate = .handed ∨ ∃ ahead functor, s.fate = .waiting ahead ∧
    overload.functor = some functor ∧ Behind s.served functor ahead ∧
    (s.copied = true → s.served.conn.state = .kConnected)

theorem OnItsWay.delivered {overload : Overload} {s : SentMessage} (h : OnItsWay overload s) :
    Delivered s := by
  refine ⟨?_, h.onTime⟩
  rcases h.fate with handed | ⟨ahead, functor, waiting, -⟩
  · simp [handed]
  · simp [waiting]

section Steps
variable {w t : ServedConnection} {a : ServedConnection.Act} {loop : EventLoop ConnFunctor}

/-- What is posted later stands behind. -/
theorem Behind.append {functor : ConnFunctor} {ahead : Nat} {queue added : List ConnFunctor}
    (place : queue[ahead]? = some functor) (free : .shutdownInLoop ∉ queue.take ahead)
    (after : t.conn.loop.queue = queue ++ added) : Behind t functor ahead := by
  obtain ⟨inside, -⟩ := List.getElem?_eq_some_iff.mp place
  refine ⟨?_, ?_⟩
  · rw [after, List.getElem?_append_left inside]
    exact place
  · rw [after, List.take_append_of_le_length (Nat.le_of_lt inside)]
    exact free

/-- A functor runs `shutdownInLoop` only by being it. -/
theorem runsShutdownInLoop_ofFunctor {functor : ConnFunctor} (other : functor ≠ .shutdownInLoop)
    (memory : Nat → UInt8) (o : WriteOutcome) (c : TcpConnection) :
    (Deed.ofFunctor memory o functor).runsShutdownInLoop c = false := by
  cases functor with
  | shutdownInLoop => exact absurd rfl other
  | _ => rfl

/-- The functor of a message runs `sendInLoop`, a copied one on a connected connection. -/
theorem runsSendInLoop_functor {overload : Overload} {functor : ConnFunctor}
    (posted : overload.functor = some functor) {c : TcpConnection}
    (connected : overload.copied = true → c.state = .kConnected) (memory : Nat → UInt8)
    (o : WriteOutcome) : (Deed.ofFunctor memory o functor).runsSendInLoop c = true := by
  cases overload with
  | inLoop => cases posted
  | pointer data len =>
    cases posted
    rfl
  | buffer content =>
    cases posted
    simp [Deed.ofFunctor, Deed.runsSendInLoop, TcpConnection.isConnected, connected rfl]

theorem functor_ne_shutdown {overload : Overload} {functor : ConnFunctor}
    (posted : overload.functor = some functor) : functor ≠ .shutdownInLoop := by
  cases overload <;> cases posted <;> simp

end Steps

section Runs
variable {overload : Overload} {s s' : SentMessage} {a : ServedConnection.Act}

/-- The message has been handed over: nothing can go wrong any more. -/
theorem handed_keeps (h : OnItsWay overload s) (handed : s.fate = .handed)
    (next : s.step a = some s') : OnItsWay overload s' := by
  obtain ⟨t, stepped, rfl⟩ := Option.map_eq_some_iff.mp next
  obtain ⟨loop, p⟩ := ServedConnection.step_performed h.queued stepped
  refine ⟨p.loop_queued, h.copied, ?_, .inl ?_⟩
  · simp [h.onTime, handed]
  · unfold fateAfter
    split <;> simp [handed]

/-- A functor runs while the message waits. -/
theorem runFunctor_keeps (h : OnItsWay overload s) {ahead : Nat} {functor : ConnFunctor}
    (waiting : s.fate = .waiting ahead) (posted : overload.functor = some functor)
    (behind : Behind s.served functor ahead)
    (connected : s.copied = true → s.served.conn.state = .kConnected) {o : WriteOutcome}
    (undisturbed : Undisturbed s (.runFunctor o)) (next : s.step (.runFunctor o) = some s') :
    OnItsWay overload s' := by
  obtain ⟨t, stepped, rfl⟩ := Option.map_eq_some_iff.mp next
  obtain ⟨first, loop, queue, deed, p⟩ :=
    ServedConnection.runFunctor_performed h.queued stepped
  simp only [Undisturbed, waiting] at undisturbed
  cases ahead with
  | zero =>
    have self : first = functor := by simpa [queue] using behind.place
    subst self
    have sends := runsSendInLoop_functor posted (h.copied ▸ connected) s.served.memory o
    have onTime := runsShutdownInLoop_ofFunctor (functor_ne_shutdown posted) s.served.memory o
      s.served.conn
    refine ⟨p.loop_queued, h.copied, ?_, .inl ?_⟩
    · simp [h.onTime, deed, onTime]
    · simp [fateAfter, waiting, deed, sends]
  | succ ahead =>
    have other : first ≠ .shutdownInLoop := fun same =>
      behind.free (by simp [queue, same])
    have onTime := runsShutdownInLoop_ofFunctor other s.served.memory o s.served.conn
    obtain ⟨added, after, -⟩ := p.queue_after
    refine ⟨p.loop_queued, h.copied, ?_, .inr ⟨ahead, functor, ?_, posted, ?_, fun copied => ?_⟩⟩
    · simp [h.onTime, deed, onTime]
    · simp [fateAfter, waiting]
    · have place := behind.place
      have free := behind.free
      simp only [queue, List.getElem?_cons_succ, List.take_succ_cons, List.mem_cons,
        not_or] at place free
      exact Behind.append place free.2 after
    · exact p.state.trans (undisturbed.2 copied)

/-- Anything else happens while the message waits. -/
theorem other_keeps (h : OnItsWay overload s) {ahead : Nat} {functor : ConnFunctor}
    (waiting : s.fate = .waiting ahead) (posted : overload.functor = some functor)
    (behind : Behind s.served functor ahead) (undisturbed : Undisturbed s a)
    (other : ∀ o, a ≠ .runFunctor o) (next : s.step a = some s') : OnItsWay overload s' := by
  obtain ⟨t, stepped, rfl⟩ := Option.map_eq_some_iff.mp next
  obtain ⟨loop, p⟩ := ServedConnection.step_performed h.queued stepped
  simp only [Undisturbed, waiting] at undisturbed
  have taken : s.served.taken a = [] := by
    cases a with
    | runFunctor o => exact absurd rfl (other o)
    | _ => rfl
  have onTime : (s.served.deed a).runsShutdownInLoop s.served.conn = false := by
    cases a with
    | runFunctor o => exact absurd rfl (other o)
    | _ => exact undisturbed.1
  have fate : s.fateAfter a = s.fate := by
    cases a with
    | runFunctor o => exact absurd rfl (other o)
    | _ => rfl
  have queue := p.queue
  rw [taken, List.nil_append] at queue
  obtain ⟨added, after, -⟩ := p.queue_after
  refine ⟨p.loop_queued, h.copied, ?_, .inr ⟨ahead, functor, ?_, posted, ?_, fun copied => ?_⟩⟩
  · simp [h.onTime, onTime]
  · exact fate.trans waiting
  · exact Behind.append (queue ▸ behind.place) (queue ▸ behind.free) after
  · exact p.state.trans (undisturbed.2 copied)

theorem step_onItsWay (h : OnItsWay overload s) (undisturbed : Undisturbed s a)
    (next : s.step a = some s') : OnItsWay overload s' := by
  rcases h.fate with handed | ⟨ahead, functor, waiting, posted, behind, connected⟩
  · exact handed_keeps h handed next
  · by_cases functors : ∃ o, a = .runFunctor o
    · obtain ⟨o, rfl⟩ := functors
      exact runFunctor_keeps h waiting posted behind connected undisturbed next
    · exact other_keeps h waiting posted behind undisturbed
        (fun o same => functors ⟨o, same⟩) next

/-- The message as `send` leaves it. -/
theorem sent_onItsWay {w t : ServedConnection} (unshut : Unshut w)
    (connected : w.conn.isConnected = true) (sends : w.step overload.act = some t) :
    OnItsWay overload (sent w t overload) := by
  have state : w.conn.state = .kConnected := by simpa [TcpConnection.isConnected] using connected
  have none := unshut.none state
  have queued := (step_unshut unshut sends).queued
  cases overload with
  | inLoop data o => exact ⟨queued, rfl, rfl, .inl rfl⟩
  | pointer data len =>
    cases sends
    have posts : w.conn.sendFromOther data len = w.conn.post false (.sendInLoop data len) :=
      if_pos connected
    refine ⟨queued, rfl, rfl, .inr ⟨_, _, rfl, rfl, ⟨?_, ?_⟩, fun copied => by cases copied⟩⟩
    · simp [sent, ServedConnection.otherSend, posts, TcpConnection.post]
    · simpa [sent, ServedConnection.otherSend, posts, TcpConnection.post] using none
  | buffer content =>
    cases sends
    have posts : w.conn.sendBufferFromOther content = w.conn.post false (.sendString content) :=
      if_pos connected
    have same : w.onConn (fun c => c.sendBufferFromOther content) =
        { w with conn := w.conn.sendBufferFromOther content } :=
      w.onConn_of_gentle (Gentle.sendBufferFromOther _ content)
    refine ⟨queued, rfl, rfl, .inr ⟨_, _, rfl, rfl, ⟨?_, ?_⟩, fun _ => ?_⟩⟩
    · simp [sent, same, posts, TcpConnection.post]
    · simpa [sent, same, posts, TcpConnection.post] using none
    · simpa [sent, same, posts, TcpConnection.post] using state

end Runs

/-- A message sent to a connected connection by any overload in any thread: in every
interleaving that follows in which `shutdownInLoop` does not overtake it on the loop
thread, and a copied message finds the connection connected until its functor runs,
`sendInLoop` runs with it and before any `shutdownInLoop`. -/
theorem sent_before_shutdown (sockfd : Int) (options : ConnOptions) (memory : Nat → UInt8)
    (sameLoop : Bool) (before : List ServedConnection.Act) {w t : ServedConnection}
    (reached : Schedules.run ServedConnection.step (.start sockfd options memory sameLoop) before =
      some w) (connected : w.conn.isConnected = true) (overload : Overload)
    (sends : w.step overload.act = some t) (actions : List ServedConnection.Act)
    (undisturbed : Schedules.Along step Undisturbed (sent w t overload) actions) :
    Schedules.Throughout step Delivered (sent w t overload) actions := by
  have unshut : Unshut w := Schedules.run_invariant (fun _ _ _ h _ next => step_unshut h next)
    (start_unshut sockfd options memory sameLoop) (Schedules.along_true _ before) reached
  exact Schedules.throughout_of_along (fun _ _ _ h ok next => step_onItsWay h ok next)
    (fun _ h => h.delivered) (sent_onItsWay unshut connected sends) undisturbed

/-- Bytes sent from another thread and a shutdown after them: both functors run, in order. -/
theorem pointer_sent_before_shutdown :
    let actions : List ServedConnection.Act := [.call false .shutdown, .advance .loop,
      .poll true none, .advance .handleWakeup, .advance .doPendingFunctors, .advance .swap,
      .runFunctor (.accepted 2), .runFunctor (.accepted 0)]
    ∃ t, (ServedConnection.start 7 {} (fun _ => 97) false).step (.otherSend 0 2) = some t ∧
      Schedules.Along step Undisturbed
        (sent (.start 7 {} (fun _ => 97) false) t (.pointer 0 2)) actions ∧
      Schedules.Throughout step Delivered
        (sent (.start 7 {} (fun _ => 97) false) t (.pointer 0 2)) actions := by
  have undisturbed : Schedules.Along step Undisturbed
      (sent (.start 7 {} (fun _ => 97) false)
        ((ServedConnection.start 7 {} (fun _ => 97) false).otherSend 0 2) (.pointer 0 2))
      [.call false .shutdown, .advance .loop, .poll true none, .advance .handleWakeup,
        .advance .doPendingFunctors, .advance .swap, .runFunctor (.accepted 2),
        .runFunctor (.accepted 0)] :=
    .cons ⟨rfl, nofun⟩ rfl <| .cons ⟨rfl, nofun⟩ rfl <| .cons ⟨rfl, nofun⟩ rfl <|
      .cons ⟨rfl, nofun⟩ rfl <| .cons ⟨rfl, nofun⟩ rfl <| .cons ⟨rfl, nofun⟩ rfl <|
      .cons ⟨rfl, nofun⟩ rfl <| .cons trivial rfl trivial
  exact ⟨_, rfl, undisturbed, sent_before_shutdown 7 {} (fun _ => 97) false [] rfl rfl
    (.pointer 0 2) rfl _ undisturbed⟩

/-- The same with a `Buffer*`: the functor finds the connection disconnecting and drops
the message, and the socket is shut down without it. -/
theorem buffer_lost_to_shutdown :
    ∃ t s, (ServedConnection.start 7 {} (fun _ => 97) false).step (.otherSendBuffer [97, 98]) =
        some t ∧
      Schedules.run step (sent (.start 7 {} (fun _ => 97) false) t (.buffer [97, 98]))
        [.call false .shutdown, .advance .loop, .poll true none, .advance .handleWakeup,
          .advance .doPendingFunctors, .advance .swap, .runFunctor (.accepted 2),
          .runFunctor (.accepted 0)] = some s ∧
      s.served.conn.state = .kDisconnecting ∧ s.served.conn.accepted = [] ∧
      s.served.conn.halfCloses = [0] ∧ ¬ Delivered s := by
  refine ⟨_, _, rfl, rfl, rfl, rfl, rfl, fun delivered => ?_⟩
  exact delivered.1 rfl

end SentMessage
end Arale
