import Arale.Net.ServedSteps

/-!
# The channel of a closed connection

`handleClose` takes every event from the channel, but functors posted before the close
are still to run, and neither `startReadInLoop` nor `sendInLoop` looks at the state.
A closed connection keeps a channel without events exactly as long as none of them
enables one; then it is also such a channel that `connectionDestroyed` removes.
-/

namespace ClosedChannel

open Arale Schedules

/-- A closed connection asks for no event, and no channel was removed that did. -/
structure StaysDown (w : ServedConnection) : Prop where
  none : w.conn.state = .kDisconnected → w.conn.readWriteChannel.isNoneEvent = true
  removed : .removeChannel false ∉ w.conn.notices

/-- The member functions that give a channel without events one: reading is started, or
`sendInLoop` is left with bytes that the socket did not take. -/
def Reenables (c : TcpConnection) : Deed → Prop
  | .startReadInLoop | .call true .startRead => True
  | .sendInLoop data o => c.sendFails o = false ∧ c.nwrote o < data.length
  | _ => False

/-- A possible step on a closed connection runs none of them. -/
def LeavesClosed (w : ServedConnection) (a : ServedConnection.Act) : Prop :=
  (w.step a).isSome = true → w.conn.state = .kDisconnected → ¬ Reenables w.conn (w.deed a)

/-- The server destroys, or is told of, closed connections only. -/
structure Told (w : ServedConnection) : Prop where
  queued : w.conn.loop.Queued
  known : .connectionDestroyed ∈ w.conn.loop.queue ∨ 0 < w.removals →
    w.conn.state = .kDisconnected

/-! ## The events after each member function -/

section Channel
variable {ch : Channel}

theorem none_iff : ch.isNoneEvent = true ↔ ch.events = 0#32 := by
  simp [Channel.isNoneEvent, kNoneEvent]

theorem enableRead_some (ch : Channel) : ch.enableRead.isNoneEvent = false := by
  by_contra none
  have gone : ch.enableRead.events = 0#32 := none_iff.mp (by simpa using none)
  have reading := ch.isReading_enableRead
  simp [Channel.isReading, gone, anyBit] at reading

theorem enableWrite_some (ch : Channel) : ch.enableWrite.isNoneEvent = false := by
  by_contra none
  have gone : ch.enableWrite.events = 0#32 := none_iff.mp (by simpa using none)
  have writing := ch.isWriting_enableWrite
  simp [Channel.isWriting, gone, anyBit] at writing

theorem isReading_of_none (none : ch.isNoneEvent = true) : ch.isReading = false := by
  simp [Channel.isReading, none_iff.mp none, anyBit]

theorem isWriting_of_none (none : ch.isNoneEvent = true) : ch.isWriting = false := by
  simp [Channel.isWriting, none_iff.mp none, anyBit]

theorem disableRead_none (none : ch.isNoneEvent = true) : ch.disableRead.isNoneEvent = true := by
  simp [none_iff, Channel.disableRead, Channel.update, none_iff.mp none]

end Channel

section Deeds
variable {c : TcpConnection}

theorem run_isNoneEvent (c : TcpConnection) (d : Deed) : (d.run c).readWriteChannel.isNoneEvent =
    ((d.interest c).foldl Channel.apply c.readWriteChannel).isNoneEvent := by
  obtain ⟨inLoop, same⟩ := Deed.channel_effect c d
  rw [same]
  rfl

/-- What each member function does to the channel of a closed connection. -/
theorem run_none_iff (closed : c.state = .kDisconnected)
    (none : c.readWriteChannel.isNoneEvent = true) (d : Deed) :
    (d.run c).readWriteChannel.isNoneEvent = true ↔ ¬ Reenables c d := by
  have isOpen : c.isOpen = false := by simp [TcpConnection.isOpen, closed]
  have connected : c.isConnected = false := by simp [TcpConnection.isConnected, closed]
  have reading := isReading_of_none none
  have writing := isWriting_of_none none
  rw [run_isNoneEvent]
  cases d with
  | startReadInLoop =>
    simp [Deed.interest, reading, Reenables, Channel.apply, enableRead_some]
  | stopReadInLoop =>
    refine iff_of_true ?_ id
    simp only [Deed.interest]
    split
    · exact disableRead_none none
    · exact none
  | call inLoop asked =>
    cases inLoop with
    | false => cases asked <;> exact iff_of_true none id
    | true =>
      cases asked with
      | startRead => simp [Deed.interest, reading, Reenables, Channel.apply, enableRead_some]
      | stopRead =>
        refine iff_of_true ?_ id
        simp only [Deed.interest]
        split
        · exact disableRead_none none
        · exact none
      | forceClose => simpa [Deed.interest, isOpen, Reenables] using none
      | shutdown | forceCloseWithDelay => exact iff_of_true none id
  | sendInLoop data o =>
    simp only [Deed.interest, Deed.buffering, writing, Reenables]
    by_cases kept : c.sendFails o = true ∨ data.length ≤ c.nwrote o
    · rw [if_pos (.inl kept)]
      refine iff_of_true none ?_
      rintro ⟨fine, left⟩
      rcases kept with fails | all
      · rw [fine] at fails
        cases fails
      · omega
    · rw [if_neg (by simpa using kept)]
      refine iff_of_false ?_ fun no => no (by simpa using kept)
      simp [Channel.apply, enableWrite_some]
  | send => simpa [Deed.interest, connected, Reenables] using none
  | handleWrite o =>
    have stays : c.drains o = false := by
      cases o <;> simp [TcpConnection.drains, writing]
    simpa [Deed.interest, stays, Reenables] using none
  | delayedClose => simpa [Deed.interest, isOpen, Reenables] using none
  | connectionDestroyed => simpa [Deed.interest, connected, Reenables] using none
  | handleClose | forceCloseInLoop => exact iff_of_true rfl id
  | handleRead r =>
    refine iff_of_true ?_ id
    simp only [Deed.interest]
    split
    · rfl
    · exact none
  | idle | sendFromOther | sendBufferFromOther | handleError | shutdownInLoop =>
    exact iff_of_true none id

/-- Whatever closes a connection leaves its channel without events. -/
theorem none_of_closes {d : Deed} (before : c.state ≠ .kDisconnected)
    (after : d.state c = .kDisconnected) : (d.run c).readWriteChannel.isNoneEvent = true := by
  rw [run_isNoneEvent, Deed.interest_of_closes before after]
  rfl

end Deeds

/-! ## Runs -/

section Steps
variable {w t : ServedConnection} {a : ServedConnection.Act}

theorem start_told (sockfd : Int) (options : ConnOptions) (memory : Nat → UInt8)
    (sameLoop : Bool) : Told (.start sockfd options memory sameLoop) := by
  refine ⟨EventLoop.new_queued, ?_⟩
  rintro (destroyed | waiting)
  · cases destroyed
  · cases waiting

theorem start_staysDown (sockfd : Int) (options : ConnOptions) (memory : Nat → UInt8)
    (sameLoop : Bool) : StaysDown (.start sockfd options memory sameLoop) := by
  have notices : (ServedConnection.start sockfd options memory sameLoop).conn.notices =
      [.connectionCallback true] := rfl
  refine ⟨fun closed => ?_, by simp [notices]⟩
  cases closed

/-- No member function posts `connectionDestroyed`. -/
theorem not_mayPost_destroyed (c : TcpConnection) (d : Deed) :
    ¬ d.mayPost c .connectionDestroyed := by
  unfold Deed.mayPost
  split <;> simp [ConnFunctor.isUserCallback]

theorem step_told (told : Told w) (next : w.step a = some t) : Told t := by
  obtain ⟨loop, p⟩ := ServedConnection.step_performed told.queued next
  refine ⟨p.loop_queued, fun waits => ?_⟩
  have stays (closed : w.conn.state = .kDisconnected) : t.conn.state = .kDisconnected :=
    p.state.trans (Deed.state_of_disconnected closed _)
  rcases p.told with ⟨same, removals⟩ | waiting | closes
  · refine stays (told.known ?_)
    rcases waits with destroyed | waiting
    · obtain ⟨own, queue, fromDeed⟩ :=
        (Deed.effect (w.ready a loop) (w.deed a)).posted.queue
      rw [same, ServedConnection.done, queue] at destroyed
      rcases List.mem_append.mp destroyed with before | posted
      · exact .inl (p.rest_subset before)
      · exact absurd (fromDeed _ posted) (not_mayPost_destroyed _ _)
    · exact .inr (removals ▸ waiting)
  · exact stays (told.known (.inr waiting))
  · exact p.state.trans (Deed.state_of_closeCallback closes)

/-- `poll` changes nothing that the two conditions on `sendInLoop` read. -/
theorem reenables_ready (w : ServedConnection) (a : ServedConnection.Act)
    (loop : EventLoop ConnFunctor) (d : Deed) :
    Reenables (w.ready a loop) d ↔ Reenables w.conn d := by
  have direct : (w.ready a loop).sendsDirectly = w.conn.sendsDirectly := by
    simp only [TcpConnection.sendsDirectly, ServedConnection.ready, Channel.isWriting,
      w.polled_events]
  cases d with
  | sendInLoop data o =>
    simp only [Reenables, TcpConnection.sendFails, TcpConnection.nwrote, direct]
  | call inLoop asked => cases inLoop <;> cases asked <;> exact Iff.rfl
  | _ => exact Iff.rfl

/-- A removal is noted by `connectionDestroyed` alone, with the events left. -/
theorem removed_of_notice {c : TcpConnection} {d : Deed}
    (left : .removeChannel false ∈ d.notices c) :
    d = .connectionDestroyed ∧ c.readWriteChannel.isNoneEvent = false := by
  cases d with
  | connectionDestroyed =>
    simp only [Deed.notices] at left
    split at left <;> simp_all
  | handleRead | handleClose | forceCloseInLoop | delayedClose =>
    simp only [Deed.notices, Deed.closing, TcpConnection.failure] at left
    grind
  | call inLoop asked =>
    cases inLoop <;> cases asked <;> simp only [Deed.notices, TcpConnection.failure] at left <;>
      grind
  | idle | send | sendFromOther | sendBufferFromOther | handleError | handleWrite | sendInLoop
  | shutdownInLoop | startReadInLoop | stopReadInLoop => cases left

/-- `connectionDestroyed` is run by a functor, and finds a closed connection. -/
theorem closed_of_destroys (told : Told w) (next : w.step a = some t)
    (destroys : w.deed a = .connectionDestroyed) : w.conn.state = .kDisconnected := by
  refine told.known (.inl ?_)
  cases a with
  | runFunctor o =>
    obtain ⟨functor, loop, queue, deed, -⟩ :=
      ServedConnection.runFunctor_performed told.queued next
    rw [deed] at destroys
    cases functor with
    | connectionDestroyed => simp [queue]
    | _ => cases destroys
  | runHandler r o =>
    simp only [ServedConnection.deed] at destroys
    split at destroys
    · cases destroys
    · rename_i handler rest handlers
      cases handler <;> cases destroys
  | _ => cases destroys

theorem step_staysDown_iff (down : StaysDown w) (told : Told w) (a : ServedConnection.Act) :
    (∀ t, w.step a = some t → StaysDown t) ↔ LeavesClosed w a := by
  constructor
  · intro after possible closed
    obtain ⟨t, next⟩ := Option.isSome_iff_exists.mp possible
    obtain ⟨loop, p⟩ := ServedConnection.step_performed told.queued next
    have none := (after t next).none (p.state.trans (Deed.state_of_disconnected closed _))
    rw [← reenables_ready w a loop]
    refine (run_none_iff (c := w.ready a loop) closed ?_ _).mp ?_
    · simpa [ServedConnection.ready, none_iff, w.polled_events] using down.none closed
    · rw [p.conn] at none
      exact none
  · intro leaves t next
    obtain ⟨loop, p⟩ := ServedConnection.step_performed told.queued next
    refine ⟨fun closed => ?_, fun left => ?_⟩
    · rw [p.conn]
      by_cases before : w.conn.state = .kDisconnected
      · refine (run_none_iff (c := w.ready a loop) before ?_ _).mpr ?_
        · simpa [ServedConnection.ready, none_iff, w.polled_events] using down.none before
        · rw [reenables_ready]
          exact leaves (by simp [next]) before
      · exact none_of_closes (c := w.ready a loop) before (p.state.symm.trans closed)
    · rw [p.notices] at left
      rcases List.mem_append.mp left with old | new
      · exact down.removed old
      · obtain ⟨destroys, some⟩ := removed_of_notice new
        rw [down.none (closed_of_destroys told next destroys)] at some
        cases some

end Steps

/-- Along every interleaving a closed connection stays without events, and is removed
without, exactly when no step on it starts reading or buffers what a posted send could
not write. -/
theorem closed_stays_down_iff (sockfd : Int) (options : ConnOptions) (memory : Nat → UInt8)
    (sameLoop : Bool) (actions : List ServedConnection.Act) :
    Throughout ServedConnection.step StaysDown (.start sockfd options memory sameLoop) actions ↔
      Along ServedConnection.step LeavesClosed (.start sockfd options memory sameLoop) actions :=
  throughout_iff_along (J := Told) (R := fun _ _ => True)
    (fun _ a down told _ => step_staysDown_iff down told a)
    (fun _ _ _ told _ next => step_told told next)
    (start_staysDown sockfd options memory sameLoop) (start_told sockfd options memory sameLoop)
    (along_true _ actions)

/-- Another thread posts a send, the peer ends its stream, and the functor finds the
socket full: the closed connection is registered for writing when it is destroyed. -/
theorem posted_send_reregisters :
    ∃ w, run ServedConnection.step (.start 7 {} (fun _ => 0) true)
        [.advance .loop, .otherSend 0 1, .poll true (some POLLIN), .advance .handleWakeup,
          .handleEvent, .runHandler (.delivered []) (.accepted 0), .advance .doPendingFunctors,
          .advance .swap, .runFunctor (.failed .EWOULDBLOCK), .runFunctor (.accepted 0)] = some w ∧
      w.conn.state = .kDisconnected ∧ w.conn.readWriteChannel.isWriting = true ∧
      .removeChannel false ∈ w.conn.notices ∧ ¬ StaysDown w := by
  refine ⟨_, rfl, rfl, rfl, by decide, fun down => ?_⟩
  exact down.removed (by decide)

end ClosedChannel
