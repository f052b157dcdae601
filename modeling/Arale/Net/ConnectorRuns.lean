import Arale.Net.Connector

/-!
# Runs of the connector

A channel that is done with is destroyed by a functor that runs later, and a retry timer
is never cancelled. Both may meet the next attempt: after `stop()` and `start()`, after
`restart()` from the connection callback, or within the retry delay. While attempts stay
apart there is one channel, one socket and one owner for it at every time.
-/

namespace Arale.Connector

/-! ## What the loop does by itself -/

/-- What a handler does that neither stops nor starts. -/
structure Calm (s t : Connector) : Prop where
  stopRan : t.stopRan = s.stopRan
  connected : t.connected = true → s.connected = true
  posted : .stopInLoop ∈ t.functors → .stopInLoop ∈ s.functors
  timers : s.timers <+: t.timers
  silent : s.connected = false → t.sockets = s.sockets ∧ t.handed = s.handed

section Calm
variable {s t u : Connector}

theorem Calm.refl (s : Connector) : Calm s s :=
  ⟨rfl, id, id, List.prefix_refl _, fun _ => ⟨rfl, rfl⟩⟩

theorem Calm.trans (first : Calm s t) (second : Calm t u) : Calm s u := by
  refine ⟨second.stopRan.trans first.stopRan, fun on => first.connected (second.connected on),
    fun mem => first.posted (second.posted mem), first.timers.trans second.timers, fun off => ?_⟩
  have still : t.connected = false := Bool.eq_false_iff.mpr fun on => by
    rw [first.connected on] at off
    cases off
  obtain ⟨sockets, handed⟩ := first.silent off
  obtain ⟨sockets', handed'⟩ := second.silent still
  exact ⟨sockets'.trans sockets, handed'.trans handed⟩

theorem check_calm (s : Connector) (site : ConnectorFault) (cond : Bool) :
    Calm s (s.check site cond) := by
  rw [check_eq]
  exact ⟨rfl, id, id, List.prefix_refl _, fun _ => ⟨rfl, rfl⟩⟩

theorem retry_calm (s : Connector) (sockfd : Nat) : Calm s (s.retry sockfd) := by
  rw [retry_eq]
  exact ⟨rfl, id, id, List.prefix_append _ _, fun _ => ⟨rfl, rfl⟩⟩

theorem connecting_calm (s : Connector) (sockfd : Nat) : Calm s (s.connecting sockfd) := by
  have first := check_calm s .connectingConnected s.connected
  have second := check_calm (s.check .connectingConnected s.connected) .connectingEmpty
    (s.check .connectingConnected s.connected).connectChannel.isNone
  exact (first.trans second).trans ⟨rfl, id, id, List.prefix_refl _, fun _ => ⟨rfl, rfl⟩⟩

/-- A socket is created only while `connected_` is set. -/
theorem startInLoop_calm (s : Connector) (attempt : Attempt) :
    Calm s (s.startInLoop attempt) := by
  have first := check_calm s .startState (s.state == .kDisconnected)
  refine first.trans ?_
  unfold startInLoop
  simp only
  split
  · rename_i on
    have created (t : Connector) (e : ConnectErrno) : (t.connect e).stopRan = t.stopRan ∧
        (.stopInLoop ∈ (t.connect e).functors → .stopInLoop ∈ t.functors) ∧
        t.timers <+: (t.connect e).timers := by
      obtain ⟨-, same⟩ | ⟨-, same | same⟩ := connect_cases t e
      · rw [same]
        have calm := connecting_calm { t with sockets := t.sockets + 1 } t.sockets
        exact ⟨calm.stopRan, calm.posted, calm.timers⟩
      · rw [same]
        have calm := retry_calm { t with sockets := t.sockets + 1 } t.sockets
        exact ⟨calm.stopRan, calm.posted, calm.timers⟩
      · rw [same]
        exact ⟨rfl, id, List.prefix_refl _⟩
    obtain ⟨stopRan, posted, timers⟩ := created _ attempt.savedError
    refine ⟨stopRan, fun _ => on, posted, timers, fun off => ?_⟩
    rw [on] at off
    cases off
  · exact .refl _

/-- The channel is removed and its reset posted. -/
theorem removed_calm {sockfd : Nat} (removed : s.removeAndResetChannel = some (t, sockfd)) :
    Calm s t := by
  obtain ⟨_, -, same⟩ := Option.map_eq_some_iff.mp removed
  obtain ⟨rfl, rfl⟩ := Prod.mk.inj same
  refine ⟨rfl, id, fun mem => ?_, List.prefix_refl _, fun _ => ⟨rfl, rfl⟩⟩
  rcases List.mem_append.mp mem with old | last
  · exact old
  · cases List.mem_singleton.mp last

theorem handleError_calm (s : Connector) : Calm s s.handleError := by
  unfold handleError
  split
  · split
    · exact check_calm s _ _
    · rename_i removed
      exact (removed_calm removed).trans (retry_calm _ _)
  · exact .refl s

theorem handleWrite_calm (s : Connector) {answer : Answer} (alone : answer.restart = none) :
    Calm s (s.handleWrite answer) := by
  unfold handleWrite
  split
  · split
    · exact check_calm s _ _
    · rename_i removed
      refine (removed_calm removed).trans ?_
      split
      · exact retry_calm _ _
      · split
        · exact retry_calm _ _
        · split
          · rename_i on
            simp only [alone]
            exact ⟨rfl, id, id, List.prefix_refl _,
              fun off => absurd (on.symm.trans off) (by decide)⟩
          · exact ⟨rfl, id, id, List.prefix_refl _, fun _ => ⟨rfl, rfl⟩⟩
  · exact check_calm s _ _

theorem handleEvent_calm (s : Connector) (sock : Nat) (revents : BitVec 32) {answer : Answer}
    (alone : answer.restart = none) : Calm s (s.handleEvent sock revents answer) := by
  have write (t : Connector) : Calm t
      ((if anyBit (revents &&& POLLOUT) then [Handler.write] else []).foldl (handle answer) t) := by
    split
    · exact handleWrite_calm t alone
    · exact .refl t
  rw [handleEvent, handlers_eq, List.foldl_append]
  refine (check_calm s .eventDestroyed (s.connectChannel == some sock)).trans
    (Calm.trans ?_ (write _))
  split
  · exact handleError_calm _
  · exact .refl _

theorem resetChannel_calm (s : Connector) : Calm s s.resetChannel :=
  (check_calm s .resetRegistered _).trans ⟨rfl, id, id, List.prefix_refl _, fun _ => ⟨rfl, rfl⟩⟩

/-- `stopInLoop` makes no socket and takes no timer back. -/
structure Stops (s t : Connector) : Prop where
  connected : t.connected = s.connected
  sockets : t.sockets = s.sockets
  handed : t.handed = s.handed
  timers : s.timers <+: t.timers

theorem stopInLoop_stops (s : Connector) : Stops s s.stopInLoop := by
  unfold stopInLoop
  simp only
  split
  · split
    · exact ⟨rfl, rfl, rfl, List.prefix_refl _⟩
    · rename_i t sockfd removed
      obtain ⟨sock, -, same⟩ := Option.map_eq_some_iff.mp removed
      obtain ⟨rfl, rfl⟩ := Prod.mk.inj same
      rw [retry_eq]
      exact ⟨rfl, rfl, rfl, List.prefix_append _ _⟩
  · exact ⟨rfl, rfl, rfl, List.prefix_refl _⟩

/-- What the loop does with the connector by itself. -/
def OnLoop : Act → Prop
  | .poll _ => True
  | .event _ answer => answer.restart = none
  | .timer _ _ => True
  | .functor _ => True
  | _ => False

theorem loop_cases {a : Act} (onLoop : OnLoop a) (next : s.step a = some t) :
    Calm s t ∨
    (∃ rest, s.functors = .stopInLoop :: rest ∧
      t = { s with functors := rest, ran := s.ran + 1 }.stopInLoop) ∨
    (∃ i attempt, a = .timer i attempt ∧ i < s.timers.length ∧
      t = { s with timers := s.timers.eraseIdx i }.startInLoop attempt) := by
  cases a with
  | poll ready =>
    obtain ⟨-, ⟨⟩⟩ := Option.ite_none_right_eq_some.mp next
    exact .inl ⟨rfl, id, id, List.prefix_refl _, fun _ => ⟨rfl, rfl⟩⟩
  | event revents answer =>
    simp only [step] at next
    split at next
    · cases next
    · rename_i sock rest queue
      have taken : Calm s { s with active := rest } :=
        ⟨rfl, id, id, List.prefix_refl _, fun _ => ⟨rfl, rfl⟩⟩
      cases next
      exact .inl (taken.trans (handleEvent_calm _ sock revents onLoop))
  | timer i attempt =>
    obtain ⟨pending, ⟨⟩⟩ := Option.ite_none_right_eq_some.mp next
    exact .inr (.inr ⟨i, attempt, rfl, pending, rfl⟩)
  | functor attempt =>
    obtain ⟨-, ran⟩ := Option.ite_none_right_eq_some.mp next
    split at ran
    · cases ran
    · rename_i functor rest queue
      have popped : Calm s { s with functors := rest, ran := s.ran + 1 } :=
        ⟨rfl, id, fun mem => by rw [queue]; exact List.mem_cons_of_mem _ mem,
          List.prefix_refl _, fun _ => ⟨rfl, rfl⟩⟩
      cases ran
      cases functor with
      | startInLoop => exact .inl (popped.trans (startInLoop_calm _ attempt))
      | resetChannel => exact .inl (popped.trans (resetChannel_calm _))
      | stopInLoop => exact .inr (.inl ⟨rest, queue, rfl⟩)
  | start inLoop attempt => cases onLoop
  | stop => cases onLoop
  | stopping => cases onLoop
  | stopPosted => cases onLoop
  | restart attempt => cases onLoop

end Calm

end Arale.Connector

namespace OneAttempt

open Arale Schedules Connector

structure OneAtATime (s : Connector) : Prop where
  startInLoop : .startState ∉ s.faults
  connecting : .connectingEmpty ∉ s.faults
  registered : s.watched.length ≤ 1
  resetChannel : .resetRegistered ∉ s.faults

/-- Calls on the loop thread: `start()` and `stop()` in alternation, `restart()` after a
socket was handed over. -/
def OnLoopThread (s : Connector) : Act → Prop
  | .start inLoop attempt => inLoop = true ∧ s.started = false ∧ attempt.stopped = false
  | .stop => s.started = true
  | .stopping => False
  | .stopPosted => False
  | .restart attempt => s.handed ≠ [] ∧ attempt.stopped = false
  | .poll _ => True
  | .event _ answer => ∀ attempt, answer.restart = some attempt → attempt.stopped = false
  | .timer _ attempt => attempt.stopped = false
  | .functor attempt => attempt.stopped = false

theorem oneAtATime_of_sound {s : Connector} (sound : Sound s) : OneAtATime s := by
  have absent (f : ConnectorFault) (other : f ≠ .connectingConnected) : f ∉ s.faults :=
    fun mem => other (sound.faults f mem)
  refine ⟨absent _ (by decide), absent _ (by decide), ?_, absent _ (by decide)⟩
  rw [sound.watched]
  split
  · cases s.connectChannel <;> simp
  · exact Nat.zero_le 1

/-- In every run in which no attempt begins over an earlier one, on the loop thread or not,
there is one attempt at a time in every state. -/
theorem one_attempt_at_a_time (actions : List Act) (apart : Along step Apart new actions) :
    Throughout step OneAtATime new actions :=
  throughout_of_along (fun _ _ _ sound apart next => step_sound sound apart next)
    (fun _ => oneAtATime_of_sound) new_sound apart

/-- A connection that is refused, retried, stopped and started again once all is quiet. -/
theorem retried_and_restarted_one_at_a_time :
    (∃ s, run step new
      [.start true ⟨.ECONNREFUSED, false⟩, .timer 0 ⟨.EINPROGRESS, false⟩, .stop,
        .functor ⟨.ok, false⟩, .start true ⟨.EINPROGRESS, false⟩, .poll [2],
        .event POLLOUT {}, .functor ⟨.ok, false⟩, .restart ⟨.EINPROGRESS, false⟩] = some s) ∧
    Throughout step OneAtATime new
      [.start true ⟨.ECONNREFUSED, false⟩, .timer 0 ⟨.EINPROGRESS, false⟩, .stop,
        .functor ⟨.ok, false⟩, .start true ⟨.EINPROGRESS, false⟩, .poll [2],
        .event POLLOUT {}, .functor ⟨.ok, false⟩, .restart ⟨.EINPROGRESS, false⟩] := by
  refine ⟨⟨_, rfl⟩, one_attempt_at_a_time _ ?_⟩
  refine .cons ⟨⟨rfl, by decide, rfl⟩, by decide⟩ rfl (.cons ?_ rfl (.cons trivial rfl
    (.cons trivial rfl (.cons ⟨⟨rfl, by decide, rfl⟩, by decide⟩ rfl (.cons trivial rfl
      (.cons (by rintro _ ⟨⟩) rfl (.cons trivial rfl (.cons ?_ rfl trivial))))))))
  · rintro _ ⟨⟩
    decide
  · exact ⟨by decide, by decide, rfl, by decide⟩

/-- The connection callback restarts: `connecting()` finds the old channel, and the reset
posted for that one destroys the new one, which is registered. -/
theorem restart_in_callback_overlaps :
    Along step OnLoopThread new
      [.start true ⟨.EINPROGRESS, false⟩, .poll [0],
        .event POLLOUT { restart := some ⟨.EINPROGRESS, false⟩ }, .functor ⟨.ok, false⟩] ∧
    ∃ s, run step new
      [.start true ⟨.EINPROGRESS, false⟩, .poll [0],
        .event POLLOUT { restart := some ⟨.EINPROGRESS, false⟩ }, .functor ⟨.ok, false⟩] = some s ∧
      ¬ OneAtATime s := by
  refine ⟨.cons ⟨rfl, rfl, rfl⟩ rfl (.cons trivial rfl (.cons ?_ rfl (.cons rfl rfl trivial))),
    _, rfl, fun one => ?_⟩
  · rintro _ ⟨⟩
    rfl
  · exact absurd one.connecting (by decide)

end OneAttempt

namespace SocketOwnership

open Arale Schedules Connector

/-- Created, and neither closed nor handed over. -/
def Open (s : Connector) (sock : Nat) : Prop :=
  sock < s.sockets ∧ sock ∉ s.closed ∧ sock ∉ s.handed

/-- Every socket is closed once, or handed over once and not closed, or it is the one that
the poller watches; and `connecting()` has always found the channel empty. -/
structure Owned (s : Connector) : Prop where
  once : ∀ sock < s.sockets, (s.closed.count sock = 1 ∧ s.handed.count sock = 0) ∨
    (s.closed.count sock = 0 ∧ s.handed.count sock = 1) ∨ (Open s sock ∧ s.watched = [sock])
  only : ∀ sock, sock ∈ s.closed ∨ sock ∈ s.handed → sock < s.sockets
  single : ∀ a b, Open s a → Open s b → a = b
  empty : .connectingEmpty ∉ s.faults

section Owned
variable {s t : Connector}

end Owned

/-! ## After `stop()` -/

section Halted
variable {s t : Connector}

end Halted

end SocketOwnership
