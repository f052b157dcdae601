import Arale.Lib.Schedules
import Arale.Net.TcpConnection

/-!
# What a connection tells its user about its output

The write-complete and high-water functors that `send` and `handleWrite` hand to the loop,
over any run with any pattern of short and failed writes, against the sizes that
`outputBuffer_` goes through.
-/

namespace Arale

open Schedules

namespace Backpressure

inductive Act where
  /-- `send` in the loop thread -/
  | send (data : List UInt8) (o : WriteOutcome)
  | handleWrite (o : WriteOutcome)
  deriving DecidableEq, Repr

def perform (c : TcpConnection) : Act → TcpConnection
  | .send data o => c.send data o
  | .handleWrite o => c.handleWrite o

/-- A write accepts at most what it was given. -/
def step (c : TcpConnection) (a : Act) : Option TcpConnection :=
  match a with
  | .send data o => if o.Possible data.length then some (perform c a) else none
  | .handleWrite o => if o.Possible c.outputBuffer.length then some (perform c a) else none

/-- The number of bytes that wait in `outputBuffer_`. -/
def backlog (c : TcpConnection) : Nat := c.outputBuffer.length

/-- The sizes the backlog goes through. -/
def sizes : TcpConnection → List Act → List Nat
  | c, [] => [backlog c]
  | c, a :: rest => backlog c :: sizes (perform c a) rest

/-- The sizes at which a sequence reaches a mark from below. -/
def crossings (mark : Nat) : List Nat → List Nat
  | a :: b :: rest => (if a < mark ∧ mark ≤ b then [b] else []) ++ crossings mark (b :: rest)
  | _ => []

/-- An action that leaves nothing to write of what it had to write: a direct write that takes
everything, or an event that drains the buffer. -/
def Completes (c : TcpConnection) : Act → Prop
  | .send data o =>
    c.isConnected = true ∧ c.sendsDirectly = true ∧ o = .accepted data.length
  | .handleWrite o => 0 < backlog c ∧ backlog (c.handleWrite o) = 0

instance (c : TcpConnection) : (a : Act) → Decidable (Completes c a)
  | .send _ _ => inferInstanceAs (Decidable (_ ∧ _ ∧ _))
  | .handleWrite _ => inferInstanceAs (Decidable (_ ∧ _))

/-- The number of completing actions of a run. -/
def completions : TcpConnection → List Act → Nat
  | _, [] => 0
  | c, a :: rest => (if Completes c a then 1 else 0) + completions (perform c a) rest

/-- The sizes that some high-water functors pass to the user. -/
def highSizes (functors : List ConnFunctor) : List Nat :=
  functors.filterMap fun
    | .highWaterMarkCallback size => some size
    | _ => none

/-- What an action hands to the loop. -/
def notices (c : TcpConnection) (a : Act) : List ConnFunctor :=
  (if c.writeCompleteCallback = true ∧ Completes c a then [.writeCompleteCallback] else []) ++
    (if c.highWaterMarkCallback = true ∧ backlog c < c.highWaterMark ∧
        c.highWaterMark ≤ backlog (perform c a) then
      [.highWaterMarkCallback (backlog (perform c a))] else [])

section Functions
variable (c : TcpConnection)

theorem queue_postWriteComplete :
    c.postWriteComplete.loop.queue =
      c.loop.queue ++ if c.writeCompleteCallback then [.writeCompleteCallback] else [] := by
  rw [TcpConnection.postWriteComplete]
  split
  · exact c.queue_post true _
  · exact (List.append_nil _).symm

/-- Bytes are buffered, and a mark that this reaches is announced. -/
theorem bufferRest_notices {data : List UInt8} {left : Nat} (le : left ≤ data.length) :
    backlog (c.bufferRest data left) = backlog c + left ∧
      (c.bufferRest data left).loop.queue = c.loop.queue ++
        if c.highWaterMarkCallback = true ∧ backlog c < c.highWaterMark ∧
            c.highWaterMark ≤ backlog c + left then
          [.highWaterMarkCallback (backlog c + left)] else [] := by
  have taken : (data.take left).length = left := by
    rw [List.length_take]
    omega
  by_cases reached : c.highWaterMarkCallback = true ∧ backlog c < c.highWaterMark ∧
      c.highWaterMark ≤ backlog c + left
  · have posts : c.outputBuffer.length < c.highWaterMark ∧
        c.outputBuffer.length + left ≥ c.highWaterMark ∧ c.highWaterMarkCallback = true :=
      ⟨reached.2.1, reached.2.2, reached.1⟩
    rw [if_pos reached]
    simp only [TcpConnection.bufferRest, if_pos posts, backlog]
    have queue := c.queue_post true (.highWaterMarkCallback (c.outputBuffer.length + left))
    split
    · exact ⟨by simp [TcpConnection.onChannel, TcpConnection.post, taken], queue⟩
    · exact ⟨by simp [TcpConnection.post, taken], queue⟩
  · have silent : ¬ (c.outputBuffer.length < c.highWaterMark ∧
        c.outputBuffer.length + left ≥ c.highWaterMark ∧ c.highWaterMarkCallback = true) :=
      fun posts => reached ⟨posts.2.2, posts.1, posts.2.1⟩
    rw [if_neg reached, List.append_nil]
    simp only [TcpConnection.bufferRest, if_neg silent, backlog]
    split
    · exact ⟨by simp [TcpConnection.onChannel, taken], rfl⟩
    · exact ⟨by simp [taken], rfl⟩

/-- The connection once the socket has taken `n` bytes of its buffer. -/
def wrote (n : Nat) : TcpConnection :=
  { c.accept (c.outputBuffer.take n) with outputBuffer := c.outputBuffer.drop n }

theorem queue_outputDrained :
    c.outputDrained.loop.queue =
      c.loop.queue ++ if c.writeCompleteCallback then [.writeCompleteCallback] else [] := by
  have posts := queue_postWriteComplete (c.onChannel Channel.disableWrite)
  simp only [TcpConnection.outputDrained]
  split
  · rw [TcpConnection.shutdownInLoop_eq]
    exact posts
  · exact posts

end Functions

section Steps
variable {c : TcpConnection}

theorem length_of_sendsDirectly (direct : c.sendsDirectly = true) : backlog c = 0 := by
  simp only [TcpConnection.sendsDirectly, Bool.and_eq_true, beq_iff_eq] at direct
  exact direct.2

/-- What `sendInLoop` hands to the loop. -/
theorem sendInLoop_notices (connected : c.isConnected = true) {data : List UInt8}
    {o : WriteOutcome} (possible : o.Possible data.length) :
    (c.sendInLoop data o).loop.queue = c.loop.queue ++ notices c (.send data o) := by
  have sent : perform c (.send data o) = c.sendInLoop data o := if_pos connected
  rw [notices, sent]
  cases direct : c.sendsDirectly with
  | false =>
    have none : ¬ (c.writeCompleteCallback = true ∧ Completes c (.send data o)) := by
      rintro ⟨-, -, directly, -⟩
      rw [direct] at directly
      cases directly
    rw [if_neg none, List.nil_append]
    by_cases some : 0 < data.length
    · have buffers : c.sendInLoop data o = c.bufferRest data data.length := by
        simp [TcpConnection.sendInLoop, direct, some]
      obtain ⟨size, queue⟩ := bufferRest_notices c (Nat.le_refl data.length)
      rw [buffers, size]
      exact queue
    · have keeps : c.sendInLoop data o = c := by
        simp [TcpConnection.sendInLoop, direct, some]
      rw [keeps, if_neg (by omega), List.append_nil]
  | true =>
    have empty := length_of_sendsDirectly direct
    cases o with
    | accepted n =>
      have le : n ≤ data.length := possible
      by_cases all : n = data.length
      · subst all
        have writes : c.sendInLoop data (.accepted data.length) =
            (c.accept (data.take data.length)).postWriteComplete := by
          simp [TcpConnection.sendInLoop, direct, TcpConnection.writeDirectly]
        obtain ⟨loop, -, same⟩ := (c.accept (data.take data.length)).postWriteComplete_eq
        have size : backlog (c.sendInLoop data (.accepted data.length)) = 0 := by
          rw [writes, same]
          exact empty
        have completes : Completes c (.send data (.accepted data.length)) :=
          ⟨connected, direct, rfl⟩
        rw [size, if_neg (by omega : ¬ (c.highWaterMarkCallback = true ∧
          backlog c < c.highWaterMark ∧ c.highWaterMark ≤ 0)), List.append_nil, writes,
          queue_postWriteComplete]
        simp [TcpConnection.accept, completes]
      · have more : 0 < data.length - n := by omega
        have buffers : c.sendInLoop data (.accepted n) =
            (c.accept (data.take n)).bufferRest data (data.length - n) := by
          have left : ¬ data.length - n = 0 := by omega
          simp only [TcpConnection.sendInLoop, direct, TcpConnection.writeDirectly, if_neg left,
            if_true, Bool.not_false, Bool.true_and, decide_eq_true_eq]
          exact if_pos more
        have none : ¬ (c.writeCompleteCallback = true ∧
            Completes c (.send data (.accepted n))) := by
          rintro ⟨-, -, -, same⟩
          exact all (WriteOutcome.accepted.inj same)
        obtain ⟨size, queue⟩ :=
          bufferRest_notices (c.accept (data.take n)) (Nat.sub_le data.length n)
        rw [if_neg none, List.nil_append, buffers, size]
        exact queue
    | failed errno =>
      have none : ¬ (c.writeCompleteCallback = true ∧
          Completes c (.send data (.failed errno))) := by
        rintro ⟨-, -, -, same⟩
        cases same
      rw [if_neg none, List.nil_append]
      by_cases goes : (WriteOutcome.failed errno).peerGone = false ∧ 0 < data.length
      · have buffers : c.sendInLoop data (.failed errno) = c.bufferRest data data.length := by
          simp [TcpConnection.sendInLoop, direct, TcpConnection.writeDirectly, goes]
        obtain ⟨size, queue⟩ := bufferRest_notices c (Nat.le_refl data.length)
        rw [buffers, size]
        exact queue
      · have keeps : c.sendInLoop data (.failed errno) = c := by
          cases gone : (WriteOutcome.failed errno).peerGone with
          | true => simp [TcpConnection.sendInLoop, direct, TcpConnection.writeDirectly, gone]
          | false =>
            have nothing : ¬ 0 < data.length := fun some => goes ⟨gone, some⟩
            simp [TcpConnection.sendInLoop, direct, TcpConnection.writeDirectly, nothing]
        rw [keeps, if_neg (by omega), List.append_nil]

/-- An action that hands nothing to the loop. -/
theorem notices_of_quiet {o : WriteOutcome} (size : backlog (c.handleWrite o) ≤ backlog c)
    (waits : backlog (c.handleWrite o) = 0 → backlog c = 0) :
    notices c (.handleWrite o) = [] := by
  have none : ¬ (c.writeCompleteCallback = true ∧ Completes c (.handleWrite o)) := by
    rintro ⟨-, some, drained⟩
    have := waits drained
    omega
  have low : ¬ (c.highWaterMarkCallback = true ∧ backlog c < c.highWaterMark ∧
      c.highWaterMark ≤ backlog (perform c (.handleWrite o))) := by
    rintro ⟨-, below, above⟩
    change c.highWaterMark ≤ backlog (c.handleWrite o) at above
    omega
  rw [notices, if_neg none, if_neg low]
  rfl

/-- What `handleWrite` hands to the loop. -/
theorem handleWrite_notices {o : WriteOutcome} (possible : o.Possible c.outputBuffer.length) :
    (c.handleWrite o).loop.queue = c.loop.queue ++ notices c (.handleWrite o) := by
  by_cases moves : c.readWriteChannel.isWriting = true ∧ ∃ n, o = .accepted n ∧ 0 < n
  · obtain ⟨writing, n, rfl, some⟩ := moves
    have le : n ≤ backlog c := possible
    have left : backlog (wrote c n) = backlog c - n := List.length_drop
    have advance : c.handleWrite (.accepted n) =
        if backlog (wrote c n) = 0 then (wrote c n).outputDrained else wrote c n := by
      simp only [TcpConnection.handleWrite, writing, if_true, if_pos some]
      rfl
    by_cases drained : backlog (wrote c n) = 0
    · rw [if_pos drained] at advance
      obtain ⟨loop, -, same⟩ := (wrote c n).outputDrained_eq
      have size : backlog (c.handleWrite (.accepted n)) = 0 := by
        rw [advance, same]
        exact drained
      have completes : Completes c (.handleWrite (.accepted n)) := ⟨by omega, size⟩
      have low : ¬ (c.highWaterMarkCallback = true ∧ backlog c < c.highWaterMark ∧
          c.highWaterMark ≤ backlog (perform c (.handleWrite (.accepted n)))) := by
        rintro ⟨-, below, above⟩
        change c.highWaterMark ≤ backlog (c.handleWrite (.accepted n)) at above
        omega
      rw [notices, if_neg low, List.append_nil, advance, queue_outputDrained]
      simp only [completes, and_true]
      rfl
    · rw [if_neg drained] at advance
      have size : backlog (c.handleWrite (.accepted n)) = backlog c - n := by
        rw [advance]
        exact left
      rw [notices_of_quiet (by omega) (by omega), advance]
      exact (List.append_nil _).symm
  · have keeps : c.handleWrite o = c := by
      cases writing : c.readWriteChannel.isWriting with
      | false => simp [TcpConnection.handleWrite, writing]
      | true =>
        cases o with
        | failed errno => simp [TcpConnection.handleWrite]
        | accepted n =>
          have still : ¬ 0 < n := fun some => moves ⟨writing, n, rfl, some⟩
          simp [TcpConnection.handleWrite, still]
    have same : backlog (c.handleWrite o) = backlog c := congrArg backlog keeps
    rw [notices_of_quiet (Nat.le_of_eq same) (fun drained => same ▸ drained), keeps,
      List.append_nil]

/-- What an action hands to the loop, and the settings it leaves alone. -/
theorem perform_notices {a : Act} {d : TcpConnection} (next : step c a = some d) :
    d.loop.queue = c.loop.queue ++ notices c a ∧
      d.writeCompleteCallback = c.writeCompleteCallback ∧
      d.highWaterMarkCallback = c.highWaterMarkCallback ∧ d.highWaterMark = c.highWaterMark := by
  cases a with
  | send data o =>
    simp only [step] at next
    split at next
    · rename_i possible
      cases next
      by_cases connected : c.isConnected = true
      · have sent : perform c (.send data o) = c.sendInLoop data o := if_pos connected
        obtain ⟨loop, -, same⟩ := c.sendInLoop_eq data o
        rw [sent]
        refine ⟨sendInLoop_notices connected possible, ?_⟩
        rw [same]
        split <;> exact ⟨rfl, rfl, rfl⟩
      · have keeps : perform c (.send data o) = c := if_neg connected
        have none : ¬ (c.writeCompleteCallback = true ∧ Completes c (.send data o)) :=
          fun posts => connected posts.2.1
        rw [notices, if_neg none, keeps, if_neg (by omega)]
        exact ⟨(List.append_nil _).symm, rfl, rfl, rfl⟩
    · cases next
  | handleWrite o =>
    simp only [step] at next
    split at next
    · rename_i possible
      cases next
      obtain ⟨loop, channel, -, -, same⟩ := c.handleWrite_eq o
      refine ⟨handleWrite_notices possible, ?_⟩
      rw [perform, same]
      exact ⟨rfl, rfl, rfl⟩
    · cases next

theorem step_eq_perform {a : Act} {d : TcpConnection} (next : step c a = some d) :
    d = perform c a := by
  cases a with
  | send data o =>
    simp only [step] at next
    split at next
    · exact (Option.some.inj next).symm
    · cases next
  | handleWrite o =>
    simp only [step] at next
    split at next
    · exact (Option.some.inj next).symm
    · cases next

theorem highSizes_append (xs ys : List ConnFunctor) :
    highSizes (xs ++ ys) = highSizes xs ++ highSizes ys := List.filterMap_append

theorem highSizes_notices (c : TcpConnection) (a : Act) (high : c.highWaterMarkCallback = true) :
    highSizes (notices c a) =
      if backlog c < c.highWaterMark ∧ c.highWaterMark ≤ backlog (perform c a) then
        [backlog (perform c a)] else [] := by
  rw [notices, highSizes_append]
  simp only [high, true_and]
  split <;> split <;> rfl

theorem count_notices (c : TcpConnection) (a : Act) (complete : c.writeCompleteCallback = true) :
    (notices c a).count .writeCompleteCallback = if Completes c a then 1 else 0 := by
  rw [notices, List.count_append]
  simp only [complete, true_and]
  split <;> split <;> rfl

theorem length_notices (c : TcpConnection) (a : Act) (complete : c.writeCompleteCallback = true)
    (high : c.highWaterMarkCallback = true) :
    (notices c a).length = (if Completes c a then 1 else 0) + (highSizes (notices c a)).length := by
  rw [highSizes_notices c a high, notices, List.length_append]
  simp only [complete, high, true_and]
  split <;> split <;> rfl

theorem crossings_sizes (mark : Nat) (c : TcpConnection) (a : Act) (rest : List Act) :
    crossings mark (sizes c (a :: rest)) =
      (if backlog c < mark ∧ mark ≤ backlog (perform c a) then [backlog (perform c a)] else []) ++
        crossings mark (sizes (perform c a) rest) := by
  cases rest <;> rfl

end Steps

/-- Along every run the user is told that a write is complete once for each action that leaves
nothing to write, and of a high water mark, with the size, once for each time the backlog
reaches it from below; the loop is handed nothing else. -/
theorem announces_exactly {c d : TcpConnection} {actions : List Act}
    (done : run step c actions = some d) (complete : c.writeCompleteCallback = true)
    (high : c.highWaterMarkCallback = true) :
    ∃ posted, d.loop.queue = c.loop.queue ++ posted ∧
      posted.count .writeCompleteCallback = completions c actions ∧
      highSizes posted = crossings c.highWaterMark (sizes c actions) ∧
      posted.length = completions c actions + (highSizes posted).length := by
  induction actions generalizing c with
  | nil =>
    cases done
    exact ⟨[], (List.append_nil _).symm, rfl, rfl, rfl⟩
  | cons a rest ih =>
    obtain ⟨m, next, later⟩ := run_cons_eq_some.mp done
    obtain ⟨queue, complete', high', mark⟩ := perform_notices next
    obtain ⟨posted, after, count, marks, only⟩ :=
      ih later (complete'.trans complete) (high'.trans high)
    obtain rfl := step_eq_perform next
    rw [mark] at marks
    refine ⟨notices c a ++ posted, ?_, ?_, ?_, ?_⟩
    · rw [after, queue, List.append_assoc]
    · rw [List.count_append, count_notices c a complete, count, completions]
    · rw [highSizes_append, highSizes_notices c a high, marks, crossings_sizes]
    · rw [List.length_append, length_notices c a complete high, only, highSizes_append,
        List.length_append, completions]
      omega

/-- Five bytes wait in the end, one more than the mark, and leave at once. -/
theorem announces_exactly_mark :
    ∃ d, run step (.established .new 5 ⟨4, true, true⟩) [.send [1, 2, 3] (.accepted 1),
        .send [4, 5, 6] (.accepted 0), .handleWrite (.accepted 5)] = some d ∧
      ∃ posted, d.loop.queue = posted ∧ posted.count .writeCompleteCallback = 1 ∧
        highSizes posted = [5] := by
  refine ⟨_, rfl, ?_⟩
  obtain ⟨posted, queue, count, marks, -⟩ :=
    @announces_exactly (.established .new 5 ⟨4, true, true⟩) _ [.send [1, 2, 3] (.accepted 1),
      .send [4, 5, 6] (.accepted 0), .handleWrite (.accepted 5)] rfl rfl rfl
  exact ⟨posted, queue, count, marks⟩

end Backpressure
end Arale
