import Mathlib.Algebra.Group.Int.Defs
import Mathlib.Algebra.Group.Nat.Defs
import Arale.Net.Buffer
import Arale.Net.TcpConnection

/-!
# One read on a connection

`TcpConnection::handleRead` on the buffer that `readFd` fills. `readv` answers with a
signed count; `handleRead` keeps it in a `size_t`, where -1 is the greatest size and no
value is negative. So the last branch is never taken, and a failed read is announced to
the user as a message. A count of bytes is passed on as it is, provided that `readFd`
finds room for them.
-/

namespace Arale
namespace TcpConnection

/-- `size_t res = n`. -/
def toSize (n : Int) : Nat := (n % 2 ^ 64).toNat

/-- The branches of `handleRead`, the last one with the value it gives `errno`. -/
inductive ReadBranch where
  | messageCallback
  | handleClose
  | handleError (saveErrno : Int)
  deriving DecidableEq, Repr

/-- `errno` as `readFd` saves it. -/
def savedErrno : ReadOutcome → Int
  | .delivered _ => 0
  | .failed errno => errno

/-- `handleRead` up to its branch: the buffer then, and which branch it is. -/
def readBranch (inputBuffer : Buffer) (o : ReadOutcome) : Except Fault (Buffer × ReadBranch) := do
  let (inputBuffer, n) ← inputBuffer.readFd o
  let res := toSize n
  if res > 0 then .ok (inputBuffer, .messageCallback)
  else if res = 0 then .ok (inputBuffer, .handleClose)
  else .ok (inputBuffer, .handleError (savedErrno o))

/-- What a branch does to the connection. -/
def perform (c : TcpConnection) : ReadBranch → TcpConnection
  | .messageCallback => c.notify .messageCallback
  | .handleClose => c.handleClose
  | .handleError _ => c.handleError

/-- The count of bytes is an `ssize_t`. -/
def Counted : ReadOutcome → Prop
  | .delivered bytes => bytes.length < 2 ^ 63
  | .failed _ => True

/-- A read is answered by what was really read. -/
structure ReactsToRead (inputBuffer : Buffer) (o : ReadOutcome) : Prop where
  message : (∃ after, readBranch inputBuffer o = .ok (after, .messageCallback)) ↔
    ∃ bytes, o = .delivered bytes ∧ 0 < bytes.length
  grown : ∀ bytes, o = .delivered bytes → 0 < bytes.length →
    ∃ after, readBranch inputBuffer o = .ok (after, .messageCallback) ∧
      after.readable = inputBuffer.readable ++ bytes
  close : (∃ after, readBranch inputBuffer o = .ok (after, .handleClose)) ↔ o = .delivered []
  error : ∀ errno, o = .failed errno →
    readBranch inputBuffer o = .ok (inputBuffer, .handleError errno)

section Branches
variable {inputBuffer : Buffer}

theorem toSize_natCast {n : Nat} (small : n < 2 ^ 63) : toSize n = n := by
  simp only [toSize]
  omega

/-- A failed read takes the branch of a message. -/
theorem readBranch_failed (errno : Int) :
    readBranch inputBuffer (.failed errno) = .ok (inputBuffer, .messageCallback) := by
  have positive : toSize (-1) > 0 := by decide
  simp only [readBranch, Buffer.readFd, Bind.bind, Except.bind, if_pos positive]

theorem readBranch_delivered (sound : inputBuffer.Sound) {bytes : List UInt8}
    (counted : Counted (.delivered bytes)) (room : inputBuffer.MakesRoom bytes.length) :
    ∃ after, after.readable = inputBuffer.readable ++ bytes ∧
      readBranch inputBuffer (.delivered bytes) =
        .ok (after, if bytes = [] then .handleClose else .messageCallback) := by
  obtain ⟨after, done, -, content⟩ := Buffer.readFd_spec sound room
  refine ⟨after, content, ?_⟩
  rw [readBranch, done]
  simp only [Bind.bind, Except.bind, toSize_natCast counted]
  cases bytes with
  | nil => rfl
  | cons byte rest => simp

theorem readBranch_ok (sound : inputBuffer.Sound) {bytes : List UInt8}
    {result : Buffer × ReadBranch}
    (done : readBranch inputBuffer (.delivered bytes) = .ok result) :
    inputBuffer.MakesRoom bytes.length := by
  rw [readBranch, Buffer.bind_eq_ok] at done
  obtain ⟨read, readDone, -⟩ := done
  exact Buffer.makesRoom_of_readFd sound readDone

/-- The branch and the buffer are those of the connection on its byte FIFO. -/
theorem handleRead_eq_perform (sound : inputBuffer.Sound) {c : TcpConnection} {o : ReadOutcome}
    (content : c.inputBuffer = inputBuffer.readable) {after : Buffer} {branch : ReadBranch}
    (counted : Counted o) (done : readBranch inputBuffer o = .ok (after, branch)) :
    c.handleRead o = perform { c with inputBuffer := after.readable } branch := by
  cases o with
  | failed errno =>
    rw [readBranch_failed] at done
    cases done
    rw [← content]
    rfl
  | delivered bytes =>
    obtain ⟨after', content', done'⟩ :=
      readBranch_delivered sound counted (readBranch_ok sound done)
    rw [done'] at done
    cases done
    rw [content', ← content]
    cases bytes with
    | nil => simp [handleRead, readInput, perform]
    | cons byte rest => simp [handleRead, readInput, perform]

/-- A read is answered by what was really read exactly when it did not fail and `readFd`
has room for its bytes. -/
theorem reacts_to_read_iff (sound : inputBuffer.Sound) {o : ReadOutcome} (counted : Counted o) :
    ReactsToRead inputBuffer o ↔
      ∃ bytes, o = .delivered bytes ∧ inputBuffer.MakesRoom bytes.length := by
  constructor
  · intro reacts
    cases o with
    | failed errno =>
      have handled := (readBranch_failed errno).symm.trans (reacts.error errno rfl)
      cases handled
    | delivered bytes =>
      refine ⟨bytes, rfl, ?_⟩
      rcases Nat.eq_zero_or_pos bytes.length with empty | some
      · intro full
        omega
      · obtain ⟨after, done, -⟩ := reacts.grown bytes rfl some
        exact readBranch_ok sound done
  · rintro ⟨bytes, rfl, room⟩
    obtain ⟨after, content, done⟩ := readBranch_delivered sound counted room
    have branch (other : ReadBranch) :
        (∃ after, readBranch inputBuffer (.delivered bytes) = .ok (after, other)) ↔
          (if bytes = [] then .handleClose else .messageCallback) = other := by
      rw [done]
      simp
    refine ⟨?_, ?_, ?_, fun errno same => by cases same⟩
    · rw [branch]
      cases bytes <;> simp
    · intro others same some
      cases same
      have full : bytes ≠ [] := List.length_pos_iff.mp some
      exact ⟨after, by rw [done, if_neg full], content⟩
    · rw [branch]
      cases bytes <;> simp

end Branches

/-- `readv` fails on a new buffer, with `ECONNRESET`. -/
theorem failed_read_is_message :
    readBranch .new (.failed 104) = .ok (.new, .messageCallback) ∧
      ¬ ReactsToRead .new (.failed 104) := by
  have handled : readBranch .new (.failed 104) = .ok (.new, .messageCallback) :=
    readBranch_failed 104
  refine ⟨handled, fun reacts => ?_⟩
  rw [reacts.error 104 rfl] at handled
  cases handled

theorem reacts_to_read_hello : ReactsToRead .new (.delivered [104, 101, 108, 108, 111]) := by
  have counted : Counted (.delivered [104, 101, 108, 108, 111]) := by simp [Counted]
  have room : Buffer.new.MakesRoom 5 := by
    intro full
    rw [Buffer.writableBytes_new, Buffer.kDefaultInitialSize] at full
    omega
  exact (reacts_to_read_iff Buffer.new_sound counted).mpr ⟨_, rfl, room⟩

end TcpConnection
end Arale
