import Mathlib.Data.Fintype.EquivFin
import Mathlib.Data.Nat.Find
import Arale.Lib.Schedules

/-!
# The acceptor

`Acceptor` of `net/Acceptor.cc` over `sockets::accept`, with the descriptor table and the
`errno` of its process. Descriptors are given out lowest first. What `newConnectionCallback_`
and everybody else do to the table and to `errno` are steps of their own that leave the
backup descriptor alone, and one `handleNewConnection` is one step; logging leaves `errno` as
it is. `LOG_SYSFATAL` comes ahead of the switch over `errno`: its logger aborts the process
whatever the switch would say.
-/

namespace Arale

/-- The values of `errno` that the switch in `sockets::accept` names. -/
inductive AcceptErrno where
  | EAGAIN
  | ECONNABORTED
  | EINTR
  | EPROTO
  | EPERM
  | EMFILE
  | EBADF
  | EFAULT
  | EINVAL
  | ENFILE
  | ENOBUFS
  | ENOMEM
  | ENOTSOCK
  | EOPNOTSUPP
  | unknown (code : Nat)
  deriving DecidableEq, Repr

/-- The cases of the switch that only restore `errno`. -/
def AcceptErrno.transient : AcceptErrno → Bool
  | .EAGAIN | .ECONNABORTED | .EINTR | .EPROTO | .EPERM | .EMFILE => true
  | _ => false

inductive LogLevel where
  | TRACE
  | DEBUG
  | INFO
  | WARN
  | ERROR
  | FATAL
  deriving DecidableEq, Repr

/-- `Logger::Logger(file, line, toAbort)`. -/
def sysLevel (toAbort : Bool) : LogLevel := if toAbort then .FATAL else .ERROR

/-- `Logger::~Logger`; an abort carries the `errno` that was logged. -/
def log (level : LogLevel) (errno : AcceptErrno) : Except AcceptErrno Unit :=
  if level = .FATAL then .error errno else .ok ()

/-- What `accept4` does. -/
inductive AcceptOutcome where
  | accepted
  | failed (errno : AcceptErrno)
  deriving DecidableEq, Repr

structure Acceptor where
  hasCallback : Bool
  backupFd : Int
  /-- the descriptors that are open in the process, and how many may be -/
  openFds : Finset Nat
  limit : Nat
  errno : AcceptErrno
  /-- the process was aborted with this value of `errno` -/
  abortedOn : Option AcceptErrno

namespace Acceptor

/-- The descriptor that the next successful call returns. -/
def lowestFree (fds : Finset Nat) : Nat := Nat.find (Infinite.exists_notMem_finset fds)

def slotFree (a : Acceptor) : Bool := decide (a.openFds.card < a.limit)

/-- `open("/dev/null", O_RDONLY | O_CLOEXEC)`. -/
def openNull (a : Acceptor) : Acceptor × Int :=
  if a.slotFree then
    ({ a with openFds := insert (lowestFree a.openFds) a.openFds }, lowestFree a.openFds)
  else ({ a with errno := .EMFILE }, -1)

def close (a : Acceptor) (fd : Int) : Acceptor :=
  if 0 ≤ fd ∧ fd.toNat ∈ a.openFds then { a with openFds := a.openFds.erase fd.toNat }
  else { a with errno := .EBADF }

def accept4 (a : Acceptor) : AcceptOutcome → Acceptor × Int
  | .accepted =>
    ({ a with openFds := insert (lowestFree a.openFds) a.openFds }, lowestFree a.openFds)
  | .failed errno => ({ a with errno := errno }, -1)

/-- `sockets::accept` once `accept4` has failed; an abort ends it there. -/
def acceptFailed (a : Acceptor) (connfd : Int) : Except AcceptErrno (Acceptor × Int) := do
  log (sysLevel true) a.errno
  let savedErrno := a.errno
  match savedErrno with
  | .EAGAIN | .ECONNABORTED | .EINTR | .EPROTO | .EPERM | .EMFILE =>
    .ok ({ a with errno := savedErrno }, connfd)
  | .EBADF | .EFAULT | .EINVAL | .ENFILE | .ENOBUFS | .ENOMEM | .ENOTSOCK | .EOPNOTSUPP =>
    log .FATAL savedErrno
    .ok (a, connfd)
  | .unknown _ =>
    log .FATAL savedErrno
    .ok (a, connfd)

/-- `sockets::accept`. -/
def accept (a : Acceptor) (o : AcceptOutcome) : Except AcceptErrno (Acceptor × Int) :=
  match a.accept4 o with
  | (a, connfd) => if connfd < 0 then a.acceptFailed connfd else .ok (a, connfd)

/-- `second` is what the `accept4` of the `EMFILE` branch does. -/
def handleNewConnection (a : Acceptor) (first second : AcceptOutcome) :
    Except AcceptErrno Acceptor := do
  let (a, newconnfd) ← a.accept first
  if newconnfd > 0 then
    .ok (if a.hasCallback then a else a.close newconnfd)
  else
    log (sysLevel false) a.errno
    if a.errno = .EMFILE then
      let a := a.close a.backupFd
      let (a, fd) ← a.accept second
      let a := { a with backupFd := fd }
      let a := a.close a.backupFd
      let (a, fd) := a.openNull
      .ok { a with backupFd := fd }
    else .ok a

/-- The constructor, in a process with some descriptors open. -/
def new (hasCallback : Bool) (openFds : Finset Nat) (limit : Nat) (errno : AcceptErrno) :
    Acceptor :=
  let (a, fd) := openNull ⟨hasCallback, -1, openFds, limit, errno, none⟩
  { a with backupFd := fd }

inductive Act where
  /-- the listening socket is readable -/
  | readable (first second : AcceptOutcome)
  /-- the rest of the process opens and closes descriptors and sets `errno` -/
  | others (openFds : Finset Nat) (errno : AcceptErrno)

/-- The backup descriptor is open. -/
def HoldsBackup (a : Acceptor) : Prop := 0 ≤ a.backupFd ∧ a.backupFd.toNat ∈ a.openFds

instance (a : Acceptor) : Decidable a.HoldsBackup := inferInstanceAs (Decidable (_ ∧ _))

/-- An aborted process does nothing; a connection is accepted into a free slot. -/
def Enabled (a : Acceptor) : Act → Prop
  | .readable first _ => a.abortedOn = none ∧ (first = .accepted → a.slotFree = true)
  | .others openFds _ => a.abortedOn = none ∧ openFds.card ≤ a.limit ∧
      (a.HoldsBackup → a.backupFd.toNat ∈ openFds)

instance (a : Acceptor) : (act : Act) → Decidable (a.Enabled act)
  | .readable _ _ => inferInstanceAs (Decidable (_ ∧ _))
  | .others _ _ => inferInstanceAs (Decidable (_ ∧ _))

def step (a : Acceptor) (act : Act) : Option Acceptor :=
  if a.Enabled act then
    some (match act with
      | .readable first second =>
        match a.handleNewConnection first second with
        | .ok a => a
        | .error errno => { a with abortedOn := some errno }
      | .others openFds errno => { a with openFds := openFds, errno := errno })
  else none

/-! ## One call of `accept` -/

section Accept
variable (a : Acceptor)

theorem lowestFree_notMem (fds : Finset Nat) : lowestFree fds ∉ fds :=
  Nat.find_spec (Infinite.exists_notMem_finset fds)

/-- Every failure is logged as fatal ahead of the switch. -/
theorem accept_failed (errno : AcceptErrno) : a.accept (.failed errno) = .error errno := rfl

theorem accept_accepted : a.accept .accepted =
    .ok ({ a with openFds := insert (lowestFree a.openFds) a.openFds }, lowestFree a.openFds) := by
  have positive : ¬ (lowestFree a.openFds : Int) < 0 := by omega
  rw [accept, accept4]
  exact if_neg positive

/-- The branch for a full table is taken: descriptor 0 is no connection, and `errno` is
left from before. -/
def TakesBackup : Prop := lowestFree a.openFds = 0 ∧ a.errno = .EMFILE

instance : Decidable a.TakesBackup := inferInstanceAs (Decidable (_ ∧ _))

/-- The outcomes of the calls of `accept4` in a step. -/
def calls : Act → List AcceptOutcome
  | .readable first second =>
    if a.Enabled (.readable first second) then
      first :: if first = .accepted ∧ a.TakesBackup then [second] else []
    else []
  | .others _ _ => []

/-- `handleNewConnection` on a connection. -/
theorem handleNewConnection_accepted (second : AcceptOutcome) :
    a.handleNewConnection .accepted second =
      let b := { a with openFds := insert (lowestFree a.openFds) a.openFds }
      if lowestFree a.openFds = 0 then
        if a.errno = .EMFILE then
          ((b.close b.backupFd).accept second).map fun (c, fd) =>
            let (d, fd) := openNull ({ c with backupFd := fd }.close fd)
            { d with backupFd := fd }
        else .ok b
      else .ok (if b.hasCallback then b else b.close (lowestFree a.openFds)) := by
  rw [handleNewConnection, accept_accepted]
  simp only [Bind.bind, Except.bind]
  by_cases zero : lowestFree a.openFds = 0
  · have none : ¬ (lowestFree a.openFds : Int) > 0 := by omega
    rw [if_neg none, if_pos zero]
    by_cases full : a.errno = .EMFILE
    · simp [full, log, sysLevel, Except.map]
    · simp [full, log, sysLevel]
  · have some : (lowestFree a.openFds : Int) > 0 := by omega
    rw [if_pos some, if_neg zero]

end Accept

/-! ## Runs -/

/-- None of the calls of `accept4` in the step fails with a value the switch lets pass. -/
def SparesTransient (a : Acceptor) (act : Act) : Prop :=
  ∀ o ∈ a.calls act, ∀ errno, o = .failed errno → errno.transient = false

/-- Such a call makes `sockets::accept` return -1 and leave that `errno`. -/
def AnswersTransient (a : Acceptor) (act : Act) : Prop :=
  ∀ o ∈ a.calls act, ∀ errno, o = .failed errno → errno.transient = true →
    ∀ b : Acceptor, b.accept o = .ok ({ b with errno := errno }, -1)

/-- The process is aborted for an unexpected or unknown value only, and until then the
backup descriptor is open. -/
structure Survives (a : Acceptor) : Prop where
  aborted : ∀ errno, a.abortedOn = some errno → errno.transient = false
  backup : a.abortedOn = none → a.HoldsBackup

structure Sound (a : Acceptor) : Prop extends a.Survives where
  fits : a.openFds.card ≤ a.limit

section Steps
variable {a b : Acceptor} {act : Act}

theorem close_open {fd : Nat} (isOpen : fd ∈ a.openFds) :
    a.close fd = { a with openFds := a.openFds.erase fd } := by
  simp [close, isOpen]

theorem holdsBackup_openNull (free : a.slotFree = true) :
    HoldsBackup { a.openNull.1 with backupFd := a.openNull.2 } ∧
      a.openNull.1.openFds.card ≤ a.openNull.1.limit ∧
      a.openNull.1.abortedOn = a.abortedOn := by
  have room : a.openFds.card < a.limit := by simpa [slotFree] using free
  have size := Finset.card_insert_of_notMem (lowestFree_notMem a.openFds)
  simp only [openNull, if_pos free, HoldsBackup]
  exact ⟨⟨by omega, by simp⟩, by omega, trivial⟩

theorem aborts_sound (sound : a.Sound) (errno : AcceptErrno) (spares : errno.transient = false) :
    Sound { a with abortedOn := some errno } := by
  refine ⟨⟨fun other same => ?_, fun alive => by cases alive⟩, sound.fits⟩
  cases same
  exact spares

/-- The backup descriptor is given up for the connection and opened again. -/
theorem reopened_sound (sound : a.Sound) (alive : a.abortedOn = none)
    (room : a.openFds.card < a.limit) :
    ∃ c, (close { a with openFds := insert (lowestFree a.openFds) a.openFds }
        a.backupFd).accept .accepted = .ok c ∧
      Sound { (openNull ({ c.1 with backupFd := c.2 }.close c.2)).1 with
        backupFd := (openNull ({ c.1 with backupFd := c.2 }.close c.2)).2 } := by
  obtain ⟨positive, isOpen⟩ := sound.backup alive
  obtain ⟨backup, same⟩ : ∃ n : Nat, a.backupFd = n := ⟨a.backupFd.toNat, by omega⟩
  have backupOpen : backup ∈ a.openFds := by simpa [same] using isOpen
  have size := Finset.card_insert_of_notMem (lowestFree_notMem a.openFds)
  generalize lowestFree a.openFds = fd at size
  have inserted : backup ∈ insert fd a.openFds := Finset.mem_insert_of_mem backupOpen
  have erased := Finset.card_erase_of_mem inserted
  have closed : close { a with openFds := insert fd a.openFds } a.backupFd =
      { a with openFds := (insert fd a.openFds).erase backup } := by
    rw [same]
    exact close_open inserted
  refine ⟨_, by rw [closed, accept_accepted], ?_⟩
  generalize (insert fd a.openFds).erase backup = fds at erased
  have given := lowestFree_notMem fds
  simp only
  rw [close_open (by simp)]
  simp only [Finset.erase_insert given]
  have free : slotFree { a with openFds := fds, backupFd := lowestFree fds } = true := by
    simp only [slotFree, decide_eq_true_eq]
    omega
  obtain ⟨holds, fits, kept⟩ := holdsBackup_openNull free
  refine ⟨⟨fun errno aborted => ?_, fun _ => holds⟩, fits⟩
  rw [show _ = a.abortedOn from kept, alive] at aborted
  cases aborted

/-- The constructor finds a slot for its backup descriptor. -/
theorem new_sound (hasCallback : Bool) {openFds : Finset Nat} {limit : Nat} (errno : AcceptErrno)
    (free : openFds.card < limit) :
    (new hasCallback openFds limit errno).Sound ∧
      (new hasCallback openFds limit errno).abortedOn = none := by
  have slot : slotFree ⟨hasCallback, -1, openFds, limit, errno, none⟩ = true := by
    simpa [slotFree] using free
  obtain ⟨holds, fits, kept⟩ := holdsBackup_openNull slot
  have alive : (new hasCallback openFds limit errno).abortedOn = none := kept
  refine ⟨⟨⟨fun other aborted => ?_, fun _ => holds⟩, fits⟩, alive⟩
  rw [alive] at aborted
  cases aborted

/-- A connection that is given to the callback, closed, or lost as descriptor 0. -/
theorem accepted_sound (sound : a.Sound) (alive : a.abortedOn = none)
    (room : a.openFds.card < a.limit) (second : AcceptOutcome)
    (spares : a.TakesBackup → ∀ errno, second = .failed errno → errno.transient = false) :
    (∃ c, a.handleNewConnection .accepted second = .ok c ∧ c.Sound) ∨
      ∃ errno, a.handleNewConnection .accepted second = .error errno ∧
        errno.transient = false := by
  have backup := sound.backup alive
  have fresh := lowestFree_notMem a.openFds
  have size := Finset.card_insert_of_notMem fresh
  have inserted : Sound { a with openFds := insert (lowestFree a.openFds) a.openFds } :=
    ⟨⟨sound.aborted, fun _ => ⟨backup.1, Finset.mem_insert_of_mem backup.2⟩⟩,
      by simp only; omega⟩
  rw [handleNewConnection_accepted]
  by_cases zero : lowestFree a.openFds = 0
  · by_cases full : a.errno = .EMFILE
    · simp only [if_pos zero, if_pos full]
      cases second with
      | failed errno =>
        exact .inr ⟨errno, rfl, spares ⟨zero, full⟩ errno rfl⟩
      | accepted =>
        obtain ⟨c, accepted, reopened⟩ := reopened_sound sound alive room
        exact .inl ⟨_, by rw [accepted]; rfl, reopened⟩
    · simp only [if_pos zero, if_neg full]
      exact .inl ⟨_, rfl, inserted⟩
  · simp only [if_neg zero]
    refine .inl ⟨_, rfl, ?_⟩
    split
    · exact inserted
    · rw [close_open (by simp)]
      simp only [Finset.erase_insert fresh]
      exact sound

theorem step_sound (sound : a.Sound) (spares : a.SparesTransient act)
    (next : a.step act = some b) : b.Sound := by
  simp only [step, Option.ite_none_right_eq_some, Option.some.injEq] at next
  obtain ⟨enabled, rfl⟩ := next
  cases act with
  | others openFds errno =>
    obtain ⟨alive, fits, kept⟩ := enabled
    have backup := sound.backup alive
    exact ⟨⟨sound.aborted, fun _ => ⟨backup.1, kept backup⟩⟩, fits⟩
  | readable first second =>
    obtain ⟨alive, room⟩ := enabled
    cases first with
    | failed errno =>
      refine aborts_sound sound errno (spares (.failed errno) ?_ errno rfl)
      rw [calls, if_pos ⟨alive, room⟩]
      exact List.mem_cons_self
    | accepted =>
      have free : a.openFds.card < a.limit := by simpa [slotFree] using room rfl
      have later (takes : a.TakesBackup) (errno : AcceptErrno) (failed : second = .failed errno) :
          errno.transient = false := by
        refine spares second ?_ errno failed
        rw [calls, if_pos ⟨alive, room⟩, if_pos ⟨rfl, takes⟩]
        exact List.mem_cons_of_mem _ List.mem_cons_self
      rcases accepted_sound sound alive free second later with
        ⟨c, done, sound'⟩ | ⟨errno, aborts, unexpected⟩
      · simp only [done]
        exact sound'
      · simp only [aborts]
        exact aborts_sound sound errno unexpected

/-- A call that fails so aborts the process. -/
theorem spares_of_survives (alive : ∀ b, a.step act = some b → b.Survives) :
    a.SparesTransient act := by
  intro o called errno failed
  subst failed
  cases act with
  | others openFds errno => cases called
  | readable first second =>
    simp only [calls] at called
    split at called
    · rename_i enabled
      have survives := (alive _ (if_pos enabled)).aborted errno
      rcases List.mem_cons.mp called with rfl | again
      · exact survives rfl
      · split at again
        · rename_i takes
          obtain ⟨rfl, zero, full⟩ := takes
          obtain rfl := List.mem_singleton.mp again
          have aborts : a.handleNewConnection .accepted (.failed errno) = .error errno := by
            rw [handleNewConnection_accepted]
            simp only [if_pos zero, if_pos full]
            rfl
          simp only [aborts] at survives
          exact survives trivial
        · cases again
    · cases called

end Steps

/-- From a state with an open backup descriptor the acceptor survives a run, and answers
the transient failures in it, exactly when no call of `accept4` in the run fails with one
of the six values. -/
theorem survives_iff {a : Acceptor} (alive : a.abortedOn = none) (backup : a.HoldsBackup)
    (fits : a.openFds.card ≤ a.limit) (actions : List Act) :
    (Schedules.Throughout step Survives a actions ∧
        Schedules.Along step AnswersTransient a actions) ↔
      Schedules.Along step SparesTransient a actions := by
  have start : a.Sound := by
    refine ⟨⟨fun errno aborted => ?_, fun _ => backup⟩, fits⟩
    rw [alive] at aborted
    cases aborted
  have survives : Schedules.Throughout step Survives a actions ↔
      Schedules.Along step SparesTransient a actions :=
    Schedules.throughout_iff_along_of_stronger (I := Sound) (fun _ sound => sound.toSurvives)
      (fun _ _ _ sound spares next => step_sound sound spares next)
      (fun _ _ _ later => spares_of_survives later) start
  constructor
  · exact fun both => survives.mp both.1
  · intro spares
    refine ⟨survives.mpr spares, ?_⟩
    refine Schedules.along_of_kept (I := fun _ => True) (fun _ _ _ _ _ _ => trivial) ?_ trivial
      spares
    intro b act _ spares o called errno failed transient
    rw [spares o called errno failed] at transient
    cases transient

/-- A process with its standard descriptors and a listening socket. -/
def started : Acceptor := new true {0, 1, 2, 3} 1024 (.unknown 0)

theorem started_sound : started.Sound ∧ started.abortedOn = none :=
  new_sound true (.unknown 0) (by decide)

/-- The listening socket turns out to have no connection. -/
theorem transient_failure_aborts :
    started.accept (.failed .EAGAIN) = .error .EAGAIN ∧
      ¬ Schedules.Throughout step Survives started [.readable (.failed .EAGAIN) .accepted] := by
  refine ⟨accept_failed started .EAGAIN, fun all => ?_⟩
  have enabled : started.Enabled (.readable (.failed .EAGAIN) .accepted) :=
    ⟨started_sound.2, fun accepted => by cases accepted⟩
  have survives := (all.2 _ (if_pos enabled)).start.aborted .EAGAIN rfl
  cases survives

/-- A connection, and then a failure that the switch calls unexpected. -/
theorem survives_connection :
    Schedules.Throughout step Survives started
      [.readable .accepted .accepted, .readable (.failed .ENFILE) .accepted] := by
  obtain ⟨sound, alive⟩ := started_sound
  refine ((survives_iff alive (sound.backup alive) sound.fits _).mpr ?_).1
  refine ⟨?_, fun b _ => ⟨?_, fun _ _ => trivial⟩⟩
  · intro o called errno failed
    subst failed
    simp only [calls] at called
    split at called
    · split at called <;> simp at called
    · cases called
  · intro o called errno failed
    subst failed
    simp only [calls] at called
    split at called
    · have same : AcceptOutcome.failed errno = .failed .ENFILE := by simpa using called
      cases same
      rfl
    · cases called

end Acceptor
end Arale
