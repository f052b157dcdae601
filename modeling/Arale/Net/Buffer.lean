import Arale.Lib.Memory

/-!
# The byte buffer

`Buffer` of `net/Buffer.h` with its vector as a block of memory and its two
indices. Failed assertions and stores outside the vector are faults and stop the
operation. Sizes are natural numbers: allocation does not fail and sums of sizes
do not wrap, as for an unbounded deque. `std::copy` over `char` moves the whole
range at once, as the library's `memmove` does.
-/

namespace Arale

open Memory

inductive Fault where
  | assertion
  | outOfBounds
  deriving DecidableEq, Repr

/-- `assert(cond)`. -/
def check (cond : Prop) [Decidable cond] : Except Fault Unit :=
  if cond then .ok () else .error .assertion

/-- `std::copy` into the vector: every cell written must lie inside it. -/
def copyTo (mem : List UInt8) (pos : Nat) (data : List UInt8) : Except Fault (List UInt8) :=
  match store mem pos data with
  | some mem' => .ok mem'
  | none => .error .outOfBounds

structure Buffer where
  buffer : List UInt8
  readIndex : Nat
  writeIndex : Nat
  deriving DecidableEq, Repr

/-- What `readv` on the socket did: the bytes it delivered, or `-1` and `errno`. -/
inductive ReadOutcome where
  | delivered (bytes : List UInt8)
  | failed (errno : Int)
  deriving DecidableEq, Repr

namespace Buffer

def kCheapPrependSize : Nat := 8
def kDefaultInitialSize : Nat := 1024

/-- The size of `extrabuf` in `readFd`. -/
def extrabufSize : Nat := 65535

/-- The constructor allocates the default size whatever `initialSize` is. -/
def new : Buffer where
  buffer := List.replicate (kCheapPrependSize + kDefaultInitialSize) 0
  readIndex := kCheapPrependSize
  writeIndex := kCheapPrependSize

def readableBytes (b : Buffer) : Nat := b.writeIndex - b.readIndex

def writableBytes (b : Buffer) : Nat := b.buffer.length - b.writeIndex

def prependableSize (b : Buffer) : Nat := b.readIndex

/-- The readable bytes, from `peek()` to `beginWrite()`. -/
def readable (b : Buffer) : List UInt8 := slice b.buffer b.readIndex b.writeIndex

def retrieveAll (b : Buffer) : Buffer :=
  { b with readIndex := kCheapPrependSize, writeIndex := kCheapPrependSize }

def retrieve (b : Buffer) (len : Nat) : Except Fault Buffer := do
  check (len ≤ b.readableBytes)
  if len < b.readableBytes then
    .ok { b with readIndex := b.readIndex + len }
  else
    .ok b.retrieveAll

/-- `stop` is the pointer argument as an offset from `begin()`. -/
def retrieveUntil (b : Buffer) (stop : Nat) : Except Fault Buffer := do
  check (stop ≤ b.writeIndex)
  check (b.readIndex ≤ stop)
  b.retrieve (stop - b.readIndex)

def retrieveAsString (b : Buffer) (len : Nat) : Except Fault (Buffer × List UInt8) := do
  check (len ≤ b.readableBytes)
  let result := b.readable.take len
  let b' ← b.retrieve len
  .ok (b', result)

def retrieveAllAsString (b : Buffer) : Except Fault (Buffer × List UInt8) :=
  b.retrieveAsString b.readableBytes

def hasWritten (b : Buffer) (len : Nat) : Except Fault Buffer := do
  check (len ≤ b.writableBytes)
  .ok { b with writeIndex := b.writeIndex + len }

def unwrite (b : Buffer) (len : Nat) : Except Fault Buffer := do
  check (len < b.readableBytes)
  .ok { b with writeIndex := b.writeIndex + len }

def makeSpace (b : Buffer) (len : Nat) : Except Fault Buffer :=
  if b.writableBytes + kCheapPrependSize ≥ len then do
    let copylen := b.readableBytes
    let mem ← copyTo b.buffer kCheapPrependSize b.readable
    .ok { buffer := mem, readIndex := kCheapPrependSize,
          writeIndex := kCheapPrependSize + copylen }
  else
    .ok { b with buffer := resize b.buffer (b.writeIndex + len) 0 }

def ensureWritableBytes (b : Buffer) (len : Nat) : Except Fault Buffer := do
  let made := if b.writableBytes < len then b.makeSpace len else .ok b
  let b' ← made
  check (b'.writableBytes ≥ len)
  .ok b'

def append (b : Buffer) (data : List UInt8) : Except Fault Buffer := do
  let b' ← b.ensureWritableBytes data.length
  let mem ← copyTo b'.buffer b'.writeIndex data
  hasWritten { b' with buffer := mem } data.length

def prepend (b : Buffer) (data : List UInt8) : Except Fault Buffer := do
  check (data.length ≤ b.prependableSize)
  let mem ← copyTo b.buffer (b.readIndex - data.length) data
  .ok { b with buffer := mem, readIndex := b.readIndex - data.length }

/-- `readFd`: the kernel fills the writable part first and `extrabuf` after it.
The result is the value of `readv`. -/
def readFd (b : Buffer) : ReadOutcome → Except Fault (Buffer × Int)
  | .failed _ => .ok (b, -1)
  | .delivered bytes =>
    let writable := b.writableBytes
    if bytes.length ≤ writable then do
      let mem ← copyTo b.buffer b.writeIndex bytes
      let b' ← hasWritten { b with buffer := mem } bytes.length
      .ok (b', bytes.length)
    else do
      let mem ← copyTo b.buffer b.writeIndex (bytes.take writable)
      let b' ← append { b with buffer := mem, writeIndex := mem.length } (bytes.drop writable)
      .ok (b', bytes.length)

/-- The indices are in order and inside the vector. -/
structure Wf (b : Buffer) : Prop where
  ordered : b.readIndex ≤ b.writeIndex
  inside : b.writeIndex ≤ b.buffer.length

/-- Every buffer made by the constructor also keeps room for the reserved prefix,
which `retrieveAll` relies on. -/
structure Sound (b : Buffer) : Prop extends Wf b where
  reserved : kCheapPrependSize ≤ b.buffer.length

/-- The exact condition under which `ensureWritableBytes(len)` finds or makes room:
the bytes fit, or exceed the room by more than the reserved prefix so that the
vector grows, or moving the content to the front frees enough. -/
def MakesRoom (b : Buffer) (len : Nat) : Prop :=
  b.writableBytes < len → len ≤ b.writableBytes + kCheapPrependSize →
    len + kCheapPrependSize ≤ b.writableBytes + b.prependableSize

/-! ## One specification for each operation -/

theorem bind_eq_ok {α β : Type} {x : Except Fault α} {f : α → Except Fault β} {r : β} :
    (x >>= f) = .ok r ↔ ∃ a, x = .ok a ∧ f a = .ok r := by
  cases x with
  | error fault => simp [Bind.bind, Except.bind]
  | ok a => simp [Bind.bind, Except.bind]

@[simp] theorem check_eq_ok {cond : Prop} [Decidable cond] {u : Unit} :
    check cond = .ok u ↔ cond := by
  by_cases h : cond <;> simp [check, h]

@[simp] theorem copyTo_eq_ok {mem mem' : List UInt8} {pos : Nat} {data : List UInt8} :
    copyTo mem pos data = .ok mem' ↔ store mem pos data = some mem' := by
  rw [copyTo]
  cases store mem pos data <;> simp

theorem new_sound : new.Sound where
  ordered := Nat.le_refl _
  inside := by simp [new]
  reserved := by simp [new]

theorem writableBytes_new : new.writableBytes = kDefaultInitialSize := by
  simp only [writableBytes, new, List.length_replicate]
  omega

@[simp] theorem readable_new : new.readable = [] := slice_empty _ _

theorem length_readable {b : Buffer} (wf : b.Wf) : b.readable.length = b.readableBytes :=
  length_slice wf.inside

theorem retrieveAll_spec {b : Buffer} (sound : b.Sound) :
    b.retrieveAll.Sound ∧ b.retrieveAll.readable = [] :=
  ⟨⟨⟨Nat.le_refl _, sound.reserved⟩, sound.reserved⟩, slice_empty _ _⟩

/-- As long as there are as many bytes to read as the indices say, `retrieve` keeps it so. -/
theorem retrieve_filled {b : Buffer} (filled : b.readable.length = b.readableBytes) {len : Nat}
    (le : len ≤ b.readableBytes) :
    ∃ b', b.retrieve len = .ok b' ∧ b'.readable = b.readable.drop len ∧
      b'.readable.length = b'.readableBytes := by
  by_cases lt : len < b.readableBytes
  · have rest : readable { b with readIndex := b.readIndex + len } = b.readable.drop len :=
      (drop_slice _ _ _ _).symm
    refine ⟨{ b with readIndex := b.readIndex + len }, ?_, rest, ?_⟩
    · simp [retrieve, bind_eq_ok, le, lt]
    · rw [rest, List.length_drop, filled]
      simp only [readableBytes]
      omega
  · have nothing : b.retrieveAll.readable = [] := slice_empty _ _
    refine ⟨b.retrieveAll, ?_, ?_, ?_⟩
    · simp [retrieve, bind_eq_ok, le, lt]
    · rw [nothing, List.drop_of_length_le (by omega)]
    · rw [nothing]
      simp [readableBytes, retrieveAll]

theorem retrieve_spec {b : Buffer} (sound : b.Sound) {len : Nat} (le : len ≤ b.readableBytes) :
    ∃ b', b.retrieve len = .ok b' ∧ b'.Sound ∧ b'.readable = b.readable.drop len := by
  have hlen := length_readable sound.toWf
  by_cases lt : len < b.readableBytes
  · refine ⟨{ b with readIndex := b.readIndex + len }, ?_, ⟨⟨?_, sound.inside⟩, sound.reserved⟩, ?_⟩
    · simp [retrieve, bind_eq_ok, le, lt]
    · simp only [readableBytes] at le
      have := sound.ordered
      change b.readIndex + len ≤ b.writeIndex
      omega
    · exact (drop_slice _ _ _ _).symm
  · refine ⟨b.retrieveAll, ?_, (retrieveAll_spec sound).1, ?_⟩
    · simp [retrieve, bind_eq_ok, le, lt]
    · rw [(retrieveAll_spec sound).2, List.drop_of_length_le (by omega)]

theorem retrieveUntil_spec {b : Buffer} (sound : b.Sound) {stop : Nat}
    (low : b.readIndex ≤ stop) (high : stop ≤ b.writeIndex) :
    ∃ b', b.retrieveUntil stop = .ok b' ∧ b'.Sound ∧
      b'.readable = b.readable.drop (stop - b.readIndex) := by
  have within : stop - b.readIndex ≤ b.readableBytes := by
    simp only [readableBytes]
    omega
  obtain ⟨b', done, sound', content⟩ := retrieve_spec sound within
  exact ⟨b', by simp [retrieveUntil, bind_eq_ok, low, high, done], sound', content⟩

theorem retrieveAsString_spec {b : Buffer} (sound : b.Sound) {len : Nat}
    (le : len ≤ b.readableBytes) :
    ∃ b', b.retrieveAsString len = .ok (b', b.readable.take len) ∧ b'.Sound ∧
      b'.readable = b.readable.drop len := by
  obtain ⟨b', done, sound', content⟩ := retrieve_spec sound le
  exact ⟨b', by simp [retrieveAsString, bind_eq_ok, le, done], sound', content⟩

/-- Growing the vector always makes the room asked for. -/
theorem makeSpace_grow {b : Buffer} (sound : b.Sound) {len : Nat}
    (far : b.writableBytes + kCheapPrependSize < len) :
    ∃ b', b.makeSpace len = .ok b' ∧ b'.Sound ∧ b'.readable = b.readable ∧
      b'.writableBytes = len := by
  have room : b.buffer.length ≤ b.writeIndex + len := by
    simp only [writableBytes] at far
    omega
  have size := length_resize b.buffer (b.writeIndex + len) 0
  have inside := sound.inside
  have reserved := sound.reserved
  refine ⟨{ b with buffer := resize b.buffer (b.writeIndex + len) 0 }, ?_,
    ⟨⟨sound.ordered, ?_⟩, ?_⟩, ?_, ?_⟩
  · rw [makeSpace, if_neg (by omega)]
  · change b.writeIndex ≤ (resize b.buffer (b.writeIndex + len) 0).length
    omega
  · change kCheapPrependSize ≤ (resize b.buffer (b.writeIndex + len) 0).length
    omega
  · exact slice_resize 0 inside (Nat.le_add_right _ _)
  · simp only [writableBytes, size]
    omega

/-- Moving the content to the front either leaves the vector or gains exactly the
consumed prefix beyond the reserved one. -/
theorem makeSpace_compact {b : Buffer} (sound : b.Sound) {len : Nat}
    (near : len ≤ b.writableBytes + kCheapPrependSize) (b' : Buffer) :
    b.makeSpace len = .ok b' ↔
      kCheapPrependSize + b.readableBytes ≤ b.buffer.length ∧
      ∃ mem, store b.buffer kCheapPrependSize b.readable = some mem ∧
        b' = ⟨mem, kCheapPrependSize, kCheapPrependSize + b.readableBytes⟩ := by
  have hlen := length_readable sound.toWf
  rw [makeSpace, if_pos near, bind_eq_ok]
  constructor
  · rintro ⟨mem, hmem, hb⟩
    rw [copyTo_eq_ok] at hmem
    have fits := (store_eq_some.mp hmem).1
    exact ⟨by omega, mem, hmem, by simpa [eq_comm] using hb⟩
  · rintro ⟨-, mem, hmem, rfl⟩
    exact ⟨mem, copyTo_eq_ok.mpr hmem, rfl⟩

theorem ensureWritableBytes_eq_ok {b b' : Buffer} {len : Nat} :
    b.ensureWritableBytes len = .ok b' ↔
      (if b.writableBytes < len then b.makeSpace len else .ok b) = .ok b' ∧
        len ≤ b'.writableBytes := by
  rw [ensureWritableBytes, bind_eq_ok]
  constructor
  · rintro ⟨c, hc, h⟩
    obtain ⟨u, hcheck, heq⟩ := bind_eq_ok.mp h
    have enough := check_eq_ok.mp hcheck
    cases heq
    exact ⟨hc, enough⟩
  · rintro ⟨hb, enough⟩
    exact ⟨b', hb, bind_eq_ok.mpr ⟨(), check_eq_ok.mpr enough, rfl⟩⟩

theorem ensureWritableBytes_spec {b : Buffer} (sound : b.Sound) {len : Nat}
    (room : b.MakesRoom len) :
    ∃ b', b.ensureWritableBytes len = .ok b' ∧ b'.Sound ∧ b'.readable = b.readable ∧
      len ≤ b'.writableBytes := by
  have ordered := sound.ordered
  have inside := sound.inside
  by_cases full : b.writableBytes < len
  · by_cases near : len ≤ b.writableBytes + kCheapPrependSize
    · have enough := room full near
      simp only [writableBytes, prependableSize] at enough near full
      have fits : kCheapPrependSize + b.readableBytes ≤ b.buffer.length := by
        simp only [readableBytes]
        omega
      have hlen := length_readable sound.toWf
      obtain ⟨mem, hmem⟩ := store_isSome b.buffer kCheapPrependSize b.readable (by omega)
      have size := length_store hmem
      have moved := slice_store_back hmem (Nat.le_refl kCheapPrependSize)
      rw [slice_empty, List.nil_append, hlen] at moved
      have inBlock : kCheapPrependSize + b.readableBytes ≤ mem.length := by omega
      refine ⟨⟨mem, kCheapPrependSize, kCheapPrependSize + b.readableBytes⟩, ?_,
        ⟨⟨Nat.le_add_right _ _, inBlock⟩, ?_⟩, moved, ?_⟩
      · rw [ensureWritableBytes_eq_ok, if_pos (by simpa [writableBytes] using full),
          makeSpace_compact sound (by simpa [writableBytes] using near)]
        refine ⟨⟨fits, mem, hmem, rfl⟩, ?_⟩
        simp only [writableBytes, readableBytes, size]
        omega
      · change kCheapPrependSize ≤ mem.length
        omega
      · simp only [writableBytes, readableBytes, size]
        omega
    · obtain ⟨b', done, sound', content, exact_room⟩ := makeSpace_grow sound (Nat.lt_of_not_le near)
      exact ⟨b', ensureWritableBytes_eq_ok.mpr ⟨by rw [if_pos full]; exact done, by omega⟩,
        sound', content, by omega⟩
  · exact ⟨b, ensureWritableBytes_eq_ok.mpr ⟨by rw [if_neg full], by omega⟩, sound, rfl, by omega⟩

/-- Conversely, an `ensureWritableBytes` that keeps its own assertion had room to make. -/
theorem makesRoom_of_ensureWritableBytes {b b' : Buffer} (sound : b.Sound) {len : Nat}
    (done : b.ensureWritableBytes len = .ok b') : b.MakesRoom len := by
  intro full near
  obtain ⟨space, enough⟩ := ensureWritableBytes_eq_ok.mp done
  rw [if_pos full] at space
  obtain ⟨fits, mem, hmem, rfl⟩ := (makeSpace_compact sound near b').mp space
  have size := length_store hmem
  have ordered := sound.ordered
  have inside := sound.inside
  simp only [writableBytes, readableBytes, prependableSize, size] at *
  omega

/-- Bytes copied behind the content and accounted for by `hasWritten`. -/
theorem write_spec {b : Buffer} (sound : b.Sound) {data : List UInt8}
    (fits : data.length ≤ b.writableBytes) :
    ∃ mem, copyTo b.buffer b.writeIndex data = .ok mem ∧ mem.length = b.buffer.length ∧
      hasWritten { b with buffer := mem } data.length =
        .ok ⟨mem, b.readIndex, b.writeIndex + data.length⟩ ∧
      Sound ⟨mem, b.readIndex, b.writeIndex + data.length⟩ ∧
      readable ⟨mem, b.readIndex, b.writeIndex + data.length⟩ = b.readable ++ data := by
  have ordered := sound.ordered
  have inside := sound.inside
  have reserved := sound.reserved
  simp only [writableBytes] at fits
  obtain ⟨mem, hmem⟩ := store_isSome b.buffer b.writeIndex data (by omega)
  have size := length_store hmem
  refine ⟨mem, copyTo_eq_ok.mpr hmem, size, ?_, ⟨⟨?_, ?_⟩, ?_⟩, slice_store_back hmem ordered⟩
  · rw [hasWritten, bind_eq_ok]
    exact ⟨(), check_eq_ok.mpr (by simp only [writableBytes, size]; omega), rfl⟩
  · change b.readIndex ≤ b.writeIndex + data.length
    omega
  · change b.writeIndex + data.length ≤ mem.length
    omega
  · change kCheapPrependSize ≤ mem.length
    omega

theorem append_spec {b : Buffer} (sound : b.Sound) {data : List UInt8}
    (room : b.MakesRoom data.length) :
    ∃ b', b.append data = .ok b' ∧ b'.Sound ∧ b'.readable = b.readable ++ data := by
  obtain ⟨c, ensured, soundc, same, enough⟩ := ensureWritableBytes_spec sound room
  obtain ⟨mem, copied, -, written, sound', content⟩ := write_spec soundc enough
  refine ⟨_, ?_, sound', by rw [content, same]⟩
  rw [append, bind_eq_ok]
  exact ⟨c, ensured, bind_eq_ok.mpr ⟨mem, copied, written⟩⟩

theorem makesRoom_of_append {b b' : Buffer} (sound : b.Sound) {data : List UInt8}
    (done : b.append data = .ok b') : b.MakesRoom data.length := by
  rw [append, bind_eq_ok] at done
  obtain ⟨c, ensured, -⟩ := done
  exact makesRoom_of_ensureWritableBytes sound ensured

/-- Where the data fits behind the content, `append` only stores it there. -/
theorem append_in_place {b : Buffer} (wf : b.Wf) {data : List UInt8}
    (fits : data.length ≤ b.writableBytes) :
    ∃ mem, b.append data = .ok ⟨mem, b.readIndex, b.writeIndex + data.length⟩ ∧
      mem.length = b.buffer.length ∧
      readable ⟨mem, b.readIndex, b.writeIndex + data.length⟩ = b.readable ++ data := by
  have inside := wf.inside
  have ensured : b.ensureWritableBytes data.length = .ok b :=
    ensureWritableBytes_eq_ok.mpr ⟨if_neg (by omega), fits⟩
  simp only [writableBytes] at fits
  obtain ⟨mem, hmem⟩ := store_isSome b.buffer b.writeIndex data (by omega)
  have size := length_store hmem
  refine ⟨mem, ?_, size, slice_store_back hmem wf.ordered⟩
  rw [append, bind_eq_ok]
  refine ⟨b, ensured, bind_eq_ok.mpr ⟨mem, copyTo_eq_ok.mpr hmem, ?_⟩⟩
  rw [hasWritten, bind_eq_ok]
  exact ⟨(), check_eq_ok.mpr (by simp only [writableBytes, size]; omega), rfl⟩

theorem prepend_in_place {b : Buffer} (wf : b.Wf) {data : List UInt8}
    (fits : data.length ≤ b.prependableSize) :
    ∃ mem, b.prepend data = .ok ⟨mem, b.readIndex - data.length, b.writeIndex⟩ ∧
      mem.length = b.buffer.length ∧
      readable ⟨mem, b.readIndex - data.length, b.writeIndex⟩ = data ++ b.readable := by
  have ordered := wf.ordered
  have inside := wf.inside
  have front : b.readIndex - data.length + data.length = b.readIndex := by
    simp only [prependableSize] at fits
    omega
  obtain ⟨mem, hmem⟩ := store_isSome b.buffer (b.readIndex - data.length) data (by omega)
  have content : slice mem (b.readIndex - data.length) b.writeIndex =
      data ++ slice b.buffer b.readIndex b.writeIndex := by
    simpa only [front] using slice_store_front hmem (show _ ≤ b.writeIndex by omega)
  refine ⟨mem, ?_, length_store hmem, content⟩
  rw [prepend, bind_eq_ok]
  exact ⟨(), check_eq_ok.mpr fits, bind_eq_ok.mpr ⟨mem, copyTo_eq_ok.mpr hmem, rfl⟩⟩

theorem prepend_spec {b : Buffer} (sound : b.Sound) {data : List UInt8}
    (fits : data.length ≤ b.prependableSize) :
    ∃ b', b.prepend data = .ok b' ∧ b'.Sound ∧ b'.readable = data ++ b.readable := by
  have ordered := sound.ordered
  have inside := sound.inside
  have reserved := sound.reserved
  obtain ⟨mem, done, size, content⟩ := prepend_in_place sound.toWf fits
  refine ⟨_, done, ⟨⟨?_, ?_⟩, ?_⟩, content⟩
  · change b.readIndex - data.length ≤ b.writeIndex
    omega
  · change b.writeIndex ≤ mem.length
    omega
  · change kCheapPrependSize ≤ mem.length
    omega

/-- After the kernel has filled the writable part nothing is writable, so the
rest of a long read goes through `append` on a full buffer. -/
theorem fill_spec {b : Buffer} (sound : b.Sound) {data : List UInt8}
    (exact_fit : data.length = b.writableBytes) :
    ∃ mem, copyTo b.buffer b.writeIndex data = .ok mem ∧
      Sound { b with buffer := mem, writeIndex := mem.length } ∧
      readable { b with buffer := mem, writeIndex := mem.length } = b.readable ++ data ∧
      writableBytes { b with buffer := mem, writeIndex := mem.length } = 0 := by
  obtain ⟨mem, copied, size, -, sound', content⟩ := write_spec sound (Nat.le_of_eq exact_fit)
  have full : mem.length = b.writeIndex + data.length := by
    have := sound.inside
    simp only [writableBytes] at exact_fit
    omega
  refine ⟨mem, copied, ?_, ?_, by simp [writableBytes]⟩
  · rw [full]
    exact sound'
  · rw [full]
    exact content

theorem readFd_spec {b : Buffer} (sound : b.Sound) {bytes : List UInt8}
    (room : b.MakesRoom bytes.length) :
    ∃ b', b.readFd (.delivered bytes) = .ok (b', bytes.length) ∧ b'.Sound ∧
      b'.readable = b.readable ++ bytes := by
  by_cases short : bytes.length ≤ b.writableBytes
  · obtain ⟨mem, copied, -, written, sound', content⟩ := write_spec sound short
    refine ⟨_, ?_, sound', content⟩
    simp only [readFd, if_pos short, bind_eq_ok]
    exact ⟨mem, copied, _, written, rfl⟩
  · have fill : (bytes.take b.writableBytes).length = b.writableBytes := by
      rw [List.length_take]
      omega
    obtain ⟨mem, copied, soundm, contentm, fullm⟩ := fill_spec sound fill
    have room' : MakesRoom { b with buffer := mem, writeIndex := mem.length }
        (bytes.drop b.writableBytes).length := by
      intro _ near
      rw [fullm, List.length_drop] at *
      have := room (by omega) (by omega)
      simp only [prependableSize] at *
      omega
    obtain ⟨b', done, sound', content⟩ := append_spec soundm room'
    refine ⟨b', ?_, sound', by rw [content, contentm, List.append_assoc, List.take_append_drop]⟩
    simp only [readFd, if_neg short, bind_eq_ok]
    exact ⟨mem, copied, b', done, rfl⟩

theorem makesRoom_of_readFd {b : Buffer} {r : Buffer × Int} (sound : b.Sound)
    {bytes : List UInt8} (done : b.readFd (.delivered bytes) = .ok r) :
    b.MakesRoom bytes.length := by
  intro full near
  have fill : (bytes.take b.writableBytes).length = b.writableBytes := by
    rw [List.length_take]
    omega
  obtain ⟨mem, copied, soundm, -, fullm⟩ := fill_spec sound fill
  simp only [readFd, if_neg (Nat.not_le_of_lt full), bind_eq_ok] at done
  obtain ⟨mem', copied', b', appended, -⟩ := done
  rw [copied] at copied'
  cases copied'
  have room := makesRoom_of_append soundm appended
  rw [MakesRoom, fullm, List.length_drop] at room
  have := room (by omega) (by omega)
  simp only [prependableSize] at *
  omega

end Buffer
end Arale
