import Arale.Lib.Framing
import Arale.Lib.Schedules
import Arale.Net.BufferInts
import Arale.Net.HandleRead

/-!
# The chat codec

`LengthHeaderCodec` of `examples/asio/chat/Codec.h`: each message behind its length in four
bytes of network order. `onMessage` is run on the buffer of a connection as reads of any
size fill it. What it passes on depends on the bytes alone, and the messages of a peer come
out as they went in, up to the first one that is too long.
-/

namespace Arale

open ByteOrder Framing Schedules

namespace LengthHeaderCodec

def kHeaderLength : Nat := 4

section Source
variable (order : Order)

/-- The loop of `onMessage`: the buffer then, the messages passed to `messageCallback_`, and
whether it ended with `conn->shutdown()`. -/
def onMessageLoop : Nat → Buffer → Except Fault (Buffer × List (List UInt8) × Bool)
  | 0, buf => .ok (buf, [], false)
  | fuel + 1, buf =>
    if buf.readableBytes ≥ kHeaderLength then
      let be32 := order.load (buf.readable.take 4)
      let len := (sockets.networkToHost32 order (.ofNat be32)).toInt32
      if len.toInt > 65535 ∨ len.toInt < 0 then
        .ok (buf, [], true)
      else if buf.readableBytes ≥ len.toInt.toNat + kHeaderLength then do
        let buf ← buf.retrieve kHeaderLength
        let (buf, msg) ← buf.retrieveAsString len.toInt.toNat
        let (buf, messages, shutdown) ← onMessageLoop fuel buf
        .ok (buf, msg :: messages, shutdown)
      else
        .ok (buf, [], false)
    else
      .ok (buf, [], false)

/-- Each round of the loop but the last takes the bytes of a header at least. -/
def onMessage (buf : Buffer) : Except Fault (Buffer × List (List UInt8) × Bool) :=
  onMessageLoop order (buf.readableBytes + 1) buf

/-- The bytes that `sendMessage` hands to `conn->send`. -/
def sendMessage (message : List UInt8) : Except Fault (List UInt8) := do
  let buf ← Buffer.new.append message
  let len := Int32.ofNat message.length
  let be32 := (sockets.hostToNetwork32 order len.toUInt32).toInt32
  let buf ← buf.prepend (order.store 4 be32.toUInt32.toNat)
  .ok buf.readable

/-- Several messages, one call of `sendMessage` after the other. -/
def sendMessages : List (List UInt8) → Except Fault (List UInt8)
  | [] => .ok []
  | message :: messages => do
    let bytes ← sendMessage order message
    let later ← sendMessages messages
    .ok (bytes ++ later)

/-- A connection with the codec as its message callback. -/
structure Receiver where
  inputBuffer : Buffer
  messages : List (List UInt8)
  shutdown : Bool

/-- The channel of the connection becomes readable and `readv` does its part. -/
def receive (r : Receiver) (o : ReadOutcome) : Option Receiver :=
  match TcpConnection.readBranch r.inputBuffer o with
  | .ok (inputBuffer, .messageCallback) =>
    match onMessage order inputBuffer with
    | .ok (inputBuffer, messages, shutdown) =>
      some ⟨inputBuffer, r.messages ++ messages, r.shutdown || shutdown⟩
    | .error _ => none
  | .ok (inputBuffer, _) => some { r with inputBuffer := inputBuffer }
  | .error _ => none

end Source

def Receiver.start : Receiver := ⟨.new, [], false⟩

/-! ## The format -/

/-- Four bytes of length, at most 65535, and as many bytes. -/
def front (xs : List UInt8) : Front (List UInt8) :=
  if xs.length < 4 then .short
  else if 65535 < value (xs.take 4) then .bad
  else if xs.length < value (xs.take 4) + 4 then .short
  else .frame ((xs.drop 4).take (value (xs.take 4))) (value (xs.take 4) + 4)

/-- A message as a frame. -/
def frame (message : List UInt8) : List UInt8 := ByteOrder.digits 4 message.length ++ message

theorem front_of_frame {xs : List UInt8} {message : List UInt8} {size : Nat}
    (found : front xs = .frame message size) :
    size = value (xs.take 4) + 4 ∧ size ≤ xs.length ∧ value (xs.take 4) ≤ 65535 ∧
      message = (xs.drop 4).take (value (xs.take 4)) := by
  rw [front] at found
  split at found
  · cases found
  · split at found
    · cases found
    · split at found
      · cases found
      · cases found
        exact ⟨rfl, by omega, by omega, rfl⟩

section Cases
variable {xs : List UInt8}

theorem front_short (few : xs.length < 4 ∨
    (¬ 65535 < value (xs.take 4) ∧ xs.length < value (xs.take 4) + 4)) : front xs = .short := by
  by_cases header : xs.length < 4
  · exact if_pos header
  · obtain ⟨fair, body⟩ := few.resolve_left header
    rw [front, if_neg header, if_neg fair, if_pos body]

theorem front_bad (enough : 4 ≤ xs.length) (far : 65535 < value (xs.take 4)) :
    front xs = .bad := by
  rw [front, if_neg (by omega), if_pos far]

theorem front_frame (fair : ¬ 65535 < value (xs.take 4))
    (whole : value (xs.take 4) + 4 ≤ xs.length) :
    front xs = .frame ((xs.drop 4).take (value (xs.take 4))) (value (xs.take 4) + 4) := by
  rw [front, if_neg (by omega), if_neg fair, if_neg (by omega)]

end Cases

def reader : Reader UInt8 (List UInt8) where
  front := front
  fits found := by
    obtain ⟨size, bound, -⟩ := front_of_frame found
    omega
  settled := by
    intro xs final more
    have enough : 4 ≤ xs.length := by
      by_contra few
      exact final (front_short (.inl (by omega)))
    have header : (xs ++ more).take 4 = xs.take 4 := List.take_append_of_le_length enough
    have total : (xs ++ more).length = xs.length + more.length := List.length_append
    by_cases far : 65535 < value (xs.take 4)
    · rw [front_bad enough far, front_bad (by omega) (by rwa [header])]
    · have whole : value (xs.take 4) + 4 ≤ xs.length := by
        by_contra few
        exact final (front_short (.inr ⟨far, by omega⟩))
      have same : ((xs ++ more).drop 4).take (value (xs.take 4)) =
          (xs.drop 4).take (value (xs.take 4)) := by
        rw [List.drop_append_of_le_length enough,
          List.take_append_of_le_length (by rw [List.length_drop]; omega)]
      rw [front_frame far whole, front_frame (by rwa [header]) (by rw [header]; omega), header,
        same]

/-- The reads, one after the other, brought these bytes. -/
def stream (reads : List ReadOutcome) : List UInt8 :=
  reads.flatMap fun
    | .delivered bytes => bytes
    | .failed _ => []

/-! ## The header -/

theorem toInt_signed (x : UInt32) : x.toInt32.toInt = (x.toNat : Int).bmod (2 ^ 32) :=
  BitVec.toInt_eq_toNat_bmod x.toBitVec

/-- The length that `onMessage` computes, and what its checks say of it. -/
theorem length_loaded (order : Order) {bytes : List UInt8} (four : bytes.length = 4) :
    let len := (sockets.networkToHost32 order (.ofNat (order.load bytes))).toInt32
    (len.toInt > 65535 ∨ len.toInt < 0 ↔ 65535 < value bytes) ∧
      (value bytes ≤ 65535 → len.toInt.toNat = value bytes) := by
  have small := value_lt bytes
  rw [four] at small
  simp only [toInt_signed, BufferInts.networkToHost32_load order four, Int.bmod]
  omega

/-! ## One call of `onMessage` -/

/-- A whole frame at the front of a buffer is taken out. -/
theorem retrieve_frame {buf : Buffer} (sound : buf.Sound) {n : Nat}
    (whole : n + kHeaderLength ≤ buf.readableBytes) :
    ∃ body later, buf.retrieve kHeaderLength = .ok body ∧
      body.retrieveAsString n = .ok (later, (buf.readable.drop 4).take n) ∧
      later.Sound ∧ later.readable = buf.readable.drop (n + 4) ∧
      later.readableBytes < buf.readableBytes := by
  have length := Buffer.length_readable sound.toWf
  rw [kHeaderLength] at whole
  obtain ⟨body, retrieved, soundBody, contentBody⟩ :=
    Buffer.retrieve_spec sound (show 4 ≤ buf.readableBytes by omega)
  have lengthBody := Buffer.length_readable soundBody.toWf
  rw [contentBody, List.length_drop] at lengthBody
  obtain ⟨later, taken, soundLater, contentLater⟩ :=
    Buffer.retrieveAsString_spec soundBody (show n ≤ body.readableBytes by omega)
  have lengthLater := Buffer.length_readable soundLater.toWf
  rw [contentBody] at taken contentLater
  rw [contentLater, List.length_drop, List.length_drop] at lengthLater
  rw [List.drop_drop, Nat.add_comm] at contentLater
  exact ⟨body, later, retrieved, taken, soundLater, contentLater, by omega⟩

theorem onMessageLoop_spec (order : Order) {fuel : Nat} {buf : Buffer} (sound : buf.Sound)
    (enough : buf.readableBytes < fuel) :
    ∃ buf', onMessageLoop order fuel buf = .ok (buf', (reader.read buf.readable).messages,
        (reader.read buf.readable).bad) ∧
      buf'.Sound ∧ buf'.readable = (reader.read buf.readable).rest := by
  induction fuel generalizing buf with
  | zero => omega
  | succ fuel ih =>
    have length := Buffer.length_readable sound.toWf
    by_cases header : buf.readableBytes ≥ kHeaderLength
    · have enough' : 4 ≤ buf.readable.length := by rwa [length]
      have four : (buf.readable.take 4).length = 4 := by
        rw [List.length_take]
        omega
      obtain ⟨refused, loaded⟩ := length_loaded order four
      by_cases far : 65535 < value (buf.readable.take 4)
      · rw [Reader.read_of_bad (front_bad enough' far)]
        exact ⟨buf, by rw [onMessageLoop, if_pos header, if_pos (refused.mpr far)], sound, rfl⟩
      · have fair := fun bad => far (refused.mp bad)
        have size := loaded (by omega)
        by_cases whole : value (buf.readable.take 4) + kHeaderLength ≤ buf.readableBytes
        · obtain ⟨body, later, retrieved, taken, soundLater, rest, shorter⟩ :=
            retrieve_frame sound whole
          obtain ⟨buf', done, sound', content⟩ := ih soundLater (by omega)
          have front := front_frame far (by rwa [length])
          rw [Reader.read_of_frame front, ← rest]
          refine ⟨buf', ?_, sound', content⟩
          rw [onMessageLoop, if_pos header, if_neg fair, size, if_pos whole]
          simp only [Buffer.bind_eq_ok]
          exact ⟨body, retrieved, _, taken, _, done, rfl⟩
        · have front : front buf.readable = .short :=
            front_short (.inr ⟨far, by rw [length]; exact Nat.lt_of_not_le whole⟩)
          rw [Reader.read_of_short front]
          refine ⟨buf, ?_, sound, rfl⟩
          rw [onMessageLoop, if_pos header, if_neg fair, size, if_neg whole]
    · have front : front buf.readable = .short :=
        front_short (.inl (by rw [length]; exact Nat.lt_of_not_le header))
      rw [Reader.read_of_short front]
      exact ⟨buf, by rw [onMessageLoop, if_neg header], sound, rfl⟩

theorem onMessage_spec (order : Order) {buf : Buffer} (sound : buf.Sound) :
    ∃ buf', onMessage order buf = .ok (buf', (reader.read buf.readable).messages,
        (reader.read buf.readable).bad) ∧
      buf'.Sound ∧ buf'.readable = (reader.read buf.readable).rest :=
  onMessageLoop_spec order sound (Nat.lt_succ_self _)

/-! ## A connection -/

/-- What a receiver has done with the bytes so far. -/
structure Matches (r : Receiver) (xs : List UInt8) : Prop where
  sound : r.inputBuffer.Sound
  reading : (⟨r.messages, r.inputBuffer.readable, r.shutdown⟩ : Reading UInt8 (List UInt8)) =
    reader.read xs

/-- The buffer has, or makes, room for what a read brings. -/
def HasRoom (r : Receiver) : ReadOutcome → Prop
  | .delivered bytes => r.inputBuffer.MakesRoom bytes.length
  | .failed _ => True

theorem start_matches : Matches .start [] := by
  refine ⟨Buffer.new_sound, ?_⟩
  rw [Reader.read_of_short (show reader.front [] = .short from rfl), Receiver.start,
    Buffer.readable_new]

section Runs
variable {order : Order} {r r' : Receiver} {o : ReadOutcome} {xs : List UInt8}

theorem readBranch_sound {inputBuffer after : Buffer} (sound : inputBuffer.Sound)
    {bytes : List UInt8} {branch : TcpConnection.ReadBranch}
    (done : TcpConnection.readBranch inputBuffer (.delivered bytes) = .ok (after, branch)) :
    after.Sound := by
  have room := TcpConnection.readBranch_ok sound done
  obtain ⟨filled, read, soundFilled, -⟩ := Buffer.readFd_spec sound room
  rw [TcpConnection.readBranch, read] at done
  simp only [Bind.bind, Except.bind] at done
  split at done
  · cases done
    exact soundFilled
  · split at done
    · cases done
      exact soundFilled
    · cases done
      exact soundFilled

/-- The codec is called on a buffer that holds what earlier calls left and a new piece. -/
theorem receive_message {inputBuffer : Buffer} (matched : Matches r xs)
    {piece : List UInt8} (sound : inputBuffer.Sound)
    (content : inputBuffer.readable = r.inputBuffer.readable ++ piece)
    (branch : TcpConnection.readBranch r.inputBuffer o = .ok (inputBuffer, .messageCallback)) :
    ∃ r', receive order r o = some r' ∧ Matches r' (xs ++ piece) := by
  obtain ⟨after, done, soundAfter, rest⟩ := onMessage_spec order sound
  refine ⟨_, by rw [receive, branch]; simp only [done]; rfl, soundAfter, ?_⟩
  have before := matched.reading
  have whole : reader.read (xs ++ piece) = reader.feed (reader.read xs) piece :=
    Reader.read_append xs piece
  rw [← before, Reader.feed, ← content] at whole
  have shut : (r.shutdown || (reader.read inputBuffer.readable).bad) =
      (reader.read inputBuffer.readable).bad := by
    cases stopped : r.shutdown with
    | false => rfl
    | true =>
      have bad : (reader.read xs).bad = true := by rw [← before, stopped]
      have still := Reader.bad_append bad piece
      rw [whole] at still
      rw [Bool.true_or]
      exact still.symm
  rw [whole, rest, shut]
  rfl

/-- A read for which there is room extends the stream that the receiver matches. -/
theorem receive_spec (order : Order) (matched : Matches r xs) (counted : TcpConnection.Counted o)
    (room : HasRoom r o) :
    ∃ r', receive order r o = some r' ∧ Matches r' (xs ++ stream [o]) := by
  cases o with
  | failed errno =>
    exact receive_message matched matched.sound (by simp [stream])
      (TcpConnection.readBranch_failed errno)
  | delivered bytes =>
    obtain ⟨inputBuffer, content, branch⟩ :=
      TcpConnection.readBranch_delivered matched.sound counted room
    have sound := readBranch_sound matched.sound branch
    cases bytes with
    | nil =>
      refine ⟨{ r with inputBuffer := inputBuffer }, by rw [receive, branch]; rfl, sound, ?_⟩
      simp only [content, stream, List.flatMap_cons, List.flatMap_nil, List.append_nil]
      exact matched.reading
    | cons byte bytes => 
      simpa [stream] using receive_message matched sound content (by simpa using branch)

theorem hasRoom_of_receive (matched : Matches r xs) (done : receive order r o = some r') :
    HasRoom r o := by
  cases o with
  | failed errno => trivial
  | delivered bytes =>
    rw [receive] at done
    cases branch : TcpConnection.readBranch r.inputBuffer (.delivered bytes) with
    | error fault =>
      rw [branch] at done
      cases done
    | ok result => exact TcpConnection.readBranch_ok matched.sound branch

/-- Receivers that match a stream, after more reads. -/
theorem run_receive (order : Order) {reads : List ReadOutcome} (matched : Matches r xs)
    (counted : ∀ o ∈ reads, TcpConnection.Counted o) :
    ((∃ r', run (receive order) r reads = some r') ↔ Along (receive order) HasRoom r reads) ∧
      ∀ r', run (receive order) r reads = some r' → Matches r' (xs ++ stream reads) := by
  induction reads generalizing r xs with
  | nil => 
    refine ⟨⟨fun _ => trivial, fun _ => ⟨r, rfl⟩⟩, fun r' done => ?_⟩
    cases done
    simpa [stream] using matched
  | cons o reads ih =>
    rw [List.forall_mem_cons] at counted
    have joined : stream (o :: reads) = stream [o] ++ stream reads := by
      simp [stream]
    refine ⟨⟨?_, ?_⟩, ?_⟩
    · rintro ⟨r', done⟩
      obtain ⟨m, here, later⟩ := run_cons_eq_some.mp done
      have room := hasRoom_of_receive matched here
      obtain ⟨m', here', matched'⟩ := receive_spec order matched counted.1 room
      cases here.symm.trans here'
      exact .cons room here ((ih matched' counted.2).1.mp ⟨r', later⟩)
    · rintro ⟨room, rooms⟩
      obtain ⟨m, here, matched'⟩ := receive_spec order matched counted.1 room
      obtain ⟨r', later⟩ := (ih matched' counted.2).1.mpr (rooms m here)
      exact ⟨r', run_cons_eq_some.mpr ⟨m, here, later⟩⟩
    · intro r' done
      obtain ⟨m, here, later⟩ := run_cons_eq_some.mp done
      have room := hasRoom_of_receive matched here
      obtain ⟨m', here', matched'⟩ := receive_spec order matched counted.1 room
      cases here.symm.trans here'
      rw [joined, ← List.append_assoc]
      exact (ih matched' counted.2).2 r' later

end Runs

/-- Reads of any sizes, failed ones among them, go through as long as the buffer has room
for each, and what has been passed on, what is left and whether the connection has been
shut down are then those of the whole stream. -/
theorem received_of_stream (order : Order) {reads : List ReadOutcome}
    (counted : ∀ o ∈ reads, TcpConnection.Counted o) :
    ((∃ r, run (receive order) .start reads = some r) ↔
        Along (receive order) HasRoom .start reads) ∧
      ∀ r, run (receive order) .start reads = some r →
        (⟨r.messages, r.inputBuffer.readable, r.shutdown⟩ : Reading UInt8 (List UInt8)) =
          reader.read (stream reads) := by
  obtain ⟨rooms, matched⟩ := run_receive order start_matches counted
  exact ⟨rooms, fun r done => (matched r done).reading⟩

/-- A header without its message: nothing is passed on yet, and the bytes stay. -/
theorem received_of_stream_header :
    ∃ r, run (receive .little) .start [.delivered [0, 0, 0, 5]] = some r ∧
      (⟨r.messages, r.inputBuffer.readable, r.shutdown⟩ : Reading UInt8 (List UInt8)) =
        ⟨[], [0, 0, 0, 5], false⟩ := by
  have counted : ∀ o ∈ [ReadOutcome.delivered [0, 0, 0, 5]], TcpConnection.Counted o := by
    simp [TcpConnection.Counted]
  have room : HasRoom .start (.delivered [0, 0, 0, 5]) := by
    intro full
    exact absurd full (by decide +kernel)
  obtain ⟨r, done⟩ := (received_of_stream .little counted).1.mpr ⟨room, fun _ _ => trivial⟩
  refine ⟨r, done, ((received_of_stream .little counted).2 r done).trans ?_⟩
  exact Reader.read_of_short rfl

/-! ## Both ends -/

section Sending
variable {order : Order} {message : List UInt8}

/-- The reserved prefix stays free behind an `append`. -/
theorem reserved_append {b b' : Buffer} {data : List UInt8} (free : 8 ≤ b.prependableSize)
    (done : b.append data = .ok b') : 8 ≤ b'.prependableSize := by
  rw [Buffer.append, Buffer.bind_eq_ok] at done
  obtain ⟨c, ensured, done⟩ := done
  obtain ⟨mem, -, written⟩ := Buffer.bind_eq_ok.mp done
  obtain ⟨-, -, moved⟩ := Buffer.bind_eq_ok.mp written
  cases moved
  change 8 ≤ c.prependableSize
  have space := (Buffer.ensureWritableBytes_eq_ok.mp ensured).1
  split at space
  · rw [Buffer.makeSpace] at space
    split at space
    · obtain ⟨mem', -, moved⟩ := Buffer.bind_eq_ok.mp space
      cases moved
      exact Nat.le_refl 8
    · cases space
      exact free
  · cases space
    exact free

theorem sendMessage_eq (room : Buffer.new.MakesRoom message.length)
    (small : message.length < 2 ^ 32) : sendMessage order message = .ok (frame message) := by
  obtain ⟨buf, appended, sound, content⟩ := Buffer.append_spec Buffer.new_sound room
  have stored := BufferInts.stored_int32 order (.ofNat message.length)
  rw [BufferInts.bigEndian_int32] at stored
  have size : (Int32.ofNat message.length).toUInt32.toNat = message.length :=
    Nat.mod_eq_of_lt small
  rw [size] at stored
  have start : 8 ≤ Buffer.new.prependableSize := Nat.le_refl 8
  have free := reserved_append start appended
  have fits : (ByteOrder.digits 4 message.length).length ≤ buf.prependableSize := by
    rw [length_digits]
    omega
  obtain ⟨buf', prepended, -, content'⟩ := Buffer.prepend_spec sound fits
  rw [content, Buffer.readable_new] at content'
  rw [sendMessage, Buffer.bind_eq_ok]
  refine ⟨buf, appended, ?_⟩
  simp only [stored]
  rw [Buffer.bind_eq_ok]
  exact ⟨buf', prepended, congrArg Except.ok content'⟩

/-- `sendMessage` succeeds on the lengths for which a new buffer has, or makes, room. -/
theorem sendMessage_ok_iff (small : message.length < 2 ^ 32) :
    (∃ bytes, sendMessage order message = .ok bytes) ↔
      message.length ≤ 1024 ∨ 1032 < message.length := by
  have room : Buffer.new.MakesRoom message.length ↔
      message.length ≤ 1024 ∨ 1032 < message.length := by
    rw [Buffer.MakesRoom, Buffer.writableBytes_new]
    simp only [Buffer.kDefaultInitialSize, Buffer.kCheapPrependSize, Buffer.prependableSize,
      Buffer.new]
    omega
  rw [← room]
  constructor
  · rintro ⟨bytes, done⟩
    rw [sendMessage, Buffer.bind_eq_ok] at done
    obtain ⟨buf, appended, -⟩ := done
    exact Buffer.makesRoom_of_append Buffer.new_sound appended
  · intro room
    exact ⟨_, sendMessage_eq room small⟩

end Sending

theorem sendMessages_concat {order : Order} {messages : List (List UInt8)} {message : List UInt8}
    {sent bytes : List UInt8} (handed : sendMessages order messages = .ok sent)
    (last : sendMessage order message = .ok bytes) :
    sendMessages order (messages ++ [message]) = .ok (sent ++ bytes) := by
  induction messages generalizing sent with
  | nil =>
    cases handed
    simp [sendMessages, last, Bind.bind, Except.bind]
  | cons first messages ih =>
    rw [sendMessages, Buffer.bind_eq_ok] at handed
    obtain ⟨front, one, handed⟩ := handed
    obtain ⟨later, others, joined⟩ := Buffer.bind_eq_ok.mp handed
    cases joined
    rw [List.cons_append, sendMessages, Buffer.bind_eq_ok]
    refine ⟨front, one, Buffer.bind_eq_ok.mpr ⟨_, ih others, ?_⟩⟩
    rw [List.append_assoc]

end LengthHeaderCodec
end Arale
