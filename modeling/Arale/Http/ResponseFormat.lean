import Mathlib.Algebra.Group.Nat.Defs
import Arale.Http.HttpMessage
import Arale.Lib.Lines

/-!
# Responses as a client reads them

The grammar of HTTP/1.1 responses, and `appendToBuffer` against it. The status line is
written without the space between the code and the message, so that no response is read
back as it was set; the rest of the format is that of the grammar.
-/

namespace ResponseFormat

open Arale

abbrev Field := List UInt8 × List UInt8

def crlf : List UInt8 := bytes "\r\n"

def fieldLine (field : Field) : List UInt8 := field.1 ++ bytes ": " ++ field.2 ++ crlf

/-- Neither CR nor LF. -/
def OneLine (text : List UInt8) : Prop := 13 ∉ text ∧ 10 ∉ text

instance (text : List UInt8) : Decidable (OneLine text) := inferInstanceAs (Decidable (_ ∧ _))

def FieldOk (field : Field) : Prop := OneLine field.1 ∧ OneLine field.2 ∧ 58 ∉ field.1

instance (field : Field) : Decidable (FieldOk field) :=
  inferInstanceAs (Decidable (_ ∧ _ ∧ _))

/-- A response of the grammar. -/
structure Message where
  code : Nat
  message : List UInt8
  messageLine : OneLine message
  fields : List Field
  fieldLines : ∀ field ∈ fields, FieldOk field
  body : List UInt8

/-- `"HTTP/1.1" SP code SP message CRLF`, the field lines, an empty line, the body. -/
def Message.text (m : Message) : List UInt8 :=
  bytes "HTTP/1.1" ++ [32] ++ HttpResponse.decimal m.code ++ [32] ++ m.message ++ crlf ++
    m.fields.flatMap fieldLine ++ crlf ++ m.body

/-- The fields about the connection. -/
def connectionFields (r : HttpResponse) : List Field :=
  if r.closeConnection then [(bytes "Connection", bytes "close")]
  else [(bytes "Content-Length", HttpResponse.decimal r.body.length),
    (bytes "Connection", bytes "Keep-Alive")]

/-- The codes of `HttpStatusCode` other than `kUnknown`. -/
def statusCodes : List Nat := [200, 301, 400, 404]

/-- A response as the callback may set it. -/
structure Proper (r : HttpResponse) : Prop where
  code : r.statusCode ∈ statusCodes
  message : OneLine r.statusMessage
  fields : ∀ field ∈ r.headers, FieldOk field ∧ field.1 ≠ bytes "Connection" ∧
    field.1 ≠ bytes "Content-Length"

/-- The bytes of the response are in the grammar, with what was set in it. -/
def ReadBack (r : HttpResponse) : Prop :=
  ∃ m : Message, m.text = r.appendToBuffer ∧ m.code = r.statusCode ∧
    m.message = r.statusMessage ∧ m.fields.Perm (connectionFields r ++ r.headers) ∧
    m.body = r.body

/-! ## What is written -/

theorem formatted_status {code : Nat} (known : code ∈ statusCodes) :
    HttpResponse.formatted (bytes "HTTP/1.1 " ++ HttpResponse.decimal code) =
      bytes "HTTP/1.1 " ++ HttpResponse.decimal code := by
  simp only [statusCodes, List.mem_cons, List.not_mem_nil, or_false] at known
  rcases known with rfl | rfl | rfl | rfl <;> decide

/-- Up to thirteen digits, the length of the body fits the buffer it is formatted in. -/
theorem formatted_length {size : Nat} (short : size < 10 ^ 13) :
    HttpResponse.formatted (bytes "Content-Length: " ++ HttpResponse.decimal size ++ crlf) =
      bytes "Content-Length: " ++ HttpResponse.decimal size ++ crlf := by
  have digits : (HttpResponse.decimal size).length ≤ 13 := by
    rw [HttpResponse.decimal, List.length_map]
    exact (Nat.length_toDigits_le_iff (by decide) (by decide)).mpr short
  have label : (bytes "Content-Length: ").length = 16 := rfl
  have ending : crlf.length = 2 := rfl
  apply List.take_of_length_le
  simp only [List.length_append, label, ending]
  omega

theorem appendToBuffer_eq {r : HttpResponse} (code : r.statusCode ∈ statusCodes)
    (short : r.body.length < 10 ^ 13) :
    r.appendToBuffer = bytes "HTTP/1.1 " ++ HttpResponse.decimal r.statusCode ++
      r.statusMessage ++ crlf ++ (connectionFields r ++ r.headers).flatMap fieldLine ++ crlf ++
      r.body := by
  have written : r.appendToBuffer =
      HttpResponse.formatted (bytes "HTTP/1.1 " ++ HttpResponse.decimal r.statusCode) ++
        r.statusMessage ++ crlf ++
        (if r.closeConnection then bytes "Connection: close\r\n"
          else HttpResponse.formatted
              (bytes "Content-Length: " ++ HttpResponse.decimal r.body.length ++ crlf) ++
            bytes "Connection: Keep-Alive\r\n") ++
        r.headers.flatMap fieldLine ++ crlf ++ r.body := rfl
  rw [written, formatted_status code, formatted_length short, List.flatMap_append,
    connectionFields]
  cases r.closeConnection with
  | true => simp [fieldLine, crlf, bytes]
  | false => simp [fieldLine, crlf, bytes]

/-! ## The missing space -/

theorem crlf_eq : bytes "\r\n" = [13, 10] := rfl

/-- The first CR of the written response ends the status line. -/
theorem appendToBuffer_front {r : HttpResponse} (proper : Proper r) :
    ∃ rest, r.appendToBuffer = bytes "HTTP/1.1 " ++ HttpResponse.decimal r.statusCode ++
      (r.statusMessage ++ 13 :: rest) := by
  rw [HttpResponse.appendToBuffer, formatted_status proper.code]
  simp only [crlf_eq, List.append_assoc, List.cons_append]
  exact ⟨_, rfl⟩

/-- A client that reads the code that was set reads a message that lacks its first byte,
which has to be a space. -/
theorem message_after_space {r : HttpResponse} (proper : Proper r) {m : Message}
    (same : m.text = r.appendToBuffer) (code : m.code = r.statusCode) :
    r.statusMessage = 32 :: m.message := by
  obtain ⟨rest, written⟩ := appendToBuffer_front proper
  obtain ⟨rest', parsed⟩ : ∃ rest', m.text =
      bytes "HTTP/1.1 " ++ HttpResponse.decimal r.statusCode ++
        (32 :: m.message ++ 13 :: rest') := by
    have version : bytes "HTTP/1.1 " = bytes "HTTP/1.1" ++ [32] := rfl
    rw [Message.text, code, version]
    simp only [crlf, crlf_eq, List.append_assoc, List.cons_append, List.nil_append]
    exact ⟨_, rfl⟩
  have tails : r.statusMessage ++ 13 :: rest = 32 :: m.message ++ 13 :: rest' := by
    apply List.append_cancel_left
    rw [← written, ← same, parsed]
  have bare : 13 ∉ 32 :: m.message := by
    rw [List.mem_cons, not_or]
    exact ⟨by decide, m.messageLine.1⟩
  exact (Lines.split_unique proper.message.1 bare tails).1

/-- No response is read back: the message would have to begin where the space should be. -/
theorem response_never_read_back {r : HttpResponse} (proper : Proper r) : ¬ ReadBack r := by
  rintro ⟨m, same, code, message, -, -⟩
  have shifted := message_after_space proper same code
  have lengths := congrArg List.length shifted
  rw [message, List.length_cons] at lengths
  omega

def okResponse (close : Bool) : HttpResponse where
  statusCode := 200
  statusMessage := bytes "OK"
  headers := [(bytes "Server", bytes "arale")]
  body := bytes "hi"
  closeConnection := close

theorem proper_okResponse (close : Bool) : Proper (okResponse close) where
  code := (by decide : 200 ∈ statusCodes)
  message := (by decide : OneLine (bytes "OK"))
  fields := by
    intro field mem
    obtain rfl := List.mem_singleton.mp mem
    decide

/-- It begins with `HTTP/1.1 200OK`. -/
theorem ok_response_not_read_back : ¬ ReadBack (okResponse true) := by
  rintro ⟨m, same, code, message, -, -⟩
  have shifted := message_after_space (proper_okResponse true) same code
  rw [message] at shifted
  revert shifted
  decide

theorem keep_alive_response_not_read_back : ¬ ReadBack (okResponse false) :=
  response_never_read_back (proper_okResponse false)

/-! ## The rest of the format -/

theorem digit_of_mem_decimal {n : Nat} {b : UInt8} (mem : b ∈ HttpResponse.decimal n) :
    48 ≤ b.toNat ∧ b.toNat ≤ 57 := by
  obtain ⟨c, digit, rfl⟩ := List.mem_map.mp mem
  have isDigit := Nat.isDigit_of_mem_toDigits (by decide) (by decide) digit
  have low : 48 ≤ c.toNat := (Char.isDigit_iff_toNat.mp isDigit).1
  have high : c.toNat ≤ 57 := (Char.isDigit_iff_toNat.mp isDigit).2
  rw [Nat.toUInt8, UInt8.toNat_ofNat', Nat.mod_eq_of_lt (by omega)]
  exact ⟨low, high⟩

theorem oneLine_decimal (n : Nat) : OneLine (HttpResponse.decimal n) := by
  constructor
  · intro mem
    exact absurd (digit_of_mem_decimal mem).1 (by decide)
  · intro mem
    exact absurd (digit_of_mem_decimal mem).1 (by decide)

theorem connectionFields_ok (r : HttpResponse) : ∀ field ∈ connectionFields r, FieldOk field := by
  rw [connectionFields]
  split
  · simp only [List.mem_singleton]
    rintro field rfl
    decide
  · simp only [List.mem_cons, List.not_mem_nil, or_false]
    rintro field (rfl | rfl)
    · exact ⟨(by decide : OneLine (bytes "Content-Length")), oneLine_decimal _,
        (by decide : 58 ∉ bytes "Content-Length")⟩
    · decide

/-- With the space put into the message, everything else is read back. -/
theorem read_back_behind_space {r : HttpResponse} (proper : Proper r)
    (short : r.body.length < 10 ^ 13) {message : List UInt8}
    (spaced : r.statusMessage = 32 :: message) :
    ∃ m : Message, m.text = r.appendToBuffer ∧ m.code = r.statusCode ∧ m.message = message ∧
      m.fields = connectionFields r ++ r.headers ∧ m.body = r.body := by
  have line : OneLine message := by
    have whole := proper.message
    rw [spaced] at whole
    exact ⟨fun mem => whole.1 (.tail _ mem), fun mem => whole.2 (.tail _ mem)⟩
  have fields : ∀ field ∈ connectionFields r ++ r.headers, FieldOk field := by
    intro field mem
    rcases List.mem_append.mp mem with own | set
    · exact connectionFields_ok r field own
    · exact (proper.fields field set).1
  refine ⟨⟨r.statusCode, message, line, _, fields, r.body⟩, ?_, rfl, rfl, rfl, rfl⟩
  have version : bytes "HTTP/1.1 " = bytes "HTTP/1.1" ++ [32] := rfl
  rw [appendToBuffer_eq proper.code short, Message.text, spaced, version]
  simp only [List.append_assoc, List.cons_append, List.nil_append]

end ResponseFormat
