import Arale.Lib.Lines
import Arale.Http.HttpMessage

/-!
# The request parser

`HttpContext` of `net/http/HttpContext.cc` on a byte FIFO. The loop of
`parseRequest` takes one line per round and runs on fuel, of which a byte more than
the buffer holds is enough while a line is expected; in the two states the loop has
no branch for, it runs forever. `setQuery(question, space)` is reached only with
`question` beyond `space`, a range whose length `std::string` rejects by throwing.
-/

namespace Arale

def kCR : UInt8 := 13
def kLF : UInt8 := 10

/-- `Buffer::findCRLF`, as a distance from `peek()`. -/
def findCRLF (buf : List UInt8) : Option Nat := Lines.find kCR kLF buf

inductive HttpRequestParseState where
  | kExpectRequestLine
  | kExpectHeaders
  | kExpectBody
  | kGotAll
  deriving DecidableEq, Repr

structure HttpContext where
  request : HttpRequest := {}
  parseState : HttpRequestParseState := .kExpectRequestLine
  deriving DecidableEq, Repr

/-- How `parseRequest` ends. -/
inductive ParseResult where
  | returned (context : HttpContext) (buf : List UInt8) (ok : Bool)
  | raised
  | diverged
  deriving DecidableEq, Repr

namespace HttpContext

def reset (_ : HttpContext) : HttpContext := {}

def isGotAll (c : HttpContext) : Bool := c.parseState == .kGotAll

/-- The version at the end of a request line, with the request and `ok` after it. -/
def parseVersion (r : HttpRequest) (version : List UInt8) : HttpRequest × Bool :=
  if version.length = 8 ∧ version.take 7 = bytes "HTTP/1." then
    if version.getLast? = some 49 then (r.setVersion .kHttp11, true)
    else if version.getLast? = some 48 then (r.setVersion .kHttp10, true)
    else (r, false)
  else (r, false)

/-- `none` is the exception of `setQuery`. -/
def parseRequestLine (r : HttpRequest) (line : List UInt8) : Option (HttpRequest × Bool) :=
  let space := line.idxOf 32
  if space = line.length then some (r, false)
  else
    let (r, known) := r.setMethod (line.take space)
    if !known then some (r, false)
    else
      let line := line.drop (space + 1)
      let space := line.idxOf 32
      if space = line.length then some (r, false)
      else if 63 ∈ line.drop space then none
      else some (parseVersion (r.setPath (line.take space)) (line.drop (space + 1)))

/-- What one round of `parseRequest` makes of a line. -/
inductive LineResult where
  | consumed (context : HttpContext)
  | rejected (context : HttpContext)
  | raised
  deriving DecidableEq, Repr

def requestLine (c : HttpContext) (line : List UInt8) (receiveTime : Int) : LineResult :=
  match parseRequestLine c.request line with
  | none => .raised
  | some (r, true) => .consumed ⟨r.setReceiveTime receiveTime, .kExpectHeaders⟩
  | some (r, false) => .rejected { c with request := r }

/-- A line without a colon ends the headers, empty or not. -/
def headerLine (c : HttpContext) (line : List UInt8) : HttpContext :=
  let colon := line.idxOf 58
  if colon ≠ line.length then
    { c with request := c.request.addHeader (line.take colon) (line.drop (colon + 1)) }
  else { c with parseState := .kGotAll }

/-- One round on a complete line; only the two states that expect one have it. -/
def parseLine (c : HttpContext) (line : List UInt8) (receiveTime : Int) : LineResult :=
  match c.parseState with
  | .kExpectRequestLine => c.requestLine line receiveTime
  | _ => .consumed (c.headerLine line)

def expectsLine (c : HttpContext) : Bool :=
  c.parseState == .kExpectRequestLine || c.parseState == .kExpectHeaders

def parseLoop : Nat → HttpContext → List UInt8 → Int → ParseResult
  | 0, _, _, _ => .diverged
  | fuel + 1, c, buf, receiveTime =>
    if c.expectsLine then
      match findCRLF buf with
      | none => .returned c buf true
      | some crlf =>
        match c.parseLine (buf.take crlf) receiveTime with
        | .raised => .raised
        | .rejected c => .returned c buf false
        | .consumed c =>
          let buf := buf.drop (crlf + 2)
          if c.isGotAll then .returned c buf true else parseLoop fuel c buf receiveTime
    else .diverged

def parseRequest (c : HttpContext) (buf : List UInt8) (receiveTime : Int) : ParseResult :=
  parseLoop (buf.length + 1) c buf receiveTime

theorem isGotAll_of_expectsLine {c : HttpContext} (expects : c.expectsLine = true) :
    c.isGotAll = false := by
  rcases c with ⟨request, parseState⟩
  cases parseState with
  | kExpectRequestLine => rfl
  | kExpectHeaders => rfl
  | kExpectBody => rfl
  | kGotAll => cases expects

theorem colon_found_iff (line : List UInt8) : line.idxOf 58 ≠ line.length ↔ 58 ∈ line := by
  rw [← List.idxOf_lt_length_iff]
  have bound := List.idxOf_le_length (a := (58 : UInt8)) (l := line)
  omega

/-- The state after a header line tells whether it had a colon. -/
theorem parseState_headerLine {c : HttpContext} (headers : c.parseState = .kExpectHeaders)
    (line : List UInt8) :
    (c.headerLine line).parseState = if 58 ∈ line then .kExpectHeaders else .kGotAll := by
  simp only [headerLine, colon_found_iff]
  split
  · exact headers
  · rfl

theorem parseState_requestLine {c c' : HttpContext} {line : List UInt8} {receiveTime : Int}
    (accepted : c.requestLine line receiveTime = .consumed c') :
    c'.parseState = .kExpectHeaders := by
  simp only [requestLine] at accepted
  split at accepted <;> cases accepted
  rfl

/-- Only headers are left to come after a line that does not end the request. -/
theorem consumed_headers {c c' : HttpContext} {line : List UInt8} {receiveTime : Int}
    (consumed : c.parseLine line receiveTime = .consumed c') (expects : c.expectsLine = true)
    (more : c'.isGotAll = false) : c'.parseState = .kExpectHeaders := by
  cases state : c.parseState with
  | kExpectRequestLine =>
    simp only [parseLine, state] at consumed
    exact parseState_requestLine consumed
  | kExpectHeaders =>
    simp only [parseLine, state, LineResult.consumed.injEq] at consumed
    subst consumed
    rw [isGotAll, parseState_headerLine state] at more
    rw [parseState_headerLine state]
    split at more
    · rename_i colon
      exact if_pos colon
    · cases more
  | kExpectBody => simp [expectsLine, state] at expects
  | kGotAll => simp [expectsLine, state] at expects

theorem expectsLine_of_consumed {c c' : HttpContext} {line : List UInt8} {receiveTime : Int}
    (expects : c.expectsLine = true) (consumed : c.parseLine line receiveTime = .consumed c')
    (more : c'.isGotAll = false) : c'.expectsLine = true := by
  rw [expectsLine, consumed_headers consumed expects more]
  rfl

theorem parseLine_headers {c : HttpContext} (headers : c.parseState = .kExpectHeaders)
    (line : List UInt8) (receiveTime : Int) :
    c.parseLine line receiveTime = .consumed (c.headerLine line) := by
  simp only [parseLine, headers]

end HttpContext

end Arale
