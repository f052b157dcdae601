import Arale.Http.Segmentation

/-!
# Parsing in pieces

One request parsed as its bytes arrive, against one call of `parseRequest` on all of
them. A call that has to wait leaves a context from which the next call goes on as the
same call would have; a call that ends the parse ends it whatever follows. Exceptions
are compared with the state they leave: only the first line of a call can raise, before
anything has been retrieved from the buffer.
-/

namespace Arale

/-- The request as the exception of `setQuery` leaves it, with a path up to the question
mark. -/
def HttpContext.raisedRequest (r : HttpRequest) (line : List UInt8) : HttpRequest :=
  let space := line.idxOf 32
  let r := (r.setMethod (line.take space)).1
  let line := line.drop (space + 1)
  let space := line.idxOf 32
  let question := space + (line.drop space).idxOf 63
  r.setPath (line.take question)

inductive ParseOutcome where
  | returned (ok : Bool)
  | raised
  | diverged
  deriving DecidableEq, Repr

/-- How a call of `parseRequest` ends, with the context and the buffer it leaves. -/
structure Ending where
  outcome : ParseOutcome
  context : HttpContext
  buf : List UInt8
  deriving DecidableEq, Repr

/-- The bytes before the first CRLF. -/
def firstLine (buf : List UInt8) : List UInt8 := buf.take ((findCRLF buf).getD buf.length)

namespace HttpContext

def ending (c : HttpContext) (buf : List UInt8) (receiveTime : Int) : Ending :=
  match c.parseRequest buf receiveTime with
  | .returned c buf ok => ⟨.returned ok, c, buf⟩
  | .raised => ⟨.raised, { c with request := raisedRequest c.request (firstLine buf) }, buf⟩
  | .diverged => ⟨.diverged, c, buf⟩

end HttpContext

/-- Some bytes that arrive together, and when. -/
structure Chunk where
  data : List UInt8
  receiveTime : Int
  deriving DecidableEq, Repr

namespace Ending

/-- The parse is not over. -/
def waits (e : Ending) : Bool := e.outcome == .returned true && !e.context.isGotAll

end Ending

/-- The chunks are appended one by one, with a call after each, until the parse is over.
What has not been fed counts as unconsumed. -/
def feed (c : HttpContext) (buf : List UInt8) : List Chunk → Ending
  | [] => ⟨.returned true, c, buf⟩
  | chunk :: rest =>
    let e := c.ending (buf ++ chunk.data) chunk.receiveTime
    if e.waits then feed e.context e.buf rest
    else { e with buf := e.buf ++ rest.flatMap Chunk.data }

end Arale

namespace IncrementalParsing

open Arale HttpContext Segmentation

/-! ## The loop of `parseRequest` without its fuel -/

theorem parseLoop_congr {fuel other : Nat} {c : HttpContext} {buf : List UInt8}
    {receiveTime : Int} (enough : buf.length < fuel) (enough' : buf.length < other) :
    parseLoop fuel c buf receiveTime = parseLoop other c buf receiveTime := by
  induction fuel generalizing other c buf with
  | zero => omega
  | succ fuel ih =>
    cases other with
    | zero => omega
    | succ other =>
      simp only [parseLoop]
      split
      · cases found : findCRLF buf with
        | none => rfl
        | some crlf =>
          have bound := Lines.find_bound found
          have shorter : (buf.drop (crlf + 2)).length = buf.length - (crlf + 2) :=
            List.length_drop
          have same (d : HttpContext) : parseLoop fuel d (buf.drop (crlf + 2)) receiveTime =
              parseLoop other d (buf.drop (crlf + 2)) receiveTime := ih (by omega) (by omega)
          simp only [same]
      · rfl

/-- One round of the loop. -/
theorem parseRequest_eq {c : HttpContext} (expects : c.expectsLine = true) (buf : List UInt8)
    (receiveTime : Int) :
    c.parseRequest buf receiveTime =
      match findCRLF buf with
      | none => .returned c buf true
      | some crlf =>
        match c.parseLine (buf.take crlf) receiveTime with
        | .raised => .raised
        | .rejected c' => .returned c' buf false
        | .consumed c' =>
          if c'.isGotAll then .returned c' (buf.drop (crlf + 2)) true
          else c'.parseRequest (buf.drop (crlf + 2)) receiveTime := by
  rw [parseRequest, parseLoop, if_pos expects]
  cases found : findCRLF buf with
  | none => rfl
  | some crlf =>
    have bound := Lines.find_bound found
    have shorter : (buf.drop (crlf + 2)).length < buf.length := by
      rw [List.length_drop]
      omega
    have same (d : HttpContext) : parseLoop buf.length d (buf.drop (crlf + 2)) receiveTime =
        d.parseRequest (buf.drop (crlf + 2)) receiveTime :=
      parseLoop_congr shorter (Nat.lt_succ_self _)
    cases parsed : c.parseLine (buf.take crlf) receiveTime with
    | raised => simp [parsed]
    | rejected c' => simp [parsed]
    | consumed c' => simp [parsed, same c']

/-- The headers do not raise. -/
theorem parseRequest_headers_ne_raised {c : HttpContext}
    (headers : c.parseState = .kExpectHeaders) (buf : List UInt8) (receiveTime : Int) :
    c.parseRequest buf receiveTime ≠ .raised := by
  induction h : buf.length using Nat.strongRecOn generalizing c buf with
  | ind n ih =>
    have expects : c.expectsLine = true := by simp [expectsLine, headers]
    rw [parseRequest_eq expects]
    cases found : findCRLF buf with
    | none => simp
    | some crlf =>
      have bound := Lines.find_bound found
      have line : c.parseLine (buf.take crlf) receiveTime =
          .consumed (c.headerLine (buf.take crlf)) := by simp [parseLine, headers]
      simp only [line]
      cases all : (c.headerLine (buf.take crlf)).isGotAll with
      | true => simp
      | false =>
        have shorter : (buf.drop (crlf + 2)).length < n := by
          rw [← h, List.length_drop]
          omega
        exact ih _ shorter (consumed_headers line expects all) _ rfl

theorem parseRequest_ne_diverged {c : HttpContext} (expects : c.expectsLine = true)
    (buf : List UInt8) (receiveTime : Int) : c.parseRequest buf receiveTime ≠ .diverged := by
  have parsed := parseLoop_parsed (Nat.lt_succ_self buf.length) expects receiveTime
  intro diverged
  rw [parseRequest] at diverged
  rw [diverged] at parsed
  cases parsed

/-- One round of the loop, with what each end of it leaves. -/
theorem ending_eq {c : HttpContext} (expects : c.expectsLine = true) (buf : List UInt8)
    (receiveTime : Int) :
    c.ending buf receiveTime =
      match findCRLF buf with
      | none => ⟨.returned true, c, buf⟩
      | some crlf =>
        match c.parseLine (buf.take crlf) receiveTime with
        | .raised =>
          ⟨.raised, { c with request := raisedRequest c.request (buf.take crlf) }, buf⟩
        | .rejected c' => ⟨.returned false, c', buf⟩
        | .consumed c' =>
          if c'.isGotAll then ⟨.returned true, c', buf.drop (crlf + 2)⟩
          else c'.ending (buf.drop (crlf + 2)) receiveTime := by
  rw [ending, parseRequest_eq expects]
  cases found : findCRLF buf with
  | none => rfl
  | some crlf =>
    cases line : c.parseLine (buf.take crlf) receiveTime with
    | raised => simp [firstLine, found, line]
    | rejected c' => simp [line]
    | consumed c' =>
      cases all : c'.isGotAll with
      | true => simp [line, all]
      | false =>
        have quiet := parseRequest_headers_ne_raised (consumed_headers line expects all)
          (buf.drop (crlf + 2)) receiveTime
        have ends := parseRequest_ne_diverged (expectsLine_of_consumed expects line all)
          (buf.drop (crlf + 2)) receiveTime
        simp only [line, all, ending, Bool.false_eq_true, if_false]
        cases result : c'.parseRequest (buf.drop (crlf + 2)) receiveTime with
        | returned d rest ok => rfl
        | raised => exact absurd result quiet
        | diverged => exact absurd result ends

/-! ## Receive times do not matter -/

def timelessEnding (e : Ending) : Ending := { e with context := timelessContext e.context }

theorem ending_timeless {c : HttpContext} (expects : c.expectsLine = true) (buf : List UInt8)
    (receiveTime : Int) :
    timelessEnding (c.ending buf receiveTime) = (timelessContext c).ending buf 0 := by
  induction h : buf.length using Nat.strongRecOn generalizing c buf with
  | ind n ih =>
    have expects' : (timelessContext c).expectsLine = true := expects
    rw [ending_eq expects, ending_eq expects']
    cases found : findCRLF buf with
    | none => rfl
    | some crlf =>
      have bound := Lines.find_bound found
      simp only [parseLine_timeless c _ receiveTime]
      cases line : c.parseLine (buf.take crlf) receiveTime with
      | raised => rfl
      | rejected c' => rfl
      | consumed c' =>
        simp only [timelessResult]
        cases all : c'.isGotAll with
        | true =>
          have all' : (timelessContext c').isGotAll = true := all
          simp [all', timelessEnding]
        | false =>
          have all' : (timelessContext c').isGotAll = false := all
          have shorter : (buf.drop (crlf + 2)).length < n := by
            rw [← h, List.length_drop]
            omega
          simpa [all'] using ih _ shorter (expectsLine_of_consumed expects line all) _ rfl

/-! ## A parse goes on where it waited and stays where it ended -/

/-- The ending once more bytes follow, without parsing them. -/
def leave (e : Ending) (more : List UInt8) : Ending := { e with buf := e.buf ++ more }

/-- What a call makes of its buffer and more bytes, from what it makes of the buffer. -/
theorem ending_append {c : HttpContext} (expects : c.expectsLine = true)
    (buf more : List UInt8) (receiveTime : Int) :
    c.ending (buf ++ more) receiveTime =
      if (c.ending buf receiveTime).waits then
        (c.ending buf receiveTime).context.ending ((c.ending buf receiveTime).buf ++ more)
          receiveTime
      else leave (c.ending buf receiveTime) more := by
  induction h : buf.length using Nat.strongRecOn generalizing c buf with
  | ind n ih =>
    cases found : findCRLF buf with
    | none =>
      have waiting := isGotAll_of_expectsLine expects
      have ended : c.ending buf receiveTime = ⟨.returned true, c, buf⟩ := by
        rw [ending_eq expects, found]
      rw [ended, if_pos (by simp [Ending.waits, waiting])]
    | some crlf =>
      have bound := Lines.find_bound found
      have found' : findCRLF (buf ++ more) = some crlf := Lines.find_append found more
      have same : (buf ++ more).take crlf = buf.take crlf :=
        List.take_append_of_le_length (by omega)
      have rest : (buf ++ more).drop (crlf + 2) = buf.drop (crlf + 2) ++ more :=
        List.drop_append_of_le_length (by omega)
      rw [ending_eq expects (buf ++ more), ending_eq expects buf, found, found']
      simp only [same, rest]
      cases line : c.parseLine (buf.take crlf) receiveTime with
      | raised => rfl
      | rejected c' => rfl
      | consumed c' =>
        simp only
        cases all : c'.isGotAll with
        | true => simp [Ending.waits, all, leave]
        | false =>
          have shorter : (buf.drop (crlf + 2)).length < n := by
            rw [← h, List.length_drop]
            omega
          simpa using ih _ shorter (expectsLine_of_consumed expects line all) _ rfl

/-- A call that waits leaves a context that expects a line, and no complete one. -/
theorem waiting_of_waits {c : HttpContext} (expects : c.expectsLine = true)
    {buf : List UInt8} {receiveTime : Int} (waits : (c.ending buf receiveTime).waits = true) :
    (c.ending buf receiveTime).context.expectsLine = true ∧
      findCRLF (c.ending buf receiveTime).buf = none := by
  induction h : buf.length using Nat.strongRecOn generalizing c buf with
  | ind n ih =>
    rw [ending_eq expects] at waits ⊢
    cases found : findCRLF buf with
    | none => exact ⟨expects, found⟩
    | some crlf =>
      have bound := Lines.find_bound found
      rw [found] at waits
      cases line : c.parseLine (buf.take crlf) receiveTime with
      | raised => simp [line, Ending.waits] at waits
      | rejected c' => simp [line, Ending.waits] at waits
      | consumed c' =>
        simp only [line] at waits ⊢
        cases all : c'.isGotAll with
        | true => simp [all, Ending.waits] at waits
        | false =>
          have shorter : (buf.drop (crlf + 2)).length < n := by
            rw [← h, List.length_drop]
            omega
          simp only [all, Bool.false_eq_true, if_false] at waits ⊢
          exact ih _ shorter (expectsLine_of_consumed expects line all) waits rfl

/-- Feeding a waiting parser ends as one call on its buffer and all that is to come. -/
theorem feed_timeless {c : HttpContext} (expects : c.expectsLine = true) {buf : List UInt8}
    (waiting : findCRLF buf = none) (chunks : List Chunk) :
    timelessEnding (feed c buf chunks) =
      (timelessContext c).ending (buf ++ chunks.flatMap Chunk.data) 0 := by
  induction chunks generalizing c buf with
  | nil =>
    have expects' : (timelessContext c).expectsLine = true := expects
    rw [List.flatMap_nil, List.append_nil, ending_eq expects', waiting]
    rfl
  | cons chunk rest ih =>
    have expects' : (timelessContext c).expectsLine = true := expects
    have first := ending_timeless expects (buf ++ chunk.data) chunk.receiveTime
    rw [List.flatMap_cons, ← List.append_assoc, ending_append expects', ← first, feed]
    cases waits : (c.ending (buf ++ chunk.data) chunk.receiveTime).waits with
    | true =>
      obtain ⟨later, incomplete⟩ := waiting_of_waits expects waits
      have waits' : (timelessEnding (c.ending (buf ++ chunk.data) chunk.receiveTime)).waits =
          true := waits
      rw [if_pos waits']
      exact ih later incomplete
    | false =>
      have ends : ¬ (timelessEnding (c.ending (buf ++ chunk.data) chunk.receiveTime)).waits =
          true := by
        rw [show (timelessEnding (c.ending (buf ++ chunk.data) chunk.receiveTime)).waits = false
          from waits]
        exact Bool.false_ne_true
      rw [if_neg ends]
      rfl

/-- Two parses that end alike, but for the time the request is given. -/
structure Agree (e e' : Ending) : Prop where
  outcome : e.outcome = e'.outcome
  parseState : e.context.parseState = e'.context.parseState
  method : e.context.request.method = e'.context.request.method
  version : e.context.request.version = e'.context.request.version
  path : e.context.request.path = e'.context.request.path
  query : e.context.request.query = e'.context.request.query
  headers : e.context.request.headers = e'.context.request.headers
  unconsumed : e.buf = e'.buf

theorem agree_of_timeless {e e' : Ending} (same : timelessEnding e = timelessEnding e') :
    Agree e e' := by
  rcases e with ⟨outcome, ⟨request, state⟩, buf⟩
  rcases e' with ⟨outcome', ⟨request', state'⟩, buf'⟩
  simp only [timelessEnding, timelessContext, timeless, HttpRequest.setReceiveTime, Ending.mk.injEq,
    HttpContext.mk.injEq, HttpRequest.mk.injEq, true_and] at same
  obtain ⟨ends, ⟨⟨version, method, path, query, headers⟩, states⟩, left⟩ := same
  exact ⟨ends, states, method, version, path, query, headers, left⟩

/-- However a byte string is cut and whenever its pieces arrive, feeding them to a fresh
parser ends as one call on the whole string does, and that call ends. -/
theorem fed_agrees_with_whole (chunks : List Chunk) (receiveTime : Int) :
    Agree (feed {} [] chunks) (HttpContext.ending {} (chunks.flatMap Chunk.data) receiveTime) ∧
      (HttpContext.ending {} (chunks.flatMap Chunk.data) receiveTime).outcome ≠ .diverged := by
  constructor
  · apply agree_of_timeless
    rw [feed_timeless rfl rfl, ending_timeless rfl, List.nil_append]
  · have ends := parseRequest_ne_diverged (c := {}) rfl (chunks.flatMap Chunk.data) receiveTime
    rw [ending]
    cases result : HttpContext.parseRequest {} (chunks.flatMap Chunk.data) receiveTime with
    | returned c buf ok => simp
    | raised => simp
    | diverged => exact absurd result ends

/-- A request line cut between its CR and its LF, and inside a header. -/
example :
    (feed {} [] [⟨bytes "GET /a HTTP/1.1\r", 1⟩, ⟨bytes "\nHo", 2⟩,
      ⟨bytes "st: b\r\n\r\nrest", 3⟩]).buf = bytes "rest" := by
  decide +kernel

end IncrementalParsing
