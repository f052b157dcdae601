import Arale.Http.Incremental

/-!
# The parser's loop ends in the server

The `while` loop of `parseRequest` as its iterations, with no bound on how many there are.
In `kExpectBody` and `kGotAll` an iteration changes nothing, and the loop would not end.
The server enters it in neither: after a complete request the context is reset before the
next read, and a rejected request line leaves its state alone. In the other two states an
iteration that goes on has removed a line.
-/

namespace Termination

open Arale HttpContext HttpConnection IncrementalParsing Segmentation

inductive Iteration where
  | again (context : HttpContext) (buf : List UInt8)
  | stop (result : ParseResult)
  deriving DecidableEq, Repr

/-- The body of the loop of `parseRequest`. -/
def iteration (c : HttpContext) (buf : List UInt8) (receiveTime : Int) : Iteration :=
  match c.parseState with
  | .kExpectRequestLine =>
    match findCRLF buf with
    | some crlf =>
      match parseRequestLine c.request (buf.take crlf) with
      | some (r, true) =>
        .again ⟨r.setReceiveTime receiveTime, .kExpectHeaders⟩ (buf.drop (crlf + 2))
      | some (r, false) => .stop (.returned { c with request := r } buf false)
      | none => .stop .raised
    | none => .stop (.returned c buf true)
  | .kExpectHeaders =>
    match findCRLF buf with
    | some crlf =>
      let line := buf.take crlf
      let colon := line.idxOf 58
      if colon ≠ line.length then
        .again { c with request := c.request.addHeader (line.take colon) (line.drop (colon + 1)) }
          (buf.drop (crlf + 2))
      else .stop (.returned { c with parseState := .kGotAll } (buf.drop (crlf + 2)) true)
    | none => .stop (.returned c buf true)
  | .kExpectBody => .again c buf
  | .kGotAll => .again c buf

section Loop
variable (receiveTime : Int)

/-- The loop ends after some iterations. -/
inductive Ends : HttpContext → List UInt8 → ParseResult → Prop
  | stop {c : HttpContext} {buf : List UInt8} {result : ParseResult}
      (last : iteration c buf receiveTime = .stop result) : Ends c buf result
  | again {c c' : HttpContext} {buf buf' : List UInt8} {result : ParseResult}
      (goesOn : iteration c buf receiveTime = .again c' buf') (later : Ends c' buf' result) :
      Ends c buf result

/-- Where the loop stands after some iterations. -/
inductive Reaches (c : HttpContext) (buf : List UInt8) : HttpContext → List UInt8 → Prop
  | entered : Reaches c buf c buf
  | again {c' c'' : HttpContext} {buf' buf'' : List UInt8} (before : Reaches c buf c' buf')
      (goesOn : iteration c' buf' receiveTime = .again c'' buf'') : Reaches c buf c'' buf''

variable {receiveTime}

/-- An iteration by the line it takes. -/
theorem iteration_eq {c : HttpContext} (expects : c.expectsLine = true) (buf : List UInt8) :
    iteration c buf receiveTime =
      match findCRLF buf with
      | none => .stop (.returned c buf true)
      | some crlf =>
        match c.parseLine (buf.take crlf) receiveTime with
        | .raised => .stop .raised
        | .rejected c' => .stop (.returned c' buf false)
        | .consumed c' =>
          if c'.isGotAll then .stop (.returned c' (buf.drop (crlf + 2)) true)
          else .again c' (buf.drop (crlf + 2)) := by
  cases state : c.parseState with
  | kExpectRequestLine =>
    simp only [iteration, parseLine, requestLine, state]
    cases findCRLF buf with
    | none => rfl
    | some crlf =>
      simp only
      cases parseRequestLine c.request (buf.take crlf) with
      | none => rfl
      | some parsed =>
        rcases parsed with ⟨r, ok⟩
        cases ok <;> rfl
  | kExpectHeaders =>
    simp only [iteration, parseLine, state]
    cases findCRLF buf with
    | none => rfl
    | some crlf =>
      simp only [headerLine]
      split
      · simp [isGotAll, state]
      · simp [isGotAll]
  | kExpectBody => simp [expectsLine, state] at expects
  | kGotAll => simp [expectsLine, state] at expects

/-- An iteration that goes on has taken a line, of two bytes at least. -/
theorem of_again {c c' : HttpContext} {buf buf' : List UInt8} (expects : c.expectsLine = true)
    (goesOn : iteration c buf receiveTime = .again c' buf') :
    c'.expectsLine = true ∧ buf'.length + 2 ≤ buf.length := by
  rw [iteration_eq expects] at goesOn
  cases found : findCRLF buf with
  | none => simp [found] at goesOn
  | some crlf =>
    have bound := Lines.find_bound found
    cases line : c.parseLine (buf.take crlf) receiveTime with
    | raised => simp [found, line] at goesOn
    | rejected d => simp [found, line] at goesOn
    | consumed d =>
      cases all : d.isGotAll with
      | true => simp [found, line, all] at goesOn
      | false =>
        simp only [found, line, all, Bool.false_eq_true, if_false, Iteration.again.injEq] at goesOn
        obtain ⟨rfl, rfl⟩ := goesOn
        refine ⟨expectsLine_of_consumed expects line all, ?_⟩
        rw [List.length_drop]
        omega

theorem Reaches.expectsLine {c c' : HttpContext} {buf buf' : List UInt8}
    (reached : Reaches receiveTime c buf c' buf') (expects : c.expectsLine = true) :
    c'.expectsLine = true := by
  induction reached with
  | entered => exact expects
  | again before goesOn ih => exact (of_again ih goesOn).1

/-- The loop ends with what `parseRequest` returns. -/
theorem ends_with_parseRequest {c : HttpContext} (expects : c.expectsLine = true)
    (buf : List UInt8) : Ends receiveTime c buf (c.parseRequest buf receiveTime) := by
  induction h : buf.length using Nat.strongRecOn generalizing c buf with
  | ind n ih =>
    have first : iteration c buf receiveTime = _ := iteration_eq expects buf
    rw [parseRequest_eq expects]
    cases found : findCRLF buf with
    | none => exact .stop (by rw [first, found])
    | some crlf =>
      cases line : c.parseLine (buf.take crlf) receiveTime with
      | raised =>
        simp only [found, line] at first ⊢
        exact .stop first
      | rejected d =>
        simp only [found, line] at first ⊢
        exact .stop first
      | consumed d =>
        simp only [found, line] at first ⊢
        cases all : d.isGotAll with
        | true =>
          rw [all] at first
          exact .stop first
        | false =>
          rw [all] at first
          have removed := (of_again expects first).2
          have later := ih (buf.drop (crlf + 2)).length (by omega)
            (expectsLine_of_consumed expects line all) _ rfl
          exact .again first later

end Loop

/-! ## The server -/

section Server
variable (callback : HttpCallback) {h : HttpConnection}

/-- After a call of `onMessage` a line is expected again. -/
theorem expectsLine_onMessage (expects : h.context.expectsLine = true) (receiveTime : Int)
    (o : WriteOutcome) : (h.onMessage callback receiveTime o).context.expectsLine = true := by
  have parsed : Parsed h.context h.conn.inputBuffer
      (h.context.parseRequest h.conn.inputBuffer receiveTime) :=
    parseLoop_parsed (Nat.lt_succ_self _) expects receiveTime
  rw [onMessage]
  generalize h.context.parseRequest h.conn.inputBuffer receiveTime = result at parsed
  cases parsed with
  | waits ok expects' =>
    cases ok with
    | true =>
      have waiting := isGotAll_of_expectsLine expects'
      simp only [waiting, if_true, Bool.false_eq_true, if_false]
      exact expects'
    | false => exact expects'
  | gotAll all =>
    simp only [all, if_true]
    rfl
  | raises => exact expects

theorem expectsLine_serve (expects : h.context.expectsLine = true) (reads : List Read) :
    (h.serve callback reads).context.expectsLine = true := by
  induction reads generalizing h with
  | nil => exact expects
  | cons read rest ih =>
    apply ih
    rw [receive]
    split
    · exact expects
    · have arrived : (h.handleRead read.data).context.expectsLine = true := expects
      exact expectsLine_onMessage callback arrived read.receiveTime read.o

end Server

theorem expectsLine_start (loop : EventLoop ConnFunctor) (sockfd : Int) (options : ConnOptions) :
    (start loop sockfd options).context.expectsLine = true := by
  rw [start, onConnection]
  split <;> rfl

/-- Whatever has been read so far, the next call of `parseRequest` is entered in a state that
expects a line, its loop ends on every buffer, and each iteration that goes on has removed
two bytes at least. -/
theorem parseRequest_ends_in_server (callback : HttpCallback) (loop : EventLoop ConnFunctor)
    (sockfd : Int) (options : ConnOptions) (reads : List Read) :
    let c := ((start loop sockfd options).serve callback reads).context
    (c.parseState ≠ .kGotAll ∧ c.parseState ≠ .kExpectBody) ∧ ∀ buf receiveTime,
      Ends receiveTime c buf (c.parseRequest buf receiveTime) ∧
        ∀ d rest, Reaches receiveTime c buf d rest → ∀ d' rest',
          iteration d rest receiveTime = .again d' rest' → rest'.length + 2 ≤ rest.length := by
  intro c
  have expects : c.expectsLine = true :=
    expectsLine_serve callback (expectsLine_start loop sockfd options) reads
  refine ⟨⟨?_, ?_⟩, ?_⟩
  · intro state
    simp [expectsLine, state] at expects
  · intro state
    simp [expectsLine, state] at expects
  · intro buf receiveTime
    refine ⟨ends_with_parseRequest expects buf, ?_⟩
    intro d rest reached d' rest' goesOn
    exact (of_again (reached.expectsLine expects) goesOn).2

end Termination
