import Arale.Http.HttpServer

/-!
# Requests and TCP segmentation

The requests of a byte stream, as the parser delimits them: a request line it
accepts, header lines, and a line without a colon. They are defined on the whole
stream, without a loop over a buffer and without reads, and they end at the first
request line that is rejected or that raises. A connection served in any cut of the
stream has dispatched some of these requests and holds the others in its buffer.
One call of `onMessage` dispatches one request at most, so that it keeps up exactly
while no read completes two.
-/

namespace Segmentation

open Arale HttpConnection

/-- A request without its receive time. -/
def timeless (r : HttpRequest) : HttpRequest := r.setReceiveTime 0

/-- The requests that complete lines make up, continuing from a context. -/
def emit : HttpContext → List (List UInt8) → List HttpRequest
  | _, [] => []
  | c, line :: rest =>
    match c.parseLine line 0 with
    | .consumed c => if c.isGotAll then timeless c.request :: emit {} rest else emit c rest
    | .rejected _ => []
    | .raised => []

/-- The complete requests among the bytes that follow a context. -/
def requestsFrom (c : HttpContext) (stream : List UInt8) : List HttpRequest :=
  emit c (Lines.complete kCR kLF stream)

def completeRequests (stream : List UInt8) : List HttpRequest := requestsFrom {} stream

/-! ## Receive times do not matter -/

def timelessContext (c : HttpContext) : HttpContext := { c with request := timeless c.request }

def timelessResult : HttpContext.LineResult → HttpContext.LineResult
  | .consumed c => .consumed (timelessContext c)
  | .rejected c => .rejected (timelessContext c)
  | .raised => .raised

/-- An update that neither reads nor writes the receive time. -/
def IgnoresTime (update : HttpRequest → HttpRequest) : Prop :=
  ∀ r, update (timeless r) = timeless (update r)

theorem parseVersion_uniform (version : List UInt8) :
    ∃ update ok, IgnoresTime update ∧
      ∀ r, HttpContext.parseVersion r version = (update r, ok) := by
  simp only [HttpContext.parseVersion]
  split
  · split
    · exact ⟨(·.setVersion .kHttp11), true, fun _ => rfl, fun _ => rfl⟩
    · split
      · exact ⟨(·.setVersion .kHttp10), true, fun _ => rfl, fun _ => rfl⟩
      · exact ⟨id, false, fun _ => rfl, fun _ => rfl⟩
  · exact ⟨id, false, fun _ => rfl, fun _ => rfl⟩

/-- A request line raises, is accepted or is rejected whatever the request was before. -/
theorem parseRequestLine_uniform (line : List UInt8) :
    (∀ r, HttpContext.parseRequestLine r line = none) ∨
      ∃ update ok, IgnoresTime update ∧
        ∀ r, HttpContext.parseRequestLine r line = some (update r, ok) := by
  simp only [HttpContext.parseRequestLine]
  by_cases bare : line.idxOf 32 = line.length
  · exact .inr ⟨id, false, fun _ => rfl, fun _ => if_pos bare⟩
  simp only [if_neg bare]
  generalize line.take (line.idxOf 32) = method
  generalize line.drop (line.idxOf 32 + 1) = target
  have named : IgnoresTime fun r => (r.setMethod method).1 := fun _ => rfl
  cases known : (HttpRequest.setMethod {} method).2 with
  | false =>
    have known (r : HttpRequest) : (r.setMethod method).2 = false := known
    exact .inr ⟨_, false, named, fun r => by simp [known]⟩
  | true =>
    have known (r : HttpRequest) : (r.setMethod method).2 = true := known
    simp only [known, Bool.not_true, Bool.false_eq_true, if_false]
    by_cases noVersion : target.idxOf 32 = target.length
    · exact .inr ⟨_, false, named, fun r => if_pos noVersion⟩
    simp only [if_neg noVersion]
    by_cases question : 63 ∈ target.drop (target.idxOf 32)
    · exact .inl fun r => if_pos question
    · obtain ⟨update, ok, ignores, parsed⟩ :=
        parseVersion_uniform (target.drop (target.idxOf 32 + 1))
      refine .inr ⟨_, ok, fun r => ?_, fun r => by rw [if_neg question, parsed]⟩
      exact ignores ((r.setMethod method).1.setPath (target.take (target.idxOf 32)))

theorem parseLine_timeless (c : HttpContext) (line : List UInt8) (receiveTime : Int) :
    (timelessContext c).parseLine line 0 = timelessResult (c.parseLine line receiveTime) := by
  rcases c with ⟨request, parseState⟩
  have header : .consumed ((timelessContext ⟨request, parseState⟩).headerLine line) =
      timelessResult (.consumed (HttpContext.headerLine ⟨request, parseState⟩ line)) := by
    simp only [HttpContext.headerLine]
    split <;> rfl
  cases parseState with
  | kExpectRequestLine =>
    simp only [HttpContext.parseLine, timelessContext, HttpContext.requestLine]
    rcases parseRequestLine_uniform line with raises | ⟨update, ok, ignores, parsed⟩
    · simp only [raises, timelessResult]
    · simp only [parsed, ignores request]
      cases ok <;> rfl
  | kExpectHeaders => exact header
  | kExpectBody => exact header
  | kGotAll => exact header

theorem emit_timelessContext (c : HttpContext) (lines : List (List UInt8)) :
    emit (timelessContext c) lines = emit c lines := by
  induction lines generalizing c with
  | nil => rfl
  | cons line rest ih =>
    simp only [emit, parseLine_timeless c line 0]
    cases c.parseLine line 0 with
    | consumed c => simp only [timelessResult, ih]; rfl
    | rejected c => rfl
    | raised => rfl

/-- A line at any time. -/
theorem emit_cons (c : HttpContext) (line : List UInt8) (rest : List (List UInt8))
    (receiveTime : Int) :
    emit c (line :: rest) =
      match c.parseLine line receiveTime with
      | .consumed c => if c.isGotAll then timeless c.request :: emit {} rest else emit c rest
      | .rejected _ => []
      | .raised => [] := by
  rw [← emit_timelessContext c, emit, parseLine_timeless c line receiveTime]
  cases c.parseLine line receiveTime with
  | consumed c => simp only [timelessResult, emit_timelessContext]; rfl
  | rejected c => rfl
  | raised => rfl

/-! ## A longer stream has the same requests and more -/

theorem length_emit (c : HttpContext) (lines : List (List UInt8)) :
    (emit c lines).length ≤ lines.length := by
  induction lines generalizing c with
  | nil => exact Nat.le_refl 0
  | cons line rest ih =>
    simp only [emit]
    cases c.parseLine line 0 with
    | consumed c =>
      cases all : c.isGotAll with
      | true =>
        have := ih {}
        simp [all]
        omega
      | false =>
        have := ih c
        simp [all]
        omega
    | rejected c => exact Nat.zero_le _
    | raised => exact Nat.zero_le _

theorem emit_append (c : HttpContext) (lines later : List (List UInt8)) :
    ∃ more, emit c (lines ++ later) = emit c lines ++ more ∧ more.length ≤ later.length := by
  induction lines generalizing c with
  | nil => exact ⟨emit c later, rfl, length_emit c later⟩
  | cons line rest ih =>
    simp only [List.cons_append, emit]
    cases c.parseLine line 0 with
    | consumed c =>
      cases all : c.isGotAll with
      | true =>
        obtain ⟨more, same, few⟩ := ih {}
        exact ⟨more, by simp [all, same], few⟩
      | false =>
        obtain ⟨more, same, few⟩ := ih c
        exact ⟨more, by simp [all, same], few⟩
    | rejected c => exact ⟨[], rfl, Nat.zero_le _⟩
    | raised => exact ⟨[], rfl, Nat.zero_le _⟩

theorem completeRequests_append (stream more : List UInt8) :
    ∃ later, completeRequests (stream ++ more) = completeRequests stream ++ later ∧
      later.length ≤ more.length := by
  obtain ⟨lines, same, few⟩ := Lines.complete_append (a := kCR) (b := kLF) stream more
  obtain ⟨later, sameRequests, fewer⟩ := emit_append {} (Lines.complete kCR kLF stream) lines
  exact ⟨later, by rw [completeRequests, requestsFrom, same]; exact sameRequests,
    Nat.le_trans fewer few⟩

/-! ## What one parse does to the requests to come -/

/-- A rejected line stays in the buffer and is rejected again. -/
theorem rejected_again {c c' : HttpContext} {line : List UInt8} {receiveTime : Int}
    (rejected : c.parseLine line receiveTime = .rejected c') :
    c'.expectsLine = true ∧ ∃ c'', c'.parseLine line receiveTime = .rejected c'' := by
  rcases c with ⟨request, parseState⟩
  cases parseState with
  | kExpectRequestLine =>
    simp only [HttpContext.parseLine, HttpContext.requestLine] at rejected
    rcases parseRequestLine_uniform line with raises | ⟨update, ok, -, parsed⟩
    · simp [raises] at rejected
    · cases ok with
      | true => simp [parsed] at rejected
      | false =>
        simp only [parsed] at rejected
        cases rejected
        refine ⟨rfl, ⟨update (update request), .kExpectRequestLine⟩, ?_⟩
        simp only [HttpContext.parseLine, HttpContext.requestLine, parsed]
  | kExpectHeaders => cases rejected
  | kExpectBody => cases rejected
  | kGotAll => cases rejected

/-- The end of a parse, against the requests of the buffer and of whatever follows it. -/
inductive Parsed (c : HttpContext) (buf : List UInt8) : ParseResult → Prop
  | waits {c' : HttpContext} {buf' : List UInt8} (ok : Bool) (expects : c'.expectsLine = true)
      (caughtUp : requestsFrom c' buf' = [])
      (same : ∀ more, requestsFrom c (buf ++ more) = requestsFrom c' (buf' ++ more)) :
      Parsed c buf (.returned c' buf' ok)
  | gotAll {c' : HttpContext} {buf' : List UInt8} (all : c'.isGotAll = true)
      (first : ∀ more, requestsFrom c (buf ++ more) =
        timeless c'.request :: requestsFrom {} (buf' ++ more)) :
      Parsed c buf (.returned c' buf' true)
  | raises (none : ∀ more, requestsFrom c (buf ++ more) = []) : Parsed c buf .raised

theorem Parsed.after {c d : HttpContext} {buf rest : List UInt8} {result : ParseResult}
    (parsed : Parsed d rest result)
    (same : ∀ more, requestsFrom c (buf ++ more) = requestsFrom d (rest ++ more)) :
    Parsed c buf result := by
  cases parsed with
  | waits ok expects caughtUp later =>
    exact .waits ok expects caughtUp fun more => (same more).trans (later more)
  | gotAll all first => exact .gotAll all fun more => (same more).trans (first more)
  | raises none => exact .raises fun more => (same more).trans (none more)

theorem parseLoop_parsed {fuel : Nat} {c : HttpContext} {buf : List UInt8}
    (enough : buf.length < fuel) (expects : c.expectsLine = true) (receiveTime : Int) :
    Parsed c buf (HttpContext.parseLoop fuel c buf receiveTime) := by
  induction fuel generalizing c buf with
  | zero => omega
  | succ fuel ih =>
    rw [HttpContext.parseLoop, if_pos expects]
    cases found : findCRLF buf with
    | none =>
      have caughtUp : requestsFrom c buf = [] := by
        rw [requestsFrom, Lines.complete_of_none found, emit]
      exact .waits true expects caughtUp fun _ => rfl
    | some crlf =>
      have head (c : HttpContext) (more : List UInt8) : requestsFrom c (buf ++ more) =
          emit c (buf.take crlf :: Lines.complete kCR kLF (buf.drop (crlf + 2) ++ more)) := by
        rw [requestsFrom, Lines.complete_append_of_some found]
      cases line : c.parseLine (buf.take crlf) receiveTime with
      | raised =>
        simp only [line]
        refine .raises fun more => ?_
        rw [head, emit_cons _ _ _ receiveTime, line]
      | rejected c' =>
        simp only [line]
        obtain ⟨expects', c'', again⟩ := rejected_again line
        have none (more : List UInt8) : requestsFrom c' (buf ++ more) = [] := by
          rw [head, emit_cons _ _ _ receiveTime, again]
        refine .waits false expects' (by simpa using none []) fun more => ?_
        rw [none, head, emit_cons _ _ _ receiveTime, line]
      | consumed c' =>
        simp only [line]
        have next (more : List UInt8) : requestsFrom c (buf ++ more) =
            if c'.isGotAll then timeless c'.request :: requestsFrom {} (buf.drop (crlf + 2) ++ more)
            else requestsFrom c' (buf.drop (crlf + 2) ++ more) := by
          rw [head, emit_cons _ _ _ receiveTime, line]
          rfl
        cases all : c'.isGotAll with
        | true =>
          rw [if_pos rfl]
          exact .gotAll all fun more => by rw [next, if_pos all]
        | false =>
          have bound := Lines.find_bound found
          have shorter : (buf.drop (crlf + 2)).length < fuel := by
            rw [List.length_drop]
            omega
          have parsed := ih shorter (HttpContext.expectsLine_of_consumed expects line all)
          rw [if_neg Bool.false_ne_true]
          exact parsed.after fun more => by rw [next, if_neg (by simp [all])]

/-! ## One read -/

/-- What the connection has still to dispatch once `more` has arrived. -/
def undispatched (h : HttpConnection) (more : List UInt8) : List HttpRequest :=
  if h.stuck then [] else requestsFrom h.context (h.conn.inputBuffer ++ more)

theorem undispatched_of_running {h : HttpConnection} {c : HttpContext} {buf : List UInt8}
    (running : h.stuck = false) (context : h.context = c) (input : h.conn.inputBuffer = buf)
    (more : List UInt8) : undispatched h more = requestsFrom c (buf ++ more) := by
  simp [undispatched, running, context, input]

/-- The parser is in a state that has a branch for the next line. -/
def Expects (h : HttpConnection) : Prop := h.stuck = false → h.context.expectsLine = true

/-- A call dispatches one request, or none and then none was complete. -/
inductive Dispatches (h h' : HttpConnection) (data : List UInt8) : Prop
  | none (same : h'.dispatched = h.dispatched) (caughtUp : undispatched h' [] = [])
      (rest : ∀ more, undispatched h (data ++ more) = undispatched h' more)
  | one (req : HttpRequest) (dispatched : h'.dispatched = h.dispatched ++ [req])
      (rest : ∀ more, undispatched h (data ++ more) = timeless req :: undispatched h' more)

section Calls
variable (callback : HttpCallback) {h : HttpConnection}

theorem onMessage_dispatches (running : h.stuck = false) (expects : Expects h)
    (receiveTime : Int) (o : WriteOutcome) :
    Expects (h.onMessage callback receiveTime o) ∧
      Dispatches h (h.onMessage callback receiveTime o) [] := by
  have parsed : Parsed h.context h.conn.inputBuffer
      (h.context.parseRequest h.conn.inputBuffer receiveTime) :=
    parseLoop_parsed (Nat.lt_succ_self _) (expects running) receiveTime
  have now := undispatched_of_running running rfl rfl
  rw [onMessage]
  generalize h.context.parseRequest h.conn.inputBuffer receiveTime = result at parsed
  cases parsed with
  | @waits c buf ok expects' caughtUp same =>
    -- the answer to a bad request leaves the parser and its buffer alone
    have waited {h' : HttpConnection} (stays : h'.stuck = false) (context : h'.context = c)
        (input : h'.conn.inputBuffer = buf) (dispatched : h'.dispatched = h.dispatched) :
        Expects h' ∧ Dispatches h h' [] := by
      have later := undispatched_of_running stays context input
      refine ⟨fun _ => context ▸ expects', .none dispatched ?_ fun more => ?_⟩
      · rw [later, List.append_nil, caughtUp]
      · rw [List.nil_append, now, same, later]
    cases ok with
    | true =>
      have waiting := HttpContext.isGotAll_of_expectsLine expects'
      simp only [waiting, if_true, Bool.false_eq_true, if_false]
      exact waited running rfl rfl rfl
    | false => exact waited running rfl (by simp) rfl
  | @gotAll c buf all first =>
    have served {h' : HttpConnection} (stays : h'.stuck = false) (context : h'.context = {})
        (input : h'.conn.inputBuffer = buf)
        (dispatched : h'.dispatched = h.dispatched ++ [c.request]) :
        Expects h' ∧ Dispatches h h' [] := by
      have later := undispatched_of_running stays context input
      refine ⟨fun _ => by rw [context]; rfl, .one c.request dispatched fun more => ?_⟩
      rw [List.nil_append, now, first, later]
    simp only [all, if_true]
    exact served running rfl (by simp) rfl
  | raises none =>
    refine ⟨fun stays => absurd stays Bool.noConfusion, .none rfl rfl fun more => ?_⟩
    rw [List.nil_append, now, none]
    rfl

theorem receive_dispatches (expects : Expects h) {read : Read} (some : read.data ≠ []) :
    Expects (h.receive callback read) ∧ Dispatches h (h.receive callback read) read.data := by
  rw [receive]
  by_cases halted : h.stuck = true
  · have nothing (more : List UInt8) : undispatched h more = [] := if_pos halted
    rw [if_pos halted]
    exact ⟨expects, .none rfl (nothing []) fun more => by rw [nothing, nothing]⟩
  · have running : h.stuck = false := Bool.not_eq_true _ ▸ halted
    have moved (more : List UInt8) :
        undispatched h (read.data ++ more) = undispatched (h.handleRead read.data) more := by
      have input := h.conn.inputBuffer_handleRead some
      have after := undispatched_of_running (h := h.handleRead read.data) running rfl input more
      rw [after, undispatched_of_running running rfl rfl, ← List.append_assoc]
      rfl
    obtain ⟨expects', dispatches⟩ := onMessage_dispatches callback (h := h.handleRead read.data)
      running expects read.receiveTime read.o
    rw [if_neg halted]
    refine ⟨expects', ?_⟩
    cases dispatches with
    | none same caughtUp rest =>
      exact .none same caughtUp fun more => (moved more).trans (rest more)
    | one req dispatched rest =>
      exact .one req dispatched fun more => (moved more).trans (rest more)

end Calls

/-! ## Whole streams -/

/-- The requests of the bytes received are those dispatched and those still to come,
however the stream goes on. -/
structure Tracks (h : HttpConnection) (received : List UInt8) : Prop where
  expects : Expects h
  requests : ∀ more, completeRequests (received ++ more) =
    h.dispatched.map timeless ++ undispatched h more

/-- No read completes two requests. -/
def OneAtATime : List UInt8 → List Read → Prop
  | _, [] => True
  | received, read :: reads =>
    (completeRequests (received ++ read.data)).length ≤ (completeRequests received).length + 1 ∧
      OneAtATime (received ++ read.data) reads

theorem oneAtATime_of_few {received : List UInt8} {reads : List Read}
    (few : (completeRequests (received ++ reads.flatMap Read.data)).length ≤ 1) :
    OneAtATime received reads := by
  induction reads generalizing received with
  | nil => trivial
  | cons read reads ih =>
    rw [List.flatMap_cons, ← List.append_assoc] at few
    refine ⟨?_, ih few⟩
    obtain ⟨later, same, -⟩ :=
      completeRequests_append (received ++ read.data) (reads.flatMap Read.data)
    rw [same, List.length_append] at few
    omega

/-- The stream byte by byte. -/
def bytewise (stream : List UInt8) : List Read :=
  stream.map fun byte => ⟨[byte], 0, .failed .EWOULDBLOCK⟩

theorem flatMap_bytewise (stream : List UInt8) : (bytewise stream).flatMap Read.data = stream := by
  simp [bytewise, List.flatMap_map]

theorem oneAtATime_bytewise (received stream : List UInt8) :
    OneAtATime received (bytewise stream) := by
  induction stream generalizing received with
  | nil => trivial
  | cons byte stream ih =>
    refine ⟨?_, ih (received ++ [byte])⟩
    obtain ⟨later, same, short⟩ := completeRequests_append received [byte]
    rw [same, List.length_append]
    exact Nat.add_le_add_left short _

section Runs
variable (callback : HttpCallback) {h : HttpConnection} {received : List UInt8}

theorem Tracks.receive (tracks : Tracks h received) {read : Read} (some : read.data ≠ []) :
    Tracks (h.receive callback read) (received ++ read.data) := by
  obtain ⟨expects, dispatches⟩ := receive_dispatches callback tracks.expects some
  refine ⟨expects, fun more => ?_⟩
  rw [List.append_assoc, tracks.requests]
  cases dispatches with
  | none same caughtUp rest => rw [rest, same]
  | one req dispatched rest =>
    rw [rest, dispatched, List.map_append, List.append_assoc]
    rfl

theorem receive_caughtUp (tracks : Tracks h received) (caughtUp : undispatched h [] = [])
    {read : Read} (some : read.data ≠ [])
    (slow : (completeRequests (received ++ read.data)).length ≤
      (completeRequests received).length + 1) :
    undispatched (h.receive callback read) [] = [] := by
  have before := tracks.requests []
  have after := (tracks.receive callback some).requests []
  obtain ⟨-, dispatches⟩ := receive_dispatches callback tracks.expects some
  cases dispatches with
  | none same caughtUp' rest => exact caughtUp'
  | one req dispatched rest =>
    rw [List.append_nil] at before after
    rw [after, before, caughtUp, dispatched] at slow
    simp only [List.length_append, List.length_map, List.length_nil, List.length_singleton] at slow
    exact List.length_eq_zero_iff.mp (by omega)

theorem Tracks.serve (tracks : Tracks h received) {reads : List Read}
    (some : ∀ read ∈ reads, read.data ≠ []) :
    Tracks (h.serve callback reads) (received ++ reads.flatMap Read.data) := by
  induction reads generalizing h received with
  | nil => simpa [HttpConnection.serve] using tracks
  | cons read reads ih =>
    have first := tracks.receive callback (some read List.mem_cons_self)
    have rest := ih first fun other mem => some other (List.mem_cons_of_mem read mem)
    rw [List.flatMap_cons, ← List.append_assoc]
    exact rest

theorem serve_caughtUp (tracks : Tracks h received) (caughtUp : undispatched h [] = [])
    {reads : List Read} (some : ∀ read ∈ reads, read.data ≠ [])
    (slow : OneAtATime received reads) : undispatched (h.serve callback reads) [] = [] := by
  induction reads generalizing h received with
  | nil => exact caughtUp
  | cons read reads ih =>
    have one : read.data ≠ [] := some read List.mem_cons_self
    exact ih (tracks.receive callback one) (receive_caughtUp callback tracks caughtUp one slow.1)
      (fun other mem => some other (List.mem_cons_of_mem read mem)) slow.2

end Runs

/-- Non-empty reads that make up the stream. -/
structure Cut (stream : List UInt8) (reads : List Read) : Prop where
  some : ∀ read ∈ reads, read.data ≠ []
  whole : reads.flatMap Read.data = stream

/-- Every cut of the stream dispatches the same requests, and no complete request stays
in the buffer of a connection that is still connected. -/
structure SegmentationIndependent (callback : HttpCallback) (h : HttpConnection)
    (stream : List UInt8) : Prop where
  same : ∀ first second, Cut stream first → Cut stream second →
    (h.serve callback first).dispatched.map timeless =
      (h.serve callback second).dispatched.map timeless
  caughtUp : ∀ past later, Cut stream (past ++ later) →
    (h.serve callback past).stuck = false → (h.serve callback past).conn.isConnected = true →
      requestsFrom (h.serve callback past).context (h.serve callback past).conn.inputBuffer = []

section Served
variable (loop : EventLoop ConnFunctor) (sockfd : Int) (options : ConnOptions)
variable (callback : HttpCallback)

theorem tracks_start : Tracks (start loop sockfd options) [] :=
  ⟨fun _ => rfl, fun _ => rfl⟩

theorem caughtUp_of_oneAtATime {reads : List Read} (some : ∀ read ∈ reads, read.data ≠ [])
    (slow : OneAtATime [] reads) :
    undispatched ((start loop sockfd options).serve callback reads) [] = [] :=
  serve_caughtUp callback (tracks_start loop sockfd options) rfl some slow

/-- A cut that completes one request at a time dispatches all of them. -/
theorem dispatched_of_oneAtATime {stream : List UInt8} {reads : List Read}
    (cut : Cut stream reads) (slow : OneAtATime [] reads) :
    ((start loop sockfd options).serve callback reads).dispatched.map timeless =
      completeRequests stream := by
  have tracks := ((tracks_start loop sockfd options).serve callback cut.some).requests []
  rw [caughtUp_of_oneAtATime loop sockfd options callback cut.some slow, cut.whole] at tracks
  simpa using tracks.symm

/-- One read dispatches one request at most. -/
theorem length_dispatched_single {read : Read} (some : read.data ≠ []) :
    ((start loop sockfd options).serve callback [read]).dispatched.length ≤ 1 := by
  have expects := (tracks_start loop sockfd options).expects
  obtain ⟨-, dispatches⟩ := receive_dispatches callback expects some
  have served : (start loop sockfd options).serve callback [read] =
      (start loop sockfd options).receive callback read := rfl
  have nothing : (start loop sockfd options).dispatched = [] := rfl
  rw [served]
  cases dispatches with
  | none same caughtUp rest => simp [same, nothing]
  | one req dispatched rest => simp [dispatched, nothing]

theorem segmentation_independent_iff (stream : List UInt8) :
    SegmentationIndependent callback (start loop sockfd options) stream ↔
      (completeRequests stream).length ≤ 1 := by
  constructor
  · -- byte by byte every request is dispatched, in one read at most one
    intro independent
    by_cases empty : stream = []
    · subst empty
      exact Nat.zero_le 1
    · let whole : Read := ⟨stream, 0, .failed .EWOULDBLOCK⟩
      have atOnce : Cut stream [whole] := ⟨by simpa [whole] using empty, by simp [whole]⟩
      have slowly : Cut stream (bytewise stream) :=
        ⟨by simp [bytewise], flatMap_bytewise stream⟩
      have all := dispatched_of_oneAtATime loop sockfd options callback slowly
        (oneAtATime_bytewise [] stream)
      have one := length_dispatched_single loop sockfd options callback
        (atOnce.some whole List.mem_cons_self)
      rw [← all, independent.same _ _ slowly atOnce, List.length_map]
      exact one
  · intro few
    have slow (past later : List Read) (cut : Cut stream (past ++ later)) : OneAtATime [] past := by
      refine oneAtATime_of_few ?_
      obtain ⟨more, same, -⟩ :=
        completeRequests_append (past.flatMap Read.data) (later.flatMap Read.data)
      rw [← List.flatMap_append, cut.whole] at same
      rw [same, List.length_append] at few
      rw [List.nil_append]
      omega
    constructor
    · have all (reads : List Read) (cut : Cut stream reads) :=
        dispatched_of_oneAtATime loop sockfd options callback cut
          (slow reads [] (by rwa [List.append_nil]))
      intro first second cut cut'
      rw [all first cut, all second cut']
    · intro past later cut running _
      have some : ∀ read ∈ past, read.data ≠ [] := fun read mem =>
        cut.some read (List.mem_append_left later mem)
      have caughtUp :=
        caughtUp_of_oneAtATime loop sockfd options callback some (slow past later cut)
      rw [undispatched_of_running running rfl rfl, List.append_nil] at caughtUp
      exact caughtUp

end Served

/-- Two requests in one segment: the second stays in the buffer. -/
theorem pipelined_requests_not_independent :
    ¬ SegmentationIndependent (fun _ _ resp => { resp with statusCode := 200 }) (start .new 3 {})
      (bytes "GET /a HTTP/1.1\r\n\r\nGET /b HTTP/1.1\r\n\r\n") := by
  intro independent
  have differs := independent.same
    [⟨bytes "GET /a HTTP/1.1\r\n\r\nGET /b HTTP/1.1\r\n\r\n", 1, .failed .EWOULDBLOCK⟩]
    [⟨bytes "GET /a HTTP/1.1\r\n\r\n", 1, .failed .EWOULDBLOCK⟩,
      ⟨bytes "GET /b HTTP/1.1\r\n\r\n", 2, .failed .EWOULDBLOCK⟩]
    ⟨by decide, by decide⟩ ⟨by decide, by decide⟩
  revert differs
  decide +kernel

end Segmentation
