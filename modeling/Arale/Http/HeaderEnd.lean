import Arale.Http.HttpContext

/-!
# Where the headers end

After an accepted request line the headers should end at the first empty line and
nowhere else. `parseRequest` infers the end from the absence of a colon, so they end
at the first line without one, empty or not: the two agree exactly when every line
ahead of the first empty line has a colon.
-/

namespace HeaderEnd

open Arale HttpContext

/-- The complete lines of a byte string. -/
def linesOf (buf : List UInt8) : List (List UInt8) := Lines.complete kCR kLF buf

/-- The lines ahead of the first empty line, all of them where there is none. -/
def headers (buf : List UInt8) : List (List UInt8) := (linesOf buf).takeWhile (· ≠ [])

/-- The bytes up to and including the first empty line. -/
def headerSection (buf : List UInt8) : List UInt8 := Lines.join kCR kLF (headers buf ++ [[]])

/-- What a parse of the bytes after a request line ends in, when the headers end at the
first empty line. -/
structure EndsAtEmptyLine (rest : List UInt8) (result : ParseResult) : Prop where
  gotAll : (∃ c buf ok, result = .returned c buf ok ∧ c.isGotAll = true) ↔ [] ∈ linesOf rest
  consumed : ∀ c buf ok, result = .returned c buf ok → c.isGotAll = true →
    rest = headerSection rest ++ buf
  /-- a header line that is not empty and has no colon is not the last one read -/
  goesOn : ∀ before line after, linesOf rest = before ++ line :: after → line ≠ [] → 58 ∉ line →
    ¬ ∃ c buf ok, result = .returned c buf ok ∧ c.isGotAll = true ∧
      rest = Lines.join kCR kLF (before ++ [line]) ++ buf

/-- Every line ahead of the first empty line has a colon. -/
def AllColons (rest : List UInt8) : Prop := ∀ header ∈ headers rest, 58 ∈ header

instance (rest : List UInt8) : Decidable (AllColons rest) :=
  inferInstanceAs (Decidable (∀ header ∈ headers rest, 58 ∈ header))

/-! ## One line -/

theorem linesOf_of_some {buf : List UInt8} {crlf : Nat} (found : findCRLF buf = some crlf) :
    linesOf buf = buf.take crlf :: linesOf (buf.drop (crlf + 2)) :=
  Lines.complete_of_some found

/-! ## The loop -/

/-- How a parse from the headers ends: at the first line without a colon, or in wait of
the next line when there is none. -/
inductive HeadersParsed (rest : List UInt8) : ParseResult → Prop
  | ended {c : HttpContext} {buf : List UInt8} (before : List (List UInt8)) (line : List UInt8)
      (all : c.isGotAll = true) (colons : ∀ header ∈ before, 58 ∈ header) (bare : 58 ∉ line)
      (lines : linesOf rest = before ++ line :: linesOf buf)
      (bytes : rest = Lines.join kCR kLF (before ++ [line]) ++ buf) :
      HeadersParsed rest (.returned c buf true)
  | waits {c : HttpContext} {buf : List UInt8} (more : c.parseState = .kExpectHeaders)
      (colons : ∀ header ∈ linesOf rest, 58 ∈ header) :
      HeadersParsed rest (.returned c buf true)

/-- A header line ahead of the parse. -/
theorem HeadersParsed.cons {buf : List UInt8} {result : ParseResult} {crlf : Nat}
    (found : findCRLF buf = some crlf) (colon : 58 ∈ buf.take crlf)
    (parsed : HeadersParsed (buf.drop (crlf + 2)) result) : HeadersParsed buf result := by
  have lines := linesOf_of_some found
  cases parsed with
  | ended before line all colons bare rest bytes =>
    refine .ended (buf.take crlf :: before) line all ?_ bare ?_ ?_
    · intro header mem
      rcases List.mem_cons.mp mem with rfl | mem
      · exact colon
      · exact colons header mem
    · rw [lines, rest, List.cons_append]
    · have split := Lines.find_split found
      rw [bytes] at split
      simpa using split
  | waits more colons =>
    refine .waits more fun header mem => ?_
    rw [lines] at mem
    rcases List.mem_cons.mp mem with rfl | mem
    · exact colon
    · exact colons header mem

theorem parseLoop_headers {fuel : Nat} {c : HttpContext} {buf : List UInt8}
    (enough : buf.length < fuel) (state : c.parseState = .kExpectHeaders) (receiveTime : Int) :
    HeadersParsed buf (parseLoop fuel c buf receiveTime) := by
  induction fuel generalizing c buf with
  | zero => omega
  | succ fuel ih =>
    have expects : c.expectsLine = true := by simp [expectsLine, state]
    rw [parseLoop, if_pos expects]
    cases found : findCRLF buf with
    | none =>
      have noLine : linesOf buf = [] := Lines.complete_of_none found
      exact .waits state (by simp [noLine])
    | some crlf =>
      have bound := Lines.find_bound found
      have shorter : (buf.drop (crlf + 2)).length < fuel := by
        rw [List.length_drop]
        omega
      have after := parseState_headerLine state (buf.take crlf)
      simp only [parseLine_headers state]
      by_cases colon : 58 ∈ buf.take crlf
      · rw [if_pos colon] at after
        have more : (c.headerLine (buf.take crlf)).isGotAll = false := by simp [isGotAll, after]
        rw [if_neg (by simp [more])]
        exact (ih shorter after).cons found colon
      · rw [if_neg colon] at after
        have all : (c.headerLine (buf.take crlf)).isGotAll = true := by simp [isGotAll, after]
        rw [if_pos all]
        refine .ended [] _ all (by simp) colon (linesOf_of_some found) ?_
        simpa using Lines.find_split found

theorem parseRequest_headers {c : HttpContext} (state : c.parseState = .kExpectHeaders)
    (buf : List UInt8) (receiveTime : Int) :
    HeadersParsed buf (c.parseRequest buf receiveTime) :=
  parseLoop_headers (Nat.lt_succ_self _) state receiveTime

/-! ## The condition -/

theorem headers_of_split {rest : List UInt8} {before after : List (List UInt8)}
    (lines : linesOf rest = before ++ [] :: after) (full : [] ∉ before) :
    headers rest = before := by
  rw [headers, lines, List.takeWhile_append_of_pos]
  · simp
  · intro header mem
    have : header ≠ [] := fun empty => full (empty ▸ mem)
    simpa using this

theorem mem_headers_of_split {rest line : List UInt8} {before after : List (List UInt8)}
    (lines : linesOf rest = before ++ line :: after) (full : [] ∉ before) (some : line ≠ []) :
    line ∈ headers rest := by
  rw [headers, lines, List.takeWhile_append_of_pos]
  · simp [some]
  · intro header mem
    have : header ≠ [] := fun empty => full (empty ▸ mem)
    simpa using this

theorem nil_not_mem_of_colons {before : List (List UInt8)}
    (colons : ∀ header ∈ before, 58 ∈ header) : [] ∉ before :=
  fun mem => List.not_mem_nil (colons [] mem)

theorem HeadersParsed.endsAtEmptyLine_iff {rest : List UInt8} {result : ParseResult}
    (parsed : HeadersParsed rest result) : EndsAtEmptyLine rest result ↔ AllColons rest := by
  cases parsed with
  | @ended c buf before line all colons bare lines bytes =>
    have full := nil_not_mem_of_colons colons
    constructor
    · intro ends header mem
      by_cases empty : line = []
      · subst empty
        rw [headers_of_split lines full] at mem
        exact colons header mem
      · exact absurd ⟨c, buf, true, rfl, all, bytes⟩ (ends.goesOn before line _ lines empty bare)
    · intro condition
      have empty : line = [] := by
        by_contra some
        exact bare (condition line (mem_headers_of_split lines full some))
      subst empty
      have headersEq := headers_of_split lines full
      refine ⟨⟨fun _ => by simp [lines], fun _ => ⟨c, buf, true, rfl, all⟩⟩, ?_, ?_⟩
      · intro c' buf' ok same _
        cases same
        rwa [headerSection, headersEq]
      · rintro before' line' after' lines' some bare' ⟨c', buf', ok, same, -, bytes'⟩
        cases same
        have joined : Lines.join kCR kLF (before ++ [[]]) =
            Lines.join kCR kLF (before' ++ [line']) :=
          List.append_cancel_right (bytes.symm.trans bytes')
        have whole : (before ++ [[]]) ++ linesOf buf = (before' ++ [line']) ++ after' := by
          rw [List.append_assoc, List.append_assoc]
          exact lines.symm.trans lines'
        have last := List.append_inj_right' (Lines.eq_of_join_eq whole joined) rfl
        exact some (List.singleton_inj.mp last).symm
  | @waits c buf more colons =>
    have waiting : c.isGotAll = false := by simp [isGotAll, more]
    have gotAll : ¬ ∃ c' buf' ok, ParseResult.returned c buf true = .returned c' buf' ok ∧
        c'.isGotAll = true := by
      rintro ⟨c', buf', ok, same, all⟩
      cases same
      rw [waiting] at all
      cases all
    refine ⟨fun _ header mem => colons header (List.takeWhile_subset _ mem), fun _ => ?_⟩
    refine ⟨⟨fun ended => absurd ended gotAll, fun mem => ?_⟩, ?_, ?_⟩
    · exact absurd mem (nil_not_mem_of_colons colons)
    · exact fun c' buf' ok same all => absurd ⟨c', buf', ok, same, all⟩ gotAll
    · rintro before line after - - - ⟨c', buf', ok, same, all, -⟩
      exact gotAll ⟨c', buf', ok, same, all⟩

/-! ## After an accepted request line -/

/-- A line that the parser accepts as a request line, and the context after it. -/
structure AcceptedLine (c : HttpContext) (line : List UInt8) (receiveTime : Int)
    (c' : HttpContext) : Prop where
  expects : c.parseState = .kExpectRequestLine
  /-- it is one line -/
  isLine : findCRLF (line ++ [kCR, kLF]) = some line.length
  accepted : c.requestLine line receiveTime = .consumed c'

theorem parseLoop_requestLine {c c' : HttpContext} {line : List UInt8} {receiveTime : Int}
    (accepted : AcceptedLine c line receiveTime c') (rest : List UInt8) (fuel : Nat) :
    parseLoop (fuel + 1) c (line ++ [kCR, kLF] ++ rest) receiveTime =
      parseLoop fuel c' rest receiveTime := by
  have expects : c.expectsLine = true := by simp [expectsLine, accepted.expects]
  have found : findCRLF (line ++ [kCR, kLF] ++ rest) = some line.length :=
    Lines.find_append accepted.isLine rest
  have more : c'.isGotAll = false := by
    simp [isGotAll, parseState_requestLine accepted.accepted]
  have taken : (line ++ [kCR, kLF] ++ rest).take line.length = line := by simp
  have skipped : (line ++ [kCR, kLF] ++ rest).drop (line.length + 2) = rest :=
    List.drop_left' (by simp)
  rw [parseLoop, if_pos expects]
  simp only [found, parseLine, accepted.expects, taken, skipped, accepted.accepted, more,
    Bool.false_eq_true, if_false]

/-- The headers end at the first empty line exactly when the lines ahead of it all have
a colon, in one buffer with the request line as in any later call. -/
theorem ends_at_empty_line_iff {c c' : HttpContext} {line : List UInt8} {receiveTime : Int}
    (accepted : AcceptedLine c line receiveTime c') (rest : List UInt8) :
    (EndsAtEmptyLine rest (c.parseRequest (line ++ [kCR, kLF] ++ rest) receiveTime) ↔
        AllColons rest) ∧
      ∀ later : HttpContext, later.parseState = .kExpectHeaders → ∀ laterTime,
        (EndsAtEmptyLine rest (later.parseRequest rest laterTime) ↔ AllColons rest) := by
  constructor
  · have state := parseState_requestLine accepted.accepted
    rw [parseRequest, parseLoop_requestLine accepted]
    exact (parseLoop_headers (by simp; omega) state receiveTime).endsAtEmptyLine_iff
  · intro later state laterTime
    exact (parseRequest_headers state rest laterTime).endsAtEmptyLine_iff

/-- An accepted request line and a header line without a colon. -/
theorem bare_header_line_ends_headers :
    AcceptedLine {} (bytes "GET / HTTP/1.1") 0
        ⟨{ version := .kHttp11, method := .kGet, path := bytes "/" }, .kExpectHeaders⟩ ∧
      ¬ EndsAtEmptyLine (bytes "bare\r\n")
        (({} : HttpContext).parseRequest (bytes "GET / HTTP/1.1\r\nbare\r\n") 0) := by
  refine ⟨⟨rfl, by decide, by decide⟩, fun ends => ?_⟩
  have ended : ({} : HttpContext).parseRequest (bytes "GET / HTTP/1.1\r\nbare\r\n") 0 =
      .returned ⟨{ version := .kHttp11, method := .kGet, path := bytes "/" }, .kGotAll⟩ []
        true := by decide +kernel
  have empty : [] ∈ linesOf (bytes "bare\r\n") :=
    ends.gotAll.mp ⟨_, _, _, ended, rfl⟩
  revert empty
  decide

theorem ends_at_empty_line_host :
    EndsAtEmptyLine (bytes "Host: a\r\n\r\nmore")
      (({} : HttpContext).parseRequest
        (bytes "GET / HTTP/1.1" ++ [kCR, kLF] ++ bytes "Host: a\r\n\r\nmore") 0) := by
  have accepted : AcceptedLine {} (bytes "GET / HTTP/1.1") 0
      ⟨{ version := .kHttp11, method := .kGet, path := bytes "/" }, .kExpectHeaders⟩ :=
    ⟨rfl, by decide, by decide⟩
  exact (ends_at_empty_line_iff accepted _).1.mpr (by decide)

end HeaderEnd
