import Arale.Http.Segmentation

/-!
# The ranges of the request parser

Every string the parser builds is made from a pair of pointers into the current line.
Here the pointers are offsets and every range is written down before a string is made
of it, so that a range with its end before its begin is seen where it arises. The one
that does is `setQuery(question, space)`: the question mark is searched from the
second space on, and where it is found the range runs backwards.
-/

namespace Ranges

open Arale HttpContext

/-- The pointers `first` and `last`, as offsets from the begin of the line. -/
structure Range where
  first : Nat
  last : Nat
  deriving DecidableEq, Repr

/-- The begin is not after the end, and the end not beyond the line. -/
def Range.Within (range : Range) (line : List UInt8) : Prop :=
  range.first ≤ range.last ∧ range.last ≤ line.length

instance (range : Range) (line : List UInt8) : Decidable (range.Within line) :=
  inferInstanceAs (Decidable (_ ∧ _))

/-- `std::string(first, last)`; `none` is its `std::length_error`. -/
def Range.string (range : Range) (line : List UInt8) : Option (List UInt8) :=
  if range.first ≤ range.last then
    some ((line.drop range.first).take (range.last - range.first))
  else none

/-- `std::find(first, end, c)`. -/
def find (line : List UInt8) (first : Nat) (c : UInt8) : Nat :=
  first + (line.drop first).idxOf c

/-- The ranges built so far, and what came of them. -/
structure Traced (Value : Type) where
  ranges : List Range
  value : Option Value
  deriving DecidableEq, Repr

namespace Traced

variable {Value Next : Type}

def pure (value : Value) : Traced Value := ⟨[], some value⟩

/-- A string is built of the range and handed on. -/
def build (range : Range) (line : List UInt8) (next : List UInt8 → Traced Value) :
    Traced Value :=
  match range.string line with
  | none => ⟨[range], none⟩
  | some text => ⟨range :: (next text).ranges, (next text).value⟩

end Traced

/-- `HttpRequest::setQuery`. -/
def setQuery (r : HttpRequest) (query : List UInt8) : HttpRequest := { r with query := query }

/-- `HttpContext::parseRequestLine` with its pointers. -/
def parseRequestLine (r : HttpRequest) (line : List UInt8) : Traced (HttpRequest × Bool) :=
  let stop := line.length
  let start := 0
  let space := find line start 32
  if space = stop then .pure (r, false)
  else
    .build ⟨start, space⟩ line fun method =>
      let (r, known) := r.setMethod method
      if !known then .pure (r, false)
      else
        let start := space + 1
        let space := find line start 32
        if space = stop then .pure (r, false)
        else
          let question := find line space 63
          let version := line.drop (space + 1)
          if question ≠ stop then
            .build ⟨start, question⟩ line fun path =>
              .build ⟨question, space⟩ line fun query =>
                .pure (parseVersion (setQuery (r.setPath path) query) version)
          else
            .build ⟨start, space⟩ line fun path => .pure (parseVersion (r.setPath path) version)

/-- `HttpRequest::addHeader(start, colon, crlf)` with its pointers. -/
def addHeader (r : HttpRequest) (line : List UInt8) (colon : Nat) : Traced HttpRequest :=
  .build ⟨0, colon⟩ line fun header =>
    let colon := colon + 1
    let colon := colon + ((line.drop colon).takeWhile isspace).length
    .build ⟨colon, line.length⟩ line fun value =>
      .pure { r with headers := HeaderMap.assign header (value.rdropWhile isspace) r.headers }

/-- The ranges of one round of `parseRequest` on a complete line. -/
def lineRanges (c : HttpContext) (line : List UInt8) : List Range :=
  match c.parseState with
  | .kExpectRequestLine => (parseRequestLine c.request line).ranges
  | _ =>
    let colon := find line 0 58
    if colon ≠ line.length then (addHeader c.request line colon).ranges else []

/-- Every round of the loop of `parseRequest`: the line, with the ranges built in it. -/
def loopRanges : Nat → HttpContext → List UInt8 → Int → List (List UInt8 × List Range)
  | 0, _, _, _ => []
  | fuel + 1, c, buf, receiveTime =>
    if c.expectsLine then
      match findCRLF buf with
      | none => []
      | some crlf =>
        let line := buf.take crlf
        (line, lineRanges c line) ::
          match c.parseLine line receiveTime with
          | .raised => []
          | .rejected _ => []
          | .consumed c =>
            if c.isGotAll then [] else loopRanges fuel c (buf.drop (crlf + 2)) receiveTime
    else []

def parseRanges (c : HttpContext) (buf : List UInt8) (receiveTime : Int) :
    List (List UInt8 × List Range) :=
  loopRanges (buf.length + 1) c buf receiveTime

/-! ## Lines by their spaces -/

/-- A line by the spaces and the method the parser meets in it. -/
inductive Shape : List UInt8 → Prop
  | word {line : List UInt8} (bare : 32 ∉ line) : Shape line
  | unknown {method tail : List UInt8} (spaceless : 32 ∉ method)
      (unnamed : (HttpRequest.setMethod {} method).2 = false) : Shape (method ++ 32 :: tail)
  | unversioned {method target : List UInt8} (spaceless : 32 ∉ method)
      (named : (HttpRequest.setMethod {} method).2 = true) (bare : 32 ∉ target) :
      Shape (method ++ 32 :: target)
  | versioned {method target version : List UInt8} (spaceless : 32 ∉ method)
      (named : (HttpRequest.setMethod {} method).2 = true) (bare : 32 ∉ target) :
      Shape (method ++ 32 :: (target ++ 32 :: version))

theorem shape (line : List UInt8) : Shape line := by
  by_cases space : 32 ∈ line
  · obtain ⟨method, tail, rfl, spaceless⟩ := List.eq_append_cons_of_mem space
    cases named : (HttpRequest.setMethod {} method).2 with
    | false => exact .unknown spaceless named
    | true =>
      by_cases second : 32 ∈ tail
      · obtain ⟨target, version, rfl, bare⟩ := List.eq_append_cons_of_mem second
        exact .versioned spaceless named bare
      · exact .unversioned spaceless named second
  · exact .word space

theorem setMethod_known (r : HttpRequest) (method : List UInt8) :
    (r.setMethod method).2 = (HttpRequest.setMethod {} method).2 := rfl

theorem find_zero (line : List UInt8) (c : UInt8) : find line 0 c = line.idxOf c := by
  simp [find]

theorem find_after (before after : List UInt8) (c : UInt8) :
    find (before ++ after) before.length c = before.length + after.idxOf c := by
  simp [find]

theorem string_prefix (before after : List UInt8) :
    Range.string ⟨0, before.length⟩ (before ++ after) = some before := by
  simp [Range.string]

theorem string_middle (before middle after : List UInt8) :
    Range.string ⟨before.length, before.length + middle.length⟩ (before ++ (middle ++ after)) =
      some middle := by
  simp [Range.string]

section Shapes
variable (r : HttpRequest) {method target version : List UInt8}

theorem parseRequestLine_unknown (tail : List UInt8) (spaceless : 32 ∉ method)
    (unnamed : (HttpRequest.setMethod {} method).2 = false) :
    parseRequestLine r (method ++ 32 :: tail) =
      ⟨[⟨0, method.length⟩], some ((r.setMethod method).1, false)⟩ := by
  have known := (setMethod_known r method).trans unnamed
  have more : method.length ≠ (method ++ 32 :: tail).length := by simp
  simp only [parseRequestLine, find_zero, Lines.idxOf_append_cons spaceless, if_neg more,
    Traced.build, string_prefix, known]
  rfl

theorem parseRequestLine_unversioned (spaceless : 32 ∉ method)
    (named : (HttpRequest.setMethod {} method).2 = true) (bare : 32 ∉ target) :
    parseRequestLine r (method ++ 32 :: target) =
      ⟨[⟨0, method.length⟩], some ((r.setMethod method).1, false)⟩ := by
  have known := (setMethod_known r method).trans named
  have more : method.length ≠ (method ++ 32 :: target).length := by simp
  have second : find (method ++ 32 :: target) (method.length + 1) 32 =
      (method ++ 32 :: target).length := by
    have none : target.idxOf 32 = target.length := List.idxOf_eq_length bare
    have after := find_after (method ++ [32]) target 32
    simp only [List.length_append, List.length_singleton, List.append_assoc,
      List.singleton_append, none] at after
    simp only [after, List.length_append, List.length_cons]
    omega
  simp only [parseRequestLine, find_zero, Lines.idxOf_append_cons spaceless, if_neg more,
    Traced.build, string_prefix, known, second]
  rfl

/-- Where the parser finds the parts of a line with two spaces. -/
structure Parts (line method target version : List UInt8) : Prop where
  size : line.length = method.length + 1 + target.length + 1 + version.length
  first : find line 0 32 = method.length
  methodText : Range.string ⟨0, method.length⟩ line = some method
  second : find line (method.length + 1) 32 = method.length + 1 + target.length
  targetText : Range.string ⟨method.length + 1, method.length + 1 + target.length⟩ line =
    some target
  third : find line (method.length + 1 + target.length) 63 =
    method.length + 1 + target.length + 1 + version.idxOf 63
  rest : line.drop (method.length + 1 + target.length + 1) = version

theorem parts (version : List UInt8) (spaceless : 32 ∉ method) (bare : 32 ∉ target) :
    Parts (method ++ 32 :: (target ++ 32 :: version)) method target version := by
  generalize whole : method ++ 32 :: (target ++ 32 :: version) = line
  constructor
  · simp only [← whole, List.length_append, List.length_cons]
    omega
  · rw [find_zero, ← whole, Lines.idxOf_append_cons spaceless]
  · rw [← whole, string_prefix]
  · have after := find_after (method ++ [32]) (target ++ 32 :: version) 32
    simpa [Lines.idxOf_append_cons bare, whole, Nat.add_assoc] using after
  · have middle := string_middle (method ++ [32]) target (32 :: version)
    simpa [whole] using middle
  · have after := find_after (method ++ 32 :: target) (32 :: version) 63
    have skip : (32 :: version).idxOf 63 = version.idxOf 63 + 1 :=
      List.idxOf_cons_ne version (by decide)
    have ahead : (method ++ 32 :: target).length = method.length + 1 + target.length := by
      rw [List.length_append, List.length_cons]
      omega
    rw [List.append_assoc, List.cons_append, whole, ahead, skip] at after
    omega
  · have dropped : (method ++ 32 :: target ++ [32] ++ version).drop
        (method.length + 1 + target.length + 1) = version :=
      List.drop_left' (by simp [Nat.add_comm, Nat.add_left_comm])
    simpa [← whole] using dropped

theorem parseRequestLine_versioned (spaceless : 32 ∉ method)
    (named : (HttpRequest.setMethod {} method).2 = true) (bare : 32 ∉ target) :
    parseRequestLine r (method ++ 32 :: (target ++ 32 :: version)) =
      let first := method.length
      let second := first + 1 + target.length
      if 63 ∈ version then
        let question := second + 1 + version.idxOf 63
        ⟨[⟨0, first⟩, ⟨first + 1, question⟩, ⟨question, second⟩], none⟩
      else
        ⟨[⟨0, first⟩, ⟨first + 1, second⟩],
          some (parseVersion ((r.setMethod method).1.setPath target) version)⟩ := by
  have known := (setMethod_known r method).trans named
  obtain ⟨size, first, methodText, second, targetText, third, rest⟩ :=
    parts version spaceless bare
  generalize method ++ 32 :: (target ++ 32 :: version) = line at *
  have more : method.length ≠ line.length := by omega
  have more' : method.length + 1 + target.length ≠ line.length := by omega
  simp only [parseRequestLine, first, if_neg more, Traced.build, methodText, known, second,
    if_neg more', Bool.not_true, Bool.false_eq_true, if_false, third, rest]
  by_cases question : 63 ∈ version
  · have found : method.length + 1 + target.length + 1 + version.idxOf 63 ≠ line.length := by
      have := List.idxOf_lt_length_of_mem question
      omega
    -- the path ends at the question mark, the query ends ahead of it
    have path : ∃ text, Range.string ⟨method.length + 1,
        method.length + 1 + target.length + 1 + version.idxOf 63⟩ line = some text :=
      ⟨_, if_pos (by simp only; omega)⟩
    have query : Range.string ⟨method.length + 1 + target.length + 1 + version.idxOf 63,
        method.length + 1 + target.length⟩ line = none := if_neg (by simp only; omega)
    obtain ⟨text, path⟩ := path
    simp only [if_pos question, if_pos found, path, query]
  · have none : ¬ method.length + 1 + target.length + 1 + version.idxOf 63 ≠ line.length := by
      have := List.idxOf_eq_length question
      omega
    simp only [if_neg question, if_neg none, targetText]
    rfl

theorem parseRequestLine_word {line : List UInt8} (bare : 32 ∉ line) :
    parseRequestLine r line = ⟨[], some (r, false)⟩ := by
  have first : find line 0 32 = line.length := by rw [find_zero, List.idxOf_eq_length bare]
  simp only [parseRequestLine, first, if_true]
  rfl

/-- The request line that `setQuery` throws on. -/
def QuestionAfterTarget (line : List UInt8) : Prop :=
  ∃ method target version, line = method ++ 32 :: (target ++ 32 :: version) ∧ 32 ∉ method ∧
    (HttpRequest.setMethod {} method).2 = true ∧ 32 ∉ target ∧ 63 ∈ version

omit r in
theorem not_questionAfterTarget_word {line : List UInt8} (bare : 32 ∉ line) :
    ¬ QuestionAfterTarget line := by
  rintro ⟨method, target, version, rfl, -⟩
  simp at bare

omit r in
theorem not_questionAfterTarget_unknown (tail : List UInt8) (spaceless : 32 ∉ method)
    (unnamed : (HttpRequest.setMethod {} method).2 = false) :
    ¬ QuestionAfterTarget (method ++ 32 :: tail) := by
  rintro ⟨method', target, version, same, spaceless', named, -⟩
  obtain ⟨rfl, -⟩ := Lines.split_unique spaceless spaceless' same
  rw [unnamed] at named
  cases named

omit r in
theorem not_questionAfterTarget_unversioned (spaceless : 32 ∉ method) (bare : 32 ∉ target) :
    ¬ QuestionAfterTarget (method ++ 32 :: target) := by
  rintro ⟨method', target', version, same, spaceless', -⟩
  obtain ⟨-, rfl⟩ := Lines.split_unique spaceless spaceless' same
  simp at bare

omit r in
theorem questionAfterTarget_versioned (spaceless : 32 ∉ method)
    (named : (HttpRequest.setMethod {} method).2 = true) (bare : 32 ∉ target) :
    QuestionAfterTarget (method ++ 32 :: (target ++ 32 :: version)) ↔ 63 ∈ version := by
  constructor
  · rintro ⟨method', target', version', same, spaceless', -, bare', question⟩
    obtain ⟨-, tail⟩ := Lines.split_unique spaceless spaceless' same
    obtain ⟨-, rest⟩ := Lines.split_unique bare bare' tail
    rwa [rest]
  · intro question
    exact ⟨method, target, version, rfl, spaceless, named, bare, question⟩

/-- A request line has all its ranges within it and throws nothing, or one of them runs
backwards and the string of it throws. -/
theorem parseRequestLine_cases (line : List UInt8) :
    (¬ QuestionAfterTarget line ∧ (parseRequestLine r line).value ≠ none ∧
        ∀ range ∈ (parseRequestLine r line).ranges, range.Within line) ∨
      (QuestionAfterTarget line ∧ (parseRequestLine r line).value = none ∧
        ∃ range ∈ (parseRequestLine r line).ranges, ¬ range.Within line) := by
  have shaped := shape line
  cases shaped with
  | word bare =>
    rw [parseRequestLine_word r bare]
    exact .inl ⟨not_questionAfterTarget_word bare, by simp, by simp⟩
  | @unknown method tail spaceless unnamed =>
    rw [parseRequestLine_unknown r tail spaceless unnamed]
    exact .inl ⟨not_questionAfterTarget_unknown tail spaceless unnamed, by simp,
      by simp [Range.Within]⟩
  | @unversioned method target spaceless named bare =>
    rw [parseRequestLine_unversioned r spaceless named bare]
    exact .inl ⟨not_questionAfterTarget_unversioned spaceless bare, by simp,
      by simp [Range.Within]⟩
  | @versioned method target version spaceless named bare =>
    rw [parseRequestLine_versioned r spaceless named bare,
      questionAfterTarget_versioned spaceless named bare]
    by_cases question : 63 ∈ version
    · refine .inr ⟨question, by simp [question], ?_⟩
      refine ⟨⟨method.length + 1 + target.length + 1 + version.idxOf 63,
        method.length + 1 + target.length⟩, by simp [question], ?_⟩
      rintro ⟨forwards, -⟩
      simp only at forwards
      omega
    · refine .inl ⟨question, by simp [question], ?_⟩
      intro range mem
      simp only [question, if_false, List.mem_cons, List.not_mem_nil, or_false] at mem
      rcases mem with rfl | rfl
      · simp [Range.Within]
      · simp only [Range.Within, List.length_append, List.length_cons]
        omega

/-- The strings built of the ranges are those of the parser. -/
theorem value_parseRequestLine (line : List UInt8) :
    (parseRequestLine r line).value = HttpContext.parseRequestLine r line := by
  have shaped := shape line
  cases shaped with
  | word bare =>
    rw [parseRequestLine_word r bare]
    exact (if_pos (List.idxOf_eq_length bare)).symm
  | @unknown method tail spaceless unnamed =>
    have known := (setMethod_known r method).trans unnamed
    rw [parseRequestLine_unknown r tail spaceless unnamed]
    simp [HttpContext.parseRequestLine, Lines.idxOf_append_cons spaceless, known]
  | @unversioned method target spaceless named bare =>
    have known := (setMethod_known r method).trans named
    rw [parseRequestLine_unversioned r spaceless named bare]
    simp [HttpContext.parseRequestLine, Lines.idxOf_append_cons spaceless, known,
      List.idxOf_eq_length bare]
  | @versioned method target version spaceless named bare =>
    have known := (setMethod_known r method).trans named
    rw [parseRequestLine_versioned r spaceless named bare]
    by_cases question : 63 ∈ version
    · simp [HttpContext.parseRequestLine, Lines.idxOf_append_cons spaceless, known,
        Lines.idxOf_append_cons bare, question]
    · simp [HttpContext.parseRequestLine, Lines.idxOf_append_cons spaceless, known,
        Lines.idxOf_append_cons bare, question]

end Shapes

theorem drop_takeWhile (p : UInt8 → Bool) (line : List UInt8) :
    line.drop (line.takeWhile p).length = line.dropWhile p := by
  have parts := List.takeWhile_append_dropWhile (p := p) (l := line)
  generalize line.takeWhile p = first, line.dropWhile p = rest at parts
  rw [← parts, List.drop_left]

/-- The ranges of a header line are within it, and give the header the parser adds. -/
theorem addHeader_ranges (r : HttpRequest) {line : List UInt8} {colon : Nat}
    (inside : colon < line.length) :
    (∀ range ∈ (addHeader r line colon).ranges, range.Within line) ∧
      (addHeader r line colon).value =
        some (r.addHeader (line.take colon) (line.drop (colon + 1))) := by
  have spaces : ((line.drop (colon + 1)).takeWhile isspace).length ≤ line.length - (colon + 1) := by
    have shorter := (List.takeWhile_prefix (p := isspace) (l := line.drop (colon + 1))).length_le
    rwa [List.length_drop] at shorter
  have header : Range.string ⟨0, colon⟩ line = some (line.take colon) := by
    simp [Range.string]
  have value : Range.string
      ⟨colon + 1 + ((line.drop (colon + 1)).takeWhile isspace).length, line.length⟩ line =
        some ((line.drop (colon + 1)).dropWhile isspace) := by
    have rest : (line.drop (colon + 1)).drop ((line.drop (colon + 1)).takeWhile isspace).length =
        (line.drop (colon + 1)).dropWhile isspace := drop_takeWhile isspace _
    have whole : (line.drop (colon + 1 + ((line.drop (colon + 1)).takeWhile isspace).length)).length
        ≤ line.length - (colon + 1 + ((line.drop (colon + 1)).takeWhile isspace).length) := by
      rw [List.length_drop]
    rw [List.drop_drop] at rest
    rw [Range.string, if_pos (by simp only; omega), List.take_of_length_le whole, rest]
  constructor
  · simp only [addHeader, Traced.build, header, value, Traced.pure]
    intro range mem
    simp only [List.mem_cons, List.not_mem_nil, or_false] at mem
    rcases mem with rfl | rfl
    · exact ⟨Nat.zero_le _, Nat.le_of_lt inside⟩
    · exact ⟨by simp only; omega, Nat.le_refl _⟩
  · simp only [addHeader, Traced.build, header, value, Traced.pure]
    rfl

/-! ## The loop -/

theorem lineRanges_headers {c : HttpContext} (state : c.parseState = .kExpectHeaders)
    (line : List UInt8) : ∀ range ∈ lineRanges c line, range.Within line := by
  have bound := List.idxOf_le_length (a := (58 : UInt8)) (l := line)
  simp only [lineRanges, state, find_zero]
  split
  · rename_i colon
    exact (addHeader_ranges c.request (by omega)).1
  · simp

theorem requestLine_raised_iff (c : HttpContext) (line : List UInt8) (receiveTime : Int) :
    c.requestLine line receiveTime = .raised ↔ QuestionAfterTarget line := by
  rw [requestLine, ← value_parseRequestLine]
  rcases parseRequestLine_cases c.request line with ⟨good, value, -⟩ | ⟨bad, value, -⟩
  · refine ⟨fun raised => ?_, fun bad => absurd bad good⟩
    split at raised
    · rename_i throws
      exact absurd throws value
    · cases raised
    · cases raised
  · simp [bad, value]

/-- All the ranges of a run are within their lines, and nothing throws. -/
structure Safe (ranges : List (List UInt8 × List Range)) (result : ParseResult) : Prop where
  within : ∀ round ∈ ranges, ∀ range ∈ round.2, range.Within round.1
  returns : result ≠ .raised

theorem Safe.cons {round : List UInt8 × List Range} {ranges : List (List UInt8 × List Range)}
    {result : ParseResult} (first : ∀ range ∈ round.2, range.Within round.1)
    (safe : Safe ranges result) : Safe (round :: ranges) result := by
  refine ⟨fun other mem => ?_, safe.returns⟩
  rcases List.mem_cons.mp mem with rfl | mem
  · exact first
  · exact safe.within other mem

theorem loop_headers_safe {fuel : Nat} {c : HttpContext} (state : c.parseState = .kExpectHeaders)
    (buf : List UInt8) (receiveTime : Int) :
    Safe (loopRanges fuel c buf receiveTime) (parseLoop fuel c buf receiveTime) := by
  induction fuel generalizing c buf with
  | zero => exact ⟨by simp [loopRanges], by simp [parseLoop]⟩
  | succ fuel ih =>
    have expects : c.expectsLine = true := by simp [expectsLine, state]
    rw [loopRanges, parseLoop, if_pos expects, if_pos expects]
    cases found : findCRLF buf with
    | none => exact ⟨by simp, by simp⟩
    | some crlf =>
      have within := lineRanges_headers state (buf.take crlf)
      have consumed := parseLine_headers state (buf.take crlf) receiveTime
      simp only [consumed]
      refine .cons within ?_
      by_cases all : (c.headerLine (buf.take crlf)).isGotAll = true
      · rw [if_pos all, if_pos all]
        exact ⟨by simp, by simp⟩
      · have after := parseState_headerLine state (buf.take crlf)
        have next : (c.headerLine (buf.take crlf)).parseState = .kExpectHeaders := by
          split at after
          · exact after
          · exact absurd (by simp [isGotAll, after]) all
        rw [if_neg all, if_neg all]
        exact ih next (buf.drop (crlf + 2))

/-- The first line of the buffer is such a request line, where one is expected. -/
def QuestionAhead (c : HttpContext) (buf : List UInt8) : Prop :=
  c.parseState = .kExpectRequestLine ∧
    ∃ crlf, findCRLF buf = some crlf ∧ QuestionAfterTarget (buf.take crlf)

theorem parse_safe_iff {c : HttpContext} (expects : c.expectsLine = true) (buf : List UInt8)
    (receiveTime : Int) :
    Safe (parseRanges c buf receiveTime) (c.parseRequest buf receiveTime) ↔
      ¬ QuestionAhead c buf := by
  cases state : c.parseState with
  | kExpectHeaders =>
    have ahead : ¬ QuestionAhead c buf := fun ahead => by
      rw [QuestionAhead, state] at ahead
      cases ahead.1
    exact ⟨fun _ => ahead, fun _ => loop_headers_safe state buf receiveTime⟩
  | kExpectRequestLine =>
    rw [parseRanges, parseRequest, loopRanges, parseLoop, if_pos expects, if_pos expects]
    cases found : findCRLF buf with
    | none =>
      refine ⟨fun _ => ?_, fun _ => ⟨by simp, by simp⟩⟩
      rintro ⟨-, crlf, some, -⟩
      rw [found] at some
      cases some
    | some crlf =>
      have ahead : QuestionAhead c buf ↔ QuestionAfterTarget (buf.take crlf) := by
        simp [QuestionAhead, state, found]
      have ranges : lineRanges c (buf.take crlf) =
          (parseRequestLine c.request (buf.take crlf)).ranges := by simp only [lineRanges, state]
      have raised := requestLine_raised_iff c (buf.take crlf) receiveTime
      rw [ahead]
      simp only [parseLine, state, ranges]
      rcases parseRequestLine_cases c.request (buf.take crlf) with
        ⟨good, -, within⟩ | ⟨bad, -, range, mem, backwards⟩
      · refine ⟨fun _ => good, fun _ => .cons within ?_⟩
        cases line : c.requestLine (buf.take crlf) receiveTime with
        | raised => exact absurd (raised.mp line) good
        | rejected c' => exact ⟨by simp, by simp⟩
        | consumed c' =>
          have next := parseState_requestLine line
          simp only [isGotAll, next]
          exact loop_headers_safe next (buf.drop (crlf + 2)) receiveTime
      · refine ⟨fun safe => absurd (safe.within _ List.mem_cons_self range mem) backwards, ?_⟩
        exact fun good => absurd bad good
  | kExpectBody => simp [expectsLine, state] at expects
  | kGotAll => simp [expectsLine, state] at expects

/-! ## Served connections -/

section Served
variable (loop : EventLoop ConnFunctor) (sockfd : Int) (options : ConnOptions)
variable (callback : HttpCallback)

/-- In the states that `onMessage` leaves the parser in, a buffer is parsed within its
lines exactly when no request line with a question mark after its target is ahead. -/
theorem ranges_within_line_iff {reads : List Read} (some : ∀ read ∈ reads, read.data ≠ [])
    (running : ((HttpConnection.start loop sockfd options).serve callback reads).stuck = false)
    (buf : List UInt8) (receiveTime : Int) :
    Safe
        (parseRanges ((HttpConnection.start loop sockfd options).serve callback reads).context
          buf receiveTime)
        (((HttpConnection.start loop sockfd options).serve callback reads).context.parseRequest
          buf receiveTime) ↔
      ¬ QuestionAhead ((HttpConnection.start loop sockfd options).serve callback reads).context
        buf := by
  have tracks := (Segmentation.tracks_start loop sockfd options).serve callback some
  exact parse_safe_iff (tracks.expects running) buf receiveTime

end Served

/-- A question mark in the version, on a new connection: the query runs from 14 to 5. -/
theorem question_after_target_throws :
    parseRanges ((HttpConnection.start .new 3 {}).serve defaultHttpCallback []).context
        (bytes "GET / HTTP/1.1?\r\n") 0 =
      [(bytes "GET / HTTP/1.1?", [⟨0, 3⟩, ⟨4, 14⟩, ⟨14, 5⟩])] ∧
    ¬ Safe
        (parseRanges ((HttpConnection.start .new 3 {}).serve defaultHttpCallback []).context
          (bytes "GET / HTTP/1.1?\r\n") 0)
        (((HttpConnection.start .new 3 {}).serve defaultHttpCallback []).context.parseRequest
          (bytes "GET / HTTP/1.1?\r\n") 0) := by
  refine ⟨by decide +kernel, fun safe => ?_⟩
  have raised : ((HttpConnection.start .new 3 {}).serve defaultHttpCallback
      []).context.parseRequest (bytes "GET / HTTP/1.1?\r\n") 0 = .raised := by decide +kernel
  exact safe.returns raised

/-- Once a request line has been read, question marks are welcome. -/
theorem ranges_within_line_headers :
    let h := (HttpConnection.start .new 3 {}).serve defaultHttpCallback
      [⟨bytes "GET /a HTTP/1.1\r\n", 1, .failed .EWOULDBLOCK⟩]
    Safe (parseRanges h.context (bytes "GET / HTTP/1.1?\r\n") 2)
      (h.context.parseRequest (bytes "GET / HTTP/1.1?\r\n") 2) := by
  refine (ranges_within_line_iff .new 3 {} defaultHttpCallback
    (by decide) (by decide +kernel) _ 2).mpr ?_
  rintro ⟨state, -⟩
  revert state
  decide +kernel

end Ranges
