import Arale.Http.Incremental
import Arale.Http.RequestLine

/-!
# Headers written and read back

A request line and headers, written one to a line with a colon between name and value
and an empty line at the end, are parsed back by one call on a fresh context. Of headers
with one name the last counts, and the whitespace around a value is not part of it.
-/

namespace HeaderRoundTrip

open Arale HttpContext IncrementalParsing RequestLines

/-- A header as it may be written: neither side holds a CRLF, and the name no colon. -/
structure Header where
  name : List UInt8
  value : List UInt8
  colonless : 58 ∉ name
  nameLine : ¬ [kCR, kLF] <:+: name
  valueLine : ¬ [kCR, kLF] <:+: value

def Header.text (header : Header) : List UInt8 := header.name ++ 58 :: header.value

/-- The lines of a request, written one after the other. -/
def rendering (requestLine : List UInt8) (headers : List Header) : List UInt8 :=
  Lines.join kCR kLF (requestLine :: (headers.map Header.text ++ [[]]))

/-- A text without the whitespace around it. -/
structure Trimmed (text inner : List UInt8) : Prop where
  around : ∃ before after, text = before ++ inner ++ after ∧
    (∀ c ∈ before, isspace c = true) ∧ ∀ c ∈ after, isspace c = true
  first : ∀ c ∈ inner.head?, isspace c = false
  last : ∀ c ∈ inner.getLast?, isspace c = false

/-- The request of a parse that is complete has these headers and no others, and nothing is
left in the buffer. -/
structure ReadBack (headers : List Header) (result : ParseResult) : Prop where
  gotAll : ∃ r, result = .returned ⟨r, .kGotAll⟩ [] true
  /-- the last header of a name is the one that is kept -/
  values : ∀ c buf ok, result = .returned c buf ok → ∀ before header after,
    headers = before ++ header :: after → header.name ∉ after.map Header.name →
    Trimmed header.value (c.request.getHeader header.name)
  names : ∀ c buf ok, result = .returned c buf ok → ∀ name,
    name ∈ c.request.headers.map Prod.fst ↔ name ∈ headers.map Header.name

/-! ## Trimming -/

theorem trimmed_of_loops (text : List UInt8) :
    Trimmed text ((text.dropWhile isspace).rdropWhile isspace) := by
  generalize rest : text.dropWhile isspace = shorter
  have front : text = text.takeWhile isspace ++ shorter := by
    rw [← rest, List.takeWhile_append_dropWhile]
  have back : shorter = shorter.rdropWhile isspace ++ shorter.rtakeWhile isspace :=
    List.rdropWhile_append_rtakeWhile.symm
  refine ⟨⟨text.takeWhile isspace, shorter.rtakeWhile isspace, ?_, ?_, ?_⟩, ?_, ?_⟩
  · rw [List.append_assoc, ← back]
    exact front
  · intro c mem
    exact List.mem_takeWhile_imp mem
  · intro c mem
    exact List.mem_rtakeWhile_imp mem
  · intro c mem
    have head : shorter.head? = some c := by
      rw [back, List.head?_append, mem]
      rfl
    have kept := List.head?_dropWhile_not isspace text
    rw [rest, head] at kept
    exact kept
  · intro c mem
    obtain ⟨init, ends⟩ := List.getLast?_eq_some_iff.mp mem
    have kept := List.rdropWhile_last_not isspace shorter (by simp [ends])
    simp only [ends, List.getLast_concat] at kept
    exact Bool.eq_false_iff.mpr kept

/-! ## The map of headers -/

theorem lookup_cons (present old name : List UInt8) (rest : HeaderMap) :
    List.lookup name ((present, old) :: rest) =
      if name = present then some old else rest.lookup name := by
  rw [List.lookup_cons]
  by_cases here : name = present
  · rw [if_pos here, beq_iff_eq.mpr here]
  · rw [if_neg here, beq_false_of_ne here]

theorem lookup_assign (header value name : List UInt8) (headers : HeaderMap) :
    (HeaderMap.assign header value headers).lookup name =
      if name = header then some value else headers.lookup name := by
  induction headers with
  | nil => rw [HeaderMap.assign, lookup_cons, List.lookup_nil]
  | cons entry rest ih =>
    rcases entry with ⟨present, old⟩
    simp only [HeaderMap.assign]
    split
    · rename_i same
      subst same
      by_cases here : name = header <;> simp only [lookup_cons, here, if_true, if_false]
    · rename_i other
      split
      · simp only [lookup_cons]
      · simp only [lookup_cons, ih]
        by_cases here : name = present
        · have there : name ≠ header := by
            rw [here]
            exact Ne.symm other
          rw [if_pos here, if_neg there, if_pos here]
        · rw [if_neg here, if_neg here]

/-- The headers added one by one. -/
def addAll (r : HttpRequest) (headers : List Header) : HttpRequest :=
  headers.foldl (fun r header => r.addHeader header.name header.value) r

theorem lookup_addHeader (r : HttpRequest) (header : Header) (name : List UInt8) :
    (r.addHeader header.name header.value).headers.lookup name =
      if name = header.name then
        some ((header.value.dropWhile isspace).rdropWhile isspace)
      else r.headers.lookup name :=
  lookup_assign header.name _ name r.headers

theorem lookup_addAll_fresh (r : HttpRequest) {headers : List Header} {name : List UInt8}
    (fresh : name ∉ headers.map Header.name) :
    (addAll r headers).headers.lookup name = r.headers.lookup name := by
  induction headers generalizing r with
  | nil => rfl
  | cons header rest ih =>
    rw [List.map_cons, List.mem_cons, not_or] at fresh
    have later := ih (r.addHeader header.name header.value) fresh.2
    rw [lookup_addHeader, if_neg fresh.1] at later
    exact later

theorem lookup_addAll_last (r : HttpRequest) (before : List Header) (header : Header)
    {after : List Header} (last : header.name ∉ after.map Header.name) :
    (addAll r (before ++ header :: after)).headers.lookup header.name =
      some ((header.value.dropWhile isspace).rdropWhile isspace) := by
  have whole : addAll r (before ++ header :: after) =
      addAll ((addAll r before).addHeader header.name header.value) after := by
    simp only [addAll, List.foldl_append, List.foldl_cons]
  rw [whole, lookup_addAll_fresh _ last, lookup_addHeader, if_pos rfl]

/-- A name that occurs has a last occurrence. -/
theorem exists_last {headers : List Header} {name : List UInt8}
    (mem : name ∈ headers.map Header.name) : ∃ before header after,
    headers = before ++ header :: after ∧ header.name = name ∧
      name ∉ after.map Header.name := by
  induction headers with
  | nil => cases mem
  | cons header rest ih =>
    by_cases later : name ∈ rest.map Header.name
    · obtain ⟨before, last, after, rfl, named, fresh⟩ := ih later
      exact ⟨header :: before, last, after, rfl, named, fresh⟩
    · rw [List.map_cons, List.mem_cons] at mem
      rcases mem with rfl | mem
      · exact ⟨[], header, rest, rfl, rfl, later⟩
      · exact absurd mem later

theorem mem_names_iff (headers : HeaderMap) (name : List UInt8) :
    name ∈ headers.map Prod.fst ↔ headers.lookup name ≠ none := by
  simp [List.lookup_eq_none_iff]

/-! ## The lines -/

theorem text_line (header : Header) : findCRLF header.text = none := by
  apply Lines.find_eq_none_iff.mpr
  intro found
  rcases Lines.infix_append_cons (by decide) (by decide) found with name | value
  · exact header.nameLine name
  · exact header.valueLine value

theorem findCRLF_join {line : List UInt8} (isLine : findCRLF line = none)
    (rest : List (List UInt8)) :
    findCRLF (Lines.join kCR kLF (line :: rest)) = some line.length := by
  have found := Lines.find_of_none (by decide) isLine (Lines.join kCR kLF rest)
  simpa [findCRLF] using found

/-- One round of the loop on a line that is written out. -/
theorem parseRequest_join {c : HttpContext} (expects : c.expectsLine = true)
    {line : List UInt8} (isLine : findCRLF line = none) (rest : List (List UInt8))
    (receiveTime : Int) :
    c.parseRequest (Lines.join kCR kLF (line :: rest)) receiveTime =
      match c.parseLine line receiveTime with
      | .raised => .raised
      | .rejected c' => .returned c' (Lines.join kCR kLF (line :: rest)) false
      | .consumed c' =>
        if c'.isGotAll then .returned c' (Lines.join kCR kLF rest) true
        else c'.parseRequest (Lines.join kCR kLF rest) receiveTime := by
  have taken : (Lines.join kCR kLF (line :: rest)).take line.length = line := by simp
  have skipped : (Lines.join kCR kLF (line :: rest)).drop (line.length + 2) =
      Lines.join kCR kLF rest := by
    rw [Lines.join_cons]
    exact List.drop_left' (by simp)
  have parsed := parseRequest_eq expects (Lines.join kCR kLF (line :: rest)) receiveTime
  rw [findCRLF_join isLine] at parsed
  simp only [taken, skipped] at parsed
  exact parsed

theorem headerLine_text (c : HttpContext) (header : Header) :
    c.headerLine header.text =
      { c with request := c.request.addHeader header.name header.value } := by
  have colon : header.text.idxOf 58 = header.name.length :=
    Lines.idxOf_append_cons header.colonless
  have found : header.name.length ≠ header.text.length := by
    simp only [Header.text, List.length_append, List.length_cons]
    omega
  have name : header.text.take header.name.length = header.name := List.take_left
  have value : header.text.drop (header.name.length + 1) = header.value := by
    rw [Header.text, ← List.drop_drop, List.drop_left]
    rfl
  simp only [headerLine, colon, if_pos found, name, value]

/-- The headers and the empty line, from where they are expected. -/
theorem parseRequest_headers_read (r : HttpRequest) (headers : List Header)
    (receiveTime : Int) :
    (HttpContext.mk r .kExpectHeaders).parseRequest
        (Lines.join kCR kLF (headers.map Header.text ++ [[]])) receiveTime =
      .returned ⟨addAll r headers, .kGotAll⟩ [] true := by
  induction headers generalizing r with
  | nil =>
    rw [List.map_nil, List.nil_append, parseRequest_join rfl rfl]
    rfl
  | cons header rest ih =>
    rw [List.map_cons, List.cons_append, parseRequest_join rfl (text_line header),
      parseLine_headers rfl, headerLine_text]
    exact ih _

/-- Any headers after any accepted request line are read back in one call. -/
theorem headers_read_back {line : List UInt8}
    (accepted : ∃ r, HttpContext.parseRequestLine ({} : HttpContext).request line = some (r, true))
    (isLine : ¬ [kCR, kLF] <:+: line) (headers : List Header) (receiveTime : Int) :
    ReadBack headers (({} : HttpContext).parseRequest (rendering line headers) receiveTime) := by
  obtain ⟨r, fresh, parsed⟩ : ∃ r : HttpRequest, r.headers = [] ∧
      ({} : HttpContext).parseRequest (rendering line headers) receiveTime =
        .returned ⟨addAll r headers, .kGotAll⟩ [] true := by
    obtain ⟨r, accepted⟩ := accepted
    obtain ⟨s, rfl⟩ := exists_text_of_accepted accepted
    rw [rendering, parseRequest_join rfl (Lines.find_eq_none_iff.mpr isLine)]
    simp only [parseLine, requestLine, parseRequestLine_text]
    exact ⟨_, rfl, parseRequest_headers_read _ headers receiveTime⟩
  rw [parsed]
  refine ⟨⟨_, rfl⟩, ?_, ?_⟩
  · rintro c buf ok same before header after rfl last
    cases same
    rw [HttpRequest.getHeader, lookup_addAll_last r before header last]
    exact trimmed_of_loops header.value
  · rintro c buf ok same name
    cases same
    rw [mem_names_iff]
    constructor
    · intro present
      by_contra absent
      rw [lookup_addAll_fresh r absent, fresh] at present
      exact present rfl
    · intro mem
      obtain ⟨before, header, after, rfl, rfl, last⟩ := exists_last mem
      rw [lookup_addAll_last r before header last]
      exact Option.some_ne_none _

/-- A header whose sides have been searched for a CRLF. -/
def Header.ofSearch (name value : List UInt8) (colonless : 58 ∉ name)
    (nameLine : findCRLF name = none) (valueLine : findCRLF value = none) : Header :=
  ⟨name, value, colonless, Lines.find_eq_none_iff.mp nameLine, Lines.find_eq_none_iff.mp valueLine⟩

/-- A name that comes twice, and a value that ends with a CR of its own. -/
theorem headers_read_back_twice :
    ReadBack
      [.ofSearch (bytes "Host") (bytes "a") (by decide) (by decide) (by decide),
        .ofSearch (bytes "Host") (bytes " b c\r") (by decide) (by decide) (by decide)]
      (({} : HttpContext).parseRequest (rendering (bytes "GET / HTTP/1.1")
        [.ofSearch (bytes "Host") (bytes "a") (by decide) (by decide) (by decide),
          .ofSearch (bytes "Host") (bytes " b c\r") (by decide) (by decide) (by decide)]) 0) :=
  headers_read_back ⟨{ version := .kHttp11, method := .kGet, path := bytes "/" }, by decide⟩
    (Lines.find_eq_none_iff.mp (by decide)) _ 0

end HeaderRoundTrip
