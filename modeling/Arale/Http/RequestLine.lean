import Arale.Http.Ranges

/-!
# The language of request lines

The request lines as a grammar: a method, a target without spaces and a version, with
single spaces between them. The parser decides this language by searching for spaces
and comparing the rest of the line with `"HTTP/1."`. The query is another matter: the
question mark is searched behind the target, so that it is never found in it.
-/

namespace RequestLines

open Arale HttpContext Ranges

/-- How a version is written. -/
def versionToString : HttpVersion → List UInt8
  | .kUnknown => []
  | .kHttp10 => bytes "HTTP/1.0"
  | .kHttp11 => bytes "HTTP/1.1"

/-- A request line taken apart. -/
structure RequestLine where
  method : HttpMethod
  known : method ≠ .kInvalid
  target : List UInt8
  spaceless : 32 ∉ target
  version : HttpVersion
  supported : version ≠ .kUnknown

namespace RequestLine

def methodText (s : RequestLine) : List UInt8 :=
  ({ method := s.method } : HttpRequest).methodToString

def text (s : RequestLine) : List UInt8 :=
  s.methodText ++ 32 :: (s.target ++ 32 :: versionToString s.version)

end RequestLine

/-! ## Methods and versions by their names -/

theorem setMethod_eq_iff {r r' : HttpRequest} {name : List UInt8} :
    r.setMethod name = (r', true) ↔ ∃ method : HttpMethod, method ≠ .kInvalid ∧
      name = ({ method := method } : HttpRequest).methodToString ∧
      r' = { r with method := method } := by
  constructor
  · intro named
    simp only [HttpRequest.setMethod] at named
    split at named
    · rename_i get
      cases named
      exact ⟨.kGet, by decide, get, rfl⟩
    · split at named
      · rename_i post
        cases named
        exact ⟨.kPost, by decide, post, rfl⟩
      · split at named
        · rename_i put
          cases named
          exact ⟨.kPut, by decide, put, rfl⟩
        · split at named
          · rename_i head
            cases named
            exact ⟨.kHead, by decide, head, rfl⟩
          · split at named
            · rename_i delete
              cases named
              exact ⟨.kDelete, by decide, delete, rfl⟩
            · cases named
  · rintro ⟨method, known, rfl, rfl⟩
    cases method with
    | kInvalid => exact absurd rfl known
    | kGet => rfl
    | kPost => rfl
    | kHead => rfl
    | kPut => rfl
    | kDelete => rfl

/-- The names of methods have no space. -/
theorem space_not_mem_methodText (s : RequestLine) : 32 ∉ s.methodText := by
  rw [RequestLine.methodText]
  cases s.method <;> decide

theorem eq_concat_of_parts {version front : List UInt8} {last : UInt8}
    (start : version.take 7 = front) (size : version.length = 8)
    (ends : version.getLast? = some last) : version = front ++ [last] := by
  obtain ⟨init, rfl⟩ := List.getLast?_eq_some_iff.mp ends
  have short : init.length = 7 := by simpa using size
  rw [← start, ← short, List.take_left]

theorem parseVersion_eq_iff {r r' : HttpRequest} {text : List UInt8} :
    parseVersion r text = (r', true) ↔ ∃ version : HttpVersion, version ≠ .kUnknown ∧
      text = versionToString version ∧ r' = r.setVersion version := by
  constructor
  · intro parsed
    simp only [parseVersion] at parsed
    split at parsed
    · rename_i start
      split at parsed
      · rename_i one
        cases parsed
        exact ⟨.kHttp11, by decide, eq_concat_of_parts start.2 start.1 one, rfl⟩
      · split at parsed
        · rename_i zero
          cases parsed
          exact ⟨.kHttp10, by decide, eq_concat_of_parts start.2 start.1 zero, rfl⟩
        · cases parsed
    · cases parsed
  · rintro ⟨version, supported, rfl, rfl⟩
    cases version with
    | kUnknown => exact absurd rfl supported
    | kHttp10 => rfl
    | kHttp11 => rfl

/-- A version that is written out has no question mark. -/
theorem question_not_mem_version (version : HttpVersion) : 63 ∉ versionToString version := by
  cases version <;> decide

/-! ## Acceptance -/

/-- What the parser makes of the sentences of the grammar. -/
theorem parseRequestLine_text (r : HttpRequest) (s : RequestLine) :
    HttpContext.parseRequestLine r s.text =
      some ((({ r with method := s.method } : HttpRequest).setPath s.target).setVersion
        s.version, true) := by
  have named : r.setMethod s.methodText = ({ r with method := s.method }, true) :=
    setMethod_eq_iff.mpr ⟨s.method, s.known, rfl, rfl⟩
  have known : (HttpRequest.setMethod {} s.methodText).2 = true := by
    rw [← setMethod_known r, named]
  have versioned : Ranges.parseRequestLine r s.text = _ :=
    parseRequestLine_versioned r (space_not_mem_methodText s) known s.spaceless
  have parsed := parseVersion_eq_iff (r := ({ r with method := s.method } : HttpRequest).setPath
    s.target).mpr ⟨s.version, s.supported, rfl, rfl⟩
  rw [← value_parseRequestLine, versioned, named]
  simp only [question_not_mem_version, if_false, parsed]

theorem exists_text_of_accepted {r r' : HttpRequest} {line : List UInt8}
    (accepted : HttpContext.parseRequestLine r line = some (r', true)) :
    ∃ s : RequestLine, line = s.text := by
  rw [← value_parseRequestLine] at accepted
  cases shape line with
  | word bare =>
    rw [parseRequestLine_word r bare] at accepted
    cases accepted
  | unknown spaceless unnamed =>
    rw [parseRequestLine_unknown r _ spaceless unnamed] at accepted
    cases accepted
  | unversioned spaceless named bare =>
    rw [parseRequestLine_unversioned r spaceless named bare] at accepted
    cases accepted
  | @versioned method target version spaceless named bare =>
    rw [parseRequestLine_versioned r spaceless named bare] at accepted
    obtain ⟨name, known, written, -⟩ :=
      setMethod_eq_iff.mp (Prod.ext (rfl : _ = (HttpRequest.setMethod {} method).1) named)
    by_cases question : 63 ∈ version
    · simp [question] at accepted
    · simp only [question, if_false, Option.some.injEq] at accepted
      obtain ⟨number, supported, spelled, -⟩ := parseVersion_eq_iff.mp accepted
      refine ⟨⟨name, known, target, bare, number, supported⟩, ?_⟩
      rw [RequestLine.text, RequestLine.methodText, ← written, ← spelled]

/-- The parser accepts a line exactly when it is a method, a target without spaces and a
version with single spaces between, and records the method and the version of it. -/
theorem request_line_language (r : HttpRequest) (line : List UInt8) :
    ((∃ r', HttpContext.parseRequestLine r line = some (r', true)) ↔
        ∃ s : RequestLine, line = s.text) ∧
      ∀ r', HttpContext.parseRequestLine r line = some (r', true) →
        ∀ s : RequestLine, line = s.text → r'.method = s.method ∧ r'.version = s.version := by
  refine ⟨⟨fun ⟨r', accepted⟩ => exists_text_of_accepted accepted, ?_⟩, ?_⟩
  · rintro ⟨s, rfl⟩
    exact ⟨_, parseRequestLine_text r s⟩
  · rintro r' accepted s rfl
    rw [parseRequestLine_text] at accepted
    cases accepted
    exact ⟨rfl, rfl⟩

/-! ## The path and the query -/

/-- The path and the query of a request are the two sides of the first question mark of
its target, which stays with the query. -/
structure Splits (target : List UInt8) (r : HttpRequest) : Prop where
  whole : r.path ++ r.query = target
  bare : 63 ∉ r.path
  empty_iff : r.query = [] ↔ 63 ∉ target
  begins : 63 ∈ target → r.query = target.drop (target.idxOf 63)

/-- The path is the whole target, and there is never a query. -/
theorem parsed_path {s : RequestLine} {r : HttpRequest}
    (accepted : HttpContext.parseRequestLine ({} : HttpContext).request s.text = some (r, true)) :
    r.path = s.target ∧ r.query = [] := by
  rw [parseRequestLine_text] at accepted
  cases accepted
  exact ⟨rfl, rfl⟩

/-- A fresh parser splits the targets without a question mark, and no others. -/
theorem splits_target_iff (s : RequestLine) :
    (∃ r, HttpContext.parseRequestLine ({} : HttpContext).request s.text = some (r, true) ∧
        Splits s.target r) ↔ 63 ∉ s.target := by
  constructor
  · rintro ⟨r, accepted, splits⟩
    obtain ⟨path, -⟩ := parsed_path accepted
    rw [← path]
    exact splits.bare
  · intro bare
    have accepted := parseRequestLine_text ({} : HttpContext).request s
    obtain ⟨path, query⟩ := parsed_path accepted
    refine ⟨_, accepted, ?_, ?_, ?_, ?_⟩
    · rw [path, query, List.append_nil]
    · rwa [path]
    · exact ⟨fun _ => bare, fun _ => query⟩
    · intro question
      exact absurd question bare

theorem query_left_in_path :
    ∃ s : RequestLine, s.text = bytes "GET /a?b HTTP/1.1" ∧
      ∃ r, HttpContext.parseRequestLine ({} : HttpContext).request s.text = some (r, true) ∧
        r.path = bytes "/a?b" ∧ r.query = [] ∧ ¬ Splits s.target r := by
  refine ⟨⟨.kGet, by decide, bytes "/a?b", by decide, .kHttp11, by decide⟩, by decide,
    { version := .kHttp11, method := .kGet, path := bytes "/a?b" }, by decide, rfl, rfl, ?_⟩
  intro splits
  exact absurd splits.bare (by decide)

end RequestLines
