import Mathlib.Data.List.DropRight

/-!
# HTTP requests and responses

`HttpRequest` and `HttpResponse` as the headers under `net/http` define them, over
byte strings. A range of two pointers is the list of the bytes between them. The
header maps are `std::map`s and keep their keys in order.
-/

namespace Arale

/-- The bytes of a literal. -/
def bytes (s : String) : List UInt8 := s.toList.map fun c => c.toNat.toUInt8

/-- `isspace` in the C locale. -/
def isspace (c : UInt8) : Bool := c == 32 || (9 ≤ c && c ≤ 13)

abbrev HeaderMap := List (List UInt8 × List UInt8)

/-- `headers_[header] = value`. -/
def HeaderMap.assign (header value : List UInt8) : HeaderMap → HeaderMap
  | [] => [(header, value)]
  | (name, old) :: rest =>
    if header = name then (name, value) :: rest
    else if header < name then (header, value) :: (name, old) :: rest
    else (name, old) :: assign header value rest

inductive HttpMethod where
  | kInvalid
  | kGet
  | kPost
  | kHead
  | kPut
  | kDelete
  deriving DecidableEq, Repr

inductive HttpVersion where
  | kUnknown
  | kHttp10
  | kHttp11
  deriving DecidableEq, Repr

structure HttpRequest where
  version : HttpVersion := .kUnknown
  method : HttpMethod := .kInvalid
  path : List UInt8 := []
  query : List UInt8 := []
  receiveTime : Int := 0
  headers : HeaderMap := []
  deriving DecidableEq, Repr

namespace HttpRequest

/-- `addHeader(star, colon, crlf)` on the two sides of the colon. -/
def addHeader (r : HttpRequest) (header afterColon : List UInt8) : HttpRequest :=
  let value := (afterColon.dropWhile isspace).rdropWhile isspace
  { r with headers := HeaderMap.assign header value r.headers }

def getHeader (r : HttpRequest) (header : List UInt8) : List UInt8 :=
  (r.headers.lookup header).getD []

def setReceiveTime (r : HttpRequest) (receiveTime : Int) : HttpRequest :=
  { r with receiveTime := receiveTime }

def setVersion (r : HttpRequest) (version : HttpVersion) : HttpRequest :=
  { r with version := version }

/-- The request with the method it names, and whether that is one of the known ones. -/
def setMethod (r : HttpRequest) (method : List UInt8) : HttpRequest × Bool :=
  let method : HttpMethod :=
    if method = bytes "GET" then .kGet
    else if method = bytes "POST" then .kPost
    else if method = bytes "PUT" then .kPut
    else if method = bytes "HEAD" then .kHead
    else if method = bytes "DELETE" then .kDelete
    else .kInvalid
  ({ r with method := method }, method != .kInvalid)

def methodToString (r : HttpRequest) : List UInt8 :=
  match r.method with
  | .kGet => bytes "GET"
  | .kPost => bytes "POST"
  | .kHead => bytes "HEAD"
  | .kPut => bytes "PUT"
  | .kDelete => bytes "DELETE"
  | .kInvalid => bytes "UNKNOWN"

def setPath (r : HttpRequest) (path : List UInt8) : HttpRequest := { r with path := path }

end HttpRequest

structure HttpResponse where
  /-- the value of `HttpStatusCode`, 0 for `kUnknown` -/
  statusCode : Nat := 0
  statusMessage : List UInt8 := []
  headers : HeaderMap := []
  body : List UInt8 := []
  closeConnection : Bool
  deriving DecidableEq, Repr

namespace HttpResponse

/-- `snprintf` into `char buf2[32]`. -/
def formatted (text : List UInt8) : List UInt8 := text.take 31

def decimal (n : Nat) : List UInt8 := (Nat.toDigits 10 n).map fun c => c.toNat.toUInt8

def appendToBuffer (r : HttpResponse) : List UInt8 :=
  formatted (bytes "HTTP/1.1 " ++ decimal r.statusCode) ++ r.statusMessage ++ bytes "\r\n" ++
    (if r.closeConnection then bytes "Connection: close\r\n"
      else formatted (bytes "Content-Length: " ++ decimal r.body.length ++ bytes "\r\n") ++
        bytes "Connection: Keep-Alive\r\n") ++
    (r.headers.flatMap fun (name, value) => name ++ bytes ": " ++ value ++ bytes "\r\n") ++
    bytes "\r\n" ++ r.body

end HttpResponse

end Arale
