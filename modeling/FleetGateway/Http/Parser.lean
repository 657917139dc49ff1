import FleetGateway.Library.Decimal
import FleetGateway.Library.Search
import Mathlib.Data.List.AList
import Mathlib.Data.List.DropRight

/-! `HTTPParser`: one request read from the pieces in which the client's bytes arrive.
A parser that has completed or failed ignores everything fed to it later. -/

namespace FleetGateway.Http.Parser
open Library Library.ByteStore Library.Search

abbrev Headers := AList (fun _ : Bytes => Bytes)

structure HttpRequest where
  method : Bytes := []
  path : Bytes := []
  query : Bytes := []
  headers : Headers := ∅
  body : Bytes := []
  deriving DecidableEq

inductive ParseStatus where
  | incomplete
  | complete
  | error
  deriving DecidableEq, Repr

structure HTTPParser where
  maxHeaderBytes : Nat := 16 * 1024
  maxBodyBytes : Nat := 1 * 1024 * 1024
  buffer : Bytes := []
  parsedRequest : HttpRequest := {}
  parseError : String := ""
  contentLength : Nat := 0
  headersParsed : Bool := false
  complete : Bool := false
  deriving DecidableEq

def crlf : Bytes := [13, 10]

def headerSeparator : Bytes := crlf ++ crlf

def fail (message : String) (parser : HTTPParser) : ParseStatus × HTTPParser :=
  (.error, { parser with parseError := message })

/-- The request as far as it has been filled in, and the complaint or the result. -/
structure Parse (α : Type) where
  request : HttpRequest
  result : Except String α

def isBlank (byte : UInt8) : Bool := byte = 32 || byte = 9

def trim (value : Bytes) : Bytes := (value.dropWhile isBlank).rdropWhile isBlank

/-- `tolower` in the C locale. -/
def lowercase (value : Bytes) : Bytes :=
  value.map fun byte => if 65 ≤ byte ∧ byte ≤ 90 then byte + 32 else byte

def parseTarget (target : Bytes) (request : HttpRequest) : Parse Unit :=
  let queryStart := find (text "?") target
  let path := target.take (queryStart.getD target.length)
  if path = [] then ⟨request, .error "request target path is empty"⟩
  else match queryStart with
    | none => ⟨{ request with path := path }, .ok ()⟩
    | some start => ⟨{ request with path := path, query := target.drop (start + 1) }, .ok ()⟩

def parseRequestLine (requestLine : Bytes) (request : HttpRequest) : Parse Unit :=
  match find (text " ") requestLine with
  | none => ⟨request, .error "malformed request line"⟩
  | some methodEnd =>
    match findFrom (text " ") requestLine (methodEnd + 1) with
    | none => ⟨request, .error "malformed request line"⟩
    | some pathEnd =>
      let version := requestLine.drop (pathEnd + 1)
      if methodEnd = 0 ∨ pathEnd = methodEnd + 1 then ⟨request, .error "malformed request line"⟩
      else if version ≠ text "HTTP/1.0" ∧ version ≠ text "HTTP/1.1" then
        ⟨request, .error "unsupported HTTP version"⟩
      else
        parseTarget (slice requestLine (methodEnd + 1) (pathEnd - methodEnd - 1))
          { request with method := requestLine.take methodEnd }

/-- `emplace`, and what follows when the name was there already. -/
def addHeader (name value : Bytes) (headers : Headers) : Except String Headers :=
  match headers.lookup name with
  | none => .ok (headers.insert name value)
  | some previous =>
    if name = text "content-length" ∧ previous ≠ value then .error "conflicting content-length headers"
    else if name ≠ text "content-length" then .ok (headers.insert name (previous ++ (text "," ++ value)))
    else .ok headers

def parseHeaderLine (line : Bytes) (headers : Headers) : Except String Headers :=
  match find (text ":") line with
  | none => .error "malformed header"
  | some colon =>
    let name := lowercase (line.take colon)
    let value := trim (line.drop (colon + 1))
    if colon = 0 then .error "malformed header"
    else if name = [] ∨ 13 ∈ value ∨ 10 ∈ value then .error "malformed header value"
    else addHeader name value headers

/-- The loop over the header lines. Every turn moves `lineStart` past a line end, so
`fuel` beyond `headerEnd` is never used up. -/
def parseHeaderLines (buffer : Bytes) (headerEnd : Nat) : Nat → Nat → HttpRequest → Parse Unit
  | 0, _, request => ⟨request, .ok ()⟩
  | fuel + 1, lineStart, request =>
    if lineStart < headerEnd then
      match findFrom crlf buffer lineStart with
      | none => ⟨request, .error "malformed header line"⟩
      | some lineEnd =>
        if headerEnd < lineEnd then ⟨request, .error "malformed header line"⟩
        else match parseHeaderLine (slice buffer lineStart (lineEnd - lineStart)) request.headers with
          | .error message => ⟨request, .error message⟩
          | .ok headers =>
            parseHeaderLines buffer headerEnd fuel (lineEnd + 2) { request with headers := headers }
    else ⟨request, .ok ()⟩

/-- `from_chars` into a `size_t`: the number and how many digits it took. -/
def fromChars (value : Bytes) : Option (Nat × Nat) :=
  let digits := value.takeWhile Decimal.isDigit
  if digits = [] ∨ 2 ^ 64 ≤ Decimal.value digits then none else some (Decimal.value digits, digits.length)

/-- The new value of `content_length`, which stays as it is without the header. -/
def readContentLength (maxBodyBytes contentLength : Nat) (headers : Headers) : Except String Nat :=
  if (headers.lookup (text "transfer-encoding")).isSome then .error "transfer-encoding is unsupported"
  else match headers.lookup (text "content-length") with
    | none => .ok contentLength
    | some value =>
      match fromChars value with
      | none => .error "invalid content-length"
      | some (parsedLength, used) =>
        if used ≠ value.length then .error "invalid content-length"
        else if maxBodyBytes < parsedLength then .error "body exceeds configured size limit"
        else .ok parsedLength

/-- What `parse_headers` makes of the bytes before the separator. -/
def readHeaderBlock (maxBodyBytes contentLength : Nat) (buffer : Bytes) (headerEnd : Nat) (request : HttpRequest) :
    Parse Nat :=
  match find crlf buffer with
  | none => ⟨request, .error "missing request line"⟩
  | some requestLineEnd =>
    if headerEnd ≤ requestLineEnd then ⟨request, .error "missing request line"⟩
    else match parseRequestLine (buffer.take requestLineEnd) request with
      | ⟨request, .error message⟩ => ⟨request, .error message⟩
      | ⟨request, .ok _⟩ =>
        match parseHeaderLines buffer headerEnd (headerEnd + 1) (requestLineEnd + 2) request with
        | ⟨request, .error message⟩ => ⟨request, .error message⟩
        | ⟨request, .ok _⟩ => ⟨request, readContentLength maxBodyBytes contentLength request.headers⟩

def parseHeaders (headerEnd : Nat) (parser : HTTPParser) : ParseStatus × HTTPParser :=
  match readHeaderBlock parser.maxBodyBytes parser.contentLength parser.buffer headerEnd parser.parsedRequest with
  | ⟨request, .error message⟩ => fail message { parser with parsedRequest := request }
  | ⟨request, .ok length⟩ => (.incomplete, { parser with parsedRequest := request, contentLength := length })

/-- The header part of `feed`; a status is one with which `feed` returns at once. -/
def takeHeaders (parser : HTTPParser) : Option ParseStatus × HTTPParser :=
  let refuse := Prod.map some id (fail "headers exceed configured size limit" parser)
  if parser.headersParsed then (none, parser)
  else match find headerSeparator parser.buffer with
    | none => if parser.maxHeaderBytes < parser.buffer.length then refuse else (some .incomplete, parser)
    | some separator =>
      if parser.maxHeaderBytes < separator + 4 then refuse
      else match parseHeaders separator parser with
        | (.error, failed) => (some .error, failed)
        | (_, parsed) => (none, { parsed with headersParsed := true, buffer := parsed.buffer.drop (separator + 4) })

def takeBody (parser : HTTPParser) : ParseStatus × HTTPParser :=
  if parser.buffer.length < parser.contentLength then (.incomplete, parser)
  else (.complete, { parser with
    parsedRequest := { parser.parsedRequest with body := parser.buffer.take parser.contentLength }
    complete := true })

def feed (bytes : Bytes) (parser : HTTPParser) : ParseStatus × HTTPParser :=
  -- the sum of the limits is taken in `size_t`
  let limit := (parser.maxHeaderBytes + parser.maxBodyBytes) % 2 ^ 64
  if parser.complete ∨ parser.parseError ≠ "" then (if parser.complete then .complete else .error, parser)
  else if limit < parser.buffer.length ∨ limit - parser.buffer.length < bytes.length then
    fail "request exceeds configured size limit" parser
  else match takeHeaders { parser with buffer := parser.buffer ++ bytes } with
    | (some status, left) => (status, left)
    | (none, left) => takeBody left

def feedAll (pieces : List Bytes) (parser : HTTPParser) : ParseStatus × HTTPParser :=
  pieces.foldl (fun fed bytes => feed bytes fed.2) (.incomplete, parser)

def fresh (maxHeaderBytes maxBodyBytes : Nat) : HTTPParser :=
  { maxHeaderBytes := maxHeaderBytes, maxBodyBytes := maxBodyBytes }

end FleetGateway.Http.Parser
