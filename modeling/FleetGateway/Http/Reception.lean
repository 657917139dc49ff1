import FleetGateway.Http.Roundtrip

/-! A response as a client reads it: the head up to the first empty line, line by line, and
the body behind it. -/

namespace FleetGateway.Http.Reception
open Library Library.ByteStore Library.Search Http.Parser Http.Response Http.Framing Http.Lines Http.Roundtrip

def readNatural (bytes : Bytes) : Option Nat :=
  if bytes ≠ [] ∧ bytes.all Decimal.isDigit = true then some (Decimal.value bytes) else none

def readInteger : Bytes → Option Int
  | [] => none
  | first :: rest =>
    if first = 45 then (readNatural rest).map fun number => -(number : Int)
    else (readNatural (first :: rest)).map fun number => (number : Int)

/-- The parts of the first line, which are set apart by its first two spaces. -/
def readStatusLine (line : Bytes) : Option (Bytes × Int × Bytes) :=
  match find (text " ") line with
  | none => none
  | some first =>
    let rest := line.drop (first + 1)
    match find (text " ") rest with
    | none => none
    | some second => (readInteger (rest.take second)).map (line.take first, ·, rest.drop (second + 1))

def readField (line : Bytes) : Option (Bytes × Bytes) :=
  match find (text ":") line with
  | none => none
  | some colon =>
    if text ": " <+: line.drop colon then some (line.take colon, line.drop (colon + 2)) else none

structure Received where
  version : Bytes
  statusCode : Int
  reason : Bytes
  headers : List (Bytes × Bytes)
  body : Bytes
  deriving DecidableEq

def receive (message : Bytes) : Option Received :=
  match find headerSeparator message with
  | none => none
  | some place =>
    match lines (message.take place) with
    | [] => none
    | first :: rest =>
      match readStatusLine first, rest.mapM readField with
      | some (version, statusCode, reason), some headers =>
        some ⟨version, statusCode, reason, headers, message.drop (place + 4)⟩
      | _, _ => none

theorem readNatural_padded (number : Nat) : readNatural (Decimal.padded 1 number) = some number := by
  obtain ⟨nonempty, digits, read⟩ := decimal_denotes number
  rw [decimal_natCast] at nonempty digits read
  rw [readNatural, if_pos ⟨nonempty, digits⟩, read]

theorem readInteger_decimal (number : Int) : readInteger (decimal number) = some number := by
  rw [decimal]
  split
  next negative =>
    have sign : text "-" ++ Decimal.padded 1 number.natAbs = 45 :: Decimal.padded 1 number.natAbs := rfl
    have value : -(number.natAbs : Int) = number := by omega
    rw [sign, readInteger, if_pos rfl, readNatural_padded]
    exact congrArg some value
  next positive =>
    have read := readNatural_padded number.natAbs
    have digits := Decimal.isDigit_padded 1 number.natAbs
    rw [List.nil_append]
    generalize Decimal.padded 1 number.natAbs = written at read digits
    cases written with
    | nil => cases read
    | cons first rest =>
      have unsigned : first ≠ 45 := by
        rintro rfl
        rw [List.all_cons, Bool.and_eq_true] at digits
        cases digits.1
      have value : (number.natAbs : Int) = number := by omega
      rw [readInteger, if_neg unsigned, read]
      exact congrArg some value

theorem mem_decimal (number : Int) (byte : UInt8) (member : byte ∈ decimal number) :
    byte = 45 ∨ Decimal.isDigit byte = true := by
  rw [decimal, List.mem_append] at member
  rcases member with sign | digit
  · left
    split at sign
    · exact List.mem_singleton.mp sign
    · cases sign
  · exact .inr (List.all_eq_true.mp (Decimal.isDigit_padded 1 number.natAbs) byte digit)

theorem not_mem_decimal (number : Int) {byte : UInt8} (sign : byte ≠ 45) (digit : Decimal.isDigit byte = false) :
    byte ∉ decimal number := by
  intro member
  rcases mem_decimal number byte member with same | same
  · exact sign same
  · cases same.symm.trans digit

def statusLine (response : HttpResponse) : Bytes :=
  text "HTTP/1.1" ++ 32 :: (decimal response.statusCode ++ 32 :: response.reason)

theorem readStatusLine_statusLine (response : HttpResponse) :
    readStatusLine (statusLine response) = some (text "HTTP/1.1", response.statusCode, response.reason) := by
  have first : find (text " ") (statusLine response) = some (text "HTTP/1.1").length :=
    find_symbol_append 32 (text "HTTP/1.1") _ (by decide)
  have second : find (text " ") (decimal response.statusCode ++ 32 :: response.reason) =
      some (decimal response.statusCode).length :=
    find_symbol_append 32 _ _ (not_mem_decimal _ (by decide) (by decide))
  have rest : (statusLine response).drop ((text "HTTP/1.1").length + 1) =
      decimal response.statusCode ++ 32 :: response.reason := by
    rw [← List.drop_drop, statusLine, List.drop_left]
    rfl
  have reason : (decimal response.statusCode ++ 32 :: response.reason).drop
      ((decimal response.statusCode).length + 1) = response.reason := by
    rw [← List.drop_drop, List.drop_left]
    rfl
  have version : (statusLine response).take (text "HTTP/1.1").length = text "HTTP/1.1" := List.take_left
  rw [readStatusLine, first]
  dsimp only
  rw [rest, second]
  dsimp only
  rw [List.take_left, readInteger_decimal, reason, version]
  rfl

theorem readField_fieldLine (field : Bytes × Bytes) (plain : 58 ∉ field.1) :
    readField (fieldLine field) = some field := by
  have colon : find (text ":") (fieldLine field) = some field.1.length :=
    find_symbol_append 58 field.1 (32 :: field.2) plain
  have behind : (fieldLine field).drop field.1.length = text ": " ++ field.2 := List.drop_left
  have name : (fieldLine field).take field.1.length = field.1 := List.take_left
  have value : (fieldLine field).drop (field.1.length + 2) = field.2 := by
    rw [← List.drop_drop, behind]
    rfl
  rw [readField, colon]
  dsimp only
  rw [behind, if_pos (List.prefix_append _ _), name, value]

theorem readFields_fieldLines (fields : List (Bytes × Bytes)) (plain : ∀ field ∈ fields, 58 ∉ field.1) :
    (fields.map fieldLine).mapM readField = some fields := by
  induction fields with
  | nil => rfl
  | cons field rest ih =>
    obtain ⟨first, others⟩ := List.forall_mem_cons.mp plain
    rw [List.map_cons, List.mapM_cons, readField_fieldLine field first, ih others]
    rfl

/-- Nothing in the head ends a line or a name early, and the two fields that the server adds
are not given. -/
structure Sendable (response : HttpResponse) : Prop where
  reason : 13 ∉ response.reason ∧ 10 ∉ response.reason
  names : ∀ header ∈ response.headers, 13 ∉ header.1 ∧ 10 ∉ header.1 ∧ 58 ∉ header.1
  values : ∀ header ∈ response.headers, 13 ∉ header.2 ∧ 10 ∉ header.2
  ordinary : ∀ header ∈ response.headers,
    lowercase header.1 ≠ text "content-length" ∧ lowercase header.1 ≠ text "connection"

/-- The header lines: those given, in the order in which the map is walked, and two more. -/
def sentHeaders (response : HttpResponse) : List (Bytes × Bytes) :=
  response.headers ++
    [(text "Content-Length", decimal response.body.length), (text "Connection", text "close")]

section Sent

variable {response : HttpResponse} (sendable : Sendable response)

include sendable

theorem toString_lines : response.toString =
    joinLines (statusLine response :: (sentHeaders response).map fieldLine) ++ (headerSeparator ++ response.body) := by
  have length : response.headers.any statesLength = false := by
    rw [List.any_eq_false]
    intro header member states
    have ordinary := (sendable.ordinary header member).1
    rw [statesLength, Bool.or_eq_true, decide_eq_true_eq, decide_eq_true_eq] at states
    rcases states with same | same
    · rw [same] at ordinary
      exact ordinary (by decide)
    · rw [same] at ordinary
      exact ordinary (by decide)
  have version : text "HTTP/1.1 " = text "HTTP/1.1" ++ [32] := by decide
  have last : text "Connection: close\r\n\r\n" =
      text "Connection" ++ (text ": " ++ (text "close" ++ (crlf ++ crlf))) := by decide
  have announced : text "Content-Length: " = text "Content-Length" ++ text ": " := by decide
  have space : text " " = [32] := by decide
  have ending : text "\r\n" = crlf := by decide
  rw [← List.append_assoc, ← joinLines_close, HttpResponse.toString, length, version, last, announced, space, ending]
  simp only [Bool.false_eq_true, if_false, sentHeaders, statusLine, fieldLine, List.map_append, List.map_cons,
    List.map_nil, List.flatMap_append, List.flatMap_cons, List.flatMap_nil, List.append_nil, List.append_assoc,
    List.cons_append, List.nil_append, List.flatMap_map]

theorem lines_clean : ∀ line ∈ statusLine response :: (sentHeaders response).map fieldLine, Clean line := by
  have field (name value : Bytes) (plainName : 13 ∉ name) (plainValue : 13 ∉ value) : Clean (fieldLine (name, value)) := by
    constructor
    · intro empty
      cases (List.append_eq_nil_iff.mp (List.append_eq_nil_iff.mp empty).2).1
    · have separator : (13 : UInt8) ∉ text ": " := by decide
      simp only [fieldLine, List.mem_append, not_or]
      exact ⟨plainName, separator, plainValue⟩
  rw [List.forall_mem_cons, List.forall_mem_map, sentHeaders, List.forall_mem_append]
  refine ⟨⟨fun empty => ?_, ?_⟩, fun header member => ?_, ?_⟩
  · cases (List.append_eq_nil_iff.mp empty).2
  · have version : (13 : UInt8) ∉ text "HTTP/1.1" := by decide
    have code : (13 : UInt8) ∉ decimal response.statusCode := not_mem_decimal _ (by decide) (by decide)
    have space : (13 : UInt8) ≠ 32 := by decide
    simp only [statusLine, List.mem_append, List.mem_cons, not_or]
    exact ⟨version, space, code, space, sendable.reason.1⟩
  · exact field header.1 header.2 (sendable.names header member).1 (sendable.values header member).1
  · rw [List.forall_mem_cons, List.forall_mem_singleton]
    exact ⟨field _ _ (by decide) (not_mem_decimal _ (by decide) (by decide)), field _ _ (by decide) (by decide)⟩

theorem receive_toString : receive response.toString =
    some ⟨text "HTTP/1.1", response.statusCode, response.reason, sentHeaders response, response.body⟩ := by
  have clean := lines_clean sendable
  have plain : ∀ field ∈ sentHeaders response, 58 ∉ field.1 := by
    rw [sentHeaders, List.forall_mem_append, List.forall_mem_cons, List.forall_mem_singleton]
    have added : 58 ∉ text "Content-Length" ∧ 58 ∉ text "Connection" := by decide
    exact ⟨fun header member => (sendable.names header member).2.2, added⟩
  have place := find_separator_join _ response.body clean (List.cons_ne_nil _ _)
  have split := lines_join _ clean (List.cons_ne_nil _ _)
  have shape := toString_lines sendable
  generalize joinLines (statusLine response :: (sentHeaders response).map fieldLine) = head at place split shape
  have before : response.toString.take head.length = head := by rw [shape, List.take_left]
  have behind : response.toString.drop (head.length + 4) = response.body := by
    rw [shape, ← List.drop_drop, List.drop_left]
    rfl
  rw [← shape] at place
  rw [receive, place]
  dsimp only
  rw [before, split]
  dsimp only
  rw [readStatusLine_statusLine, readFields_fieldLines _ plain, behind]

end Sent

/-- Every response comes back from its bytes: the first empty line ends the head, the head has
the given headers, one length that is the body's in decimal, and one announcement that the
connection closes, and the rest is the body. -/
theorem response_roundtrip (response : HttpResponse) (sendable : Sendable response) :
    ∃ received, receive response.toString = some received ∧
      received.statusCode = response.statusCode ∧ received.reason = response.reason ∧
      received.headers = response.headers ++
        [(text "Content-Length", decimal response.body.length), (text "Connection", text "close")] ∧
      readNatural (decimal response.body.length) = some response.body.length ∧
      (∀ header ∈ response.headers, lowercase header.1 ≠ lowercase (text "Content-Length") ∧
        lowercase header.1 ≠ lowercase (text "Connection")) ∧
      received.body = response.body := by
  have length : lowercase (text "Content-Length") = text "content-length" := by decide
  have connection : lowercase (text "Connection") = text "connection" := by decide
  refine ⟨_, receive_toString sendable, rfl, rfl, rfl, ?_, ?_, rfl⟩
  · rw [decimal_natCast]
    exact readNatural_padded response.body.length
  · rw [length, connection]
    exact sendable.ordinary

def teapot : HttpResponse :=
  { statusCode := -418, reason := text "no coffee", headers := [(text "X-Pot", text " a:b ")]
    body := text "\r\n\r\n!" }

theorem response_roundtrip_teapot :
    receive teapot.toString = some ⟨text "HTTP/1.1", -418, text "no coffee",
      [(text "X-Pot", text " a:b "), (text "Content-Length", text "5"), (text "Connection", text "close")],
      text "\r\n\r\n!"⟩ ∧
    ∃ received, receive teapot.toString = some received ∧
      received.statusCode = teapot.statusCode ∧ received.reason = teapot.reason ∧
      received.headers = teapot.headers ++
        [(text "Content-Length", decimal teapot.body.length), (text "Connection", text "close")] ∧
      readNatural (decimal teapot.body.length) = some teapot.body.length ∧
      (∀ header ∈ teapot.headers, lowercase header.1 ≠ lowercase (text "Content-Length") ∧
        lowercase header.1 ≠ lowercase (text "Connection")) ∧
      received.body = teapot.body :=
  ⟨by decide +kernel, response_roundtrip teapot ⟨by decide, by decide, by decide, by decide⟩⟩

end FleetGateway.Http.Reception
