import FleetGateway.Http.Language
import FleetGateway.Http.Lines
import FleetGateway.Http.Response

/-! A request as a client writes it, read back by the parser. The parser takes the first
line end for the separator when no header line stands between the two, so a request that
carries no field is refused. -/

namespace FleetGateway.Http.Roundtrip
open Library Library.ByteStore Library.Search Http.Parser Http.Fragmentation Http.Framing Http.Language Http.Lines

/-- A field that can be written on one line: nothing in the name ends it early, and the
value has no blanks to lose. -/
structure Writable (field : Bytes × Bytes) : Prop where
  named : field.1 ≠ []
  name : 58 ∉ field.1 ∧ 13 ∉ field.1 ∧ 10 ∉ field.1
  value : 13 ∉ field.2 ∧ 10 ∉ field.2
  trimmed : trim field.2 = field.2

def fieldLine (field : Bytes × Bytes) : Bytes := field.1 ++ (text ": " ++ field.2)

section Field

variable {field : Bytes × Bytes}

theorem trim_blank (value : Bytes) : trim (32 :: value) = trim value := by
  rw [trim, trim, List.dropWhile_cons_of_pos (by decide)]

theorem Writable.find_colon (writable : Writable field) : find (text ":") (fieldLine field) = some field.1.length :=
  find_symbol_append 58 field.1 (32 :: field.2) writable.name.1

theorem Writable.fieldName (writable : Writable field) : fieldName (fieldLine field) = field.1 := by
  rw [Framing.fieldName, writable.find_colon, Option.getD_some]
  exact List.take_left

theorem Writable.fieldValue (writable : Writable field) : fieldValue (fieldLine field) = field.2 := by
  have behind : (fieldLine field).drop (field.1.length + 1) = 32 :: field.2 := by
    rw [← List.drop_drop, fieldLine, List.drop_left]
    rfl
  rw [Framing.fieldValue, writable.find_colon, Option.getD_some, behind, trim_blank, writable.trimmed]

theorem Writable.clean (writable : Writable field) : Clean (fieldLine field) where
  nonempty := by
    rw [fieldLine]
    exact fun empty => writable.named (List.append_eq_nil_iff.mp empty).1
  returns := by
    have separator : (13 : UInt8) ∉ text ": " := by decide
    simp only [fieldLine, List.mem_append, not_or]
    exact ⟨writable.name.2.1, separator, writable.value.1⟩

theorem Writable.wellFormed (writable : Writable field) : WellFormed (fieldLine field) where
  colon := by
    rw [fieldLine]
    exact List.mem_append_right _ List.mem_cons_self
  named := by
    have plain := writable.name.1
    have named := writable.named
    obtain ⟨name, value⟩ := field
    cases name with
    | nil => exact absurd rfl named
    | cons byte rest =>
      intro first
      have same : byte = 58 := Option.some.inj first
      exact plain (same ▸ List.mem_cons_self)
  plain := by
    rw [writable.fieldValue]
    exact writable.value

end Field

theorem valuesOf_fieldLines (fields : List (Bytes × Bytes)) (writable : ∀ field ∈ fields, Writable field)
    (name : Bytes) :
    valuesOf (fields.map fieldLine) name = (fields.filter fun field => lowercase field.1 = name).map Prod.snd := by
  induction fields with
  | nil => rfl
  | cons field rest ih =>
    obtain ⟨first, others⟩ := List.forall_mem_cons.mp writable
    have split : valuesOf ((field :: rest).map fieldLine) name =
        valuesOf [fieldLine field] name ++ valuesOf (rest.map fieldLine) name := valuesOf_append [_] _ name
    rw [split, valuesOf_single, first.fieldName, first.fieldValue, ih others]
    by_cases same : lowercase field.1 = name
    · rw [if_pos same, List.filter_cons_of_pos (by rw [decide_eq_true same])]
      rfl
    · rw [if_neg same, List.filter_cons_of_neg (by rw [decide_eq_false same]; decide)]
      rfl

structure ClientRequest where
  method : Bytes
  path : Bytes
  query : Option Bytes
  version : Bytes
  fields : List (Bytes × Bytes)
  body : Bytes
  methodForm : method ≠ [] ∧ 32 ∉ method ∧ 13 ∉ method ∧ 10 ∉ method
  pathForm : path ≠ [] ∧ 32 ∉ path ∧ 63 ∉ path ∧ 13 ∉ path ∧ 10 ∉ path
  queryForm : ∀ given, query = some given → 32 ∉ given ∧ 13 ∉ given ∧ 10 ∉ given
  versionKnown : version = text "HTTP/1.0" ∨ version = text "HTTP/1.1"
  writable : ∀ field ∈ fields, Writable field
  lower : ∀ field ∈ fields, lowercase field.1 = field.1
  ordinary : ∀ field ∈ fields, field.1 ≠ transferEncoding ∧ field.1 ≠ contentLength
  distinct : (fields.map Prod.fst).Nodup

def lengthField (name body : Bytes) : List (Bytes × Bytes) :=
  if body = [] then [] else [(name, Response.decimal body.length)]

namespace ClientRequest

def target (request : ClientRequest) : Bytes :=
  request.path ++ (request.query.map fun query => text "?" ++ query).getD []

def requestLine (request : ClientRequest) : Bytes :=
  request.method ++ (text " " ++ (request.target ++ (text " " ++ request.version)))

def written (request : ClientRequest) (place : Nat) : List (Bytes × Bytes) :=
  request.fields.take place ++ (lengthField (text "Content-Length") request.body ++ request.fields.drop place)

def head (request : ClientRequest) (place : Nat) : Bytes :=
  request.requestLine ++ (crlf ++ ((request.written place).flatMap (fun field => fieldLine field ++ crlf) ++ crlf))

def serialize (request : ClientRequest) (place : Nat) : Bytes := request.head place ++ request.body

def header (request : ClientRequest) (name : Bytes) : Option Bytes :=
  (request.fields ++ lengthField contentLength request.body).lookup name

structure Returned (request : ClientRequest) (fed : ParseStatus × HTTPParser) : Prop where
  status : fed.1 = .complete
  method : fed.2.parsedRequest.method = request.method
  path : fed.2.parsedRequest.path = request.path
  query : fed.2.parsedRequest.query = request.query.getD []
  headers : ∀ name, fed.2.parsedRequest.headers.lookup name = request.header name
  body : fed.2.parsedRequest.body = request.body

variable (request : ClientRequest) (place : Nat)

theorem target_parts : pathOf request.target = request.path ∧ queryOf request.target = request.query.getD [] := by
  obtain ⟨_, _, unmarked, _⟩ := request.pathForm
  unfold target
  cases request.query with
  | none =>
    rw [Option.map_none, Option.getD_none, List.append_nil]
    exact pathOf_unmarked request.path unmarked
  | some query => exact pathOf_marked request.path query unmarked

theorem requestLine_form : RequestLine request.requestLine request.method request.target request.version := by
  obtain ⟨nonempty, spaceless, _⟩ := request.methodForm
  obtain ⟨somewhere, pathSpaceless, _⟩ := request.pathForm
  refine ⟨rfl, ⟨nonempty, spaceless⟩, ⟨?_, ?_⟩, request.versionKnown⟩
  · exact fun empty => somewhere (List.append_eq_nil_iff.mp empty).1
  · have form := request.queryForm
    unfold target
    rw [List.mem_append, not_or]
    refine ⟨pathSpaceless, ?_⟩
    cases query : request.query with
    | none => exact List.not_mem_nil
    | some given =>
      have mark : (32 : UInt8) ∉ text "?" := by decide
      rw [Option.map_some, Option.getD_some, List.mem_append, not_or]
      exact ⟨mark, (form given query).1⟩

theorem requestLine_clean : Clean request.requestLine := by
  have form := request.queryForm
  have space : (13 : UInt8) ∉ text " " := by decide
  refine ⟨fun empty => request.methodForm.1 (List.append_eq_nil_iff.mp empty).1, ?_⟩
  simp only [requestLine, target, List.mem_append, not_or]
  refine ⟨request.methodForm.2.2.1, space, ⟨request.pathForm.2.2.2.1, ?_⟩, space, ?_⟩
  · cases query : request.query with
    | none => exact List.not_mem_nil
    | some given =>
      have mark : (13 : UInt8) ∉ text "?" := by decide
      rw [Option.map_some, Option.getD_some, List.mem_append, not_or]
      exact ⟨mark, (form given query).2.1⟩
  · rcases request.versionKnown with version | version
    · rw [version]
      decide
    · rw [version]
      decide

end ClientRequest

theorem decimal_denotes (number : Nat) : Denotes (Response.decimal number) number := by
  rw [Response.decimal_natCast]
  refine ⟨fun empty => ?_, Decimal.isDigit_padded 1 number, Decimal.value_padded 1 number⟩
  have zero := congrArg List.length empty
  simp only [Decimal.padded, List.length_append, List.length_replicate, List.length_map, List.length_reverse,
    List.length_nil] at zero
  omega

theorem digit_plain {value : Bytes} (digits : value.all Decimal.isDigit = true) :
    trim value = value ∧ 13 ∉ value ∧ 10 ∉ value := by
  have plain : ∀ byte ∈ value, Decimal.isDigit byte = true := List.all_eq_true.mp digits
  have blank : ∀ byte ∈ value, isBlank byte = false := by
    intro byte member
    have digit := plain byte member
    simp only [Decimal.isDigit, isBlank, Bool.and_eq_true, decide_eq_true_eq, Bool.or_eq_false_iff,
      decide_eq_false_iff_not] at digit ⊢
    constructor
    · rintro rfl
      exact absurd digit (by decide)
    · rintro rfl
      exact absurd digit (by decide)
  refine ⟨?_, fun member => absurd (plain 13 member) (by decide), fun member => absurd (plain 10 member) (by decide)⟩
  have front : value.dropWhile isBlank = value := by
    rw [List.dropWhile_eq_self_iff]
    exact fun inside => by rw [blank _ (List.getElem_mem inside)]; decide
  rw [trim, front, List.rdropWhile_eq_self_iff]
  exact fun nonempty => by rw [blank _ (List.getLast_mem nonempty)]; decide

theorem lengthField_writable (body : Bytes) :
    ∀ field ∈ lengthField (text "Content-Length") body, Writable field := by
  intro field member
  unfold lengthField at member
  split at member
  · exact absurd member List.not_mem_nil
  · rw [List.mem_singleton] at member
    obtain ⟨trimmed, plain⟩ := digit_plain (decimal_denotes body.length).2.1
    have name : text "Content-Length" ≠ [] ∧
        58 ∉ text "Content-Length" ∧ 13 ∉ text "Content-Length" ∧ 10 ∉ text "Content-Length" := by decide
    subst member
    exact ⟨name.1, name.2, plain, trimmed⟩

def under (name : Bytes) (fields : List (Bytes × Bytes)) : List Bytes :=
  (fields.filter fun field => lowercase field.1 = name).map Prod.snd

theorem under_append (name : Bytes) (front back : List (Bytes × Bytes)) :
    under name (front ++ back) = under name front ++ under name back := by
  rw [under, List.filter_append, List.map_append]
  rfl

theorem under_absent {name : Bytes} {fields : List (Bytes × Bytes)}
    (absent : ∀ field ∈ fields, lowercase field.1 ≠ name) : under name fields = [] := by
  rw [under, List.filter_eq_nil_iff.mpr, List.map_nil]
  intro field member
  rw [decide_eq_true_eq]
  exact absent field member

theorem under_lookup {name : Bytes} {fields : List (Bytes × Bytes)}
    (lower : ∀ field ∈ fields, lowercase field.1 = field.1) (distinct : (fields.map Prod.fst).Nodup) :
    under name fields = (fields.lookup name).toList := by
  induction fields with
  | nil => rfl
  | cons field rest ih =>
    obtain ⟨first, others⟩ := List.forall_mem_cons.mp lower
    rw [List.map_cons, List.nodup_cons] at distinct
    have split : under name (field :: rest) = under name [field] ++ under name rest := under_append name [_] _
    obtain ⟨key, value⟩ := field
    rw [split, List.lookup_cons]
    by_cases same : name = key
    · have nothing : under name rest = [] := by
        apply under_absent
        intro other member equal
        rw [others other member, same] at equal
        exact distinct.1 (List.mem_map.mpr ⟨other, member, equal⟩)
      rw [nothing, same, beq_self_eq_true, under, List.filter_singleton, decide_eq_true first]
      rfl
    · have absent : under name [(key, value)] = [] := by
        apply under_absent
        intro other member equal
        rw [List.mem_singleton.mp member, first] at equal
        exact same equal.symm
      rw [absent, beq_false_of_ne same, ih others distinct.2]
      rfl

namespace ClientRequest

variable (request : ClientRequest) (place : Nat)

theorem written_writable : ∀ field ∈ request.written place, Writable field := by
  intro field member
  rw [written, List.mem_append, List.mem_append] at member
  rcases member with front | length | back
  · exact request.writable field (List.mem_of_mem_take front)
  · exact lengthField_writable request.body field length
  · exact request.writable field (List.mem_of_mem_drop back)

theorem header_contentLength :
    request.header contentLength = if request.body = [] then none else some (Response.decimal request.body.length) := by
  have absent : request.fields.lookup contentLength = none := by
    rw [List.lookup_eq_none_iff]
    intro field member
    rw [bne_iff_ne]
    exact fun same => (request.ordinary field member).2 same.symm
  unfold header lengthField
  rw [List.lookup_append, absent]
  split_ifs
  · rfl
  · simp

theorem header_other {name : Bytes} (other : name ≠ contentLength) :
    request.header name = request.fields.lookup name := by
  have absent : (lengthField contentLength request.body).lookup name = none := by
    unfold lengthField
    split_ifs
    · rfl
    · rw [List.lookup_cons, beq_false_of_ne other]
      rfl
  rw [header, List.lookup_append, absent, Option.or_none]

theorem valuesOf_written (name : Bytes) :
    valuesOf ((request.written place).map fieldLine) name = (request.header name).toList := by
  have lengthName : lowercase (text "Content-Length") = contentLength := by decide
  rw [valuesOf_fieldLines _ (request.written_writable place)]
  change under name (request.written place) = _
  rw [written, under_append, under_append]
  by_cases same : name = contentLength
  · have nowhere : ∀ fields : List (Bytes × Bytes), (∀ field ∈ fields, field ∈ request.fields) →
        under name fields = [] := by
      intro fields inside
      apply under_absent
      intro field member equal
      rw [request.lower field (inside field member), same] at equal
      exact (request.ordinary field (inside field member)).2 equal
    rw [nowhere _ fun _ => List.mem_of_mem_take, nowhere _ fun _ => List.mem_of_mem_drop, same,
      header_contentLength, List.nil_append, List.append_nil]
    unfold under lengthField
    split_ifs
    · rfl
    · rw [List.filter_singleton, decide_eq_true lengthName]
      rfl
  · have absent : under name (lengthField (text "Content-Length") request.body) = [] := by
      apply under_absent
      intro field member equal
      unfold lengthField at member
      split_ifs at member
      · exact absurd member List.not_mem_nil
      · rw [List.mem_singleton.mp member, lengthName] at equal
        exact same equal.symm
    rw [absent, List.nil_append, ← under_append, List.take_append_drop, request.header_other same,
      under_lookup request.lower request.distinct]

theorem recordedValue_written (name : Bytes) :
    recordedValue ((request.written place).map fieldLine) name = request.header name := by
  rw [recordedValue, valuesOf_written]
  cases request.header name with
  | none => rfl
  | some value =>
    simp only [Option.toList_some, List.flatMap_nil, List.append_nil, ite_self]

theorem declaredLength_written :
    declaredLength ((request.written place).map fieldLine) = request.body.length := by
  rw [declaredLength, valuesOf_written, header_contentLength]
  split_ifs with empty
  · rw [empty]
    rfl
  · exact (decimal_denotes request.body.length).2.2

theorem readable_written (maxBodyBytes : Nat) (small : request.body.length < 2 ^ 64)
    (fits : request.body.length ≤ maxBodyBytes) :
    Readable maxBodyBytes ((request.written place).map fieldLine) where
  forms := by
    intro line member
    obtain ⟨field, inside, rfl⟩ := List.mem_map.mp member
    exact (request.written_writable place field inside).wellFormed
  agree := by
    unfold Agree
    rw [valuesOf_written]
    intro first one second other
    rw [Option.mem_toList] at one other
    exact Option.some.inj (one.symm.trans other)
  unencoded := by
    have absent : request.fields.lookup transferEncoding = none := by
      rw [List.lookup_eq_none_iff]
      intro field member
      rw [bne_iff_ne]
      exact fun same => (request.ordinary field member).1 same.symm
    rw [valuesOf_written, request.header_other (by decide), absent]
    rfl
  numeric := by
    intro value member
    rw [valuesOf_written, Option.mem_toList, header_contentLength] at member
    split_ifs at member
    cases member
    exact ⟨request.body.length, decimal_denotes _, small, fits⟩

theorem head_lines : request.head place =
    joinLines (request.requestLine :: (request.written place).map fieldLine) ++ headerSeparator := by
  rw [← joinLines_close, List.flatMap_map]
  rfl

theorem find_separator_serialize : find headerSeparator (request.serialize place) =
    some (joinLines (request.requestLine :: (request.written place).map fieldLine)).length := by
  have clean : ∀ line ∈ request.requestLine :: (request.written place).map fieldLine, Clean line := by
    rw [List.forall_mem_cons, List.forall_mem_map]
    exact ⟨request.requestLine_clean, fun field inside => (request.written_writable place field inside).clean⟩
  rw [serialize, head_lines, List.append_assoc]
  exact find_separator_join _ request.body clean (List.cons_ne_nil _ _)

theorem find_crlf_serialize : find crlf (request.serialize place) = some request.requestLine.length := by
  rw [serialize, head, List.append_assoc, List.append_assoc]
  exact find_crlf_line _ _ request.requestLine_clean.returns

theorem written_eq_nil_iff : request.written place = [] ↔ request.fields = [] ∧ request.body = [] := by
  rw [written, List.append_eq_nil_iff, List.append_eq_nil_iff]
  constructor
  · rintro ⟨front, length, back⟩
    constructor
    · rw [← List.take_append_drop place request.fields, front, back]
      rfl
    · by_contra given
      rw [lengthField, if_neg given] at length
      exact absurd length (List.cons_ne_nil _ _)
  · rintro ⟨fields, body⟩
    rw [fields, body]
    exact ⟨List.take_nil, rfl, List.drop_nil⟩

/-- With a line behind the request line, the block is what was written. -/
theorem blockOf_serialize (given : request.written place ≠ []) :
    let head := request.requestLine :: (request.written place).map fieldLine
    request.requestLine.length < (joinLines head).length ∧
      blockOf (request.serialize place) (joinLines head).length request.requestLine.length =
        (request.written place).map fieldLine := by
  intro head
  have clean : ∀ line ∈ (request.written place).map fieldLine, Clean line := by
    rw [List.forall_mem_map]
    exact fun field inside => (request.written_writable place field inside).clean
  have some : (request.written place).map fieldLine ≠ [] := fun empty => given (List.map_eq_nil_iff.mp empty)
  have split : joinLines head =
      request.requestLine ++ (crlf ++ joinLines ((request.written place).map fieldLine)) := by
    simp only [head]
    cases lines : (request.written place).map fieldLine with
    | nil => exact absurd lines some
    | cons line rest => rfl
  have two : crlf.length = 2 := rfl
  have length := congrArg List.length split
  rw [List.length_append, List.length_append, two] at length
  refine ⟨by omega, ?_⟩
  rw [blockOf, serialize, head_lines, slice, show joinLines (request.requestLine ::
    (request.written place).map fieldLine) = joinLines head from rfl, split]
  rw [List.append_assoc, List.append_assoc, List.append_assoc, ← List.drop_drop, List.drop_left,
    List.drop_left' two, ← split, length]
  rw [show request.requestLine.length + (2 + (joinLines ((request.written place).map fieldLine)).length) -
    (request.requestLine.length + 2) = (joinLines ((request.written place).map fieldLine)).length by omega,
    List.take_left, lines_join _ clean some]

variable {maxHeaderBytes maxBodyBytes : Nat}

theorem returned_of_written (headerFits : (request.head place).length ≤ maxHeaderBytes)
    (bodyFits : request.body.length ≤ maxBodyBytes)
    (within : (request.serialize place).length ≤ (maxHeaderBytes + maxBodyBytes) % 2 ^ 64)
    (given : request.written place ≠ []) :
    request.Returned (feed (request.serialize place) (fresh maxHeaderBytes maxBodyBytes)) := by
  obtain ⟨before, block⟩ := request.blockOf_serialize place given
  generalize headEq : joinLines (request.requestLine :: (request.written place).map fieldLine) = head at *
  have total : (request.serialize place).length = (request.head place).length + request.body.length :=
    List.length_append
  have length : (request.head place).length = head.length + 4 := by
    rw [head_lines, headEq, List.length_append]
    rfl
  have small : request.body.length < 2 ^ 64 := by
    have bound := Nat.mod_lt (maxHeaderBytes + maxBodyBytes) (by decide : 0 < 2 ^ 64)
    omega
  have found := request.find_separator_serialize place
  rw [headEq] at found
  have declared := request.declaredLength_written place
  rw [← block] at declared
  have line : RequestLine ((request.serialize place).take request.requestLine.length) request.method request.target
      request.version := by
    rw [serialize, ClientRequest.head, List.append_assoc, List.take_left]
    exact request.requestLine_form
  have mark : request.target.head? ≠ some 63 := by
    rw [ne_eq, ← pathOf_eq_nil_iff request.requestLine_form.target.1, request.target_parts.1]
    exact request.pathForm.1
  have readable := request.readable_written place maxBodyBytes small bodyFits
  rw [← block] at readable
  obtain ⟨complete, headers, mapped, parsed⟩ := feed_accepted within found (request.find_crlf_serialize place) before
    (by omega) line mark readable (by omega)
  refine ⟨complete, ?_, ?_, ?_, fun name => ?_, ?_⟩
  · rw [parsed]
  · rw [parsed]
    exact request.target_parts.1
  · rw [parsed]
    exact request.target_parts.2
  · rw [parsed, ← request.recordedValue_written place name, ← block]
    exact mapped name
  · rw [parsed, declared]
    exact (congrArg (List.take _) (List.drop_left' length)).trans (List.take_length)

/-- Without one, the request line is taken to be missing. -/
theorem refused_of_bare (headerFits : (request.head place).length ≤ maxHeaderBytes)
    (within : (request.serialize place).length ≤ (maxHeaderBytes + maxBodyBytes) % 2 ^ 64)
    (bare : request.written place = []) :
    (feed (request.serialize place) (fresh maxHeaderBytes maxBodyBytes)).1 = .error := by
  have found := request.find_separator_serialize place
  have lineFound := request.find_crlf_serialize place
  have length : (request.head place).length = request.requestLine.length + 4 := by
    rw [head_lines, bare, List.length_append]
    rfl
  rw [bare] at found
  change find headerSeparator _ = some request.requestLine.length at found
  have taken := find_take crlf _ _ (request.requestLine.length + 4) lineFound
  rw [show crlf.length = 2 from rfl, if_pos (by omega)] at taken
  have rejected : meaning maxHeaderBytes maxBodyBytes (request.serialize place) = .rejected := by
    unfold meaning
    rw [found]
    dsimp only
    rw [if_neg (by omega)]
    unfold readHeaderBlock
    rw [taken]
    dsimp only
    rw [if_pos (le_refl _)]
  rw [(feed_fresh maxHeaderBytes maxBodyBytes _ within).2, rejected]
  rfl

end ClientRequest

/-- A request within the limits comes back exactly when it carries a header line, be it a
field of its own or the length of its body. -/
theorem request_roundtrip_iff (request : ClientRequest) (place maxHeaderBytes maxBodyBytes : Nat)
    (headerFits : (request.head place).length ≤ maxHeaderBytes) (bodyFits : request.body.length ≤ maxBodyBytes)
    (within : (request.serialize place).length ≤ (maxHeaderBytes + maxBodyBytes) % 2 ^ 64) :
    request.Returned (feed (request.serialize place) (fresh maxHeaderBytes maxBodyBytes)) ↔
      request.fields ≠ [] ∨ request.body ≠ [] := by
  rw [← not_and_or, ← request.written_eq_nil_iff place]
  constructor
  · intro returned bare
    have failed := request.refused_of_bare place headerFits within bare
    rw [returned.status] at failed
    cases failed
  · exact request.returned_of_written place headerFits bodyFits within

def publishRequest : ClientRequest :=
  { method := text "POST", path := text "/publish", query := some [], version := text "HTTP/1.1"
    fields := [(text "host", []), (text "x", text "a:b")], body := text "\r\n\r\n!"
    methodForm := by decide, pathForm := by decide
    queryForm := by
      intro given same
      cases same
      decide
    versionKnown := by decide
    writable := List.forall_mem_cons.mpr ⟨⟨by decide, by decide, by decide, by decide⟩,
      List.forall_mem_singleton.mpr ⟨by decide, by decide, by decide, by decide⟩⟩
    lower := by decide, ordinary := by decide, distinct := by decide }

theorem request_roundtrip_iff_publish :
    publishRequest.serialize 1 =
      text "POST /publish? HTTP/1.1\r\nhost: \r\nContent-Length: 5\r\nx: a:b\r\n\r\n\r\n\r\n!" ∧
    (publishRequest.Returned (feed (publishRequest.serialize 1) (fresh 100 100)) ↔
      publishRequest.fields ≠ [] ∨ publishRequest.body ≠ []) :=
  ⟨by decide +kernel,
    request_roundtrip_iff publishRequest 1 100 100 (by decide +kernel) (by decide +kernel) (by decide +kernel)⟩

def bareRequest : ClientRequest :=
  { method := text "GET", path := text "/", query := none, version := text "HTTP/1.0", fields := [], body := []
    methodForm := by decide, pathForm := by decide
    queryForm := fun _ impossible => by cases impossible
    versionKnown := by decide
    writable := fun _ member => absurd member List.not_mem_nil
    lower := by decide, ordinary := by decide, distinct := by decide }

/-- The shortest request is refused under the limits that the server uses. -/
theorem bare_request_refused :
    ¬ ∀ (request : ClientRequest) (place maxHeaderBytes maxBodyBytes : Nat),
      (request.head place).length ≤ maxHeaderBytes → request.body.length ≤ maxBodyBytes →
      (request.serialize place).length ≤ (maxHeaderBytes + maxBodyBytes) % 2 ^ 64 →
        request.Returned (feed (request.serialize place) (fresh maxHeaderBytes maxBodyBytes)) := by
  intro always
  have returned := always bareRequest 0 16384 1048576 (by decide +kernel) (by decide +kernel) (by decide +kernel)
  have failed : (feed (bareRequest.serialize 0) (fresh 16384 1048576)).1 = .error := by decide +kernel
  rw [returned.status] at failed
  cases failed

end FleetGateway.Http.Roundtrip
