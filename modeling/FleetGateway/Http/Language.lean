import FleetGateway.Http.Framing

/-! The language of the parser. A request that fits into the limits is refused for one of
eight reasons, each of them a property of its bytes; every other request has one meaning. -/

namespace FleetGateway.Http.Language
open Library Library.ByteStore Library.Search Http.Parser Http.Fragmentation Http.Framing

structure RequestLine (line method target version : Bytes) : Prop where
  layout : line = method ++ (text " " ++ (target ++ (text " " ++ version)))
  method : method ≠ [] ∧ 32 ∉ method
  target : target ≠ [] ∧ 32 ∉ target
  version : version = text "HTTP/1.0" ∨ version = text "HTTP/1.1"

def pathOf (target : Bytes) : Bytes := target.takeWhile (· ≠ 63)

def queryOf (target : Bytes) : Bytes := (target.dropWhile (· ≠ 63)).tail

theorem unmarked_all {bytes : Bytes} (absent : 63 ∉ bytes) : ∀ byte ∈ bytes, decide (byte ≠ 63) = true := by
  intro byte member
  rw [decide_eq_true_eq]
  intro same
  exact absent (same ▸ member)

theorem pathOf_unmarked (target : Bytes) (absent : 63 ∉ target) : pathOf target = target ∧ queryOf target = [] := by
  have all := unmarked_all absent
  rw [pathOf, queryOf, List.takeWhile_eq_self_iff.mpr all, List.dropWhile_eq_nil_iff.mpr all]
  exact ⟨rfl, rfl⟩

theorem pathOf_marked (path query : Bytes) (absent : 63 ∉ path) :
    pathOf (path ++ 63 :: query) = path ∧ queryOf (path ++ 63 :: query) = query := by
  have all := unmarked_all absent
  rw [pathOf, queryOf, List.takeWhile_append_of_pos all, List.dropWhile_append_of_pos all]
  simp

theorem parseTarget_eq (target : Bytes) (request : HttpRequest) (blank : request.query = []) :
    parseTarget target request = if pathOf target = [] then ⟨request, .error "request target path is empty"⟩
      else ⟨{ request with path := pathOf target, query := queryOf target }, .ok ()⟩ := by
  have mark : text "?" = [63] := rfl
  unfold parseTarget
  rw [mark]
  dsimp only
  cases found : find [63] target with
  | none =>
    obtain ⟨path, query⟩ := pathOf_unmarked target ((find_symbol_none 63 target).mp found)
    rw [← blank] at query
    rw [path, query, Option.getD_none, List.take_length]
  | some start =>
    obtain ⟨layout, absent⟩ := find_symbol_some 63 target start found
    obtain ⟨path, query⟩ := pathOf_marked (target.take start) (target.drop (start + 1)) absent
    rw [← layout] at path query
    rw [path, query, Option.getD_some]

theorem parseRequestLine_complete {line method target version : Bytes}
    (form : RequestLine line method target version) (request : HttpRequest) :
    parseRequestLine line request = parseTarget target { request with method := method } := by
  obtain ⟨layout, ⟨nonempty, clean⟩, ⟨somewhere, spaceless⟩, known⟩ := form
  have space : text " " = [32] := rfl
  rw [space] at layout
  have first : find [32] line = some method.length := by
    rw [layout]
    exact find_symbol_append 32 method _ clean
  have behind : line.drop (method.length + 1) = target ++ 32 :: version := by
    rw [layout, ← List.drop_drop, List.drop_left]
    rfl
  have second : findFrom [32] line (method.length + 1) = some (method.length + 1 + target.length) := by
    rw [findFrom, behind, find_symbol_append 32 target version spaceless, Option.map_some]
  have rest : line.drop (method.length + 1 + target.length + 1) = version := by
    rw [Nat.add_assoc (method.length + 1), ← List.drop_drop, behind, ← List.drop_drop, List.drop_left]
    rfl
  have methodLength : method.length ≠ 0 := fun zero => nonempty (List.eq_nil_of_length_eq_zero zero)
  have targetLength : target.length ≠ 0 := fun zero => somewhere (List.eq_nil_of_length_eq_zero zero)
  have front : line.take method.length = method := by
    rw [layout]
    exact List.take_left
  have middle : slice line (method.length + 1) (method.length + 1 + target.length - method.length - 1) = target := by
    rw [slice, behind, show method.length + 1 + target.length - method.length - 1 = target.length by omega]
    exact List.take_left
  unfold parseRequestLine
  rw [space, first]
  dsimp only
  rw [second]
  dsimp only
  rw [if_neg (by omega), rest, if_neg (by rcases known with rfl | rfl <;> decide), front, middle]

theorem parseRequestLine_sound (line : Bytes) (request parsed : HttpRequest)
    (read : parseRequestLine line request = ⟨parsed, .ok ()⟩) :
    ∃ method target version, RequestLine line method target version := by
  unfold parseRequestLine at read
  rw [show text " " = [32] from rfl] at read
  split at read
  · cases read
  next methodEnd first =>
  split at read
  · cases read
  next pathEnd second =>
  dsimp only at read
  split at read
  · cases read
  next parts =>
  split at read
  · cases read
  next version =>
  rw [findFrom, Option.map_eq_some_iff] at second
  obtain ⟨width, second, rfl⟩ := second
  obtain ⟨outer, clean⟩ := find_symbol_some 32 line methodEnd first
  obtain ⟨inner, spaceless⟩ := find_symbol_some 32 _ width second
  have methodFits := find_bound _ _ _ first
  have targetFits := find_bound _ _ _ second
  rw [List.length_drop] at targetFits
  rw [List.length_singleton] at methodFits targetFits
  rw [not_or] at parts
  refine ⟨line.take methodEnd, (line.drop (methodEnd + 1)).take width, line.drop (methodEnd + 1 + width + 1),
    ?_, ⟨?_, clean⟩, ⟨?_, spaceless⟩, ?_⟩
  · rw [List.drop_drop] at inner
    rw [inner] at outer
    exact outer
  · intro empty
    have zero := congrArg List.length empty
    rw [List.length_take, List.length_nil] at zero
    omega
  · intro empty
    have zero := congrArg List.length empty
    rw [List.length_take, List.length_drop, List.length_nil] at zero
    omega
  · by_contra unknown
    rw [not_or] at unknown
    exact version unknown

/-- A line with a name in front of a colon and no stray line end in its value. -/
structure WellFormed (line : Bytes) : Prop where
  colon : 58 ∈ line
  named : line.head? ≠ some 58
  plain : 13 ∉ fieldValue line ∧ 10 ∉ fieldValue line

def valuesOf (block : List Bytes) (name : Bytes) : List Bytes :=
  (block.filter fun line => lowercase (fieldName line) = name).map fieldValue

/-- What the header map holds under a name: the one content length, or all values in order. -/
def recordedValue (block : List Bytes) (name : Bytes) : Option Bytes :=
  match valuesOf block name with
  | [] => none
  | first :: rest => some (if name = contentLength then first else first ++ rest.flatMap fun value => text "," ++ value)

def Agree (block : List Bytes) : Prop :=
  ∀ first ∈ valuesOf block contentLength, ∀ second ∈ valuesOf block contentLength, first = second

def Mapped (seen : List Bytes) (headers : Headers) : Prop := ∀ name, headers.lookup name = recordedValue seen name

theorem valuesOf_append (front back : List Bytes) (name : Bytes) :
    valuesOf (front ++ back) name = valuesOf front name ++ valuesOf back name := by
  rw [valuesOf, List.filter_append, List.map_append]
  rfl

theorem valuesOf_single (line name : Bytes) :
    valuesOf [line] name = if lowercase (fieldName line) = name then [fieldValue line] else [] := by
  unfold valuesOf
  split_ifs with same
  · rw [List.filter_singleton, decide_eq_true same]
    rfl
  · rw [List.filter_singleton, decide_eq_false same]
    rfl

theorem mem_valuesOf (block : List Bytes) (name value : Bytes) :
    value ∈ valuesOf block name ↔ ∃ line ∈ block, lowercase (fieldName line) = name ∧ fieldValue line = value := by
  simp [valuesOf, and_assoc]

theorem recordedValue_isSome (block : List Bytes) (name : Bytes) :
    (recordedValue block name).isSome ↔ valuesOf block name ≠ [] := by
  unfold recordedValue
  split
  next none => simp [none]
  next some => simp [some]

theorem recordedValue_concat (seen : List Bytes) (line : Bytes) :
    recordedValue (seen ++ [line]) (lowercase (fieldName line)) =
        some ((recordedValue seen (lowercase (fieldName line))).elim (fieldValue line) fun previous =>
          if lowercase (fieldName line) = contentLength then previous
          else previous ++ (text "," ++ fieldValue line)) ∧
      ∀ name, lowercase (fieldName line) ≠ name → recordedValue (seen ++ [line]) name = recordedValue seen name := by
  constructor
  · unfold recordedValue
    rw [valuesOf_append, valuesOf_single, if_pos rfl]
    cases values : valuesOf seen (lowercase (fieldName line)) with
    | nil => simp
    | cons first rest =>
      simp only [List.cons_append, List.flatMap_append, List.flatMap_singleton, Option.elim_some]
      split_ifs
      · rfl
      · rw [List.append_assoc]
  · intro name different
    unfold recordedValue
    rw [valuesOf_append, valuesOf_single, if_neg different, List.append_nil]

theorem parseHeaderLine_eq (line : Bytes) (headers : Headers) (form : WellFormed line) :
    parseHeaderLine line headers = addHeader (lowercase (fieldName line)) (fieldValue line) headers := by
  obtain ⟨colon, named, plain⟩ := form
  unfold parseHeaderLine
  rw [show text ":" = [58] from rfl]
  cases found : find [58] line with
  | none => exact absurd colon ((find_symbol_none 58 line).mp found)
  | some place =>
    have name : fieldName line = line.take place := by
      rw [fieldName, show text ":" = [58] from rfl, found, Option.getD_some]
    have value : fieldValue line = trim (line.drop (place + 1)) := by
      rw [fieldValue, show text ":" = [58] from rfl, found, Option.getD_some]
    obtain ⟨layout, _⟩ := find_symbol_some 58 line place found
    have behind : place ≠ 0 := by
      rintro rfl
      rw [layout] at named
      exact named rfl
    have nonempty : lowercase (line.take place) ≠ [] := by
      intro empty
      have zero := congrArg List.length empty
      have bound := find_bound _ _ _ found
      rw [length_lowercase, List.length_take, List.length_nil] at zero
      rw [List.length_singleton] at bound
      omega
    rw [value] at plain
    dsimp only
    rw [if_neg behind, if_neg (by simp [nonempty, plain.1, plain.2]), name, value]

theorem parseHeaderLine_wellFormed (line : Bytes) (headers later : Headers)
    (read : parseHeaderLine line headers = .ok later) : WellFormed line := by
  unfold parseHeaderLine at read
  rw [show text ":" = [58] from rfl] at read
  split at read
  · cases read
  next place found =>
    obtain ⟨layout, absent⟩ := find_symbol_some 58 line place found
    have value : fieldValue line = trim (line.drop (place + 1)) := by
      rw [fieldValue, show text ":" = [58] from rfl, found, Option.getD_some]
    dsimp only at read
    split_ifs at read with first stray
    rw [not_or, not_or] at stray
    refine ⟨?_, ?_, by rw [value]; exact stray.2⟩
    · rw [layout]
      exact List.mem_append_right _ List.mem_cons_self
    · intro head
      cases line with
      | nil => cases head
      | cons byte rest =>
        cases head
        cases place with
        | zero => exact first rfl
        | succ place => exact absent List.mem_cons_self

theorem recordedValue_length (block : List Bytes) :
    recordedValue block contentLength = (valuesOf block contentLength).head? := by
  unfold recordedValue
  cases valuesOf block contentLength with
  | nil => rfl
  | cons first rest => rfl

theorem Agree.front {front back : List Bytes} (agree : Agree (front ++ back)) : Agree front := by
  intro first firstMember second secondMember
  simp only [Agree, valuesOf_append] at agree
  exact agree first (List.mem_append_left _ firstMember) second (List.mem_append_left _ secondMember)

theorem agree_other {seen : List Bytes} {line : Bytes} (agree : Agree seen)
    (other : lowercase (fieldName line) ≠ contentLength) : Agree (seen ++ [line]) := by
  unfold Agree
  rwa [valuesOf_append, valuesOf_single, if_neg other, List.append_nil]

theorem agree_again {seen : List Bytes} {line : Bytes} (agree : Agree seen)
    (length : lowercase (fieldName line) = contentLength) (given : fieldValue line ∈ valuesOf seen contentLength) :
    Agree (seen ++ [line]) := by
  have among : ∀ value ∈ valuesOf (seen ++ [line]) contentLength, value ∈ valuesOf seen contentLength := by
    intro value member
    rw [valuesOf_append, valuesOf_single, if_pos length, List.mem_append, List.mem_singleton] at member
    rcases member with before | rfl
    · exact before
    · exact given
  exact fun first one second other => agree first (among first one) second (among second other)

theorem Mapped.insert {seen : List Bytes} {headers : Headers} {line value : Bytes} (mapped : Mapped seen headers)
    (own : recordedValue (seen ++ [line]) (lowercase (fieldName line)) = some value) :
    Mapped (seen ++ [line]) (headers.insert (lowercase (fieldName line)) value) := by
  intro name
  by_cases same : lowercase (fieldName line) = name
  · rw [← same, AList.lookup_insert, own]
  · rw [AList.lookup_insert_ne (Ne.symm same), (recordedValue_concat seen line).2 name same, mapped]

section Adding

variable {seen : List Bytes} {headers : Headers} (mapped : Mapped seen headers) (agree : Agree seen) (line : Bytes)

include mapped agree

theorem addHeader_mapped {later : Headers}
    (added : addHeader (lowercase (fieldName line)) (fieldValue line) headers = .ok later) :
    Mapped (seen ++ [line]) later ∧ Agree (seen ++ [line]) := by
  obtain ⟨own, others⟩ := recordedValue_concat seen line
  unfold addHeader at added
  split at added
  next absent =>
    cases added
    rw [mapped] at absent
    rw [absent, Option.elim_none] at own
    refine ⟨mapped.insert own, ?_⟩
    by_cases length : lowercase (fieldName line) = contentLength
    · have none : valuesOf seen contentLength = [] := by
        rw [length, recordedValue_length] at absent
        exact List.head?_eq_none_iff.mp absent
      unfold Agree
      rw [valuesOf_append, valuesOf_single, if_pos length, none]
      simp
    · exact agree_other agree length
  next previous present =>
    rw [mapped] at present
    rw [present, Option.elim_some] at own
    split_ifs at added with conflict other
    · cases added
      change lowercase (fieldName line) ≠ contentLength at other
      rw [if_neg other] at own
      exact ⟨mapped.insert own, agree_other agree other⟩
    · cases added
      rw [not_not] at other
      have equal : previous = fieldValue line := by
        by_contra different
        exact conflict ⟨other, different⟩
      change lowercase (fieldName line) = contentLength at other
      rw [if_pos other] at own
      constructor
      · intro name
        by_cases same : lowercase (fieldName line) = name
        · rw [← same, mapped, own, present]
        · rw [others name same, mapped]
      · rw [other, recordedValue_length, equal] at present
        exact agree_again agree other (List.mem_of_head? present)

omit agree in
theorem addHeader_accepts (later : Agree (seen ++ [line])) :
    ∃ headers', addHeader (lowercase (fieldName line)) (fieldValue line) headers = .ok headers' := by
  unfold addHeader
  split
  · exact ⟨_, rfl⟩
  next previous present =>
    split
    next conflict =>
      obtain ⟨length, different⟩ := conflict
      change lowercase (fieldName line) = contentLength at length
      rw [length, mapped, recordedValue_length] at present
      unfold Agree at later
      rw [valuesOf_append, valuesOf_single, if_pos length] at later
      refine absurd (later previous ?_ (fieldValue line) ?_) different
      · exact List.mem_append_left _ (List.mem_of_head? present)
      · exact List.mem_append_right _ (List.mem_singleton.mpr rfl)
    next =>
      split
      · exact ⟨_, rfl⟩
      · exact ⟨_, rfl⟩

end Adding

/-- All lines are read exactly when each is well formed and the content lengths agree. -/
theorem readLines_mapped (block seen : List Bytes) (headers : Headers) (mapped : Mapped seen headers)
    (agree : Agree seen) :
    (∀ later, readLines block headers = .ok later →
      Mapped (seen ++ block) later ∧ (∀ line ∈ block, WellFormed line) ∧ Agree (seen ++ block)) ∧
    ((∀ line ∈ block, WellFormed line) → Agree (seen ++ block) → ∃ later, readLines block headers = .ok later) := by
  induction block generalizing seen headers with
  | nil =>
    rw [List.append_nil]
    refine ⟨fun later read => ?_, fun _ _ => ⟨headers, rfl⟩⟩
    cases read
    exact ⟨mapped, fun _ member => absurd member List.not_mem_nil, agree⟩
  | cons line rest ih =>
    have whole : seen ++ line :: rest = seen ++ [line] ++ rest := by simp
    rw [whole]
    constructor
    · intro later read
      obtain ⟨next, first, read⟩ := readLines_cons read
      have form := parseHeaderLine_wellFormed line headers next first
      rw [parseHeaderLine_eq line headers form] at first
      obtain ⟨nextMapped, nextAgree⟩ := addHeader_mapped mapped agree line first
      obtain ⟨laterMapped, forms, laterAgree⟩ := (ih _ next nextMapped nextAgree).1 later read
      exact ⟨laterMapped, List.forall_mem_cons.mpr ⟨form, forms⟩, laterAgree⟩
    · intro forms laterAgree
      obtain ⟨form, forms⟩ := List.forall_mem_cons.mp forms
      obtain ⟨next, added⟩ := addHeader_accepts mapped line laterAgree.front
      obtain ⟨nextMapped, nextAgree⟩ := addHeader_mapped mapped agree line added
      obtain ⟨later, read⟩ := (ih _ next nextMapped nextAgree).2 forms laterAgree
      rw [readLines, List.foldlM_cons, parseHeaderLine_eq line headers form, added]
      exact ⟨later, read⟩

theorem readLines_block (block : List Bytes) :
    (∀ headers, readLines block ∅ = .ok headers →
      Mapped block headers ∧ (∀ line ∈ block, WellFormed line) ∧ Agree block) ∧
    ((∀ line ∈ block, WellFormed line) → Agree block → ∃ headers, readLines block ∅ = .ok headers) := by
  have start : Mapped [] ∅ := fun name => by simp [recordedValue, valuesOf]
  have first : Agree [] := fun value member => absurd member List.not_mem_nil
  exact readLines_mapped block [] ∅ start first

def Numeric (maxBodyBytes : Nat) (value : Bytes) : Prop :=
  ∃ number, Denotes value number ∧ number < 2 ^ 64 ∧ number ≤ maxBodyBytes

def declaredLength (block : List Bytes) : Nat := ((valuesOf block contentLength).head?.map Decimal.value).getD 0

theorem fromChars_complete (value : Bytes) (number : Nat) (denotes : Denotes value number) (small : number < 2 ^ 64) :
    fromChars value = some (number, value.length) := by
  obtain ⟨nonempty, digits, rfl⟩ := denotes
  have all : value.takeWhile Decimal.isDigit = value :=
    List.takeWhile_eq_self_iff.mpr (List.all_eq_true.mp digits)
  unfold fromChars
  dsimp only
  rw [all, if_neg (by rw [not_or]; exact ⟨nonempty, by omega⟩)]

theorem fromChars_small (value : Bytes) (number used : Nat) (read : fromChars value = some (number, used)) :
    number < 2 ^ 64 := by
  unfold fromChars at read
  dsimp only at read
  split_ifs at read with bad
  cases read
  rw [not_or] at bad
  omega

theorem readContentLength_ok_iff (block : List Bytes) (headers : Headers) (maxBodyBytes length : Nat)
    (mapped : Mapped block headers) :
    readContentLength maxBodyBytes 0 headers = .ok length ↔ valuesOf block transferEncoding = [] ∧
      (∀ value, (valuesOf block contentLength).head? = some value → Numeric maxBodyBytes value) ∧
      length = declaredLength block := by
  have encoded : (headers.lookup (text "transfer-encoding")).isSome ↔ valuesOf block transferEncoding ≠ [] := by
    rw [mapped]
    exact recordedValue_isSome block transferEncoding
  have given : headers.lookup (text "content-length") = (valuesOf block contentLength).head? := by
    rw [mapped]
    exact recordedValue_length block
  unfold readContentLength declaredLength
  rw [given]
  by_cases present : (headers.lookup (text "transfer-encoding")).isSome = true
  · rw [if_pos present]
    exact ⟨(fun impossible => by cases impossible), fun ⟨absent, _⟩ => absurd absent (encoded.mp present)⟩
  rw [if_neg present]
  have absent : valuesOf block transferEncoding = [] := not_not.mp (mt encoded.mpr present)
  cases first : (valuesOf block contentLength).head? with
  | none =>
    constructor
    · intro read
      cases read
      exact ⟨absent, fun value impossible => (by cases impossible), rfl⟩
    · rintro ⟨_, _, rfl⟩
      rfl
  | some value =>
    simp only [absent, Option.some.injEq, forall_eq', true_and, Option.map_some, Option.getD_some]
    constructor
    · intro read
      split at read
      · cases read
      next number used parsed =>
        split_ifs at read with whole fits
        cases read
        have denotes := fromChars_denotes value length used parsed (not_not.mp whole)
        exact ⟨⟨length, denotes, fromChars_small value length used parsed, Nat.le_of_not_lt fits⟩, denotes.2.2.symm⟩
    · rintro ⟨⟨number, denotes, small, fits⟩, rfl⟩
      rw [fromChars_complete value number denotes small]
      dsimp only
      rw [if_neg (by simp), if_neg (by omega), ← denotes.2.2]

theorem pathOf_eq_nil_iff {target : Bytes} (nonempty : target ≠ []) :
    pathOf target = [] ↔ target.head? = some 63 := by
  cases target with
  | nil => exact absurd rfl nonempty
  | cons byte rest =>
    unfold pathOf
    by_cases mark : byte = 63
    · simp [mark]
    · simp [mark]

/-- What the bytes in front of the separator must be for the parser to go on. -/
structure Readable (maxBodyBytes : Nat) (block : List Bytes) : Prop where
  forms : ∀ line ∈ block, WellFormed line
  agree : Agree block
  unencoded : valuesOf block transferEncoding = []
  numeric : ∀ value ∈ valuesOf block contentLength, Numeric maxBodyBytes value

section Block

variable (stream : Bytes) (separator lineEnd maxBodyBytes : Nat)
  (found : find headerSeparator stream = some separator) (lineFound : find crlf stream = some lineEnd)
  (before : lineEnd < separator)

def blockOf : List Bytes := lines (slice stream (lineEnd + 2) (separator - (lineEnd + 2)))

include found lineFound before

theorem parseHeaderLines_block (request : HttpRequest) :
    (∀ headers, readLines (blockOf stream separator lineEnd) request.headers = .ok headers →
      parseHeaderLines (stream.take (separator + 4)) separator (separator + 1) (lineEnd + 2) request =
        ⟨{ request with headers := headers }, .ok ()⟩) ∧
    (∀ message, readLines (blockOf stream separator lineEnd) request.headers = .error message →
      (parseHeaderLines (stream.take (separator + 4)) separator (separator + 1) (lineEnd + 2) request).result =
        .error message) := by
  have four : headerSeparator.length = 4 := rfl
  have inside := find_take headerSeparator stream separator (separator + 4) found
  rw [if_pos (by omega)] at inside
  have here := ((find_eq_some_iff crlf stream lineEnd).mp lineFound).1
  have gap := line_end_before stream separator found lineEnd here before
  have loop := parseHeaderLines_eq (stream.take (separator + 4)) separator inside (separator + 1) (lineEnd + 2)
    request gap (by omega)
  rw [List.take_take, Nat.min_eq_left (by omega), List.drop_take] at loop
  exact loop

omit found in
theorem find_crlf_take : find crlf (stream.take (separator + 4)) = some lineEnd := by
  have taken := find_take crlf stream lineEnd (separator + 4) lineFound
  rwa [show crlf.length = 2 from rfl, if_pos (by omega)] at taken

theorem readHeaderBlock_reads (request : HttpRequest) (headers : Headers)
    (line : parseRequestLine (stream.take lineEnd) {} = ⟨request, .ok ()⟩)
    (read : readLines (blockOf stream separator lineEnd) request.headers = .ok headers) :
    readHeaderBlock maxBodyBytes 0 (stream.take (separator + 4)) separator {} =
      ⟨{ request with headers := headers }, readContentLength maxBodyBytes 0 headers⟩ := by
  have loop := (parseHeaderLines_block stream separator lineEnd found lineFound before request).1 headers read
  unfold readHeaderBlock
  rw [find_crlf_take stream separator lineEnd lineFound before]
  dsimp only
  rw [if_neg (by omega), List.take_take, Nat.min_eq_left (by omega), line]
  dsimp only
  rw [loop]

theorem readHeaderBlock_sound (parsed : HttpRequest) (length : Nat)
    (read : readHeaderBlock maxBodyBytes 0 (stream.take (separator + 4)) separator {} = ⟨parsed, .ok length⟩) :
    ∃ request headers, parseRequestLine (stream.take lineEnd) {} = ⟨request, .ok ()⟩ ∧
      readLines (blockOf stream separator lineEnd) request.headers = .ok headers ∧
      readContentLength maxBodyBytes 0 headers = .ok length := by
  unfold readHeaderBlock at read
  rw [find_crlf_take stream separator lineEnd lineFound before] at read
  dsimp only at read
  rw [if_neg (by omega), List.take_take, Nat.min_eq_left (by omega)] at read
  split at read
  · cases read
  next request done line =>
    obtain ⟨accepted, refused⟩ := parseHeaderLines_block stream separator lineEnd found lineFound before request
    cases lines : readLines (blockOf stream separator lineEnd) request.headers with
    | error message =>
      have failed := refused message lines
      split at read
      · cases read
      next loop =>
        rw [loop] at failed
        cases failed
    | ok headers =>
      rw [accepted headers lines] at read
      dsimp only at read
      rw [Parse.mk.injEq] at read
      exact ⟨request, headers, line, lines, read.2⟩

/-- A readable block gives the request that its bytes say. -/
theorem readHeaderBlock_complete {method target version : Bytes}
    (line : RequestLine (stream.take lineEnd) method target version) (mark : target.head? ≠ some 63)
    (readable : Readable maxBodyBytes (blockOf stream separator lineEnd)) :
    ∃ headers, Mapped (blockOf stream separator lineEnd) headers ∧
      readHeaderBlock maxBodyBytes 0 (stream.take (separator + 4)) separator {} =
        ⟨{ method := method, path := pathOf target, query := queryOf target, headers := headers },
          .ok (declaredLength (blockOf stream separator lineEnd))⟩ := by
  have nonempty : pathOf target ≠ [] := mt (pathOf_eq_nil_iff line.target.1).mp mark
  have parsed := parseRequestLine_complete line {}
  rw [parseTarget_eq target _ rfl, if_neg nonempty] at parsed
  obtain ⟨mapped, accepts⟩ := readLines_block (blockOf stream separator lineEnd)
  obtain ⟨headers, read⟩ := accepts readable.forms readable.agree
  have length := (readContentLength_ok_iff _ headers maxBodyBytes
    (declaredLength (blockOf stream separator lineEnd)) (mapped headers read).1).mpr
    ⟨readable.unencoded, fun value first => readable.numeric value (List.mem_of_head? first), rfl⟩
  refine ⟨headers, (mapped headers read).1, ?_⟩
  rw [readHeaderBlock_reads stream separator lineEnd maxBodyBytes found lineFound before _ headers parsed read,
    length]

theorem readHeaderBlock_readable (parsed : HttpRequest) (length : Nat)
    (read : readHeaderBlock maxBodyBytes 0 (stream.take (separator + 4)) separator {} = ⟨parsed, .ok length⟩) :
    (∃ method target version, RequestLine (stream.take lineEnd) method target version ∧ target.head? ≠ some 63) ∧
      Readable maxBodyBytes (blockOf stream separator lineEnd) := by
  obtain ⟨request, headers, line, lines, number⟩ :=
    readHeaderBlock_sound stream separator lineEnd maxBodyBytes found lineFound before parsed length read
  rw [parseRequestLine_headers _ _ _ line] at lines
  obtain ⟨mapped, forms, agree⟩ := (readLines_block _).1 headers lines
  obtain ⟨unencoded, numeric, _⟩ := (readContentLength_ok_iff _ headers maxBodyBytes length mapped).mp number
  obtain ⟨method, target, version, form⟩ := parseRequestLine_sound _ _ _ line
  rw [parseRequestLine_complete form, parseTarget_eq target _ rfl] at line
  constructor
  · refine ⟨method, target, version, form, fun mark => ?_⟩
    rw [if_pos ((pathOf_eq_nil_iff form.target.1).mpr mark)] at line
    cases line
  · refine ⟨forms, agree, unencoded, fun value member => ?_⟩
    cases values : valuesOf (blockOf stream separator lineEnd) contentLength with
    | nil =>
      rw [values] at member
      exact absurd member List.not_mem_nil
    | cons head rest =>
      rw [values] at numeric
      rw [agree value member head (by rw [values]; exact List.mem_cons_self)]
      exact numeric head rfl

end Block

/-- A space in the method or the target would move the parts. -/
theorem RequestLine.unique {line method target version method' target' version' : Bytes}
    (one : RequestLine line method target version) (two : RequestLine line method' target' version') :
    method = method' ∧ target = target' := by
  have space : text " " = [32] := rfl
  have first := two.layout
  rw [one.layout, space] at first
  have methods := find_symbol_append 32 method (target ++ ([32] ++ version)) one.method.2
  rw [show method ++ 32 :: (target ++ ([32] ++ version)) = method ++ ([32] ++ (target ++ ([32] ++ version))) from rfl,
    first] at methods
  have methods' := find_symbol_append 32 method' (target' ++ ([32] ++ version')) two.method.2
  have lengths := Option.some.inj (methods.symm.trans methods')
  obtain ⟨sameMethod, rest⟩ := List.append_inj first lengths
  have second : target ++ 32 :: version = target' ++ 32 :: version' := List.append_cancel_left rest
  have targets := find_symbol_append 32 target version one.target.2
  rw [second, find_symbol_append 32 target' version' two.target.2] at targets
  exact ⟨sameMethod, (List.append_inj second (Option.some.inj targets).symm).1⟩

/-- Why a request that fits into the limits is refused. -/
inductive Refused (maxHeaderBytes maxBodyBytes : Nat) (stream : Bytes) (separator lineEnd : Nat) : Prop
  | header (long : maxHeaderBytes < separator + 4)
  | requestLine (malformed : ∀ method target version, ¬ RequestLine (stream.take lineEnd) method target version)
  | path (method target version : Bytes) (line : RequestLine (stream.take lineEnd) method target version)
      (mark : target.head? = some 63)
  | name (line : Bytes) (member : line ∈ blockOf stream separator lineEnd)
      (nameless : 58 ∉ line ∨ line.head? = some 58)
  | value (line : Bytes) (member : line ∈ blockOf stream separator lineEnd)
      (stray : 13 ∈ fieldValue line ∨ 10 ∈ fieldValue line)
  | encoding (line : Bytes) (member : line ∈ blockOf stream separator lineEnd)
      (same : lowercase (fieldName line) = transferEncoding)
  | conflict (first second : Bytes) (one : first ∈ valuesOf (blockOf stream separator lineEnd) contentLength)
      (other : second ∈ valuesOf (blockOf stream separator lineEnd) contentLength) (different : first ≠ second)
  | length (value : Bytes) (member : value ∈ valuesOf (blockOf stream separator lineEnd) contentLength)
      (wrong : ¬ Numeric maxBodyBytes value)

theorem not_refused_iff (maxHeaderBytes maxBodyBytes : Nat) (stream : Bytes) (separator lineEnd : Nat) :
    ¬ Refused maxHeaderBytes maxBodyBytes stream separator lineEnd ↔ separator + 4 ≤ maxHeaderBytes ∧
      (∃ method target version, RequestLine (stream.take lineEnd) method target version ∧ target.head? ≠ some 63) ∧
      Readable maxBodyBytes (blockOf stream separator lineEnd) := by
  constructor
  · intro accepted
    refine ⟨?_, ?_, ⟨fun line member => ⟨?_, ?_, ?_, ?_⟩, ?_, ?_, ?_⟩⟩
    · by_contra long
      exact accepted (.header (by omega))
    · by_contra none
      push Not at none
      by_cases some : ∃ method target version, RequestLine (stream.take lineEnd) method target version
      · obtain ⟨method, target, version, line⟩ := some
        exact accepted (.path method target version line (none method target version line))
      · push Not at some
        exact accepted (.requestLine some)
    · by_contra absent
      exact accepted (.name line member (Or.inl absent))
    · exact fun first => accepted (.name line member (Or.inr first))
    · exact fun stray => accepted (.value line member (Or.inl stray))
    · exact fun stray => accepted (.value line member (Or.inr stray))
    · intro first one second other
      by_contra different
      exact accepted (.conflict first second one other different)
    · rw [List.eq_nil_iff_forall_not_mem]
      intro value member
      obtain ⟨line, inside, same, _⟩ := (mem_valuesOf _ _ _).mp member
      exact accepted (.encoding line inside same)
    · intro value member
      by_contra wrong
      exact accepted (.length value member wrong)
  · rintro ⟨fits, ⟨method, target, version, line, mark⟩, readable⟩ refused
    cases refused with
    | header long => omega
    | requestLine malformed => exact malformed _ _ _ line
    | path method' target' version' line' mark' => exact mark ((line.unique line').2 ▸ mark')
    | name line member nameless =>
      obtain ⟨colon, named, _⟩ := readable.forms line member
      rcases nameless with absent | first
      · exact absent colon
      · exact named first
    | value line member stray =>
      obtain ⟨_, _, plain⟩ := readable.forms line member
      rcases stray with stray | stray
      · exact plain.1 stray
      · exact plain.2 stray
    | encoding line member same =>
      have given := (mem_valuesOf _ transferEncoding (fieldValue line)).mpr ⟨line, member, same, rfl⟩
      rw [readable.unencoded] at given
      exact absurd given List.not_mem_nil
    | conflict first second one other different => exact different (readable.agree first one second other)
    | length value member wrong => exact wrong (readable.numeric value member)

/-- A fresh parser takes every stream that fits into the sum of the limits. -/
theorem feed_fresh (maxHeaderBytes maxBodyBytes : Nat) (stream : Bytes)
    (within : stream.length ≤ (maxHeaderBytes + maxBodyBytes) % 2 ^ 64) :
    Agrees maxHeaderBytes maxBodyBytes stream (feed stream (fresh maxHeaderBytes maxBodyBytes)) := by
  have empty : Reads maxHeaderBytes maxBodyBytes [] (fresh maxHeaderBytes maxBodyBytes) :=
    (fresh_agrees maxHeaderBytes maxBodyBytes).1
  refine feed_within (fresh maxHeaderBytes maxBodyBytes) stream (fun _ _ exceeds => ?_) empty
  rcases exceeds with buffered | long
  · exact absurd buffered (Nat.not_lt_zero _)
  · exact absurd long (Nat.not_lt.mpr within)

section Feeding

variable {maxHeaderBytes maxBodyBytes : Nat} {stream : Bytes} {separator lineEnd : Nat}

theorem meaning_refused (found : find headerSeparator stream = some separator)
    (lineFound : find crlf stream = some lineEnd) (before : lineEnd < separator)
    (refused : Refused maxHeaderBytes maxBodyBytes stream separator lineEnd) :
    meaning maxHeaderBytes maxBodyBytes stream = .rejected := by
  unfold meaning
  rw [found]
  dsimp only
  split
  · rfl
  next fits =>
  split
  · rfl
  next parsed length block =>
    have readable := readHeaderBlock_readable stream separator lineEnd maxBodyBytes found lineFound before parsed
      length block
    exact absurd refused ((not_refused_iff _ _ _ _ _).mpr ⟨by omega, readable.1, readable.2⟩)

theorem meaning_accepted (found : find headerSeparator stream = some separator)
    (lineFound : find crlf stream = some lineEnd) (before : lineEnd < separator)
    {method target version : Bytes} (fits : separator + 4 ≤ maxHeaderBytes)
    (line : RequestLine (stream.take lineEnd) method target version) (mark : target.head? ≠ some 63)
    (readable : Readable maxBodyBytes (blockOf stream separator lineEnd)) :
    ∃ headers, Mapped (blockOf stream separator lineEnd) headers ∧
      meaning maxHeaderBytes maxBodyBytes stream =
        if stream.length < separator + 4 + declaredLength (blockOf stream separator lineEnd) then .incomplete
        else .request ⟨method, pathOf target, queryOf target, headers,
          slice stream (separator + 4) (declaredLength (blockOf stream separator lineEnd))⟩ := by
  obtain ⟨headers, mapped, block⟩ := readHeaderBlock_complete stream separator lineEnd maxBodyBytes found lineFound
    before line mark readable
  refine ⟨headers, mapped, ?_⟩
  unfold meaning
  rw [found]
  dsimp only
  rw [if_neg (by omega), block]

theorem feed_accepted (within : stream.length ≤ (maxHeaderBytes + maxBodyBytes) % 2 ^ 64)
    (found : find headerSeparator stream = some separator) (lineFound : find crlf stream = some lineEnd)
    (before : lineEnd < separator) {method target version : Bytes} (fits : separator + 4 ≤ maxHeaderBytes)
    (line : RequestLine (stream.take lineEnd) method target version) (mark : target.head? ≠ some 63)
    (readable : Readable maxBodyBytes (blockOf stream separator lineEnd))
    (whole : separator + 4 + declaredLength (blockOf stream separator lineEnd) ≤ stream.length) :
    let fed := feed stream (fresh maxHeaderBytes maxBodyBytes)
    fed.1 = .complete ∧ ∃ headers, Mapped (blockOf stream separator lineEnd) headers ∧
      fed.2.parsedRequest = ⟨method, pathOf target, queryOf target, headers,
        slice stream (separator + 4) (declaredLength (blockOf stream separator lineEnd))⟩ := by
  intro fed
  have agrees : Agrees maxHeaderBytes maxBodyBytes stream fed := feed_fresh maxHeaderBytes maxBodyBytes stream within
  obtain ⟨headers, mapped, reading⟩ := meaning_accepted found lineFound before fits line mark readable
  rw [if_neg (Nat.not_lt.mpr whole)] at reading
  have complete : fed.1 = .complete := by rw [agrees.2, reading]; rfl
  have parsed := agrees.request complete
  rw [reading] at parsed
  exact ⟨complete, headers, mapped, (Meaning.request.inj parsed).symm⟩

end Feeding

/-- The exact language: one call with a stream that fits into the limits and has a line end
in front of its separator fails for a listed reason and for no other. Without one it waits
for the declared length, and then has the request that the bytes say. -/
theorem parser_language (maxHeaderBytes maxBodyBytes : Nat) (stream : Bytes) (separator lineEnd : Nat)
    (within : stream.length ≤ (maxHeaderBytes + maxBodyBytes) % 2 ^ 64)
    (found : find headerSeparator stream = some separator) (lineFound : find crlf stream = some lineEnd)
    (before : lineEnd < separator) :
    let fed := feed stream (fresh maxHeaderBytes maxBodyBytes)
    let request := fed.2.parsedRequest
    let block := blockOf stream separator lineEnd
    let bodyStart := separator + 4
    let length := declaredLength block
    (fed.1 = .error ↔ Refused maxHeaderBytes maxBodyBytes stream separator lineEnd) ∧
    (¬ Refused maxHeaderBytes maxBodyBytes stream separator lineEnd →
      (fed.1 = .complete ↔ bodyStart + length ≤ stream.length) ∧
      (fed.1 = .incomplete ↔ stream.length < bodyStart + length)) ∧
    (fed.1 = .complete → ∃ method target version, RequestLine (stream.take lineEnd) method target version ∧
      request.method = method ∧ request.path = pathOf target ∧ request.query = queryOf target ∧
      (∀ name, request.headers.lookup name = recordedValue block name) ∧
      request.body = slice stream bodyStart length) := by
  intro fed request block bodyStart length
  have agrees : Agrees maxHeaderBytes maxBodyBytes stream fed := feed_fresh maxHeaderBytes maxBodyBytes stream within
  have status : fed.1 = (meaning maxHeaderBytes maxBodyBytes stream).status := agrees.2
  by_cases refused : Refused maxHeaderBytes maxBodyBytes stream separator lineEnd
  · rw [meaning_refused found lineFound before refused] at status
    rw [status]
    exact ⟨iff_of_true rfl refused, fun accepted => absurd refused accepted, fun impossible => by cases impossible⟩
  · obtain ⟨fits, ⟨method, target, version, line, mark⟩, readable⟩ := (not_refused_iff _ _ _ _ _).mp refused
    obtain ⟨headers, mapped, reading⟩ := meaning_accepted found lineFound before fits line mark readable
    by_cases missing : stream.length < bodyStart + length
    · rw [reading, if_pos missing] at status
      rw [status]
      refine ⟨iff_of_false (fun impossible => by cases impossible) refused, fun _ => ⟨?_, iff_of_true rfl missing⟩,
        fun impossible => by cases impossible⟩
      exact iff_of_false (fun impossible => by cases impossible) (by omega)
    · obtain ⟨complete, headers, mapped, same⟩ := feed_accepted within found lineFound before fits line mark readable
        (Nat.le_of_not_lt missing)
      rw [show fed.1 = .complete from complete]
      refine ⟨iff_of_false (fun impossible => by cases impossible) refused, fun _ => ⟨?_, ?_⟩, fun _ => ?_⟩
      · exact iff_of_true rfl (by omega)
      · exact iff_of_false (fun impossible => by cases impossible) missing
      · refine ⟨method, target, version, line, ?_⟩
        rw [show request = _ from same]
        exact ⟨rfl, rfl, rfl, mapped, rfl⟩

/-- A name given twice, a query and a body with a byte behind it. -/
theorem parser_language_repeated :
    let stream := text "POST /a?b HTTP/1.1\r\nHost: x\r\nContent-Length: 2\r\nHOST:\ty \r\n\r\nhi!"
    let fed := feed stream (fresh 100 100)
    let request := fed.2.parsedRequest
    let block := blockOf stream 56 18
    let bodyStart := 56 + 4
    let length := declaredLength block
    (fed.1 = .complete ∧ request.path = text "/a" ∧ request.headers.lookup (text "host") = some (text "x,y") ∧
      request.body = text "hi") ∧
    (fed.1 = .error ↔ Refused 100 100 stream 56 18) ∧
    (¬ Refused 100 100 stream 56 18 →
      (fed.1 = .complete ↔ bodyStart + length ≤ stream.length) ∧
      (fed.1 = .incomplete ↔ stream.length < bodyStart + length)) ∧
    (fed.1 = .complete → ∃ method target version, RequestLine (stream.take 18) method target version ∧
      request.method = method ∧ request.path = pathOf target ∧ request.query = queryOf target ∧
      (∀ name, request.headers.lookup name = recordedValue block name) ∧
      request.body = slice stream bodyStart length) :=
  ⟨by decide +kernel,
    parser_language 100 100 _ 56 18 (by decide +kernel) (by decide +kernel) (by decide +kernel) (by decide)⟩

/-- The parser adds its limits in 64 bits: when the sum wraps to zero, it takes no byte. -/
theorem wrapped_limits_refuse :
    ¬ ∀ (maxHeaderBytes maxBodyBytes : Nat) (stream : Bytes) (separator lineEnd : Nat), maxHeaderBytes < 2 ^ 64 →
      maxBodyBytes < 2 ^ 64 → stream.length ≤ maxHeaderBytes + maxBodyBytes →
      find headerSeparator stream = some separator → find crlf stream = some lineEnd → lineEnd < separator →
        ((feed stream (fresh maxHeaderBytes maxBodyBytes)).1 = .error ↔
          Refused maxHeaderBytes maxBodyBytes stream separator lineEnd) := by
  intro always
  have found : find headerSeparator (text "GET / HTTP/1.0\r\nHost: a\r\n\r\n") = some 23 := by decide +kernel
  have lineFound : find crlf (text "GET / HTTP/1.0\r\nHost: a\r\n\r\n") = some 14 := by decide +kernel
  have refused := (always (2 ^ 64 - 1) 1 _ 23 14 (by decide) (by decide) (by decide +kernel) found lineFound
    (by decide)).mp (by decide +kernel)
  have status := congrArg Meaning.status (meaning_refused found lineFound (by decide) refused)
  exact absurd status (by decide +kernel)

end FleetGateway.Http.Language
