import FleetGateway.Http.Fragmentation

/-! The framing headers of a completed request. The parser compares header names in
lowercase but keeps the blanks around them, so a framing header whose name ends in a
blank is stored under a name that is never looked up. -/

namespace FleetGateway.Http.Framing
open Library Library.ByteStore Library.Search Http.Parser Http.Fragmentation

def lines : Bytes → List Bytes
  | [] => [[]]
  | [byte] => [[byte]]
  | first :: second :: rest =>
    if first = 13 ∧ second = 10 then [] :: lines rest
    else (lines (second :: rest)).modifyHead (first :: ·)

theorem startsWith_crlf (first second : UInt8) (rest : Bytes) :
    crlf <+: first :: second :: rest ↔ first = 13 ∧ second = 10 := by
  simp only [crlf, List.cons_prefix_cons, List.nil_prefix, and_true, eq_comm]

theorem lines_of_absent (source : Bytes) (absent : find crlf source = none) : lines source = [source] := by
  induction source using lines.induct with
  | case1 => rfl
  | case2 byte => rfl
  | case3 first second rest here ih =>
    rw [find, if_pos ((startsWith_crlf first second rest).mpr here)] at absent
    cases absent
  | case4 first second rest elsewhere ih =>
    rw [find, if_neg (mt (startsWith_crlf first second rest).mp elsewhere), Option.map_eq_none_iff] at absent
    rw [lines, if_neg elsewhere, ih absent]
    rfl

theorem lines_of_found (source : Bytes) (lineEnd : Nat) (found : find crlf source = some lineEnd) :
    lines source = source.take lineEnd :: lines (source.drop (lineEnd + 2)) := by
  induction source using lines.induct generalizing lineEnd with
  | case1 => simp [find, crlf] at found
  | case2 byte => simp [find, crlf] at found
  | case3 first second rest here ih =>
    rw [find, if_pos ((startsWith_crlf first second rest).mpr here)] at found
    cases found
    rw [lines, if_pos here]
    rfl
  | case4 first second rest elsewhere ih =>
    rw [find, if_neg (mt (startsWith_crlf first second rest).mp elsewhere), Option.map_eq_some_iff] at found
    obtain ⟨inner, found, rfl⟩ := found
    rw [lines, if_neg elsewhere, ih inner found]
    rfl

def headerLines (stream : Bytes) : List Bytes :=
  (lines (stream.take ((find headerSeparator stream).getD 0))).tail

def readLines (block : List Bytes) (headers : Headers) : Except String Headers :=
  block.foldlM (fun headers line => parseHeaderLine line headers) headers

section Block

variable (buffer : Bytes) (headerEnd : Nat) (found : find headerSeparator buffer = some headerEnd)

include found

theorem line_end_before (lineEnd : Nat) (here : crlf <+: buffer.drop lineEnd) (low : lineEnd < headerEnd) :
    lineEnd + 2 < headerEnd := by
  obtain ⟨ends, least⟩ := (find_eq_some_iff headerSeparator buffer headerEnd).mp found
  obtain ⟨rest, line⟩ := here
  obtain ⟨behind, block⟩ := ends
  by_contra close
  have split : headerEnd = lineEnd + 1 ∨ headerEnd = lineEnd + 2 := by omega
  rcases split with rfl | rfl
  · rw [← List.drop_drop, ← line] at block
    simp [headerSeparator, crlf] at block
  · refine least lineEnd (by omega) ⟨crlf ++ behind, ?_⟩
    rw [← List.drop_drop, ← line] at block
    have second : headerSeparator ++ behind = rest := by simpa [crlf] using block
    rw [← line, ← second, headerSeparator, List.append_assoc, List.append_assoc]

theorem lines_drop (lineStart lineEnd : Nat) (inside : lineStart < headerEnd)
    (next : findFrom crlf buffer lineStart = some lineEnd) :
    lineEnd ≤ headerEnd ∧ lines ((buffer.take headerEnd).drop lineStart) =
      slice buffer lineStart (lineEnd - lineStart) ::
        if lineEnd = headerEnd then [] else lines ((buffer.take headerEnd).drop (lineEnd + 2)) := by
  have ends := ((find_eq_some_iff headerSeparator buffer headerEnd).mp found).1
  obtain ⟨first, low, same⟩ := findFrom_of_prefix crlf buffer lineStart headerEnd (by omega)
    ((List.prefix_append crlf crlf).trans ends)
  rw [next, Option.some.injEq] at same
  subst same
  refine ⟨low, ?_⟩
  have here := (findFrom_occurs crlf buffer lineStart lineEnd next).2
  rw [findFrom, Option.map_eq_some_iff] at next
  obtain ⟨width, next, rfl⟩ := next
  have two : crlf.length = 2 := rfl
  have taken := find_take crlf (buffer.drop lineStart) width (headerEnd - lineStart) next
  rw [two] at taken
  rw [List.drop_take, Nat.add_sub_cancel_left]
  split_ifs with last
  · rw [if_neg (by omega)] at taken
    rw [lines_of_absent _ taken, ← last, Nat.add_sub_cancel_left]
    rfl
  · have gap := line_end_before buffer headerEnd found (lineStart + width) here (by omega)
    rw [if_pos (by omega)] at taken
    have rest : headerEnd - lineStart - (width + 2) = headerEnd - (lineStart + (width + 2)) := by omega
    rw [lines_of_found _ width taken, List.take_take, Nat.min_eq_left (by omega), List.drop_take, List.drop_drop,
      rest, ← List.drop_take, Nat.add_assoc]
    rfl

/-- The loop over the buffer reads the lines of the block, one after the other. -/
theorem parseHeaderLines_eq (fuel lineStart : Nat) (request : HttpRequest) (inside : lineStart < headerEnd)
    (enough : headerEnd < fuel + lineStart) :
    let block := lines ((buffer.take headerEnd).drop lineStart)
    let loop := parseHeaderLines buffer headerEnd fuel lineStart request
    (∀ headers, readLines block request.headers = .ok headers →
      loop = ⟨{ request with headers := headers }, .ok ()⟩) ∧
    (∀ message, readLines block request.headers = .error message → loop.result = .error message) := by
  induction fuel generalizing lineStart request with
  | zero => omega
  | succ fuel ih =>
    intro block loop
    have ends := ((find_eq_some_iff headerSeparator buffer headerEnd).mp found).1
    obtain ⟨lineEnd, low, next⟩ := findFrom_of_prefix crlf buffer lineStart headerEnd (by omega)
      ((List.prefix_append crlf crlf).trans ends)
    have blockEq := (lines_drop buffer headerEnd found lineStart lineEnd inside next).2
    simp only [loop, block, parseHeaderLines, if_pos inside, next, if_neg (Nat.not_lt.mpr low), blockEq, readLines,
      List.foldlM_cons]
    cases line : parseHeaderLine (slice buffer lineStart (lineEnd - lineStart)) request.headers with
    | error message =>
      constructor
      · intro headers impossible
        cases impossible
      · intro other same
        cases same
        rfl
    | ok headers =>
      split_ifs with last
      · -- behind the last line the loop ends at once
        subst last
        have ended : parseHeaderLines buffer lineEnd fuel (lineEnd + 2) { request with headers := headers } =
            ⟨{ request with headers := headers }, .ok ()⟩ := by
          cases fuel with
          | zero => rfl
          | succ fuel => rw [parseHeaderLines, if_neg (by omega)]
        constructor
        · intro final same
          cases same
          exact ended
        · intro message impossible
          cases impossible
      · obtain ⟨forward, here⟩ := findFrom_occurs crlf buffer lineStart lineEnd next
        have gap := line_end_before buffer headerEnd found lineEnd here (by omega)
        exact ih (lineEnd + 2) { request with headers := headers } gap (by omega)

theorem parseHeaderLines_reads (fuel lineStart : Nat) (request parsed : HttpRequest) (inside : lineStart < headerEnd)
    (enough : headerEnd < fuel + lineStart)
    (read : parseHeaderLines buffer headerEnd fuel lineStart request = ⟨parsed, .ok ()⟩) :
    readLines (lines ((buffer.take headerEnd).drop lineStart)) request.headers = .ok parsed.headers := by
  obtain ⟨accepted, refused⟩ := parseHeaderLines_eq buffer headerEnd found fuel lineStart request inside enough
  cases lines : readLines (lines ((buffer.take headerEnd).drop lineStart)) request.headers with
  | error message =>
    have failed := refused message lines
    rw [read] at failed
    cases failed
  | ok headers =>
    have passed := accepted headers lines
    rw [read] at passed
    cases passed
    rfl

end Block

def fieldName (line : Bytes) : Bytes := line.take ((find (text ":") line).getD line.length)

def fieldValue (line : Bytes) : Bytes := trim (line.drop ((find (text ":") line).getD line.length + 1))

/-- The name that a reader of the header takes it for. -/
def normalName (line : Bytes) : Bytes := lowercase (trim (fieldName line))

def Padded (line : Bytes) : Prop := trim (fieldName line) ≠ fieldName line

instance (line : Bytes) : Decidable (Padded line) := inferInstanceAs (Decidable (_ ≠ _))

theorem isBlank_lowercase (byte : UInt8) :
    isBlank (if 65 ≤ byte ∧ byte ≤ 90 then byte + 32 else byte) = isBlank byte := by
  split_ifs with upper
  · obtain ⟨low, high⟩ := upper
    simp only [isBlank, UInt8.le_iff_toNat_le, ← UInt8.toNat_inj, UInt8.toNat_add, UInt8.reduceToNat] at low high ⊢
    rw [decide_eq_false (by omega), decide_eq_false (by omega), decide_eq_false (by omega),
      decide_eq_false (by omega)]
  · rfl

theorem lowercase_trim (value : Bytes) : lowercase (trim value) = trim (lowercase value) := by
  have blank : isBlank ∘ (fun byte : UInt8 => if 65 ≤ byte ∧ byte ≤ 90 then byte + 32 else byte) = isBlank :=
    funext isBlank_lowercase
  simp only [lowercase, trim, List.rdropWhile, List.dropWhile_map, ← List.map_reverse, blank]

theorem length_lowercase (value : Bytes) : (lowercase value).length = value.length := List.length_map ..

theorem trim_eq_of_length (value : Bytes) (same : (trim value).length = value.length) : trim value = value := by
  have inner : trim value <+: value.dropWhile isBlank := List.rdropWhile_prefix _ _
  have outer : value.dropWhile isBlank <:+ value := List.dropWhile_suffix _
  exact (inner.sublist.trans outer.sublist).eq_of_length same

theorem lowercase_eq_iff (line name : Bytes) (clean : trim name = name) :
    lowercase (fieldName line) = name ↔ normalName line = name ∧ ¬ Padded line := by
  unfold normalName Padded
  rw [not_not]
  constructor
  · intro same
    have trimmed : lowercase (trim (fieldName line)) = name := by rw [lowercase_trim, same, clean]
    refine ⟨trimmed, trim_eq_of_length _ ?_⟩
    rw [← length_lowercase, trimmed, ← same, length_lowercase]
  · rintro ⟨same, plain⟩
    rwa [plain] at same

/-- The map after some lines: the names that were seen, and one value for the content length. -/
structure Recorded (seen : List Bytes) (headers : Headers) : Prop where
  names : ∀ name, (headers.lookup name).isSome ↔ ∃ line ∈ seen, lowercase (fieldName line) = name
  lengths : ∀ line ∈ seen, lowercase (fieldName line) = text "content-length" →
    headers.lookup (text "content-length") = some (fieldValue line)

theorem recorded_empty : Recorded [] ∅ where
  names name := by simp
  lengths line member := absurd member List.not_mem_nil

theorem insert_isSome (name value other : Bytes) (headers : Headers) :
    ((headers.insert name value).lookup other).isSome ↔ (headers.lookup other).isSome ∨ name = other := by
  by_cases same : name = other
  · subst same
    simp
  · simp [AList.lookup_insert_ne (Ne.symm same), same]

/-- What `emplace` leaves under the names. A content length stays as it was first given. -/
theorem addHeader_lookup (name value : Bytes) (headers later : Headers)
    (added : addHeader name value headers = .ok later) :
    (∀ other, (later.lookup other).isSome ↔ (headers.lookup other).isSome ∨ name = other) ∧
      (∀ first, headers.lookup (text "content-length") = some first →
        later.lookup (text "content-length") = some first) ∧
      (name = text "content-length" → later.lookup name = some value) := by
  unfold addHeader at added
  split at added
  next absent =>
    cases added
    refine ⟨fun other => insert_isSome name value other headers, fun first held => ?_,
      fun _ => AList.lookup_insert _⟩
    have different : text "content-length" ≠ name := by
      rintro rfl
      rw [absent] at held
      cases held
    rw [AList.lookup_insert_ne different, held]
  next previous present =>
    split_ifs at added with conflict other
    · cases added
      refine ⟨fun key => insert_isSome name _ key headers, fun first held => ?_, fun same => absurd same other⟩
      rw [AList.lookup_insert_ne (Ne.symm other), held]
    · cases added
      refine ⟨fun key => ?_, fun first held => held, fun same => ?_⟩
      · constructor
        · exact Or.inl
        · rintro (held | rfl)
          · exact held
          · rw [present]
            rfl
      · have agrees : previous = value := by
          by_contra different
          exact conflict ⟨same, different⟩
        rw [present, agrees]

theorem parseHeaderLine_adds (line : Bytes) (headers later : Headers)
    (read : parseHeaderLine line headers = .ok later) :
    addHeader (lowercase (fieldName line)) (fieldValue line) headers = .ok later := by
  unfold parseHeaderLine at read
  split at read
  · cases read
  next colon found =>
    dsimp only at read
    split_ifs at read
    rw [fieldName, fieldValue, found]
    exact read

theorem Recorded.step {seen : List Bytes} {headers later : Headers} (recorded : Recorded seen headers) (line : Bytes)
    (read : parseHeaderLine line headers = .ok later) : Recorded (seen ++ [line]) later := by
  obtain ⟨names, kept, length⟩ := addHeader_lookup _ _ _ _ (parseHeaderLine_adds line headers later read)
  constructor
  · intro name
    rw [names name, recorded.names name]
    simp only [List.mem_append, List.mem_singleton, or_and_right, exists_or, exists_eq_left]
  · intro other member same
    rw [List.mem_append, List.mem_singleton] at member
    rcases member with before | rfl
    · exact kept _ (recorded.lengths other before same)
    · rw [← same, length same]

theorem readLines_cons {line : Bytes} {rest : List Bytes} {headers later : Headers}
    (read : readLines (line :: rest) headers = .ok later) :
    ∃ next, parseHeaderLine line headers = .ok next ∧ readLines rest next = .ok later := by
  rw [readLines, List.foldlM_cons] at read
  cases first : parseHeaderLine line headers with
  | error message =>
    rw [first] at read
    cases read
  | ok next =>
    rw [first] at read
    exact ⟨next, rfl, read⟩

theorem readLines_recorded (block seen : List Bytes) (headers later : Headers) (recorded : Recorded seen headers)
    (read : readLines block headers = .ok later) : Recorded (seen ++ block) later := by
  induction block generalizing seen headers with
  | nil =>
    cases read
    rwa [List.append_nil]
  | cons line rest ih =>
    obtain ⟨next, first, read⟩ := readLines_cons read
    have more := ih (seen ++ [line]) next (recorded.step line first) read
    rwa [List.append_assoc, List.singleton_append] at more

def Denotes (value : Bytes) (number : Nat) : Prop :=
  value ≠ [] ∧ value.all Decimal.isDigit = true ∧ Decimal.value value = number

instance (value : Bytes) (number : Nat) : Decidable (Denotes value number) :=
  inferInstanceAs (Decidable (_ ∧ _ ∧ _))

theorem fromChars_denotes (value : Bytes) (number used : Nat) (read : fromChars value = some (number, used))
    (whole : used = value.length) : Denotes value number := by
  unfold fromChars at read
  dsimp only at read
  split_ifs at read with bad
  cases read
  have all : value.takeWhile Decimal.isDigit = value := (List.takeWhile_prefix _).eq_of_length whole
  rw [all] at bad ⊢
  refine ⟨fun empty => bad (Or.inl empty), ?_, rfl⟩
  rw [List.all_eq_true]
  exact List.takeWhile_eq_self_iff.mp all

/-- The framing that the parser has checked: the headers it finds under the framing names. -/
structure Checked (block : List Bytes) (length : Nat) : Prop where
  encoding : ∀ line ∈ block, lowercase (fieldName line) ≠ text "transfer-encoding"
  silent : (∀ line ∈ block, lowercase (fieldName line) ≠ text "content-length") → length = 0
  declared : ∀ line ∈ block, lowercase (fieldName line) = text "content-length" → Denotes (fieldValue line) length
  agreed : ∀ line ∈ block, ∀ other ∈ block, lowercase (fieldName line) = text "content-length" →
    lowercase (fieldName other) = text "content-length" → fieldValue other = fieldValue line

theorem readContentLength_checked (block : List Bytes) (headers : Headers) (maxBodyBytes length : Nat)
    (recorded : Recorded block headers) (read : readContentLength maxBodyBytes 0 headers = .ok length) :
    Checked block length := by
  unfold readContentLength at read
  split_ifs at read with encoded
  have encoding : ∀ line ∈ block, lowercase (fieldName line) ≠ text "transfer-encoding" :=
    fun line member same => encoded ((recorded.names _).mpr ⟨line, member, same⟩)
  have agreed : ∀ line ∈ block, ∀ other ∈ block, lowercase (fieldName line) = text "content-length" →
      lowercase (fieldName other) = text "content-length" → fieldValue other = fieldValue line := by
    intro line member other among lineLength otherLength
    have first := recorded.lengths line member lineLength
    rw [recorded.lengths other among otherLength] at first
    exact Option.some.inj first
  split at read
  next absent =>
    cases read
    refine ⟨encoding, fun _ => rfl, fun line member same => ?_, agreed⟩
    rw [recorded.lengths line member same] at absent
    cases absent
  next value present =>
    split at read
    · cases read
    next number used parsed =>
      split_ifs at read with whole fits
      cases read
      refine ⟨encoding, fun none => ?_, fun line member same => ?_, agreed⟩
      · obtain ⟨line, member, same⟩ := (recorded.names _).mp (by rw [present]; rfl)
        exact absurd same (none line member)
      · rw [recorded.lengths line member same] at present
        cases present
        exact fromChars_denotes _ _ _ parsed (not_not.mp whole)

theorem parseRequestLine_headers (requestLine : Bytes) (request parsed : HttpRequest)
    (read : parseRequestLine requestLine request = ⟨parsed, .ok ()⟩) : parsed.headers = request.headers := by
  unfold parseRequestLine at read
  split at read
  · cases read
  split at read
  · cases read
  dsimp only at read
  split at read
  · cases read
  split at read
  · cases read
  unfold parseTarget at read
  dsimp only at read
  split at read
  · cases read
  split at read
  · cases read
    rfl
  · cases read
    rfl

theorem readHeaderBlock_checked (buffer : Bytes) (headerEnd maxBodyBytes length : Nat) (parsed : HttpRequest)
    (found : find headerSeparator buffer = some headerEnd)
    (read : readHeaderBlock maxBodyBytes 0 buffer headerEnd {} = ⟨parsed, .ok length⟩) :
    Checked (lines (buffer.take headerEnd)).tail length := by
  unfold readHeaderBlock at read
  split at read
  · cases read
  next requestLineEnd lineFound =>
    split at read
    · cases read
    split at read
    · cases read
    next request _ requestLine =>
      split at read
      · cases read
      next final _ headerLoop =>
        rw [Parse.mk.injEq] at read
        obtain ⟨rfl, length⟩ := read
        have here := ((find_eq_some_iff crlf buffer requestLineEnd).mp lineFound).1
        have gap := line_end_before buffer headerEnd found requestLineEnd here (by omega)
        have headers := parseHeaderLines_reads buffer headerEnd found (headerEnd + 1) (requestLineEnd + 2) request _
          gap (by omega) headerLoop
        rw [parseRequestLine_headers _ _ _ requestLine] at headers
        have recorded := readLines_recorded _ [] ∅ _ recorded_empty headers
        have taken := find_take crlf buffer requestLineEnd headerEnd lineFound
        have two : crlf.length = 2 := rfl
        rw [if_pos (by omega)] at taken
        rw [lines_of_found _ requestLineEnd taken]
        exact readContentLength_checked _ _ _ _ recorded length

theorem meaning_checked (maxHeaderBytes maxBodyBytes : Nat) (stream : Bytes) (request : HttpRequest)
    (complete : meaning maxHeaderBytes maxBodyBytes stream = .request request) :
    Checked (headerLines stream) request.body.length := by
  unfold meaning at complete
  split at complete
  · split_ifs at complete
  next separator found =>
    split_ifs at complete with long
    split at complete
    · cases complete
    next parsed length block =>
      split_ifs at complete with missing
      cases complete
      have bound := (@separator_block maxBodyBytes stream separator found).1
      have four : headerSeparator.length = 4 := rfl
      have inside := find_take headerSeparator stream separator (separator + 4) found
      rw [if_pos (by omega)] at inside
      have checked := readHeaderBlock_checked _ _ _ _ _ inside block
      rw [List.take_take, Nat.min_eq_left (by omega)] at checked
      rw [headerLines, found]
      have body : (slice stream (separator + 4) length).length = length := by
        rw [slice, List.length_take, List.length_drop]
        omega
      rw [body]
      exact checked

section Feeding

variable {maxHeaderBytes maxBodyBytes : Nat}

/-- A parser either stands where the stream says or has refused a piece that was too long. -/
def Follows (maxHeaderBytes maxBodyBytes : Nat) (stream : Bytes) (fed : ParseStatus × HTTPParser) : Prop :=
  Agrees maxHeaderBytes maxBodyBytes stream fed ∨
    (fed.1 = .error ∧ fed.2.complete = false ∧ fed.2.parseError ≠ "")

theorem feed_follows (stream bytes : Bytes) (fed : ParseStatus × HTTPParser)
    (follows : Follows maxHeaderBytes maxBodyBytes stream fed) :
    Follows maxHeaderBytes maxBodyBytes (stream ++ bytes) (feed bytes fed.2) := by
  rcases follows with ⟨reads, _⟩ | ⟨_, state, complaint⟩
  · by_cases refused : fed.2.complete = false ∧ fed.2.parseError = "" ∧ Exceeds bytes fed.2
    · obtain ⟨state, quiet, exceeds⟩ := refused
      rw [feed_exceeds fed.2 bytes state quiet exceeds]
      exact Or.inr ⟨rfl, state, by simp [fail]⟩
    · exact Or.inl (feed_within fed.2 bytes (fun state quiet exceeds => refused ⟨state, quiet, exceeds⟩) reads)
  · rw [feed_failed fed.2 bytes state complaint]
    exact Or.inr ⟨rfl, state, complaint⟩

theorem feedAll_follows (pieces : List Bytes) (stream : Bytes) (fed : ParseStatus × HTTPParser)
    (follows : Follows maxHeaderBytes maxBodyBytes stream fed) :
    Follows maxHeaderBytes maxBodyBytes (stream ++ pieces.flatten)
      (pieces.foldl (fun fed bytes => feed bytes fed.2) fed) := by
  induction pieces generalizing stream fed with
  | nil => simpa using follows
  | cons piece rest ih =>
    rw [List.flatten_cons, ← List.append_assoc, List.foldl_cons]
    exact ih _ _ (feed_follows stream piece fed follows)

/-- Whatever the pieces and the limits were, a completed request is what the stream says. -/
theorem feedAll_complete (pieces : List Bytes)
    (complete : (feedAll pieces (fresh maxHeaderBytes maxBodyBytes)).1 = .complete) :
    meaning maxHeaderBytes maxBodyBytes pieces.flatten =
      .request (feedAll pieces (fresh maxHeaderBytes maxBodyBytes)).2.parsedRequest := by
  have follows := feedAll_follows pieces [] _ (Or.inl (fresh_agrees maxHeaderBytes maxBodyBytes))
  rcases follows with agrees | ⟨failed, _⟩
  · exact agrees.request complete
  · cases failed.symm.trans complete

end Feeding

def contentLength : Bytes := text "content-length"

def transferEncoding : Bytes := text "transfer-encoding"

/-- The body is as long as every framing header of the block says. -/
def Framed (block : List Bytes) (body : Bytes) : Prop :=
  (∀ line ∈ block, normalName line ≠ transferEncoding) ∧
    (∀ line ∈ block, normalName line = contentLength →
      (∀ other ∈ block, normalName other = contentLength → fieldValue other = fieldValue line) ∧
        Denotes (fieldValue line) body.length) ∧
    ((∀ line ∈ block, normalName line ≠ contentLength) → body = [])

/-- A framing header whose name stands between blanks adds nothing to the others: it is
no transfer encoding, and a content length is that of every other such line or, where
all of them are written so, zero. -/
def Unhidden (block : List Bytes) : Prop :=
  ∀ line ∈ block, Padded line → normalName line ≠ transferEncoding ∧
    (normalName line = contentLength →
      (∀ other ∈ block, normalName other = contentLength → fieldValue other = fieldValue line) ∧
        ((∀ other ∈ block, normalName other = contentLength → Padded other) → Denotes (fieldValue line) 0))

instance (block : List Bytes) (body : Bytes) : Decidable (Framed block body) :=
  inferInstanceAs (Decidable (_ ∧ _ ∧ _))

instance (block : List Bytes) : Decidable (Unhidden block) :=
  inferInstanceAs (Decidable (∀ _ ∈ _, _ → _))

theorem found_length (line : Bytes) :
    lowercase (fieldName line) = text "content-length" ↔ normalName line = contentLength ∧ ¬ Padded line :=
  lowercase_eq_iff line contentLength (by decide)

theorem found_encoding (line : Bytes) :
    lowercase (fieldName line) = text "transfer-encoding" ↔ normalName line = transferEncoding ∧ ¬ Padded line :=
  lowercase_eq_iff line transferEncoding (by decide)

section Hidden

variable {block : List Bytes} {body : Bytes}

/-- Where every content length is hidden the parser takes the body to be empty. -/
theorem Checked.unseen (checked : Checked block body.length)
    (all : ∀ line ∈ block, normalName line = contentLength → Padded line) : body.length = 0 := by
  apply checked.silent
  intro line member plain
  obtain ⟨isLength, unpadded⟩ := (found_length line).mp plain
  exact unpadded (all line member isLength)

theorem Checked.unhidden (checked : Checked block body.length) (framed : Framed block body) : Unhidden block := by
  obtain ⟨encoding, lengths, _⟩ := framed
  intro line member padded
  refine ⟨encoding line member, fun isLength => ⟨(lengths line member isLength).1, fun all => ?_⟩⟩
  rw [← checked.unseen all]
  exact (lengths line member isLength).2

theorem Checked.framed (checked : Checked block body.length) (unhidden : Unhidden block) : Framed block body := by
  have agreed : ∀ line ∈ block, normalName line = contentLength → ∀ other ∈ block,
      normalName other = contentLength → fieldValue other = fieldValue line := by
    intro line member isLength other among otherLength
    by_cases linePadded : Padded line
    · exact ((unhidden line member linePadded).2 isLength).1 other among otherLength
    by_cases otherPadded : Padded other
    · exact (((unhidden other among otherPadded).2 otherLength).1 line member isLength).symm
    exact checked.agreed line member other among ((found_length line).mpr ⟨isLength, linePadded⟩)
      ((found_length other).mpr ⟨otherLength, otherPadded⟩)
  refine ⟨fun line member encoded => ?_, fun line member isLength => ⟨agreed line member isLength, ?_⟩, fun none => ?_⟩
  · by_cases padded : Padded line
    · exact (unhidden line member padded).1 encoded
    · exact checked.encoding line member ((found_encoding line).mpr ⟨encoded, padded⟩)
  · by_cases all : ∀ other ∈ block, normalName other = contentLength → Padded other
    · -- the parser saw no length at all
      rw [checked.unseen all]
      exact ((unhidden line member (all line member isLength)).2 isLength).2 all
    · push Not at all
      obtain ⟨other, among, otherLength, plain⟩ := all
      rw [agreed other among otherLength line member isLength]
      exact checked.declared other among ((found_length other).mpr ⟨otherLength, plain⟩)
  · apply List.eq_nil_of_length_eq_zero
    exact checked.unseen fun line member isLength => absurd isLength (none line member)

end Hidden

/-- In every completed request the body has the length that the framing headers declare
exactly when no framing header is hidden behind blanks around its name. -/
theorem framing_declared (maxHeaderBytes maxBodyBytes : Nat) (pieces : List Bytes)
    (complete : (feedAll pieces (fresh maxHeaderBytes maxBodyBytes)).1 = .complete) :
    Framed (headerLines pieces.flatten) (feedAll pieces (fresh maxHeaderBytes maxBodyBytes)).2.parsedRequest.body ↔
      Unhidden (headerLines pieces.flatten) := by
  have checked := meaning_checked _ _ _ _ (feedAll_complete pieces complete)
  exact ⟨checked.unhidden, checked.framed⟩

/-- Two lengths that agree, one of them behind a name with a blank. -/
theorem framing_declared_repeated :
    let pieces := [text "POST /publish HTTP/1.1\r\nContent-Length: 2\r\ncontent-length : 2\r\n\r", text "\nab"]
    (feedAll pieces (fresh 100 100)).1 = .complete ∧
      Framed (headerLines pieces.flatten) (feedAll pieces (fresh 100 100)).2.parsedRequest.body := by
  intro pieces
  have complete : (feedAll pieces (fresh 100 100)).1 = .complete := by decide +kernel
  exact ⟨complete, (framing_declared 100 100 pieces complete).mpr (by decide +kernel)⟩

/-- A blank in front of the colon hides the length: the request completes without its body. -/
theorem framing_hidden :
    ¬ ∀ (maxHeaderBytes maxBodyBytes : Nat) (pieces : List Bytes),
      (feedAll pieces (fresh maxHeaderBytes maxBodyBytes)).1 = .complete →
        Framed (headerLines pieces.flatten)
          (feedAll pieces (fresh maxHeaderBytes maxBodyBytes)).2.parsedRequest.body := by
  intro always
  have framed := always 16384 1048576 [text "POST / HTTP/1.1\r\nContent-Length : 5\r\n\r\nhello"]
    (by decide +kernel)
  exact absurd framed (by decide +kernel)

end FleetGateway.Http.Framing
