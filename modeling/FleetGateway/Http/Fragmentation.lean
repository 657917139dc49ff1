import FleetGateway.Http.Parser

/-! What the parser makes of a stream does not depend on how the stream was cut, as long
as no piece is longer than either limit. `meaning` reads the whole stream at once. -/

namespace FleetGateway.Http.Fragmentation
open Library Library.ByteStore Library.Search Http.Parser

theorem parseHeaderLines_append (head rest : Bytes) (headerEnd : Nat) (ends : crlf <+: head.drop headerEnd)
    (inside : headerEnd ≤ head.length) (fuel lineStart : Nat) (request : HttpRequest) :
    parseHeaderLines (head ++ rest) headerEnd fuel lineStart request =
      parseHeaderLines head headerEnd fuel lineStart request := by
  induction fuel generalizing lineStart request with
  | zero => rfl
  | succ fuel ih =>
    rw [parseHeaderLines, parseHeaderLines]
    split_ifs with more
    · obtain ⟨lineEnd, low, found⟩ := findFrom_of_prefix crlf head lineStart headerEnd (by omega) ends
      rw [found, findFrom_append crlf head rest lineStart lineEnd (by omega) found]
      dsimp only
      rw [if_neg (by omega), if_neg (by omega), slice_append_left _ _ _ _ (by omega)]
      split
      · rfl
      · exact ih _ _
    · rfl

theorem readHeaderBlock_append (head rest : Bytes) (headerEnd maxBodyBytes contentLength : Nat)
    (request : HttpRequest) (ends : crlf <+: head.drop headerEnd) (inside : headerEnd ≤ head.length) :
    readHeaderBlock maxBodyBytes contentLength (head ++ rest) headerEnd request =
      readHeaderBlock maxBodyBytes contentLength head headerEnd request := by
  obtain ⟨requestLineEnd, low, found⟩ := find_of_prefix crlf head headerEnd ends
  have take : (head ++ rest).take requestLineEnd = head.take requestLineEnd :=
    List.take_append_of_le_length (by omega)
  simp only [readHeaderBlock, found, find_append crlf head rest requestLineEnd found, take,
    parseHeaderLines_append head rest headerEnd ends inside]

inductive Meaning where
  | incomplete
  | rejected
  | request (request : HttpRequest)

def Meaning.status : Meaning → ParseStatus
  | .incomplete => .incomplete
  | .rejected => .error
  | .request _ => .complete

/-- The request that a stream begins with, read from the stream in one piece. -/
def meaning (maxHeaderBytes maxBodyBytes : Nat) (stream : Bytes) : Meaning :=
  match find headerSeparator stream with
  | none => if maxHeaderBytes < stream.length then .rejected else .incomplete
  | some separator =>
    if maxHeaderBytes < separator + 4 then .rejected
    else match readHeaderBlock maxBodyBytes 0 (stream.take (separator + 4)) separator {} with
      | ⟨_, .error _⟩ => .rejected
      | ⟨request, .ok length⟩ =>
        if stream.length < separator + 4 + length then .incomplete
        else .request { request with body := slice stream (separator + 4) length }

section Stream

variable {maxHeaderBytes maxBodyBytes : Nat} {stream : Bytes}

theorem separator_block (separator : Nat) (found : find headerSeparator stream = some separator) :
    separator + 4 ≤ stream.length ∧ crlf <+: (stream.take (separator + 4)).drop separator ∧
      ∀ rest, readHeaderBlock maxBodyBytes 0 (stream.take (separator + 4) ++ rest) separator {} =
        readHeaderBlock maxBodyBytes 0 (stream.take (separator + 4)) separator {} := by
  have bound := find_bound headerSeparator stream separator found
  have here := ((find_eq_some_iff headerSeparator stream separator).mp found).1
  have four : headerSeparator.length = 4 := rfl
  rw [four] at bound
  have ends : crlf <+: (stream.take (separator + 4)).drop separator := by
    rw [List.drop_take, Nat.add_sub_cancel_left]
    have whole : headerSeparator = (stream.drop separator).take 4 := by
      rw [← four]
      exact List.prefix_iff_eq_take.mp here
    rw [← whole]
    exact List.prefix_append crlf crlf
  refine ⟨bound, ends, fun rest => ?_⟩
  apply readHeaderBlock_append _ _ _ _ _ _ ends
  rw [List.length_take]
  omega

theorem meaning_append_rejected (more : Bytes)
    (rejected : meaning maxHeaderBytes maxBodyBytes stream = .rejected) :
    meaning maxHeaderBytes maxBodyBytes (stream ++ more) = .rejected := by
  unfold meaning at rejected ⊢
  cases found : find headerSeparator stream with
  | none =>
    rw [found] at rejected
    dsimp only at rejected
    split_ifs at rejected with long
    cases later : find headerSeparator (stream ++ more) with
    | none =>
      dsimp only
      rw [if_pos (by rw [List.length_append]; omega)]
    | some separator =>
      -- a separator that the new bytes complete ends behind the header limit
      have behind := find_append_new headerSeparator stream more separator found later
      have four : headerSeparator.length = 4 := rfl
      dsimp only
      rw [if_pos (by omega)]
  | some separator =>
    have bound := (@separator_block maxBodyBytes stream separator found).1
    rw [found] at rejected
    rw [find_append headerSeparator stream more separator found]
    dsimp only at rejected ⊢
    rw [List.take_append_of_le_length bound]
    split_ifs at rejected ⊢ with long
    · rfl
    split at rejected
    · rfl
    · split_ifs at rejected

theorem meaning_append_request (more : Bytes) (request : HttpRequest)
    (complete : meaning maxHeaderBytes maxBodyBytes stream = .request request) :
    meaning maxHeaderBytes maxBodyBytes (stream ++ more) = .request request := by
  unfold meaning at complete ⊢
  cases found : find headerSeparator stream with
  | none =>
    rw [found] at complete
    dsimp only at complete
    split_ifs at complete
  | some separator =>
    have bound := (@separator_block maxBodyBytes stream separator found).1
    rw [found] at complete
    rw [find_append headerSeparator stream more separator found]
    dsimp only at complete ⊢
    rw [List.take_append_of_le_length bound]
    split_ifs at complete ⊢ with long
    split at complete
    · cases complete
    · split_ifs at complete with short
      rw [if_neg (by rw [List.length_append]; omega), slice_append_left _ _ _ _ (by omega)]
      exact complete

end Stream

theorem readContentLength_ok (maxBodyBytes length : Nat) (headers : Headers)
    (read : readContentLength maxBodyBytes 0 headers = .ok length) : length ≤ maxBodyBytes := by
  unfold readContentLength at read
  split_ifs at read
  split at read
  · cases read
    exact Nat.zero_le _
  · split at read
    · cases read
    · split_ifs at read with used fits
      cases read
      omega

theorem readHeaderBlock_ok (maxBodyBytes headerEnd length : Nat) (buffer : Bytes) (request parsed : HttpRequest)
    (read : readHeaderBlock maxBodyBytes 0 buffer headerEnd request = ⟨parsed, .ok length⟩) :
    length ≤ maxBodyBytes := by
  unfold readHeaderBlock at read
  split at read
  · cases read
  split at read
  · cases read
  split at read
  · cases read
  split at read
  · cases read
  · rw [Parse.mk.injEq] at read
    exact readContentLength_ok _ _ _ read.2

/-! Every complaint is a text, so that a parser that failed knows it. -/

theorem parseRequestLine_error (requestLine : Bytes) (request : HttpRequest) (message : String)
    (refused : (parseRequestLine requestLine request).result = .error message) : message ≠ "" := by
  unfold parseRequestLine parseTarget at refused
  split at refused
  · cases refused
    decide
  split at refused
  · cases refused
    decide
  dsimp only at refused
  split at refused
  · cases refused
    decide
  split at refused
  · cases refused
    decide
  split at refused
  · cases refused
    decide
  split at refused
  · cases refused
  · cases refused

theorem parseHeaderLine_error (line : Bytes) (headers : Headers) (message : String)
    (refused : parseHeaderLine line headers = .error message) : message ≠ "" := by
  unfold parseHeaderLine addHeader at refused
  split at refused
  · cases refused
    decide
  dsimp only at refused
  split at refused
  · cases refused
    decide
  split at refused
  · cases refused
    decide
  split at refused
  · cases refused
  split at refused
  · cases refused
    decide
  split at refused
  · cases refused
  · cases refused

theorem parseHeaderLines_error (buffer : Bytes) (headerEnd fuel lineStart : Nat) (request : HttpRequest)
    (message : String)
    (refused : (parseHeaderLines buffer headerEnd fuel lineStart request).result = .error message) :
    message ≠ "" := by
  induction fuel generalizing lineStart request with
  | zero => cases refused
  | succ fuel ih =>
    rw [parseHeaderLines] at refused
    split at refused
    · split at refused
      · cases refused
        decide
      split at refused
      · cases refused
        decide
      split at refused
      next refusal =>
        cases refused
        exact parseHeaderLine_error _ _ _ refusal
      · exact ih _ _ refused
    · cases refused

theorem readContentLength_error (maxBodyBytes contentLength : Nat) (headers : Headers) (message : String)
    (refused : readContentLength maxBodyBytes contentLength headers = .error message) : message ≠ "" := by
  unfold readContentLength at refused
  split at refused
  · cases refused
    decide
  split at refused
  · cases refused
  split at refused
  · cases refused
    decide
  split at refused
  · cases refused
    decide
  split at refused
  · cases refused
    decide
  · cases refused

theorem readHeaderBlock_error (maxBodyBytes contentLength headerEnd : Nat) (buffer : Bytes)
    (request parsed : HttpRequest) (message : String)
    (refused : readHeaderBlock maxBodyBytes contentLength buffer headerEnd request = ⟨parsed, .error message⟩) :
    message ≠ "" := by
  unfold readHeaderBlock at refused
  split at refused
  · cases refused
    decide
  split at refused
  · cases refused
    decide
  split at refused
  next line =>
    cases refused
    exact parseRequestLine_error _ _ _ (congrArg Parse.result line)
  split at refused
  next lines =>
    cases refused
    exact parseHeaderLines_error _ _ _ _ _ _ (congrArg Parse.result lines)
  · rw [Parse.mk.injEq] at refused
    exact readContentLength_error _ _ _ _ refused.2

def finished (parser : HTTPParser) : Prop := parser.complete = true ∨ parser.parseError ≠ ""

instance (parser : HTTPParser) : Decidable (finished parser) :=
  inferInstanceAs (Decidable (_ ∨ _))

/-- What the header part of `feed` does to a parser, with the status it returns at once. -/
inductive HeaderStep (parser : HTTPParser) : Option ParseStatus → HTTPParser → Prop
  | behind (behind : parser.headersParsed = true) : HeaderStep parser none parser
  | waiting (ahead : parser.headersParsed = false) (short : parser.buffer.length ≤ parser.maxHeaderBytes)
      (absent : find headerSeparator parser.buffer = none) : HeaderStep parser (some .incomplete) parser
  | refused (request : HttpRequest) (message : String) (complaint : message ≠ "") :
      HeaderStep parser (some .error) { parser with parsedRequest := request, parseError := message }
  | accepted (ahead : parser.headersParsed = false) (separator length : Nat) (request : HttpRequest)
      (block : readHeaderBlock parser.maxBodyBytes parser.contentLength parser.buffer separator parser.parsedRequest =
        ⟨request, .ok length⟩) :
      HeaderStep parser none { parser with
        parsedRequest := request, contentLength := length, headersParsed := true
        buffer := parser.buffer.drop (separator + 4) }

theorem takeHeaders_step {parser left : HTTPParser} {ended : Option ParseStatus}
    (taken : takeHeaders parser = (ended, left)) : HeaderStep parser ended left := by
  unfold takeHeaders at taken
  dsimp only at taken
  split at taken
  next behind =>
    cases taken
    exact .behind behind
  next unparsed =>
  have ahead := Bool.eq_false_of_not_eq_true unparsed
  split at taken
  next absent =>
    split at taken
    · cases taken
      exact .refused parser.parsedRequest _ (by decide)
    next short =>
      cases taken
      exact .waiting ahead (Nat.le_of_not_lt short) absent
  next separator found =>
    split at taken
    · cases taken
      exact .refused parser.parsedRequest _ (by decide)
    unfold parseHeaders at taken
    cases block : readHeaderBlock parser.maxBodyBytes parser.contentLength parser.buffer separator
        parser.parsedRequest with
    | mk request result =>
    rw [block] at taken
    cases result with
    | error message =>
      cases taken
      exact .refused request message (readHeaderBlock_error _ _ _ _ _ _ _ block)
    | ok length =>
      cases taken
      exact .accepted ahead separator length request block

theorem feed_finished (bytes : Bytes) (parser left : HTTPParser) (status : ParseStatus)
    (fed : feed bytes parser = (status, left)) (final : status ≠ .incomplete) : finished left := by
  unfold feed at fed
  dsimp only at fed
  split at fed
  next done =>
    cases fed
    exact done
  split at fed
  · cases fed
    exact Or.inr (by simp)
  split at fed
  next taken =>
    cases fed
    cases takeHeaders_step taken with
    | waiting ahead short absent => exact absurd rfl final
    | refused request message complaint => exact Or.inr complaint
  next taken =>
    unfold takeBody at fed
    split at fed
    · cases fed
      exact absurd rfl final
    · cases fed
      exact Or.inl rfl

/-- The state of a parser that has been fed a stream in short pieces. -/
inductive Reads (maxHeaderBytes maxBodyBytes : Nat) (stream : Bytes) : HTTPParser → Prop
  | heading (parser : HTTPParser) (absent : find headerSeparator stream = none)
      (short : stream.length ≤ maxHeaderBytes)
      (state : parser = { fresh maxHeaderBytes maxBodyBytes with buffer := stream }) :
      Reads maxHeaderBytes maxBodyBytes stream parser
  | body (parser : HTTPParser) (separator length : Nat) (request : HttpRequest)
      (found : find headerSeparator stream = some separator) (short : separator + 4 ≤ maxHeaderBytes)
      (block : readHeaderBlock maxBodyBytes 0 (stream.take (separator + 4)) separator {} = ⟨request, .ok length⟩)
      (missing : stream.length < separator + 4 + length)
      (state : parser = { fresh maxHeaderBytes maxBodyBytes with
        buffer := stream.drop (separator + 4), parsedRequest := request, contentLength := length,
        headersParsed := true }) :
      Reads maxHeaderBytes maxBodyBytes stream parser
  | done (parser : HTTPParser) (request : HttpRequest)
      (complete : meaning maxHeaderBytes maxBodyBytes stream = .request request)
      (state : parser.complete = true) (same : parser.parsedRequest = request) :
      Reads maxHeaderBytes maxBodyBytes stream parser
  | failed (parser : HTTPParser) (rejected : meaning maxHeaderBytes maxBodyBytes stream = .rejected)
      (state : parser.complete = false) (complaint : parser.parseError ≠ "") :
      Reads maxHeaderBytes maxBodyBytes stream parser

section Feeding

variable {maxHeaderBytes maxBodyBytes : Nat} {stream : Bytes}

def Agrees (maxHeaderBytes maxBodyBytes : Nat) (stream : Bytes) (fed : ParseStatus × HTTPParser) : Prop :=
  Reads maxHeaderBytes maxBodyBytes stream fed.2 ∧
    fed.1 = (meaning maxHeaderBytes maxBodyBytes stream).status

theorem takeBody_agrees (separator length : Nat) (request : HttpRequest)
    (found : find headerSeparator stream = some separator) (short : separator + 4 ≤ maxHeaderBytes)
    (block : readHeaderBlock maxBodyBytes 0 (stream.take (separator + 4)) separator {} = ⟨request, .ok length⟩) :
    Agrees maxHeaderBytes maxBodyBytes stream (takeBody { fresh maxHeaderBytes maxBodyBytes with
      buffer := stream.drop (separator + 4), parsedRequest := request, contentLength := length,
      headersParsed := true }) := by
  have bound := (@separator_block maxBodyBytes stream separator found).1
  have reading : meaning maxHeaderBytes maxBodyBytes stream =
      if stream.length < separator + 4 + length then .incomplete
      else .request { request with body := slice stream (separator + 4) length } := by
    simp only [meaning, found, if_neg (Nat.not_lt.mpr short), block]
  unfold takeBody
  dsimp only
  by_cases missing : stream.length < separator + 4 + length
  · rw [if_pos (by rw [List.length_drop]; omega)]
    rw [if_pos missing] at reading
    exact ⟨.body _ separator length request found short block missing rfl, by rw [reading]; rfl⟩
  · rw [if_neg (by rw [List.length_drop]; omega)]
    rw [if_neg missing] at reading
    exact ⟨.done _ _ reading rfl rfl, by rw [reading]; rfl⟩

theorem takeHeaders_agrees (stream : Bytes) :
    Agrees maxHeaderBytes maxBodyBytes stream
      (match takeHeaders { fresh maxHeaderBytes maxBodyBytes with buffer := stream } with
      | (some status, left) => (status, left)
      | (none, left) => takeBody left) := by
  cases found : find headerSeparator stream with
  | none =>
    by_cases long : maxHeaderBytes < stream.length
    · have rejected : meaning maxHeaderBytes maxBodyBytes stream = .rejected := by
        simp only [meaning, found, if_pos long]
      simp only [takeHeaders, fresh, Bool.false_eq_true, found, long, ↓reduceIte, fail, Prod.map]
      exact ⟨.failed _ rejected rfl (by simp), by rw [rejected]; rfl⟩
    · have reading : meaning maxHeaderBytes maxBodyBytes stream = .incomplete := by
        simp only [meaning, found, if_neg long]
      simp only [takeHeaders, fresh, Bool.false_eq_true, found, long, ↓reduceIte]
      exact ⟨.heading _ found (by omega) rfl, by rw [reading]; rfl⟩
  | some separator =>
    by_cases long : maxHeaderBytes < separator + 4
    · have rejected : meaning maxHeaderBytes maxBodyBytes stream = .rejected := by
        simp only [meaning, found, if_pos long]
      simp only [takeHeaders, fresh, Bool.false_eq_true, found, long, ↓reduceIte, fail, Prod.map]
      exact ⟨.failed _ rejected rfl (by simp), by rw [rejected]; rfl⟩
    · obtain ⟨_, _, append⟩ := @separator_block maxBodyBytes stream separator found
      have block := append (stream.drop (separator + 4))
      rw [List.take_append_drop] at block
      cases read : readHeaderBlock maxBodyBytes 0 (stream.take (separator + 4)) separator {} with
      | mk request result =>
      rw [read] at block
      cases result with
      | error message =>
        have rejected : meaning maxHeaderBytes maxBodyBytes stream = .rejected := by
          simp only [meaning, found, if_neg long, read]
        simp only [takeHeaders, fresh, Bool.false_eq_true, found, long, ↓reduceIte, parseHeaders, block, fail]
        exact ⟨.failed _ rejected rfl (readHeaderBlock_error _ _ _ _ _ _ _ read), by rw [rejected]; rfl⟩
      | ok length =>
        simp only [takeHeaders, fresh, Bool.false_eq_true, found, long, ↓reduceIte, parseHeaders, block]
        exact takeBody_agrees separator length request found (by omega) read

def Exceeds (bytes : Bytes) (parser : HTTPParser) : Prop :=
  (parser.maxHeaderBytes + parser.maxBodyBytes) % 2 ^ 64 < parser.buffer.length ∨
    (parser.maxHeaderBytes + parser.maxBodyBytes) % 2 ^ 64 - parser.buffer.length < bytes.length

instance (bytes : Bytes) (parser : HTTPParser) : Decidable (Exceeds bytes parser) :=
  inferInstanceAs (Decidable (_ ∨ _))

theorem feed_complete (parser : HTTPParser) (bytes : Bytes) (done : parser.complete = true) :
    feed bytes parser = (.complete, parser) := by
  simp only [feed, done, true_or, ↓reduceIte]

theorem feed_failed (parser : HTTPParser) (bytes : Bytes) (state : parser.complete = false)
    (complaint : parser.parseError ≠ "") : feed bytes parser = (.error, parser) := by
  simp only [feed, state, complaint, ne_eq, not_false_eq_true, or_true, ↓reduceIte, Bool.false_eq_true]

/-- A parser that is still reading refuses a piece that is too long as a whole. -/
theorem feed_exceeds (parser : HTTPParser) (bytes : Bytes) (reading : parser.complete = false)
    (quiet : parser.parseError = "") (exceeds : Exceeds bytes parser) :
    feed bytes parser = fail "request exceeds configured size limit" parser := by
  have active : ¬ (parser.complete = true ∨ parser.parseError ≠ "") := by simp [reading, quiet]
  unfold Exceeds at exceeds
  unfold feed
  exact (if_neg active).trans (if_pos exceeds)

theorem feed_fits (parser : HTTPParser) (bytes : Bytes) (reading : parser.complete = false)
    (quiet : parser.parseError = "") (within : ¬ Exceeds bytes parser) :
    feed bytes parser = match takeHeaders { parser with buffer := parser.buffer ++ bytes } with
      | (some status, left) => (status, left)
      | (none, left) => takeBody left := by
  have active : ¬ (parser.complete = true ∨ parser.parseError ≠ "") := by simp [reading, quiet]
  unfold Exceeds at within
  unfold feed
  exact (if_neg active).trans (if_neg within)

theorem feed_within (parser : HTTPParser) (bytes : Bytes)
    (within : parser.complete = false → parser.parseError = "" → ¬ Exceeds bytes parser)
    (reads : Reads maxHeaderBytes maxBodyBytes stream parser) :
    Agrees maxHeaderBytes maxBodyBytes (stream ++ bytes) (feed bytes parser) := by
  cases reads with
  | heading absent short state =>
    subst state
    rw [feed_fits _ bytes rfl rfl (within rfl rfl)]
    exact takeHeaders_agrees (stream ++ bytes)
  | body separator length request found short block missing state =>
    subst state
    have bound := (@separator_block maxBodyBytes stream separator found).1
    rw [feed_fits _ bytes rfl rfl (within rfl rfl)]
    have agrees := @takeBody_agrees maxHeaderBytes maxBodyBytes (stream ++ bytes) separator length request
      (find_append headerSeparator stream bytes separator found) short
      (by rw [List.take_append_of_le_length bound]; exact block)
    rw [List.drop_append_of_le_length bound] at agrees
    exact agrees
  | done request complete state same =>
    have later := meaning_append_request bytes request complete
    rw [feed_complete parser bytes state]
    exact ⟨.done _ request later state same, by rw [later]; rfl⟩
  | failed rejected state complaint =>
    have later := meaning_append_rejected bytes rejected
    rw [feed_failed parser bytes state complaint]
    exact ⟨.failed _ later state complaint, by rw [later]; rfl⟩

theorem feed_agrees (parser : HTTPParser) (bytes : Bytes) (small : maxHeaderBytes + maxBodyBytes < 2 ^ 64)
    (headerFits : bytes.length ≤ maxHeaderBytes) (bodyFits : bytes.length ≤ maxBodyBytes)
    (reads : Reads maxHeaderBytes maxBodyBytes stream parser) :
    Agrees maxHeaderBytes maxBodyBytes (stream ++ bytes) (feed bytes parser) := by
  refine feed_within parser bytes (fun reading quiet => ?_) reads
  unfold Exceeds
  cases reads with
  | heading absent short state =>
    subst state
    rw [show (fresh maxHeaderBytes maxBodyBytes).maxHeaderBytes + (fresh maxHeaderBytes maxBodyBytes).maxBodyBytes =
      maxHeaderBytes + maxBodyBytes from rfl, Nat.mod_eq_of_lt small]
    dsimp only
    omega
  | body separator length request found short block missing state =>
    subst state
    have bound := (@separator_block maxBodyBytes stream separator found).1
    have lengthFits := readHeaderBlock_ok _ _ _ _ _ _ block
    have rest : (stream.drop (separator + 4)).length = stream.length - (separator + 4) := List.length_drop
    rw [show (fresh maxHeaderBytes maxBodyBytes).maxHeaderBytes + (fresh maxHeaderBytes maxBodyBytes).maxBodyBytes =
      maxHeaderBytes + maxBodyBytes from rfl, Nat.mod_eq_of_lt small]
    dsimp only
    omega
  | done request complete state same => exact absurd state (by rw [reading]; decide)
  | failed rejected state complaint => exact absurd quiet complaint

theorem feedAll_agrees (pieces : List Bytes) (small : maxHeaderBytes + maxBodyBytes < 2 ^ 64)
    (short : ∀ piece ∈ pieces, piece.length ≤ min maxHeaderBytes maxBodyBytes) (fed : ParseStatus × HTTPParser)
    (agrees : Agrees maxHeaderBytes maxBodyBytes stream fed) :
    Agrees maxHeaderBytes maxBodyBytes (stream ++ pieces.flatten)
      (pieces.foldl (fun fed bytes => feed bytes fed.2) fed) := by
  induction pieces generalizing stream fed with
  | nil => simpa using agrees
  | cons piece rest ih =>
    have fits := short piece List.mem_cons_self
    have next := feed_agrees fed.2 piece small (by omega) (by omega) agrees.1
    rw [List.flatten_cons, ← List.append_assoc, List.foldl_cons]
    exact ih (fun other member => short other (List.mem_cons_of_mem _ member)) _ next

end Feeding

theorem fresh_agrees (maxHeaderBytes maxBodyBytes : Nat) :
    Agrees maxHeaderBytes maxBodyBytes [] (.incomplete, fresh maxHeaderBytes maxBodyBytes) := by
  have absent : find headerSeparator [] = none := by decide
  refine ⟨.heading _ absent (Nat.zero_le _) rfl, ?_⟩
  simp [meaning, absent, Meaning.status]

theorem Agrees.request {maxHeaderBytes maxBodyBytes : Nat} {stream : Bytes} {fed : ParseStatus × HTTPParser}
    (agrees : Agrees maxHeaderBytes maxBodyBytes stream fed) (complete : fed.1 = .complete) :
    meaning maxHeaderBytes maxBodyBytes stream = .request fed.2.parsedRequest := by
  obtain ⟨reads, status⟩ := agrees
  rw [complete] at status
  cases reads with
  | heading absent short state =>
    rw [meaning, absent] at status
    dsimp only at status
    rw [if_neg (by omega)] at status
    cases status
  | body separator length request found short block missing state =>
    simp only [meaning, found, if_neg (Nat.not_lt.mpr short), block, if_pos missing] at status
    cases status
  | done request finished state same => rw [finished, same]
  | failed rejected state complaint =>
    rw [rejected] at status
    cases status

/-- Two cuts of one stream into pieces no longer than either limit end in the same
status and, when that is complete, with the same request; so does the stream fed
byte by byte. -/
theorem fragmentation_invariant (maxHeaderBytes maxBodyBytes : Nat)
    (small : maxHeaderBytes + maxBodyBytes < 2 ^ 64) (first second : List Bytes)
    (firstShort : ∀ piece ∈ first, piece.length ≤ min maxHeaderBytes maxBodyBytes)
    (secondShort : ∀ piece ∈ second, piece.length ≤ min maxHeaderBytes maxBodyBytes)
    (same : first.flatten = second.flatten) :
    let parser := fresh maxHeaderBytes maxBodyBytes
    let bytewise := first.flatten.map fun byte => [byte]
    (feedAll first parser).1 = (feedAll second parser).1 ∧
      (feedAll first parser).1 = (feedAll bytewise parser).1 ∧
      ((feedAll first parser).1 = .complete →
        (feedAll first parser).2.parsedRequest = (feedAll second parser).2.parsedRequest ∧
        (feedAll first parser).2.parsedRequest = (feedAll bytewise parser).2.parsedRequest) := by
  intro parser bytewise
  have all : ∀ pieces : List Bytes, (∀ piece ∈ pieces, piece.length ≤ min maxHeaderBytes maxBodyBytes) →
      pieces.flatten = first.flatten →
      Agrees maxHeaderBytes maxBodyBytes first.flatten (feedAll pieces parser) := by
    intro pieces short whole
    have agrees := feedAll_agrees pieces small short _ (fresh_agrees maxHeaderBytes maxBodyBytes)
    rwa [List.nil_append, whole] at agrees
  have bytes : ∀ piece ∈ bytewise, piece.length ≤ min maxHeaderBytes maxBodyBytes := by
    intro piece member
    obtain ⟨byte, present, rfl⟩ := List.mem_map.mp member
    -- the byte lies in some piece of the first cut, so neither limit is zero
    obtain ⟨source, among, inside⟩ := List.mem_flatten.mp present
    have nonempty := List.length_pos_of_mem inside
    have limit := firstShort source among
    rw [List.length_singleton]
    omega
  have joined : bytewise.flatten = first.flatten := by
    rw [← List.flatMap_def]
    exact List.flatMap_singleton' _
  have firstAgrees := all first firstShort rfl
  have secondAgrees := all second secondShort same.symm
  have bytesAgree := all bytewise bytes joined
  have statuses : (feedAll first parser).1 = (feedAll second parser).1 := by rw [firstAgrees.2, secondAgrees.2]
  have bytesStatus : (feedAll first parser).1 = (feedAll bytewise parser).1 := by
    rw [firstAgrees.2, bytesAgree.2]
  refine ⟨statuses, bytesStatus, fun complete => ?_⟩
  have request := firstAgrees.request complete
  constructor
  · exact Meaning.request.inj (request.symm.trans (secondAgrees.request (statuses ▸ complete)))
  · exact Meaning.request.inj (request.symm.trans (bytesAgree.request (bytesStatus ▸ complete)))

/-- A cut inside the separator and one inside the header line, with a byte behind the body. -/
theorem fragmentation_invariant_split_separator :
    let first := [text "POST /publish HTTP/1.1\r\nContent-Length: 2\r\n\r", text "\nabc"]
    let second := [text "POST /publish HTTP/1.1\r\nContent-Le", text "ngth: 2\r\n\r\nab", text "c"]
    let parser := fresh 100 100
    let bytewise := first.flatten.map fun byte => [byte]
    (feedAll first parser).1 = .complete ∧ (feedAll first parser).2.parsedRequest.body = text "ab" ∧
    (feedAll first parser).1 = (feedAll second parser).1 ∧
      (feedAll first parser).1 = (feedAll bytewise parser).1 ∧
      ((feedAll first parser).1 = .complete →
        (feedAll first parser).2.parsedRequest = (feedAll second parser).2.parsedRequest ∧
        (feedAll first parser).2.parsedRequest = (feedAll bytewise parser).2.parsedRequest) :=
  ⟨by decide +kernel, by decide +kernel,
    fragmentation_invariant 100 100 (by decide) _ _ (by decide +kernel) (by decide +kernel) (by decide +kernel)⟩

end FleetGateway.Http.Fragmentation
