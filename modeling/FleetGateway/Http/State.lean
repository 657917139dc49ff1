import FleetGateway.Http.Fragmentation

/-! What a parser can be between two pieces: how much it has buffered, and which of its flags, texts
and lengths go together. -/

namespace FleetGateway.Http.State
open Library Library.ByteStore Library.Search Http.Parser Fragmentation

structure Reading (maxHeaderBytes maxBodyBytes : Nat) (parser : HTTPParser) : Prop where
  headerLimit : parser.maxHeaderBytes = maxHeaderBytes
  bodyLimit : parser.maxBodyBytes = maxBodyBytes
  buffered : parser.buffer.length ≤ maxHeaderBytes + maxBodyBytes
  incomplete : parser.complete = false
  quiet : parser.parseError = ""
  fits : parser.contentLength ≤ maxBodyBytes
  unset : parser.headersParsed = false → parser.contentLength = 0

/-- The stages of a parser, each under the status that was returned last. -/
inductive Stage (maxHeaderBytes maxBodyBytes : Nat) : ParseStatus → HTTPParser → Prop
  | heading {parser : HTTPParser} (reading : Reading maxHeaderBytes maxBodyBytes parser)
      (ahead : parser.headersParsed = false) (short : parser.buffer.length ≤ maxHeaderBytes)
      (absent : find headerSeparator parser.buffer = none) :
      Stage maxHeaderBytes maxBodyBytes .incomplete parser
  | body {parser : HTTPParser} (reading : Reading maxHeaderBytes maxBodyBytes parser)
      (behind : parser.headersParsed = true) (missing : parser.buffer.length < parser.contentLength) :
      Stage maxHeaderBytes maxBodyBytes .incomplete parser
  | done {parser : HTTPParser} (buffered : parser.buffer.length ≤ maxHeaderBytes + maxBodyBytes)
      (complete : parser.complete = true) (quiet : parser.parseError = "")
      (whole : parser.parsedRequest.body.length = parser.contentLength) (fits : parser.contentLength ≤ maxBodyBytes) :
      Stage maxHeaderBytes maxBodyBytes .complete parser
  | failed {parser : HTTPParser} (buffered : parser.buffer.length ≤ maxHeaderBytes + maxBodyBytes)
      (incomplete : parser.complete = false) (complaint : parser.parseError ≠ "") :
      Stage maxHeaderBytes maxBodyBytes .error parser

section Steps

variable {maxHeaderBytes maxBodyBytes : Nat} {status : ParseStatus} {parser left : HTTPParser}

theorem Reading.fail (reading : Reading maxHeaderBytes maxBodyBytes parser) (request : HttpRequest) {message : String}
    (complaint : message ≠ "") :
    Stage maxHeaderBytes maxBodyBytes .error { parser with parsedRequest := request, parseError := message } :=
  .failed reading.buffered reading.incomplete complaint

theorem takeBody_stage (reading : Reading maxHeaderBytes maxBodyBytes parser) (behind : parser.headersParsed = true) :
    Stage maxHeaderBytes maxBodyBytes (takeBody parser).1 (takeBody parser).2 := by
  unfold takeBody
  split
  next missing => exact .body reading behind missing
  next enough =>
    refine .done reading.buffered rfl reading.quiet ?_ reading.fits
    change (parser.buffer.take parser.contentLength).length = parser.contentLength
    rw [List.length_take]
    omega

theorem takeBody_waiting (taken : takeBody parser = (.incomplete, left)) : left = parser := by
  unfold takeBody at taken
  split at taken
  · cases taken
    rfl
  · cases taken

theorem takeHeaders_reading (reading : Reading maxHeaderBytes maxBodyBytes parser)
    (taken : takeHeaders parser = (none, left)) :
    Reading maxHeaderBytes maxBodyBytes left ∧ left.headersParsed = true := by
  cases takeHeaders_step taken with
  | behind behind => exact ⟨reading, behind⟩
  | accepted ahead separator length request block =>
    rw [reading.unset ahead] at block
    have fits := readHeaderBlock_ok _ _ _ _ _ _ block
    have buffered := reading.buffered
    refine ⟨⟨reading.headerLimit, reading.bodyLimit, ?_, reading.incomplete, reading.quiet, ?_, ?_⟩, rfl⟩
    · dsimp only
      rw [List.length_drop]
      omega
    · rw [← reading.bodyLimit]
      exact fits
    · intro impossible
      cases impossible

theorem takeHeaders_stage (reading : Reading maxHeaderBytes maxBodyBytes parser)
    (taken : takeHeaders parser = (some status, left)) : Stage maxHeaderBytes maxBodyBytes status left := by
  cases takeHeaders_step taken with
  | waiting ahead short absent =>
    rw [reading.headerLimit] at short
    exact .heading reading ahead short absent
  | refused request message complaint => exact reading.fail request complaint

theorem feed_reading (small : maxHeaderBytes + maxBodyBytes < 2 ^ 64) (bytes : Bytes)
    (reading : Reading maxHeaderBytes maxBodyBytes parser) :
    Stage maxHeaderBytes maxBodyBytes (feed bytes parser).1 (feed bytes parser).2 := by
  have limit : (parser.maxHeaderBytes + parser.maxBodyBytes) % 2 ^ 64 = maxHeaderBytes + maxBodyBytes := by
    rw [reading.headerLimit, reading.bodyLimit, Nat.mod_eq_of_lt small]
  by_cases exceeds : Exceeds bytes parser
  · rw [feed_exceeds parser bytes reading.incomplete reading.quiet exceeds]
    exact reading.fail parser.parsedRequest (by decide)
  · rw [feed_fits parser bytes reading.incomplete reading.quiet exceeds]
    have buffered : (parser.buffer ++ bytes).length ≤ maxHeaderBytes + maxBodyBytes := by
      unfold Exceeds at exceeds
      rw [limit] at exceeds
      rw [List.length_append]
      omega
    have longer : Reading maxHeaderBytes maxBodyBytes { parser with buffer := parser.buffer ++ bytes } :=
      ⟨reading.headerLimit, reading.bodyLimit, buffered, reading.incomplete, reading.quiet, reading.fits, reading.unset⟩
    cases taken : takeHeaders { parser with buffer := parser.buffer ++ bytes } with
    | mk ended left =>
    cases ended with
    | none =>
      obtain ⟨going, behind⟩ := takeHeaders_reading longer taken
      exact takeBody_stage going behind
    | some status => exact takeHeaders_stage longer taken

theorem Stage.feed_final (stage : Stage maxHeaderBytes maxBodyBytes status parser) (final : status ≠ .incomplete)
    (bytes : Bytes) : feed bytes parser = (status, parser) := by
  cases stage with
  | heading reading ahead short absent => exact absurd rfl final
  | body reading behind missing => exact absurd rfl final
  | done buffered complete quiet whole fits => exact feed_complete parser bytes complete
  | failed buffered incomplete complaint => exact feed_failed parser bytes incomplete complaint

theorem Stage.feed (small : maxHeaderBytes + maxBodyBytes < 2 ^ 64) (bytes : Bytes)
    (stage : Stage maxHeaderBytes maxBodyBytes status parser) :
    Stage maxHeaderBytes maxBodyBytes (feed bytes parser).1 (feed bytes parser).2 := by
  cases stage with
  | heading reading ahead short absent => exact feed_reading small bytes reading
  | body reading behind missing => exact feed_reading small bytes reading
  | done buffered complete quiet whole fits =>
    have stays : Stage maxHeaderBytes maxBodyBytes .complete parser := .done buffered complete quiet whole fits
    rw [stays.feed_final (by decide)]
    exact stays
  | failed buffered incomplete complaint =>
    have stays : Stage maxHeaderBytes maxBodyBytes .error parser := .failed buffered incomplete complaint
    rw [stays.feed_final (by decide)]
    exact stays

/-- From whatever state, a parser that wants more has nothing to complain about. -/
theorem feed_quiet (bytes : Bytes) (fed : feed bytes parser = (.incomplete, left)) : left.parseError = "" := by
  by_cases done : parser.complete = true ∨ parser.parseError ≠ ""
  · rw [feed, if_pos done] at fed
    split_ifs at fed <;> cases fed
  obtain ⟨incomplete, quiet⟩ := not_or.mp done
  rw [not_not] at quiet
  by_cases exceeds : Exceeds bytes parser
  · rw [feed_exceeds parser bytes (Bool.eq_false_of_not_eq_true incomplete) quiet exceeds] at fed
    cases fed
  rw [feed_fits parser bytes (Bool.eq_false_of_not_eq_true incomplete) quiet exceeds] at fed
  cases taken : takeHeaders { parser with buffer := parser.buffer ++ bytes } with
  | mk ended middle =>
  rw [taken] at fed
  cases takeHeaders_step taken with
  | behind behind =>
    rw [takeBody_waiting fed]
    exact quiet
  | waiting ahead short absent =>
    cases fed
    exact quiet
  | refused request message complaint => cases fed
  | accepted ahead separator length request block =>
    rw [takeBody_waiting fed]
    exact quiet

end Steps

theorem fresh_stage (maxHeaderBytes maxBodyBytes : Nat) :
    Stage maxHeaderBytes maxBodyBytes .incomplete (fresh maxHeaderBytes maxBodyBytes) :=
  .heading ⟨rfl, rfl, Nat.zero_le _, rfl, rfl, Nat.zero_le _, fun _ => rfl⟩ rfl (Nat.zero_le _) rfl

theorem feedAll_concat (pieces : List Bytes) (last : Bytes) (parser : HTTPParser) :
    feedAll (pieces ++ [last]) parser = feed last (feedAll pieces parser).2 :=
  List.foldl_concat _ _ _ _

theorem feedAll_stage {maxHeaderBytes maxBodyBytes : Nat} (small : maxHeaderBytes + maxBodyBytes < 2 ^ 64)
    (pieces : List Bytes) :
    let fed := feedAll pieces (fresh maxHeaderBytes maxBodyBytes)
    Stage maxHeaderBytes maxBodyBytes fed.1 fed.2 := by
  induction pieces using List.reverseRecOn with
  | nil => exact fresh_stage maxHeaderBytes maxBodyBytes
  | append_singleton pieces last ih =>
    rw [feedAll_concat]
    exact ih.feed small last

theorem feedAll_final {maxHeaderBytes maxBodyBytes : Nat} (small : maxHeaderBytes + maxBodyBytes < 2 ^ 64)
    (pieces later : List Bytes) :
    let fed := feedAll pieces (fresh maxHeaderBytes maxBodyBytes)
    fed.1 ≠ .incomplete → feedAll (pieces ++ later) (fresh maxHeaderBytes maxBodyBytes) = fed := by
  intro fed final
  have stage : Stage maxHeaderBytes maxBodyBytes fed.1 fed.2 := feedAll_stage small pieces
  induction later using List.reverseRecOn with
  | nil => rw [List.append_nil]
  | append_singleton later last ih =>
    rw [← List.append_assoc, feedAll_concat, ih]
    exact stage.feed_final final last

end FleetGateway.Http.State
