import FleetGateway.Http.State
import FleetGateway.Network.EventLoop

/-! What a client can make of its parser, and what `handle_client` can meet when it reads. -/

namespace FleetGateway.Network.Reading
open Library Library.ByteStore Library.Search Http.Parser Http.Fragmentation Http.State EventLoop

/-- Behind a piece that the parser took the read loop never finds a complaint. -/
theorem readLoop_never_complains (reads : List ReadOutcome) (connection : Connection) :
    (readLoop reads connection).1 ≠ .complained := by
  induction reads generalizing connection with
  | nil => exact ReadEnd.noConfusion
  | cons outcome rest ih =>
    cases outcome with
    | again => exact ReadEnd.noConfusion
    | interrupted => exact ih connection
    | failed => exact ReadEnd.noConfusion
    | bytes data =>
      unfold readLoop
      split
      · exact ReadEnd.noConfusion
      dsimp only
      cases fed : feed (connection.inbound ++ data.take 1024) connection.parser with
      | mk status left =>
      cases status with
      | error => exact ReadEnd.noConfusion
      | complete => exact ReadEnd.noConfusion
      | incomplete =>
        dsimp only
        rw [if_neg (not_not.mpr (feed_quiet _ fed))]
        exact ih _

/-- What holds of a parser after any pieces: its memory is bounded by the limits, it waits for the end
of the headers or of the body, it is never both complete and in error, and once it is one of them it
stays as it is. -/
theorem parser_bounded (maxHeaderBytes maxBodyBytes : Nat) (small : maxHeaderBytes + maxBodyBytes < 2 ^ 64)
    (pieces later : List Bytes) :
    let fed := feedAll pieces (fresh maxHeaderBytes maxBodyBytes)
    let parser := fed.2
    parser.buffer.length ≤ maxHeaderBytes + maxBodyBytes ∧
    (fed.1 = .incomplete →
      (parser.headersParsed = false ∧ parser.buffer.length ≤ maxHeaderBytes ∧ ¬ headerSeparator <:+: parser.buffer) ∨
      (parser.headersParsed = true ∧ parser.contentLength ≤ maxBodyBytes ∧
        parser.buffer.length < parser.contentLength)) ∧
    ¬ (parser.complete = true ∧ parser.parseError ≠ "") ∧
    (fed.1 = .incomplete ∨ fed.1 = .complete → parser.parseError = "") ∧
    (∀ reads connection, (readLoop reads connection).1 ≠ .complained) ∧
    (fed.1 = .complete →
      parser.parsedRequest.body.length = parser.contentLength ∧ parser.contentLength ≤ maxBodyBytes) ∧
    (fed.1 ≠ .incomplete → feedAll (pieces ++ later) (fresh maxHeaderBytes maxBodyBytes) = fed) := by
  intro fed parser
  have stays : fed.1 ≠ .incomplete → feedAll (pieces ++ later) (fresh maxHeaderBytes maxBodyBytes) = fed :=
    feedAll_final small pieces later
  have stage : Stage maxHeaderBytes maxBodyBytes fed.1 parser := feedAll_stage small pieces
  generalize fed.1 = status at stage stays ⊢
  cases stage with
  | heading reading ahead short absent =>
    refine ⟨reading.buffered, fun _ => .inl ⟨ahead, short, find_none_infix _ _ absent⟩,
      fun both => both.2 reading.quiet, fun _ => reading.quiet, readLoop_never_complains, fun impossible => ?_, stays⟩
    cases impossible
  | body reading behind missing =>
    refine ⟨reading.buffered, fun _ => .inr ⟨behind, reading.fits, missing⟩, fun both => both.2 reading.quiet,
      fun _ => reading.quiet, readLoop_never_complains, fun impossible => ?_, stays⟩
    cases impossible
  | done buffered complete quiet whole fits =>
    refine ⟨buffered, fun impossible => ?_, fun both => both.2 quiet, fun _ => quiet, readLoop_never_complains,
      fun _ => ⟨whole, fits⟩, stays⟩
    cases impossible
  | failed buffered incomplete complaint =>
    refine ⟨buffered, fun impossible => ?_, fun both => ?_, fun impossible => ?_, readLoop_never_complains,
      fun impossible => ?_, stays⟩
    · cases impossible
    · rw [incomplete] at both
      cases both.1
    · rcases impossible with impossible | impossible
      · cases impossible
      · cases impossible
    · cases impossible

/-- A request whose body comes in two pieces, with a byte too many and a piece behind it. -/
theorem parser_bounded_complete :
    let pieces := [text "POST / HTTP/1.1\r\nContent-Length: 2\r\n\r\na", text "bc"]
    let later := [text "GET"]
    let fed := feedAll pieces (fresh 100 50)
    let parser := fed.2
    (feedAll (pieces.take 1) (fresh 100 50)).1 = .incomplete ∧ fed.1 = .complete ∧
    parser.buffer.length ≤ 100 + 50 ∧
    (fed.1 = .incomplete →
      (parser.headersParsed = false ∧ parser.buffer.length ≤ 100 ∧ ¬ headerSeparator <:+: parser.buffer) ∨
      (parser.headersParsed = true ∧ parser.contentLength ≤ 50 ∧ parser.buffer.length < parser.contentLength)) ∧
    ¬ (parser.complete = true ∧ parser.parseError ≠ "") ∧
    (fed.1 = .incomplete ∨ fed.1 = .complete → parser.parseError = "") ∧
    (∀ reads connection, (readLoop reads connection).1 ≠ .complained) ∧
    (fed.1 = .complete → parser.parsedRequest.body.length = parser.contentLength ∧ parser.contentLength ≤ 50) ∧
    (fed.1 ≠ .incomplete → feedAll (pieces ++ later) (fresh 100 50) = fed) :=
  ⟨by decide +kernel, by decide +kernel, parser_bounded 100 50 (by decide) _ _⟩

end FleetGateway.Network.Reading
