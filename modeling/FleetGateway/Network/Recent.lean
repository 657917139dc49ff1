import FleetGateway.Http.Language
import FleetGateway.Http.Response
import FleetGateway.Storage.Cache

/-! `GET /recent`: the messages at the end of the log, as JSON, and as many of them as the
query asks for. -/

namespace FleetGateway.Network.Recent
open Library Library.ByteStore Http.Parser Http.Response Http.Framing Http.Language Storage.Format Storage.Record
  Storage.Disk Storage.Log Storage.Cache

def hexDigit (nibble : UInt8) : UInt8 := (text "0123456789abcdef").getD nibble.toNat 0

def escapeByte (byte : UInt8) : Bytes :=
  if byte = 34 then text "\\\""
  else if byte = 92 then text "\\\\"
  else if byte = 8 then text "\\b"
  else if byte = 12 then text "\\f"
  else if byte = 10 then text "\\n"
  else if byte = 13 then text "\\r"
  else if byte = 9 then text "\\t"
  else if byte < 0x20 then text "\\u00" ++ [hexDigit (byte >>> 4), hexDigit (byte &&& 0x0f)]
  else [byte]

def jsonEscape (value : Bytes) : Bytes := value.flatMap escapeByte

def messageJson (message : Message) : Bytes :=
  text "\x7b\"offset\":" ++ decimal message.offset ++ text ",\"timestamp_ns\":" ++ decimal message.timestampNs ++
    text ",\"payload_length\":" ++ decimal message.payloadLength ++ text ",\"payload\":\"" ++
    jsonEscape message.payload ++ text "\"\x7d"

/-- The loop over the messages; `first` says that none was written yet. -/
def appendMessages (json : Bytes) (first : Bool) : List Message → Bytes
  | [] => json
  | message :: rest => appendMessages (json ++ (if first then [] else text ",") ++ messageJson message) false rest

def messagesJson (messages : List Message) : Bytes := appendMessages (text "[") true messages ++ text "]"

def recentMessagesJson (store : Store) (count : Nat) : Bytes := messagesJson (Storage.Log.getRecent store count)

def defaultCount : Nat := 100

def maximumCount : Nat := 1000

def invalidQuery : HttpResponse :=
  { statusCode := 400, reason := text "Bad Request", body := text "Invalid recent count query" }

def listing (store : Store) (count : Nat) : HttpResponse :=
  { headers := [(text "Content-Type", text "application/json")], body := recentMessagesJson store count }

def recentMessagesResponse (store : Store) (request : HttpRequest) : HttpResponse :=
  if request.query = [] then listing store defaultCount
  else if request.query.take 6 ≠ text "count=" ∨ 38 ∈ request.query then invalidQuery
  else
    let value := request.query.drop 6
    if value = [] then invalidQuery
    else match fromChars value with
      | none => invalidQuery
      | some (count, used) =>
        if used ≠ value.length ∨ maximumCount < count then invalidQuery else listing store count

/-- Nothing asks for the default; a number asks for as many messages, up to a limit. -/
def Asks (query : Bytes) (count : Nat) : Prop :=
  (query = [] ∧ count = defaultCount) ∨
    ∃ digits, query = text "count=" ++ digits ∧ Denotes digits count ∧ count ≤ maximumCount

theorem Asks.digits {query : Bytes} {count : Nat} (asks : Asks query count) (given : query ≠ []) :
    ∃ digits, query = text "count=" ++ digits ∧ Denotes digits count ∧ count ≤ maximumCount :=
  asks.resolve_left fun none => given none.1

theorem Asks.unique {query : Bytes} {first second : Nat} (asks : Asks query first) (other : Asks query second) :
    first = second := by
  rcases asks with ⟨rfl, rfl⟩ | ⟨digits, rfl, ⟨_, _, rfl⟩, _⟩
  · rcases other with ⟨_, rfl⟩ | ⟨digits, shape, _⟩
    · rfl
    · cases shape
  · rcases other with ⟨shape, _⟩ | ⟨others, same, ⟨_, _, rfl⟩, _⟩
    · cases shape
    · rw [List.append_cancel_left same]

theorem no_ampersand {digits : Bytes} (all : digits.all Decimal.isDigit = true) : 38 ∉ text "count=" ++ digits := by
  rw [List.mem_append, not_or]
  refine ⟨by decide, fun member => ?_⟩
  have digit := List.all_eq_true.mp all 38 member
  cases digit

theorem recentMessagesResponse_cases (store : Store) (request : HttpRequest) :
    (∃ count, Asks request.query count ∧ recentMessagesResponse store request = listing store count) ∨
      (¬ (∃ count, Asks request.query count) ∧ recentMessagesResponse store request = invalidQuery) := by
  unfold recentMessagesResponse
  split
  next empty => exact .inl ⟨defaultCount, .inl ⟨empty, rfl⟩, rfl⟩
  next given =>
  split
  next bad =>
    refine .inr ⟨?_, rfl⟩
    rintro ⟨count, asks⟩
    obtain ⟨digits, shape, ⟨_, all, _⟩, _⟩ := asks.digits given
    rw [shape] at bad
    exact bad.elim (fun different => different rfl) (no_ampersand all)
  next good =>
  obtain ⟨start, _⟩ := not_or.mp good
  have shape : request.query = text "count=" ++ request.query.drop 6 := by
    rw [← not_not.mp start, List.take_append_drop]
  have behind {digits : Bytes} (other : request.query = text "count=" ++ digits) : request.query.drop 6 = digits :=
    List.append_cancel_left (shape.symm.trans other)
  dsimp only
  split
  next empty =>
    refine .inr ⟨?_, rfl⟩
    rintro ⟨count, asks⟩
    obtain ⟨digits, other, ⟨some, _, _⟩, _⟩ := asks.digits given
    exact some ((behind other).symm.trans empty)
  next nonempty =>
  split
  next failed =>
    refine .inr ⟨?_, rfl⟩
    rintro ⟨count, asks⟩
    obtain ⟨digits, other, denotes, small⟩ := asks.digits given
    simp only [maximumCount] at small
    rw [behind other, fromChars_complete digits count denotes (by omega)] at failed
    cases failed
  next count used parsed =>
  split
  next refused =>
    refine .inr ⟨?_, rfl⟩
    rintro ⟨asked, asks⟩
    obtain ⟨digits, other, denotes, small⟩ := asks.digits given
    have bounded := small
    simp only [maximumCount] at bounded
    rw [behind other, fromChars_complete digits asked denotes (by omega)] at parsed
    cases parsed
    rw [behind other] at refused
    exact refused.elim (fun different => different rfl) fun large => absurd small (Nat.not_le.mpr large)
  next accepted =>
    obtain ⟨whole, fits⟩ := not_or.mp accepted
    have denotes := fromChars_denotes _ count used parsed (not_not.mp whole)
    exact .inl ⟨count, .inr ⟨_, shape, denotes, Nat.le_of_not_lt fits⟩, rfl⟩

/-- After an open of any directory and any appends, failing or not, the answer to a query that
asks for a number of messages lists as many of the latest as there are and as the cache keeps,
the oldest of them first, wherever they came from; any other query is a bad request. -/
theorem recent_selection (faults : Faults) (segmentSize capacity : Nat) (start : Store)
    (opens : (openLog faults segmentSize capacity start).result = .ok ()) (appends : List Appending)
    (request : HttpRequest) :
    let store := (after faults segmentSize capacity start appends).store
    let messages := messagesAfter faults segmentSize capacity start appends
    let response := recentMessagesResponse store request
    (response.statusCode = 200 ↔ ∃ count, Asks request.query count) ∧
    (response.statusCode = 400 ↔ ¬ ∃ count, Asks request.query count) ∧
    ∀ count, Asks request.query count →
      let listed := messages.drop (messages.length - min (min count capacity) messages.length)
      response.body = messagesJson listed ∧ listed.Pairwise fun first second => first.offset < second.offset := by
  intro store messages response
  have distinct : (200 : Int) ≠ 400 := by decide
  have increasing : messages.Pairwise fun first second => first.offset < second.offset :=
    messagesAfter_increasing opens appends
  rcases recentMessagesResponse_cases store request with ⟨count, asks, answer⟩ | ⟨refused, answer⟩
  · have same : response = listing store count := answer
    rw [same]
    refine ⟨iff_of_true rfl ⟨count, asks⟩, iff_of_false distinct (not_not.mpr ⟨count, asks⟩), fun asked also => ?_⟩
    cases asks.unique also
    intro listed
    refine ⟨?_, increasing.sublist (List.drop_sublist _ _)⟩
    have recent : Storage.Log.getRecent store count = listed := getRecent_after opens appends count
    simp only [listing, recentMessagesJson, recent]
  · have same : response = invalidQuery := answer
    rw [same]
    exact ⟨iff_of_false distinct.symm refused, iff_of_true rfl refused, fun asked also => absurd ⟨asked, also⟩ refused⟩

/-- One message is found in the directory and two are appended, and two are asked for of three. -/
theorem recent_selection_recovered :
    let start : Store :=
      { disk := Storage.Disk.store ∅ (segmentPath 1) ⟨segmentHeader 1 0 200 ++ encodeRecord ⟨0, 5, 2, [1, 2]⟩, 0⟩ }
    let appends : List Appending := [(noFaults, [3], 6), (noFaults, text "hi", 7)]
    let request : HttpRequest := { query := text "count=002" }
    let store := (after noFaults 200 5 start appends).store
    let messages := messagesAfter noFaults 200 5 start appends
    let response := recentMessagesResponse store request
    (messages.length = 3 ∧ Asks request.query 2 ∧ response.body =
      text "[\x7b\"offset\":34,\"timestamp_ns\":6,\"payload_length\":1,\"payload\":\"\\u0003\"\x7d," ++
        text "\x7b\"offset\":67,\"timestamp_ns\":7,\"payload_length\":2,\"payload\":\"hi\"\x7d]") ∧
    (response.statusCode = 200 ↔ ∃ count, Asks request.query count) ∧
    (response.statusCode = 400 ↔ ¬ ∃ count, Asks request.query count) ∧
    ∀ count, Asks request.query count →
      let listed := messages.drop (messages.length - min (min count 5) messages.length)
      response.body = messagesJson listed ∧ listed.Pairwise fun first second => first.offset < second.offset := by
  intro start appends request store messages response
  have asks : Asks request.query 2 := .inr ⟨text "002", by decide, by decide, by decide⟩
  exact ⟨⟨by decide +kernel, asks, by decide +kernel⟩,
    recent_selection noFaults 200 5 start (by decide +kernel) appends request⟩

end FleetGateway.Network.Recent
