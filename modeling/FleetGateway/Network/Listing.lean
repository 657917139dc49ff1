import FleetGateway.Library.Json
import FleetGateway.Network.Recent

/-! The listing of `GET /recent` as a client reads it: whatever the payloads are, they come back
byte for byte, and the text is in UTF-8 when they are. -/

namespace FleetGateway.Network.Listing
open Library Library.ByteStore Library.Json Http.Response Storage.Format Storage.Record Storage.Disk Storage.Log
  Storage.Cache Recent

inductive Escaped (byte : UInt8) : Bytes → Prop
  | short (mark : UInt8) (known : shortEscape mark = some byte) (control : byte.toNat < 128)
      (visible : 32 ≤ mark.toNat ∧ mark.toNat < 128) : Escaped byte [92, mark]
  | unit (high low : UInt8) (known : hexUnit 48 48 high low = some byte.toNat) (control : byte.toNat < 128)
      (visible : (32 ≤ high.toNat ∧ high.toNat < 128) ∧ 32 ≤ low.toNat ∧ low.toNat < 128) :
      Escaped byte [92, 117, 48, 48, high, low]
  | plain (plain : Plain byte) : Escaped byte [byte]

theorem hexDigits (byte : UInt8) (control : byte.toNat < 32) :
    let high := hexDigit (byte >>> 4)
    let low := hexDigit (byte &&& 0x0f)
    hexUnit 48 48 high low = some byte.toNat ∧
      (32 ≤ high.toNat ∧ high.toNat < 128) ∧ 32 ≤ low.toNat ∧ low.toNat < 128 := by
  have all : ∀ code < 32, hexUnit 48 48 (hexDigit (UInt8.ofNat code >>> 4)) (hexDigit (UInt8.ofNat code &&& 0x0f)) =
        some code ∧
      (32 ≤ (hexDigit (UInt8.ofNat code >>> 4)).toNat ∧ (hexDigit (UInt8.ofNat code >>> 4)).toNat < 128) ∧
      32 ≤ (hexDigit (UInt8.ofNat code &&& 0x0f)).toNat ∧ (hexDigit (UInt8.ofNat code &&& 0x0f)).toNat < 128 := by
    decide +kernel
  have here := all byte.toNat control
  rw [UInt8.ofNat_toNat] at here
  exact here

theorem escapeByte_escaped (byte : UInt8) : Escaped byte (escapeByte byte) := by
  unfold escapeByte
  split
  next quote => exact .short 34 (by rw [quote]; rfl) (by rw [quote]; decide) (by decide)
  next quote =>
  split
  next backslash => exact .short 92 (by rw [backslash]; rfl) (by rw [backslash]; decide) (by decide)
  next backslash =>
  split
  next same => exact .short 98 (by rw [same]; rfl) (by rw [same]; decide) (by decide)
  split
  next same => exact .short 102 (by rw [same]; rfl) (by rw [same]; decide) (by decide)
  split
  next same => exact .short 110 (by rw [same]; rfl) (by rw [same]; decide) (by decide)
  split
  next same => exact .short 114 (by rw [same]; rfl) (by rw [same]; decide) (by decide)
  split
  next same => exact .short 116 (by rw [same]; rfl) (by rw [same]; decide) (by decide)
  split
  next control =>
    have small : byte.toNat < 32 := UInt8.lt_iff_toNat_lt.mp control
    obtain ⟨known, visible⟩ := hexDigits byte small
    exact .unit _ _ known (by omega) visible
  next visible =>
    have large : 32 ≤ byte.toNat := Nat.le_of_not_lt fun small => visible (UInt8.lt_iff_toNat_lt.mpr small)
    exact .plain ⟨large, quote, backslash⟩

theorem Escaped.spells {byte : UInt8} {written : Bytes} (escaped : Escaped byte written) : Spells written byte := by
  cases escaped with
  | short mark known control visible => exact spells_short known
  | unit high low known control visible =>
    have spelled := spells_unit known control
    rwa [UInt8.ofNat_toNat] at spelled
  | plain plain => exact spells_plain plain

theorem Escaped.contents {byte : UInt8} {written rest : Bytes} (escaped : Escaped byte written)
    (inside : Contents rest) : Contents (written ++ rest) := by
  cases escaped with
  | short mark known control visible => exact .short mark rest (by rw [known]; rfl) inside
  | unit high low known control visible => exact .unit 48 48 high low rest (by rw [known]; rfl) inside
  | plain plain => exact .plain byte rest plain inside

theorem Escaped.visible {byte : UInt8} {written : Bytes} (escaped : Escaped byte written) :
    ∀ other ∈ written, 32 ≤ other.toNat := by
  cases escaped with
  | short mark known control visible => simp [visible.1]
  | unit high low known control visible => simp [visible.1.1, visible.2.1]
  | plain plain => simp [plain.1]

theorem Escaped.ascii {byte : UInt8} {written : Bytes} (escaped : Escaped byte written) :
    (Utf8.isAscii byte = true ∧ written ≠ [] ∧ ∀ other ∈ written, Utf8.isAscii other = true) ∨ written = [byte] := by
  cases escaped with
  | short mark known control visible => exact .inl (by simp [Utf8.isAscii, control, visible.2])
  | unit high low known control visible => exact .inl (by simp [Utf8.isAscii, control, visible.1.2, visible.2.2])
  | plain plain => exact .inr rfl

theorem jsonEscape_contents (payload : Bytes) : Contents (jsonEscape payload) := by
  induction payload with
  | nil => exact .nil
  | cons byte rest ih =>
    rw [jsonEscape, List.flatMap_cons]
    exact (escapeByte_escaped byte).contents ih

theorem jsonEscape_visible (payload : Bytes) : ∀ byte ∈ jsonEscape payload, 32 ≤ byte.toNat := by
  intro byte member
  obtain ⟨source, _, inside⟩ := List.mem_flatMap.mp member
  exact (escapeByte_escaped source).visible byte inside

theorem jsonEscape_spells (payload : Bytes) : ∀ byte ∈ payload, Spells (escapeByte byte) byte :=
  fun byte _ => (escapeByte_escaped byte).spells

/-- Escaping neither makes nor breaks a character, whatever stands in front. -/
theorem wellFormed_jsonEscape (payload front : Bytes) :
    Utf8.WellFormed (front ++ jsonEscape payload) ↔ Utf8.WellFormed (front ++ payload) := by
  induction payload generalizing front with
  | nil => rfl
  | cons byte rest ih =>
    have shape : jsonEscape (byte :: rest) = escapeByte byte ++ jsonEscape rest := List.flatMap_cons
    rw [shape]
    rcases (escapeByte_escaped byte).ascii with ⟨single, nonempty, ascii⟩ | same
    · obtain ⟨first, others, written⟩ := List.exists_cons_of_ne_nil nonempty
      rw [written] at ascii ⊢
      obtain ⟨head, behind⟩ := List.forall_mem_cons.mp ascii
      rw [List.cons_append, Utf8.wellFormed_split_iff head, Utf8.wellFormed_ascii_append behind,
        Utf8.wellFormed_split_iff single]
      exact and_congr_right fun _ => ih []
    · rw [same, List.singleton_append, List.append_cons, List.append_cons front byte rest]
      exact ih (front ++ [byte])

def messageValue (message : Message) : Value :=
  .object [(text "offset", .number message.offset 0), (text "timestamp_ns", .number message.timestampNs 0),
    (text "payload_length", .number message.payloadLength 0), (text "payload", .string message.payload)]

def messageMembers (message : Message) : List Member :=
  [⟨text "offset", decimal message.offset, .number message.offset 0⟩,
    ⟨text "timestamp_ns", decimal message.timestampNs, .number message.timestampNs 0⟩,
    ⟨text "payload_length", decimal message.payloadLength, .number message.payloadLength 0⟩,
    ⟨text "payload", 34 :: (jsonEscape message.payload ++ [34]), .string message.payload⟩]

theorem messageJson_members (message : Message) :
    messageJson message = 123 :: (join Member.write (messageMembers message) ++ [125]) := by
  have first : text "\x7b\"offset\":" = 123 :: 34 :: (text "offset" ++ [34, 58]) := by decide
  have second : text ",\"timestamp_ns\":" = 44 :: 34 :: (text "timestamp_ns" ++ [34, 58]) := by decide
  have third : text ",\"payload_length\":" = 44 :: 34 :: (text "payload_length" ++ [34, 58]) := by decide
  have fourth : text ",\"payload\":\"" = 44 :: 34 :: (text "payload" ++ [34, 58, 34]) := by decide
  have last : text "\"\x7d" = [34, 125] := by decide
  rw [messageJson, first, second, third, fourth, last]
  simp only [messageMembers, join, Member.write, List.flatMap_cons, List.flatMap_nil, List.append_assoc,
    List.cons_append, List.nil_append, List.append_nil]

theorem appendMessages_eq (json : Bytes) (messages : List Message) :
    appendMessages json false messages = json ++ messages.flatMap fun message => 44 :: messageJson message := by
  induction messages generalizing json with
  | nil => exact (List.append_nil _).symm
  | cons message rest ih =>
    have comma : text "," = [44] := by decide
    rw [appendMessages, if_neg (by decide), ih, List.flatMap_cons, comma]
    simp only [List.append_assoc, List.cons_append, List.nil_append]

theorem messagesJson_join (messages : List Message) :
    messagesJson messages = 91 :: (join messageJson messages ++ [93]) := by
  have bracket : text "[" = [91] := by decide
  have close : text "]" = [93] := by decide
  cases messages with
  | nil => decide
  | cons message rest =>
    rw [messagesJson, appendMessages, appendMessages_eq, if_pos rfl, bracket, close]
    simp only [join, List.append_assoc, List.cons_append, List.nil_append]

theorem messageJson_reads (depth : Nat) (message : Message) :
    Reads (readValue (depth + 2)) 93 (messageJson message) (messageValue message) := by
  rw [messageJson_members]
  refine ⟨⟨123, _, rfl, by decide, by decide⟩, fun next tail _ => ?_⟩
  have plain : ∀ member ∈ messageMembers message, ∀ byte ∈ member.name, Plain byte := by
    simp only [messageMembers, List.forall_mem_cons]
    refine ⟨?_, ?_, ?_, ?_, fun _ member => absurd member List.not_mem_nil⟩ <;> decide +kernel
  have number (value : Nat) (next : UInt8) (tail : Bytes) (delimiter : Delimiter next) :
      readValue (depth + 1) (decimal value ++ next :: tail) = some (.number value 0, next :: tail) := by
    rw [decimal_natCast]
    exact readValue_number depth value next tail delimiter
  have reads : ∀ member ∈ messageMembers message, ∀ next tail, Delimiter next →
      readValue (depth + 1) (member.written ++ next :: tail) = some (member.value, next :: tail) := by
    simp only [messageMembers, List.forall_mem_cons]
    refine ⟨number _, number _, number _, fun next tail _ => ?_, fun _ member => absurd member List.not_mem_nil⟩
    have quoted := readValue_string depth escapeByte message.payload (jsonEscape_spells message.payload) (next :: tail)
    rw [List.cons_append, List.append_assoc]
    exact quoted
  have object := readValue_object (depth + 1) (messageMembers message) plain reads (next :: tail)
  rw [List.cons_append, List.append_assoc]
  exact object

theorem decode_messagesJson (messages : List Message) :
    decode (messagesJson messages) = some (.array (messages.map messageValue)) := by
  rw [messagesJson_join]
  generalize length : (91 :: (join messageJson messages ++ [93])).length = size
  obtain ⟨depth, rfl⟩ : ∃ depth, size = depth + 2 := by
    rw [List.length_cons, List.length_append, List.length_singleton] at length
    exact ⟨size - 2, by omega⟩
  have read := readValue_array (depth + 2) messageJson messageValue messages
    (fun message _ => messageJson_reads depth message) []
  rw [decode, length, read]
  rfl

/-- For every list of messages the text decodes to that list. And inside of a string there are no
control characters, and quotes and backslashes only as parts of escapes, so that the next
bare quote is the one that was written behind the payload. -/
theorem json_roundtrip (messages : List Message) :
    decode (messagesJson messages) = some (.array (messages.map messageValue)) ∧
    ∀ payload : Bytes, Contents (jsonEscape payload) ∧ (∀ byte ∈ jsonEscape payload, 32 ≤ byte.toNat) ∧
      ∀ tail, readString (jsonEscape payload ++ 34 :: tail) = some (payload, tail) :=
  ⟨decode_messagesJson messages, fun payload => ⟨jsonEscape_contents payload, jsonEscape_visible payload,
    readString_spelled escapeByte payload (jsonEscape_spells payload)⟩⟩

theorem ascii_decimal (number : Nat) : ∀ byte ∈ decimal number, Utf8.isAscii byte = true := by
  intro byte member
  rw [decimal_natCast] at member
  have digit := List.all_eq_true.mp (Decimal.isDigit_padded 1 number) byte member
  simp only [Decimal.isDigit, Bool.and_eq_true, decide_eq_true_eq] at digit
  simp only [Utf8.isAscii, decide_eq_true_eq]
  omega

theorem wellFormed_messageJson (message : Message) (rest : Bytes) :
    Utf8.WellFormed (messageJson message ++ rest) ↔ Utf8.WellFormed message.payload ∧ Utf8.WellFormed rest := by
  have last : text "\"\x7d" = [34, 125] := by decide
  generalize whole : text "\x7b\"offset\":" ++ decimal message.offset ++ text ",\"timestamp_ns\":" ++
    decimal message.timestampNs ++ text ",\"payload_length\":" ++ decimal message.payloadLength ++
    text ",\"payload\":\"" = front
  have shape : messageJson message ++ rest = front ++ (jsonEscape message.payload ++ 34 :: ([125] ++ rest)) := by
    rw [messageJson, whole, last]
    simp only [List.append_assoc, List.cons_append, List.nil_append]
  have ascii : ∀ byte ∈ front, Utf8.isAscii byte = true := by
    rw [← whole]
    simp only [List.forall_mem_append]
    refine ⟨⟨⟨⟨⟨⟨?_, ascii_decimal _⟩, ?_⟩, ascii_decimal _⟩, ?_⟩, ascii_decimal _⟩, ?_⟩ <;> decide +kernel
  have payload : Utf8.WellFormed (jsonEscape message.payload) ↔ Utf8.WellFormed message.payload :=
    wellFormed_jsonEscape message.payload []
  rw [shape, Utf8.wellFormed_ascii_append ascii, Utf8.wellFormed_split_iff (by decide), payload,
    Utf8.wellFormed_ascii_append (by decide +kernel)]

theorem wellFormed_messagesJson (messages : List Message) :
    Utf8.WellFormed (messagesJson messages) ↔ ∀ message ∈ messages, Utf8.WellFormed message.payload := by
  have behind (rest : List Message) : Utf8.WellFormed (rest.flatMap (fun message => 44 :: messageJson message) ++ [93]) ↔
      ∀ message ∈ rest, Utf8.WellFormed message.payload := by
    induction rest with
    | nil => exact iff_of_true (Utf8.wellFormed_singleton (by decide +kernel)) fun _ member => absurd member List.not_mem_nil
    | cons message rest ih =>
      have comma : (44 : UInt8) :: messageJson message = [44] ++ messageJson message := rfl
      rw [List.flatMap_cons, List.forall_mem_cons, ← ih, comma, List.append_assoc, List.append_assoc,
        Utf8.wellFormed_ascii_append (by decide +kernel), wellFormed_messageJson]
  rw [messagesJson_join]
  cases messages with
  | nil => exact iff_of_true (Utf8.wellFormed_ascii (by decide +kernel)) fun _ member => absurd member List.not_mem_nil
  | cons message rest =>
    have bracket (bytes : Bytes) : (91 : UInt8) :: bytes = [91] ++ bytes := rfl
    rw [bracket, join, List.append_assoc, List.forall_mem_cons, ← behind rest,
      Utf8.wellFormed_ascii_append (by decide +kernel), wellFormed_messageJson]

/-- The listing may be exchanged exactly when the listed payloads are in UTF-8. -/
theorem wellFormedText_messagesJson (messages : List Message) :
    WellFormedText (messagesJson messages) ↔ ∀ message ∈ messages, Utf8.WellFormed message.payload := by
  rw [WellFormedText, decode_messagesJson, wellFormed_messagesJson]
  exact and_iff_left rfl

/-- After an open of any directory and any appends, the listing is JSON in UTF-8 exactly when
every payload that it lists is in UTF-8. -/
theorem recent_wellFormed_iff (faults : Faults) (segmentSize capacity : Nat) (start : Store)
    (opens : (openLog faults segmentSize capacity start).result = .ok ()) (appends : List Appending) (count : Nat) :
    let store := (after faults segmentSize capacity start appends).store
    let messages := messagesAfter faults segmentSize capacity start appends
    let listed := messages.drop (messages.length - min (min count capacity) messages.length)
    WellFormedText (recentMessagesJson store count) ↔ ∀ message ∈ listed, Utf8.WellFormed message.payload := by
  intro store messages listed
  have recent : Storage.Log.getRecent store count = listed := getRecent_after opens appends count
  rw [recentMessagesJson, wellFormedText_messagesJson, recent]

/-- The byte that is no part of UTF-8 is published first, and only the other message is listed. -/
theorem recent_wellFormed_iff_accent :
    let appends : List Appending := [(noFaults, [255], 5), (noFaults, [99, 195, 169], 6)]
    let store := (after noFaults 200 3 {} appends).store
    let messages := messagesAfter noFaults 200 3 {} appends
    let listed := messages.drop (messages.length - min (min 1 3) messages.length)
    listed.map Message.payload = [[99, 195, 169]] ∧
      (WellFormedText (recentMessagesJson store 1) ↔ ∀ message ∈ listed, Utf8.WellFormed message.payload) :=
  ⟨by decide +kernel, recent_wellFormed_iff noFaults 200 3 {} (by decide +kernel) _ 1⟩

/-- Publishing one byte makes a listing that is no text. -/
theorem published_byte_listed :
    ¬ ∀ (appends : List Appending) (count : Nat), (∀ call ∈ appends, call.2.1 ≠ []) →
      WellFormedText (recentMessagesJson (after noFaults 200 3 {} appends).store count) := by
  intro always
  have bad := always [(noFaults, [255], 5)] 100 (by decide)
  have listed : recentMessagesJson (after noFaults 200 3 {} [(noFaults, [255], 5)]).store 100 =
      messagesJson [⟨0, 5, 1, [255]⟩] := by decide +kernel
  rw [listed, wellFormedText_messagesJson] at bad
  have payload := bad _ List.mem_cons_self
  have bound := payload.byte_lt 255 List.mem_cons_self
  exact absurd bound (by decide)

end FleetGateway.Network.Listing
