import FleetGateway.Storage.Damage
import FleetGateway.Storage.Reopen

/-! A window of at most four changed bytes. The checksums make a changed record or
segment header unreadable, and the fixed bytes of a record header keep it from looking
like zero padding. -/

namespace FleetGateway.Storage.Corruption
open Library Library.ByteStore Library.Run Format Record Disk Scan Segment Log RingBuffer Contents Recovery
  Operations Damage Invariant Reopen

theorem stored_crc_of_read (segmentSize : Nat) (bytes : Bytes) (position expectedOffset : Nat) (message : Message)
    (fields crc payload rest : Bytes) (fieldsLength : fields.length = 28) (crcLength : crc.length = 4)
    (announced : getU32 (fields.drop 24) = payload.length)
    (here : bytes.drop position = fields ++ (crc ++ (payload ++ rest)))
    (read : readRecord segmentSize bytes position expectedOffset = some message) :
    crc = putU32 (recordCrc fields payload).toNat := by
  have header : slice bytes position recordHeaderSize = fields ++ crc := by
    rw [slice, here, ← List.append_assoc]
    exact List.take_left' (by rw [List.length_append, fieldsLength, crcLength]; rfl)
  obtain ⟨_, _, headerRead, payloadRead⟩ := readRecord_parts _ _ _ _ _ read
  have length : message.payload.length = payload.length := by
    simp only [checkRecordHeader, header] at headerRead
    split_ifs at headerRead
    rw [Option.some.injEq, List.drop_append_of_le_length (by omega)] at headerRead
    rw [← headerRead, ← announced, getU32, getU32, getUint_eq_decode, getUint_eq_decode,
      List.take_append_of_le_length (by rw [List.length_drop]; omega)]
  have body : slice bytes (position + recordHeaderSize) message.payload.length = payload := by
    rw [slice, length, ← List.drop_drop, here, ← List.append_assoc,
      List.drop_left' (show (fields ++ crc).length = recordHeaderSize by
        rw [List.length_append, fieldsLength, crcLength]; rfl), List.take_left]
  simp only [checkRecordPayload, header, body] at payloadRead
  split_ifs at payloadRead with check
  have stored := check.2
  rw [List.drop_left' fieldsLength] at stored
  have same : recordCrc (fields ++ crc) payload = recordCrc fields payload := by
    rw [recordCrc, recordCrc, List.take_left' fieldsLength, List.take_of_length_le (le_of_eq fieldsLength)]
  rw [same] at stored
  rw [← stored, ← take_eq_putU32 crc (le_of_eq crcLength.symm), List.take_of_length_le (le_of_eq crcLength)]

/-- A window of at most four bytes, anywhere in what a record's checksum covers, changes it. -/
theorem recordCrc_overwrite (first second payload changed : Bytes) (position : Nat) (window : Bytes)
    (firstLength : first.length = 28) (secondLength : second.length = 28)
    (after : second ++ changed = overwrite (first ++ payload) position window)
    (inside : position + window.length ≤ (first ++ payload).length) (short : window.length ≤ 4)
    (different : slice (first ++ payload) position window.length ≠ window) :
    putU32 (recordCrc first payload).toNat ≠ putU32 (recordCrc second changed).toNat := by
  intro same
  have crcs := UInt32.toNat_inj.mp (putU32_injective _ _ (UInt32.toNat_lt _) (UInt32.toNat_lt _) same)
  rw [recordCrc_eq first payload firstLength, recordCrc_eq second changed secondLength, UInt32.xor_left_inj,
    after, overwrite] at crcs
  generalize first ++ payload = covered at crcs inside different
  have length : (slice covered position window.length).length = window.length := by
    simp only [slice, List.length_take, List.length_drop]
    omega
  apply crc32Update_burst _ (covered.take position) (slice covered position window.length) window
    (covered.drop (position + window.length)) length (by omega) different
  rw [← split_window]
  exact crcs

/-- A window in one of the parts of a record around its length field (bytes 24 to 27): the fields before it, the
checksum behind it, or the payload. -/
def InRecord (start : Nat) (message : Message) (position length : Nat) : Prop :=
  (start ≤ position ∧ position + length ≤ start + 24) ∨
  (start + 28 ≤ position ∧ position + length ≤ start + 32) ∨
  (start + 32 ≤ position ∧ position + length ≤ start + size message)

theorem getU32_recordPrefix_length (offset timestampNs payloadLength : Nat) (bound : payloadLength < 2 ^ 32) :
    getU32 ((recordPrefix offset timestampNs payloadLength).drop 24) = payloadLength := by
  have tail : (recordPrefix offset timestampNs payloadLength).drop 24 = putU32 payloadLength := by
    rw [recordPrefix, ← List.append_assoc, ← List.append_assoc, ← List.append_assoc]
    exact List.drop_left' (by simp)
  rw [tail, ← List.append_nil (putU32 payloadLength), getU32_put _ _ bound]

theorem readRecord_changed (segmentSize : Nat) (message : Message) (rest bytes : Bytes) (position start : Nat)
    (window : Bytes) (canonical : Canonical message) (here : bytes.drop start = encodeRecord message ++ rest)
    (fits : start + size message ≤ bytes.length) (inside : InRecord start message position window.length)
    (short : window.length ≤ 4) (different : slice bytes position window.length ≠ window) :
    readRecord segmentSize (overwrite bytes position window) start message.offset = none := by
  cases read : readRecord segmentSize (overwrite bytes position window) start message.offset with
  | none => rfl
  | some other =>
    exfalso
    generalize fieldsEq : recordPrefix message.offset message.timestampNs message.payload.length = fields
    generalize crcEq : putU32 (recordCrc fields message.payload).toNat = crc
    have fieldsLength : fields.length = 28 := by rw [← fieldsEq, length_recordPrefix]
    have crcLength : crc.length = 4 := by rw [← crcEq, length_putU32]
    have announced : getU32 (fields.drop 24) = message.payload.length := by
      rw [← fieldsEq]
      exact getU32_recordPrefix_length _ _ _ canonical.payload
    have layout : bytes.drop start = fields ++ (crc ++ (message.payload ++ rest)) := by
      rw [here, encodeRecord, recordHeader, fieldsEq, crcEq]
      simp only [List.append_assoc]
    -- `offset` is where the window starts inside the record
    obtain ⟨offset, rfl⟩ : ∃ offset, position = start + offset := ⟨position - start, by
      unfold InRecord at inside; omega⟩
    have total : size message = 32 + message.payload.length := rfl
    have within : start + offset ≤ bytes.length := by unfold InRecord at inside; omega
    have changed := drop_overwrite bytes start offset window within
    rw [← slice_drop, layout] at different
    rw [layout] at changed
    rcases inside with ⟨_, high⟩ | ⟨low, high⟩ | ⟨low, high⟩
    · have reach : offset + window.length ≤ 24 := by omega
      rw [overwrite_append_left _ _ _ _ (by omega)] at changed
      rw [slice_append_left _ _ _ _ (by omega)] at different
      have length := length_overwrite fields offset window (by omega)
      have stored := stored_crc_of_read segmentSize _ start _ other _ crc message.payload rest
        (by rw [length, fieldsLength]) crcLength
        (by rw [drop_overwrite_behind _ _ _ _ reach (by omega)]; exact announced) changed read
      rw [← crcEq] at stored
      refine recordCrc_overwrite fields _ message.payload message.payload offset window fieldsLength
        (by rw [length, fieldsLength]) ?_ ?_ short ?_ stored
      · exact (overwrite_append_left fields message.payload offset window (by omega)).symm
      · rw [List.length_append]
        omega
      · rw [slice_append_left _ _ _ _ (by omega)]
        exact different
    · obtain ⟨place, rfl⟩ : ∃ place, offset = 28 + place := ⟨offset - 28, by omega⟩
      rw [← fieldsLength, overwrite_append_right, overwrite_append_left _ _ _ _ (by omega)] at changed
      rw [← fieldsLength, slice_append_length, slice_append_left _ _ _ _ (by omega)] at different
      have length := length_overwrite crc place window (by omega)
      have stored := stored_crc_of_read segmentSize _ start _ other fields _ message.payload rest fieldsLength
        (by rw [length, crcLength]) announced (by rw [← fieldsLength]; exact changed) read
      rw [crcEq] at stored
      rw [← stored, slice_overwrite _ _ _ (by omega)] at different
      exact different rfl
    · obtain ⟨place, rfl⟩ : ∃ place, offset = 32 + place := ⟨offset - 32, by omega⟩
      have headerLength : (fields ++ crc).length = 32 := by rw [List.length_append, fieldsLength, crcLength]
      rw [← List.append_assoc, ← headerLength] at changed different
      rw [overwrite_append_right, overwrite_append_left _ _ _ _ (by omega)] at changed
      rw [slice_append_length, slice_append_left _ _ _ _ (by omega)] at different
      have length := length_overwrite message.payload place window (by omega)
      rw [List.append_assoc, headerLength] at changed
      have stored := stored_crc_of_read segmentSize _ start _ other fields crc _ rest fieldsLength crcLength
        (by rw [length]; exact announced) changed read
      rw [← crcEq] at stored
      refine recordCrc_overwrite fields fields message.payload _ (fields.length + place) window fieldsLength fieldsLength
        ?_ ?_ short ?_ stored
      · exact (overwrite_append_right fields message.payload place window).symm
      · rw [List.length_append]
        omega
      · rw [slice_append_length]
        exact different

/-! The two fixed bytes of every record header that a window of four cannot both cover. -/

theorem recordMagic_byte (message : Message) (rest : Bytes) : (encodeRecord message ++ rest)[0]? = some 82 := rfl

theorem recordVersion_byte (message : Message) (rest : Bytes) : (encodeRecord message ++ rest)[4]? = some 32 := rfl

theorem not_isZero_changed (message : Message) (rest bytes : Bytes) (position start : Nat) (window : Bytes)
    (here : bytes.drop start = encodeRecord message ++ rest) (low : start ≤ position)
    (high : position ≤ bytes.length) (short : window.length ≤ 4) :
    isZero ((overwrite bytes position window).drop start) = false := by
  rw [Bool.eq_false_iff]
  intro zero
  by_cases first : start = position
  · have kept := getElem?_overwrite_behind bytes position (start + 4) window (by omega) high
    rw [← List.getElem?_drop, ← List.getElem?_drop, here, recordVersion_byte] at kept
    exact absurd (getElem?_of_isZero _ _ _ zero kept) (by decide)
  · have kept := getElem?_overwrite_before bytes position (start + 0) window (by omega) high
    rw [← List.getElem?_drop, ← List.getElem?_drop, here, recordMagic_byte] at kept
    exact absurd (getElem?_of_isZero _ _ _ zero kept) (by decide)

/-- Changed padding is neither padding nor a record. -/
theorem readRecord_padding (segmentSize : Nat) (bytes : Bytes) (position start expectedOffset : Nat)
    (window : Bytes) (padding : bytes.drop start = zeros (bytes.length - start)) (low : start ≤ position)
    (limit : start ≤ segmentSize) (high : position + window.length ≤ bytes.length) (short : window.length ≤ 4)
    (different : slice bytes position window.length ≠ window) :
    readRecord segmentSize (overwrite bytes position window) start expectedOffset = none ∧
      isZero ((overwrite bytes position window).drop start) = false := by
  obtain ⟨offset, rfl⟩ : ∃ offset, position = start + offset := ⟨position - start, by omega⟩
  have changed := drop_overwrite bytes start offset window (by omega)
  rw [← slice_drop, padding] at different
  constructor
  · cases read : readRecord segmentSize (overwrite bytes (start + offset) window) start expectedOffset with
    | none => rfl
    | some message =>
      exfalso
      obtain ⟨_, _, _, here⟩ := readRecord_sound _ _ _ _ _ limit read
      have magic := recordMagic_byte message ((overwrite bytes (start + offset) window).drop (start + size message))
      have version := recordVersion_byte message
        ((overwrite bytes (start + offset) window).drop (start + size message))
      rw [← here, changed, padding] at magic version
      by_cases first : offset = 0
      · rw [getElem?_overwrite_behind _ _ _ _ (by omega) (by omega)] at version
        exact absurd (getElem?_of_isZero _ _ _ (isZero_zeros _) version) (by decide)
      · rw [getElem?_overwrite_before _ _ _ _ (by omega) (by rw [length_zeros]; omega)] at magic
        exact absurd (getElem?_of_isZero _ _ _ (isZero_zeros _) magic) (by decide)
  · rw [Bool.eq_false_iff]
    intro zero
    apply different
    rw [changed, padding, isZero_iff] at zero
    have kept := slice_overwrite (zeros (bytes.length - start)) offset window (by rw [length_zeros]; omega)
    have same := length_overwrite (zeros (bytes.length - start)) offset window (by rw [length_zeros]; omega)
    rw [same, length_zeros] at zero
    rw [zero] at kept
    exact kept

def InHeader (position length : Nat) : Prop := position + length ≤ 32 ∨ (32 ≤ position ∧ position + length ≤ 36)

theorem segmentFields_changed (id base segmentSize other position : Nat) (window : Bytes)
    (inside : InHeader position window.length) (short : window.length ≤ 4)
    (different : slice (segmentFields id base segmentSize) position window.length ≠ window) :
    overwrite (segmentFields id base segmentSize) position window ≠ segmentFields id other segmentSize := by
  intro same
  have length := length_segmentPrefix id base segmentSize
  have otherLength := length_segmentPrefix id other segmentSize
  have crcLength := length_putU32 (segmentCrc (segmentPrefix id base segmentSize)).toNat
  rw [segmentFields, segmentFields] at same
  rw [segmentFields] at different
  rcases inside with high | ⟨low, high⟩
  · rw [overwrite_append_left _ _ _ _ (by omega)] at same
    rw [slice_append_left _ _ _ _ (by omega)] at different
    have changedLength := length_overwrite (segmentPrefix id base segmentSize) position window (by omega)
    obtain ⟨fields, crc⟩ := List.append_inj same (by rw [changedLength, length, otherLength])
    have crcs := UInt32.toNat_inj.mp (putU32_injective _ _ (UInt32.toNat_lt _) (UInt32.toNat_lt _) crc)
    rw [← fields, segmentCrc, segmentCrc, List.take_of_length_le (by omega), List.take_of_length_le (by omega),
      UInt32.xor_left_inj] at crcs
    have cut : (slice (segmentPrefix id base segmentSize) position window.length).length = window.length := by
      simp only [slice, List.length_take, List.length_drop]
      omega
    apply crc32Update_burst 0xffffffff ((segmentPrefix id base segmentSize).take position)
      (slice (segmentPrefix id base segmentSize) position window.length) window
      ((segmentPrefix id base segmentSize).drop (position + window.length)) cut (by omega) different
    rw [← split_window]
    exact crcs
  · obtain ⟨place, rfl⟩ : ∃ place, position = 32 + place := ⟨position - 32, by omega⟩
    rw [← length, overwrite_append_right] at same
    rw [← length, slice_append_length] at different
    obtain ⟨fields, crc⟩ := List.append_inj same (by rw [length, otherLength])
    rw [← fields] at crc
    rw [← crc, slice_overwrite _ _ _ (by omega)] at different
    exact different rfl

theorem checkSegmentHeader_changed {segmentSize id base : Nat} {bytes : Bytes} {position : Nat} {window : Bytes}
    (opens : Opens segmentSize id base bytes) (idBound : id < 2 ^ 32) (sizeBound : segmentSize < 2 ^ 64)
    (inside : InHeader position window.length) (short : window.length ≤ 4)
    (different : slice bytes position window.length ≠ window) :
    checkSegmentHeader segmentSize id (slice (overwrite bytes position window) 0 segmentHeaderSize) = false := by
  have long := opens.long
  simp only [segmentHeaderSize] at long
  have fields := opens.fields
  have reach : position + window.length ≤ 36 := by unfold InHeader at inside; omega
  have front : (bytes.take 36).length = 36 := by rw [List.length_take]; omega
  have split := List.take_append_drop 36 bytes
  rw [← split, slice_append_left _ _ _ _ (by omega), fields] at different
  rw [Bool.eq_false_iff]
  intro accepted
  have total := length_overwrite bytes position window (by omega)
  have header := (checkSegmentHeader_iff segmentSize id _ (by
    simp only [slice, List.drop_zero, List.length_take, total, segmentHeaderSize]; omega) idBound
    sizeBound).mp accepted
  rw [slice, List.drop_zero, List.take_take, show min 36 segmentHeaderSize = 36 from rfl] at header
  have cut : (overwrite bytes position window).take 36 =
      overwrite (segmentFields id base segmentSize) position window := by
    rw [← fields]
    conv_lhs => rw [← split, overwrite_append_left _ _ _ _ (by omega)]
    exact List.take_left' (by rw [length_overwrite _ _ _ (by omega), front])
  rw [cut] at header
  exact segmentFields_changed id base segmentSize _ position window inside short different header

/-- The window lies in record `number` of a segment, or in the padding behind its last record. -/
def Hits (messages : List Message) (fileLength position length number : Nat) : Prop :=
  (∃ message, messages[number]? = some message ∧
    InRecord (segmentHeaderSize + totalSize (messages.take number)) message position length) ∨
  (number = messages.length ∧ segmentHeaderSize + totalSize messages ≤ position ∧ position + length ≤ fileLength)

section Segments

variable {segmentSize id base : Nat} {messages : List Message} {bytes : Bytes} {position : Nat} {window : Bytes}

theorem chain_getElem? (number : Nat) (message : Message) (chain : Chain base messages)
    (found : messages[number]? = some message) :
    Canonical message ∧ message.offset = base + totalSize (messages.take number) ∧
      messages = messages.take number ++ message :: messages.drop (number + 1) := by
  have split : messages = messages.take number ++ message :: messages.drop (number + 1) := by
    rw [← (List.getElem?_eq_some_iff.mp found).2, ← List.drop_eq_getElem_cons, List.take_append_drop]
  rw [split, chain_append] at chain
  exact ⟨chain.2.2.1, chain.2.1, split⟩

private theorem place_changed (whole : SegmentFile segmentSize id base messages bytes) (number : Nat)
    (hits : Hits messages bytes.length position window.length number) (short : window.length ≤ 4)
    (different : slice bytes position window.length ≠ window) :
    segmentHeaderSize + totalSize (messages.take number) ≤ position ∧
      position + window.length ≤ bytes.length ∧
      readRecord segmentSize (overwrite bytes position window)
        (segmentHeaderSize + totalSize (messages.take number)) (base + totalSize (messages.take number)) = none ∧
      isZero ((overwrite bytes position window).drop
        (segmentHeaderSize + totalSize (messages.take number))) = false := by
  have room := whole.room
  have limit := whole.limit
  rcases hits with ⟨message, found, inside⟩ | ⟨rfl, low, high⟩
  · obtain ⟨canonical, offset, split⟩ := chain_getElem? number message whole.chain found
    have total := congrArg totalSize split
    rw [totalSize_append, totalSize_cons] at total
    have here := (split ▸ whole).drop_records
    rw [encodeRecords_cons, List.append_assoc] at here
    have low : segmentHeaderSize + totalSize (messages.take number) ≤ position ∧
        position + window.length ≤ segmentHeaderSize + totalSize (messages.take number) + size message := by
      have least : 32 ≤ size message := by simp [size, recordHeaderSize]
      unfold InRecord at inside
      omega
    refine ⟨low.1, by omega, ?_, ?_⟩
    · rw [← offset]
      exact readRecord_changed segmentSize message _ bytes position _ window canonical here (by omega) inside short
        different
    · exact not_isZero_changed message _ bytes position _ window here low.1 (by omega) short
  · rw [List.take_length]
    exact ⟨low, high, readRecord_padding segmentSize bytes position _ _ window whole.tail low (by omega) high short
      different⟩

/-- The records in front of the window are read as before, and nothing behind them. -/
theorem segment_changed (whole : SegmentFile segmentSize id base messages bytes) (number : Nat)
    (hits : Hits messages bytes.length position window.length number) (short : window.length ≤ 4)
    (different : slice bytes position window.length ≠ window) :
    Opens segmentSize id base (overwrite bytes position window) ∧
      scanned segmentSize base (overwrite bytes position window) = messages.take number ∧
      isZero ((overwrite bytes position window).drop
        (segmentHeaderSize + totalSize (messages.take number))) = false := by
  have room := whole.room
  have limit := whole.limit
  obtain ⟨low, high, unreadable, nonzero⟩ := place_changed whole number hits short different
  have length := length_overwrite bytes position window high
  have split := List.take_append_drop number messages
  have before := (split.symm ▸ whole).records
  rw [encodeRecords_append, List.append_assoc] at before
  have chain : Chain base (messages.take number) := by
    have chain := whole.chain
    rw [← split, chain_append] at chain
    exact chain.1
  have sizes := congrArg totalSize split
  rw [totalSize_append] at sizes
  have here : (overwrite bytes position window).drop segmentHeaderSize = encodeRecords (messages.take number) ++
      (overwrite bytes position window).drop (segmentHeaderSize + totalSize (messages.take number)) := by
    have cut := List.take_append_drop (totalSize (messages.take number))
      ((overwrite bytes position window).drop segmentHeaderSize)
    rw [List.drop_drop] at cut
    have front : ((overwrite bytes position window).drop segmentHeaderSize).take
        (totalSize (messages.take number)) = encodeRecords (messages.take number) := by
      rw [List.take_drop, take_overwrite _ _ _ _ low (by omega), ← List.take_drop, before,
        List.take_left' (length_encodeRecords _)]
    rw [front] at cut
    exact cut.symm
  refine ⟨⟨by omega, ?_, by omega⟩, ?_, nonzero⟩
  · rw [take_overwrite _ _ _ _ (by simp only [segmentHeaderSize] at low; omega) (by omega), whole.fields]
  · exact scanned_eq _ _ chain (by omega) here unreadable

end Segments

def changed (disk : Directory) (id position : Nat) (window : Bytes) : Directory :=
  update disk (segmentPath id) fun file => { file with bytes := overwrite file.bytes position window }

def Recovers (segmentSize capacity : Nat) (store : Store) (messages : List Message) : Prop :=
  let run := openLog noFaults segmentSize capacity store
  run.result = .ok () ∧ nextOffset run.store = totalSize messages ∧
    ∀ count, getRecent run.store count = messages.rtake (min count capacity)

section Logs

variable {segmentSize : Nat} {store : Store} {front : List (List Message)} {messages : List Message}
  {rest : List (List Message)} {file : File} {position : Nat} {window : Bytes}

theorem puts_changed {disk : Directory} {id : Nat} (position : Nat) (window : Bytes)
    (found : fileAt disk (segmentPath id) = some file) :
    Puts disk (segmentPath id) { file with bytes := overwrite file.bytes position window }
      (changed disk id position window) :=
  puts_update found fun file => { file with bytes := overwrite file.bytes position window }

theorem openLog_changed (holds : Holds segmentSize store.disk (front ++ messages :: rest)) (capacity : Nat)
    (found : fileAt store.disk (segmentPath (front.length + 1)) = some file)
    (refused : ∃ read kept error, Scan.scanSegment noFaults segmentSize (front.length + 1)
      (segmentPath (front.length + 1)) rest.isEmpty (totalSize front.flatten)
      { file with bytes := overwrite file.bytes position window } = ⟨read, kept, .error error⟩) :
    ∃ error, (openLog noFaults segmentSize capacity
      { store with disk := changed store.disk (front.length + 1) position window }).result = .error error := by
  have puts := puts_changed position window found
  have count := holds.count
  have bounded := holds.bounded
  rw [List.length_append, List.length_cons] at count
  rw [List.flatten_append, totalSize_append] at bounded
  have present : ∀ name, (fileAt (changed store.disk (front.length + 1) position window) name).isSome =
      (fileAt store.disk name).isSome := by
    intro name
    by_cases same : name = segmentPath (front.length + 1)
    · rw [same, puts.here, found]
      rfl
    · rw [puts.fileAt_ne name same]
  have listing := segmentFiles_eq (changed store.disk (front.length + 1) position window)
    (front.length + (rest.length + 1)) (by omega) (by
      intro id bound
      rw [present, holds.listed id bound, List.length_append, List.length_cons])
  rw [filesFrom_add, Nat.zero_add] at listing
  have empty : (filesFrom (front.length + 1) rest.length).isEmpty = rest.isEmpty := by
    cases rest with
    | nil => rfl
    | cons => rfl
  refine openLog_throws _ capacity (filesFrom (front.length + 1) rest.length) holds.allowed ?_ (by omega)
    (by omega) listing puts.here (by rw [empty]; exact refused)
  apply holdsFrom_congr segmentSize store.disk _ 0 0 front _
    ((holdsFrom_append segmentSize store.disk 0 0 front _).mp holds.files).1
  intro id _ high
  rw [puts.fileAt_ne]
  intro same
  have ids := segmentPath_injective _ _ (by omega) (by omega) same
  omega

theorem file_at_split (holds : Holds segmentSize store.disk (front ++ messages :: rest))
    (found : fileAt store.disk (segmentPath (front.length + 1)) = some file) :
    SegmentFile segmentSize (front.length + 1) (totalSize front.flatten) messages file.bytes := by
  obtain ⟨other, present, whole⟩ := ((holdsFrom_append segmentSize store.disk 0 0 front _).mp holds.files).2.1
  rw [Nat.zero_add] at present
  rw [Nat.zero_add, Nat.zero_add] at whole
  rw [Option.some.inj (found.symm.trans present)]
  exact whole

/-- A header window makes every open throw, and so does any covered window of a sealed segment. -/
theorem changed_throws (holds : Holds segmentSize store.disk (front ++ messages :: rest))
    (found : fileAt store.disk (segmentPath (front.length + 1)) = some file)
    (different : slice file.bytes position window.length ≠ window) (short : window.length ≤ 4)
    (place : InHeader position window.length ∨
      rest ≠ [] ∧ ∃ number, Hits messages file.bytes.length position window.length number) (capacity : Nat) :
    ∃ error, (openLog noFaults segmentSize capacity
      { store with disk := changed store.disk (front.length + 1) position window }).result = .error error := by
  have whole := file_at_split holds found
  have count := holds.count
  have bounded := holds.bounded
  rw [List.length_append, List.length_cons] at count
  rw [List.flatten_append, totalSize_append, List.flatten_cons, totalSize_append] at bounded
  have idBound : front.length + 1 < 2 ^ 32 := maximumSegmentId_lt (by omega)
  apply openLog_changed holds capacity found
  rcases place with header | ⟨sealedSegment, number, hits⟩
  · have bad := checkSegmentHeader_changed whole.opens idBound holds.allowed.bound header short different
    obtain ⟨error, refused⟩ := scanSegment_refused noFaults (segmentPath (front.length + 1)) rest.isEmpty
      (totalSize front.flatten) { file with bytes := overwrite file.bytes position window } (Or.inr bad)
    exact ⟨_, _, error, refused⟩
  · obtain ⟨opens, read, nonzero⟩ := segment_changed whole number hits short different
    have sizes := congrArg totalSize (List.take_append_drop number messages)
    rw [totalSize_append] at sizes
    obtain ⟨_, _, refused⟩ := scanSegment_eq opens idBound (by simp only [maxU64] at bounded; omega)
      holds.allowed.bound (segmentPath (front.length + 1)) false file.durable (by rw [read]; omega)
    rw [read] at refused
    obtain ⟨error, refused⟩ := refused nonzero rfl
    have latest : rest.isEmpty = false := by simpa using sealedSegment
    rw [latest]
    exact ⟨_, _, error, refused⟩

/-- A covered window of the newest segment costs the damaged record and those behind it. -/
theorem changed_recovers (holds : Holds segmentSize store.disk (front ++ [messages]))
    (closed : store.log.opened = false)
    (found : fileAt store.disk (segmentPath (front.length + 1)) = some file)
    (different : slice file.bytes position window.length ≠ window) (short : window.length ≤ 4) (number : Nat)
    (hits : Hits messages file.bytes.length position window.length number) (capacity : Nat)
    (positive : 0 < capacity) :
    Recovers segmentSize capacity { store with disk := changed store.disk (front.length + 1) position window }
      (front.flatten ++ messages.take number) := by
  have whole := file_at_split holds found
  have bounded := holds.bounded
  rw [List.flatten_append, totalSize_append, List.flatten_singleton] at bounded
  obtain ⟨opens, read, _⟩ := segment_changed whole number hits short different
  have sizes := congrArg totalSize (List.take_append_drop number messages)
  rw [totalSize_append] at sizes
  have newest := (newest_of_holds holds found).replace _ _ (puts_changed position window found)
  obtain ⟨left, run, live, keeps⟩ := openLog_newest
    { store with disk := changed store.disk (front.length + 1) position window } capacity newest closed positive
    opens (by rw [read]; omega)
  rw [read] at live keeps
  have flatten : (front ++ [messages.take number]).flatten = front.flatten ++ messages.take number := by simp
  rw [Recovers, run]
  refine ⟨rfl, ?_, ?_⟩
  · rw [nextOffset, live.next, flatten]
  · intro count
    rw [Log.getRecent, keeps.getRecent, flatten]

end Logs

/-- A cleanly closed log with one window of at most four bytes changed, in a segment
header, in a record outside its length field or in the padding: damage to a header or
to a sealed segment makes every open throw; damage to the newest segment costs exactly
the damaged record and those behind it. -/
theorem corruption_localised (faults : Faults) (segmentSize capacity : Nat) (start : Store)
    (opens : (openLog faults segmentSize capacity start).result = .ok ()) (operations : List Operation)
    (keeps : ∀ operation ∈ operations, KeepsSize segmentSize operation) :
    let history := run advance ⟨(openLog faults segmentSize capacity start).store, [], []⟩
      (operations.map fun operation => (noFaults, operation))
    let closed := (close noFaults history.store).store
    ∃ contents, segments closed = indexFrom 0 0 contents ∧ contents.flatten =
        acceptedMessages segmentSize start.disk (segmentFiles start.disk) 0 ++ history.appended ∧
      ∀ (index : Nat) messages file position window, contents[index]? = some messages →
        fileAt closed.disk (segmentPath (index + 1)) = some file → window.length ≤ 4 →
        position + window.length ≤ file.bytes.length → slice file.bytes position window.length ≠ window →
        let harmed : Store := { closed with disk := changed closed.disk (index + 1) position window }
        (InHeader position window.length ∨ (index + 1 < contents.length ∧
            ∃ number, Hits messages file.bytes.length position window.length number) →
          ∀ lastCapacity, ∃ error, (openLog noFaults segmentSize lastCapacity harmed).result = .error error) ∧
        (index + 1 = contents.length → ∀ number,
          Hits messages file.bytes.length position window.length number → ∀ lastCapacity, 0 < lastCapacity →
            Recovers segmentSize lastCapacity harmed ((contents.take index).flatten ++ messages.take number) ∧
            ∀ message, messages[number]? = some message →
              nextOffset (openLog noFaults segmentSize lastCapacity harmed).store = message.offset) := by
  intro history closed
  obtain ⟨contents, settled, flatten⟩ := run_settled faults segmentSize capacity start opens operations keeps
  obtain ⟨_, idle, entries, _⟩ := close_settled settled
  refine ⟨contents, entries.trans settled.index, flatten, ?_⟩
  intro index messages file position window found present short inside different harmed
  have split : contents = contents.take index ++ messages :: contents.drop (index + 1) := by
    rw [← (List.getElem?_eq_some_iff.mp found).2, ← List.drop_eq_getElem_cons, List.take_append_drop]
  have within := (List.getElem?_eq_some_iff.mp found).1
  have length : (contents.take index).length = index := by rw [List.length_take]; omega
  have holds := idle.holds
  rw [← length] at present
  constructor
  · intro place
    rw [split] at holds
    have thrown := changed_throws holds present different short (by
      refine place.imp_right fun sealedSegment => ⟨?_, sealedSegment.2⟩
      intro none
      have lengths := congrArg List.length none
      rw [List.length_drop, List.length_nil] at lengths
      omega)
    rw [length] at thrown
    exact thrown
  · intro last number hits lastCapacity positive
    have newest : contents = contents.take index ++ [messages] := by
      conv_lhs => rw [split, List.drop_of_length_le (by omega)]
    rw [newest] at holds
    have whole := file_at_split holds present
    have recovers := changed_recovers holds idle.opened present different short number hits lastCapacity positive
    rw [length] at recovers
    refine ⟨recovers, fun message here => ?_⟩
    rw [recovers.2.1, totalSize_append, (chain_getElem? number message whole.chain here).2.1]

/-- One record in the newest segment: with a changed payload byte it is cut off. -/
theorem corruption_localised_one_record :
    let history := run advance ⟨(openLog noFaults 100 3 {}).store, [], []⟩
      ([.append [1, 2, 3] 5].map fun operation => (noFaults, operation))
    let closed := (close noFaults history.store).store
    nextOffset (openLog noFaults 100 1 { closed with disk := changed closed.disk 1 73 [9] }).store = 0 ∧
    ∃ contents, segments closed = indexFrom 0 0 contents ∧ contents.flatten =
        acceptedMessages 100 ∅ (segmentFiles ∅) 0 ++ history.appended ∧
      ∀ (index : Nat) messages file position window, contents[index]? = some messages →
        fileAt closed.disk (segmentPath (index + 1)) = some file → window.length ≤ 4 →
        position + window.length ≤ file.bytes.length → slice file.bytes position window.length ≠ window →
        let harmed : Store := { closed with disk := changed closed.disk (index + 1) position window }
        (InHeader position window.length ∨ (index + 1 < contents.length ∧
            ∃ number, Hits messages file.bytes.length position window.length number) →
          ∀ lastCapacity, ∃ error, (openLog noFaults 100 lastCapacity harmed).result = .error error) ∧
        (index + 1 = contents.length → ∀ number,
          Hits messages file.bytes.length position window.length number → ∀ lastCapacity, 0 < lastCapacity →
            Recovers 100 lastCapacity harmed ((contents.take index).flatten ++ messages.take number) ∧
            ∀ message, messages[number]? = some message →
              nextOffset (openLog noFaults 100 lastCapacity harmed).store = message.offset) :=
  ⟨by decide +kernel,
    corruption_localised noFaults 100 3 {} (by decide +kernel) [.append [1, 2, 3] 5] (by simp [KeepsSize])⟩

end FleetGateway.Storage.Corruption
