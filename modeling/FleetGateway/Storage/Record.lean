import FleetGateway.Storage.Format

/-! Reading back what the format writes. A header check accepts exactly the
canonical header bytes, so an accepted record is the encoding of one message, and
a changed window of at most four bytes never yields another acceptable record. -/

namespace FleetGateway.Storage.Record
open Library Library.ByteStore Format

def crcPolynomial : BitVec 32 := 0xedb88320#32

theorem crc32Bit_toBitVec (crc : UInt32) :
    (crc32Bit crc).toBitVec = ShiftRegister.shift crcPolynomial crc.toBitVec := by
  have mask : (0 - (crc.toBitVec &&& 1#32)) = if crc.toBitVec.getLsbD 0 then 0xffffffff#32 else 0#32 := by
    rw [BitVec.and_one_eq_setWidth_ofBool_getLsbD]
    cases crc.toBitVec.getLsbD 0 <;> rfl
  have unfolded : (crc32Bit crc).toBitVec =
      (crc.toBitVec >>> 1) ^^^ (crcPolynomial &&& (0 - (crc.toBitVec &&& 1#32))) := rfl
  rw [unfolded, mask, ShiftRegister.shift]
  cases crc.toBitVec.getLsbD 0
  · simp
  · simp [crcPolynomial]

theorem crc32Bits_toBitVec (count : Nat) (crc : UInt32) :
    (crc32Bit^[count] crc).toBitVec = (ShiftRegister.shift crcPolynomial)^[count] crc.toBitVec := by
  induction count generalizing crc with
  | zero => rfl
  | succ count ih => rw [Function.iterate_succ_apply, Function.iterate_succ_apply, ih, crc32Bit_toBitVec]

theorem crc32Update_toBitVec (crc : UInt32) (bytes : Bytes) :
    (crc32Update crc bytes).toBitVec = ShiftRegister.absorbAll crcPolynomial crc.toBitVec bytes := by
  induction bytes generalizing crc with
  | nil => rfl
  | cons byte rest ih =>
    have symbol : byte.toUInt32.toBitVec = BitVec.ofNat 32 byte.toNat := by
      apply BitVec.eq_of_toNat_eq
      simp
    have first : (crc32Bit^[8] (crc ^^^ byte.toUInt32)).toBitVec =
        ShiftRegister.absorb crcPolynomial crc.toBitVec byte := by
      rw [crc32Bits_toBitVec, UInt32.toBitVec_xor, symbol]
      rfl
    have rest := ih (crc32Bit^[8] (crc ^^^ byte.toUInt32))
    rw [first] at rest
    exact rest

theorem crc32Update_append (crc : UInt32) (front back : Bytes) :
    crc32Update crc (front ++ back) = crc32Update (crc32Update crc front) back :=
  List.foldl_append

/-- A window of at most four bytes is always visible in the checksum. -/
theorem crc32Update_burst (crc : UInt32) (front window other back : Bytes)
    (lengths : window.length = other.length) (short : window.length ≤ 4) (different : window ≠ other) :
    crc32Update crc (front ++ window ++ back) ≠ crc32Update crc (front ++ other ++ back) := by
  intro same
  apply ShiftRegister.absorbAll_burst crcPolynomial crc.toBitVec (by decide) front window other back
    lengths (by omega) different
  rw [← crc32Update_toBitVec, ← crc32Update_toBitVec, same]

theorem recordCrc_eq (header payload : Bytes) (length : header.length = 28) :
    recordCrc header payload = crc32Update 0xffffffff (header ++ payload) ^^^ 0xffffffff := by
  rw [recordCrc, List.take_of_length_le (by omega), crc32Update_append]

def size (message : Message) : Nat := recordHeaderSize + message.payload.length

def encodeRecord (message : Message) : Bytes :=
  recordHeader message.offset message.timestampNs message.payload ++ message.payload

/-- The ranges that a record read from disk or written by `append` always has. -/
structure Canonical (message : Message) : Prop where
  offset : message.offset < 2 ^ 64
  timestampNs : message.timestampNs < 2 ^ 64
  payloadLength : message.payloadLength = message.payload.length
  payload : message.payload.length < 2 ^ 32

@[simp] theorem length_recordPrefix (offset timestampNs payloadLength : Nat) :
    (recordPrefix offset timestampNs payloadLength).length = 28 := by
  simp [recordPrefix]

@[simp] theorem length_recordHeader (offset timestampNs : Nat) (payload : Bytes) :
    (recordHeader offset timestampNs payload).length = 32 := by
  simp [recordHeader]

@[simp] theorem length_encodeRecord (message : Message) : (encodeRecord message).length = size message := by
  simp [encodeRecord, size, recordHeaderSize]

theorem size_pos (message : Message) : 0 < size message := by
  simp [size, recordHeaderSize]

private theorem drop_putU32 (value count : Nat) (rest : Bytes) :
    (putU32 value ++ rest).drop (4 + count) = rest.drop count := by
  rw [← List.drop_drop, List.drop_left' (length_putU32 value)]

private theorem drop_putU64 (value count : Nat) (rest : Bytes) :
    (putU64 value ++ rest).drop (8 + count) = rest.drop count := by
  rw [← List.drop_drop, List.drop_left' (length_putU64 value)]

theorem recordPrefix_fields (offset timestampNs payloadLength : Nat) (rest : Bytes)
    (offsetBound : offset < 2 ^ 64) (timestampBound : timestampNs < 2 ^ 64)
    (lengthBound : payloadLength < 2 ^ 32) :
    let header := recordPrefix offset timestampNs payloadLength ++ rest
    getU32 header = recordMagic ∧ getU32 (header.drop 4) = recordVersionSize ∧
      getU64 (header.drop 8) = offset ∧ getU64 (header.drop 16) = timestampNs ∧
      getU32 (header.drop 24) = payloadLength ∧ header.drop 28 = rest := by
  intro header
  have layout : header = putU32 recordMagic ++ (putU32 recordVersionSize ++ (putU64 offset ++
      (putU64 timestampNs ++ (putU32 payloadLength ++ rest)))) := by
    simp only [header, recordPrefix, List.append_assoc]
  have d4 : header.drop 4 = putU32 recordVersionSize ++ (putU64 offset ++
      (putU64 timestampNs ++ (putU32 payloadLength ++ rest))) := by
    rw [layout]; exact drop_putU32 _ 0 _
  have d8 : header.drop 8 = putU64 offset ++ (putU64 timestampNs ++ (putU32 payloadLength ++ rest)) := by
    rw [show 8 = 4 + 4 by rfl, ← List.drop_drop, d4]; exact drop_putU32 _ 0 _
  have d16 : header.drop 16 = putU64 timestampNs ++ (putU32 payloadLength ++ rest) := by
    rw [show 16 = 8 + 8 by rfl, ← List.drop_drop, d8]; exact drop_putU64 _ 0 _
  have d24 : header.drop 24 = putU32 payloadLength ++ rest := by
    rw [show 24 = 16 + 8 by rfl, ← List.drop_drop, d16]; exact drop_putU64 _ 0 _
  have d28 : header.drop 28 = rest := by
    rw [show 28 = 24 + 4 by rfl, ← List.drop_drop, d24]; exact drop_putU32 _ 0 _
  refine ⟨?_, ?_, ?_, ?_, ?_, d28⟩
  · rw [layout]; exact getU32_put _ _ (by decide)
  · rw [d4]; exact getU32_put _ _ (by decide)
  · rw [d8]; exact getU64_put _ _ offsetBound
  · rw [d16]; exact getU64_put _ _ timestampBound
  · rw [d24]; exact getU32_put _ _ lengthBound

theorem recordPrefix_of_fields (header : Bytes) (enough : 28 ≤ header.length)
    (magic : getU32 header = recordMagic) (version : getU32 (header.drop 4) = recordVersionSize) :
    header.take 28 = recordPrefix (getU64 (header.drop 8)) (getU64 (header.drop 16))
      (getU32 (header.drop 24)) := by
  have long : ∀ count width, count + width ≤ 28 → width ≤ (header.drop count).length := by
    intro count width small
    rw [List.length_drop]
    omega
  rw [show 28 = 4 + (4 + (8 + (8 + 4))) by rfl, List.take_add, List.take_add, List.take_add,
    List.take_add, List.drop_drop, List.drop_drop, List.drop_drop]
  rw [take_eq_putU32 header (by omega), take_eq_putU32 _ (long 4 4 (by omega)),
    take_eq_putU64 _ (long 8 8 (by omega)), take_eq_putU64 _ (long 16 8 (by omega)),
    take_eq_putU32 _ (long 24 4 (by omega)), magic, version]
  rfl

/-- The first half of the record check in `scan_segment`: the announced payload
length, when the header belongs at this place and the record fits. -/
def checkRecordHeader (segmentSize : Nat) (bytes : Bytes) (position expectedOffset : Nat) : Option Nat :=
  let header := slice bytes position recordHeaderSize
  if header.length = recordHeaderSize ∧ getU32 header = recordMagic ∧
      getU32 (header.drop 4) = recordVersionSize ∧ getU64 (header.drop 8) = expectedOffset then
    let payloadLength := getU32 (header.drop 24)
    let totalRecordSize := recordHeaderSize + payloadLength
    if totalRecordSize ≤ segmentSize - position ∧ position + totalRecordSize ≤ bytes.length then
      some payloadLength
    else none
  else none

/-- The second half: the payload is read and the stored checksum compared. -/
def checkRecordPayload (bytes : Bytes) (position expectedOffset payloadLength : Nat) : Option Message :=
  let header := slice bytes position recordHeaderSize
  let payload := slice bytes (position + recordHeaderSize) payloadLength
  if payload.length = payloadLength ∧ getU32 (header.drop 28) = (recordCrc header payload).toNat then
    some { offset := expectedOffset, timestampNs := getU64 (header.drop 16),
           payloadLength := payloadLength, payload := payload }
  else none

def readRecord (segmentSize : Nat) (bytes : Bytes) (position expectedOffset : Nat) : Option Message := do
  let payloadLength ← checkRecordHeader segmentSize bytes position expectedOffset
  checkRecordPayload bytes position expectedOffset payloadLength

theorem drop_eq_record (bytes : Bytes) (position payloadLength : Nat) :
    bytes.drop position = slice bytes position recordHeaderSize ++
      (slice bytes (position + recordHeaderSize) payloadLength ++
        bytes.drop (position + (recordHeaderSize + payloadLength))) := by
  have outer := (List.take_append_drop recordHeaderSize (bytes.drop position)).symm
  have inner := (List.take_append_drop payloadLength (bytes.drop (position + recordHeaderSize))).symm
  rw [List.drop_drop] at outer inner
  rw [Nat.add_assoc] at inner
  rw [slice, slice, ← inner, ← outer]

theorem readRecord_sound (segmentSize : Nat) (bytes : Bytes) (position expectedOffset : Nat) (message : Message)
    (inside : position ≤ segmentSize)
    (accepted : readRecord segmentSize bytes position expectedOffset = some message) :
    message.offset = expectedOffset ∧ Canonical message ∧ position + size message ≤ segmentSize ∧
      bytes.drop position = encodeRecord message ++ bytes.drop (position + size message) := by
  simp only [readRecord, checkRecordHeader, Option.bind_eq_bind, Option.bind_eq_some_iff] at accepted
  obtain ⟨payloadLength, headerAccepted, payloadAccepted⟩ := accepted
  split_ifs at headerAccepted with fields fits
  obtain ⟨whole, magic, version, offset⟩ := fields
  obtain ⟨room, present⟩ := fits
  rw [Option.some.injEq] at headerAccepted
  simp only [checkRecordPayload] at payloadAccepted
  split_ifs at payloadAccepted with check
  obtain ⟨length, crc⟩ := check
  rw [Option.some.injEq] at payloadAccepted
  generalize headerEq : slice bytes position recordHeaderSize = header at *
  generalize payloadEq : slice bytes (position + recordHeaderSize) payloadLength = payload at *
  subst payloadAccepted
  have prefixBytes := recordPrefix_of_fields header (by rw [whole]; decide) magic version
  rw [headerAccepted, offset, ← length] at prefixBytes
  have stored : header.drop 28 = putU32 (recordCrc header payload).toNat := by
    rw [← crc, ← take_eq_putU32 _ (by rw [List.length_drop, whole]; decide)]
    exact (List.take_of_length_le (by rw [List.length_drop, whole]; decide)).symm
  have sameCrc : recordCrc header payload = recordCrc (header.take 28) payload := by
    rw [recordCrc, recordCrc, List.take_take, Nat.min_self]
  have canonicalHeader : header = recordHeader expectedOffset (getU64 (header.drop 16)) payload := by
    rw [recordHeader, ← prefixBytes, ← sameCrc, ← stored, List.take_append_drop]
  rw [headerAccepted] at room present
  refine ⟨rfl, ⟨?_, getU64_lt _, length.symm, ?_⟩, ?_, ?_⟩
  · exact offset ▸ getU64_lt _
  · have bound := getU32_lt (header.drop 24)
    rw [headerAccepted, ← length] at bound
    exact bound
  · simp only [size, length]
    omega
  · simp only [encodeRecord, size, ← canonicalHeader, length, List.append_assoc]
    have split := drop_eq_record bytes position payloadLength
    rwa [headerEq, payloadEq] at split

theorem readRecord_complete (segmentSize : Nat) (bytes : Bytes) (position : Nat) (message : Message) (rest : Bytes)
    (canonical : Canonical message) (fits : position + size message ≤ segmentSize)
    (here : bytes.drop position = encodeRecord message ++ rest) :
    readRecord segmentSize bytes position message.offset = some message := by
  have header : slice bytes position recordHeaderSize =
      recordHeader message.offset message.timestampNs message.payload := by
    rw [slice, here, encodeRecord, List.append_assoc]
    exact List.take_left' (length_recordHeader _ _ _)
  have payload : slice bytes (position + recordHeaderSize) message.payload.length = message.payload := by
    rw [slice, ← List.drop_drop, here, encodeRecord, List.append_assoc]
    rw [List.drop_left' (show _ = recordHeaderSize from length_recordHeader _ _ _), List.take_left]
  obtain ⟨magic, version, offset, timestamp, length, crc⟩ := recordPrefix_fields message.offset
    message.timestampNs message.payload.length
    (putU32 (recordCrc (recordPrefix message.offset message.timestampNs message.payload.length)
      message.payload).toNat) canonical.offset canonical.timestampNs canonical.payload
  change getU32 (recordHeader message.offset message.timestampNs message.payload) = _ at magic
  change getU32 ((recordHeader message.offset message.timestampNs message.payload).drop 4) = _ at version
  change getU64 ((recordHeader message.offset message.timestampNs message.payload).drop 8) = _ at offset
  change getU64 ((recordHeader message.offset message.timestampNs message.payload).drop 16) = _ at timestamp
  change getU32 ((recordHeader message.offset message.timestampNs message.payload).drop 24) = _ at length
  change (recordHeader message.offset message.timestampNs message.payload).drop 28 = _ at crc
  have present : position + size message ≤ bytes.length := by
    have lengths := congrArg List.length here
    simp only [List.length_drop, List.length_append, length_encodeRecord] at lengths
    have positive := size_pos message
    omega
  have room : size message ≤ segmentSize - position := by omega
  have headerAccepted : checkRecordHeader segmentSize bytes position message.offset =
      some message.payload.length := by
    simp only [checkRecordHeader, header, magic, version, offset, length]
    rw [if_pos ⟨length_recordHeader _ _ _, trivial, trivial, trivial⟩, if_pos ⟨room, present⟩]
  have checksum : recordCrc (recordHeader message.offset message.timestampNs message.payload) message.payload =
      recordCrc (recordPrefix message.offset message.timestampNs message.payload.length) message.payload := by
    rw [recordCrc, recordCrc, recordHeader, List.take_left' (length_recordPrefix _ _ _),
      List.take_of_length_le (le_of_eq (length_recordPrefix _ _ _))]
  have stored : getU32 (putU32 (recordCrc (recordPrefix message.offset message.timestampNs
      message.payload.length) message.payload).toNat) = (recordCrc (recordPrefix message.offset
      message.timestampNs message.payload.length) message.payload).toNat := by
    have bound := (recordCrc (recordPrefix message.offset message.timestampNs message.payload.length)
      message.payload).toNat_lt
    simpa using getU32_put _ [] bound
  have payloadAccepted : checkRecordPayload bytes position message.offset message.payload.length =
      some message := by
    simp only [checkRecordPayload, header, payload, timestamp, crc, checksum, stored]
    rw [if_pos ⟨trivial, trivial⟩, ← canonical.payloadLength]
  simp only [readRecord, headerAccepted, Option.bind_eq_bind, Option.bind_some, payloadAccepted]

def encodeRecords (messages : List Message) : Bytes := messages.flatMap encodeRecord

def totalSize (messages : List Message) : Nat := (messages.map size).sum

/-- Canonical messages whose offsets follow one another from `base` on. -/
def Chain : Nat → List Message → Prop
  | _, [] => True
  | base, message :: rest => message.offset = base ∧ Canonical message ∧ Chain (base + size message) rest

@[simp] theorem encodeRecords_nil : encodeRecords [] = [] := rfl

@[simp] theorem encodeRecords_cons (message : Message) (rest : List Message) :
    encodeRecords (message :: rest) = encodeRecord message ++ encodeRecords rest := rfl

@[simp] theorem encodeRecords_append (front back : List Message) :
    encodeRecords (front ++ back) = encodeRecords front ++ encodeRecords back := by
  simp [encodeRecords]

@[simp] theorem totalSize_nil : totalSize [] = 0 := rfl

@[simp] theorem totalSize_cons (message : Message) (rest : List Message) :
    totalSize (message :: rest) = size message + totalSize rest := by
  simp [totalSize]

@[simp] theorem totalSize_append (front back : List Message) :
    totalSize (front ++ back) = totalSize front + totalSize back := by
  simp [totalSize]

@[simp] theorem length_encodeRecords (messages : List Message) :
    (encodeRecords messages).length = totalSize messages := by
  induction messages with
  | nil => rfl
  | cons message rest ih => simp [ih]

theorem chain_append (base : Nat) (front back : List Message) :
    Chain base (front ++ back) ↔ Chain base front ∧ Chain (base + totalSize front) back := by
  induction front generalizing base with
  | nil => simp [Chain]
  | cons message rest ih =>
    simp only [List.cons_append, Chain, ih, totalSize_cons, and_assoc, Nat.add_assoc]

theorem length_le_totalSize (messages : List Message) : 32 * messages.length ≤ totalSize messages := by
  induction messages with
  | nil => simp
  | cons message rest ih =>
    have header : 32 ≤ size message := by simp [size, recordHeaderSize]
    simp only [List.length_cons, totalSize_cons]
    omega

end FleetGateway.Storage.Record
