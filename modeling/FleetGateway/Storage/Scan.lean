import FleetGateway.Storage.Record
import FleetGateway.Storage.Disk

/-! `MemoryMappedLog::scan_segment`: the header checks, the record loop, the two
tail checks and the truncation of a damaged newest segment. -/

namespace FleetGateway.Storage.Scan
open Library Library.ByteStore Format Record Disk

structure LogSegmentInfo where
  segmentId : Nat
  firstOffset : Nat
  endOffset : Nat
  validBytes : Nat
  path : Bytes
  deriving DecidableEq, Repr

/-- The five comparisons behind "invalid segment header". -/
def checkSegmentHeader (segmentSize expectedId : Nat) (header : Bytes) : Bool :=
  decide (header.take 8 = segmentMagic) && decide (getU32 (header.drop 8) = segmentVersion) &&
    decide (getU32 (header.drop 12) = expectedId) && decide (getU64 (header.drop 24) = segmentSize) &&
    decide (getU32 (header.drop 32) = (segmentCrc header).toNat)

/-- What the record loop leaves behind: the messages pushed to the recent cache,
the place it stopped at, and `truncate_tail` or the exception it threw. -/
structure RecordScan where
  messages : List Message
  position : Nat
  expectedOffset : Nat
  outcome : Except LogError Bool

/-- The loop ends here; `corrupt` is the complaint about a sealed segment. -/
def stopDamaged (isLatest : Bool) (path : Bytes) (position expectedOffset : Nat) (corrupt : String) :
    RecordScan :=
  ⟨[], position, expectedOffset,
    if isLatest then .ok true else .error (.runtimeError corrupt (some path))⟩

/-- The record loop. Every turn advances by a whole record, so `fuel` beyond the
file length is never used up. -/
def scanRecords (faults : Faults) (segmentSize expectedId : Nat) (path : Bytes) (isLatest : Bool)
    (bytes : Bytes) : Nat → Nat → Nat → RecordScan
  | 0, position, expectedOffset => ⟨[], position, expectedOffset, .ok false⟩
  | fuel + 1, position, expectedOffset =>
    let stop := fun outcome => (⟨[], position, expectedOffset, outcome⟩ : RecordScan)
    if bytes.length < position + recordHeaderSize then stop (.ok false)
    else if faults (.readRecord expectedId position) then stop (.error (.systemError "pread" (some path)))
    else if getU32 (slice bytes position recordHeaderSize) = 0 then
      if faults (.readZeroTail expectedId) then stop (.error (.systemError "pread" (some path)))
      else if isZero (bytes.drop position) then stop (.ok false)
      else stopDamaged isLatest path position expectedOffset "corrupt tail in sealed segment"
    else match checkRecordHeader segmentSize bytes position expectedOffset with
      | none => stopDamaged isLatest path position expectedOffset "corrupt record in sealed segment"
      | some payloadLength =>
        if payloadLength ≠ 0 ∧ faults (.readPayload expectedId position) then
          stop (.error (.systemError "pread" (some path)))
        else match checkRecordPayload bytes position expectedOffset payloadLength with
          | none => stopDamaged isLatest path position expectedOffset "corrupt record in sealed segment"
          | some message =>
            let totalRecordSize := recordHeaderSize + payloadLength
            if maxU64 - totalRecordSize < expectedOffset then
              stop (.error (.runtimeError "record offsets overflow in segment" (some path)))
            else
              let rest := scanRecords faults segmentSize expectedId path isLatest bytes fuel
                (position + totalRecordSize) (expectedOffset + totalRecordSize)
              { rest with messages := message :: rest.messages }

structure SegmentScan where
  messages : List Message
  file : File
  result : Except LogError LogSegmentInfo

/-- The end of `scan_segment`: the tail too short for a record header, the
truncation, and closing the file. -/
def finishScan (faults : Faults) (expectedId : Nat) (path : Bytes) (isLatest : Bool) (baseOffset : Nat)
    (file : File) (scan : RecordScan) : SegmentScan :=
  match scan.outcome with
  | .error error => ⟨scan.messages, file, .error error⟩
  | .ok truncateLoop =>
    let actualSize := file.bytes.length
    let shortTail : Bool := decide (scan.position < actualSize) &&
      decide (actualSize < scan.position + recordHeaderSize)
    let damaged := shortTail && !isZero (slice file.bytes scan.position (actualSize - scan.position))
    let truncateTail := truncateLoop || damaged
    let kept := if truncateTail then file.truncate scan.position else file
    if shortTail ∧ faults (.readShortTail expectedId) then
      ⟨scan.messages, file, .error (.systemError "pread" (some path))⟩
    else if damaged ∧ isLatest = false then
      ⟨scan.messages, file, .error (.runtimeError "truncated record in sealed segment" (some path))⟩
    else if truncateTail ∧ faults (.truncateTail expectedId) then
      ⟨scan.messages, file, .error (.systemError "truncate recovered segment" (some path))⟩
    else if faults (.scanClose expectedId) then
      ⟨scan.messages, kept, .error (.systemError "close" (some path))⟩
    else
      ⟨scan.messages, kept, .ok ⟨expectedId, baseOffset, scan.expectedOffset, scan.position, path⟩⟩

def scanSegment (faults : Faults) (segmentSize expectedId : Nat) (path : Bytes) (isLatest : Bool)
    (expectedOffset : Nat) (file : File) : SegmentScan :=
  let actualSize := file.bytes.length
  let header := slice file.bytes 0 segmentHeaderSize
  let refuse := fun error => (⟨[], file, .error error⟩ : SegmentScan)
  if faults (.scanOpen expectedId) then refuse (.systemError "open" (some path))
  else if faults (.scanStat expectedId) then refuse (.systemError "fstat" (some path))
  else if actualSize < segmentHeaderSize then refuse (.runtimeError "segment header is truncated" (some path))
  else if faults (.readHeader expectedId) then
    refuse (.runtimeError "unable to read segment header" (some path))
  else if checkSegmentHeader segmentSize expectedId header = false then
    refuse (.runtimeError "invalid segment header" (some path))
  else if getU64 (header.drop 16) ≠ expectedOffset then
    refuse (.runtimeError "segment base offset is discontinuous" (some path))
  else if segmentSize < actualSize then
    refuse (.runtimeError "segment file exceeds configured size" (some path))
  else
    finishScan faults expectedId path isLatest expectedOffset file
      (scanRecords faults segmentSize expectedId path isLatest file.bytes (actualSize + 1)
        segmentHeaderSize expectedOffset)

inductive Starts (faults : Faults) (segmentSize id : Nat) (path : Bytes) (isLatest : Bool) (base : Nat) (file : File) :
    SegmentScan → Prop
  | refused (error : LogError) : Starts faults segmentSize id path isLatest base file ⟨[], file, .error error⟩
  | proceeds (opened : ¬ faults (.scanOpen id) = true) (stat : ¬ faults (.scanStat id) = true)
      (long : ¬ file.bytes.length < segmentHeaderSize) (read : ¬ faults (.readHeader id) = true)
      (header : ¬ checkSegmentHeader segmentSize id (slice file.bytes 0 segmentHeaderSize) = false)
      (sameBase : ¬ getU64 ((slice file.bytes 0 segmentHeaderSize).drop 16) ≠ base)
      (fits : ¬ segmentSize < file.bytes.length) :
      Starts faults segmentSize id path isLatest base file (finishScan faults id path isLatest base file
        (scanRecords faults segmentSize id path isLatest file.bytes (file.bytes.length + 1) segmentHeaderSize base))

theorem scanSegment_starts (faults : Faults) (segmentSize id : Nat) (path : Bytes) (isLatest : Bool) (base : Nat)
    (file : File) : Starts faults segmentSize id path isLatest base file
      (scanSegment faults segmentSize id path isLatest base file) := by
  unfold scanSegment
  dsimp only
  split
  · exact .refused _
  next opened =>
  split
  · exact .refused _
  next stat =>
  split
  · exact .refused _
  next long =>
  split
  · exact .refused _
  next read =>
  split
  · exact .refused _
  next header =>
  split
  · exact .refused _
  next sameBase =>
  split
  · exact .refused _
  next fits => exact .proceeds opened stat long read header sameBase fits

def accepted (segmentSize : Nat) (bytes : Bytes) : Nat → Nat → Nat → List Message
  | 0, _, _ => []
  | fuel + 1, position, expectedOffset =>
    match readRecord segmentSize bytes position expectedOffset with
    | none => []
    | some message =>
      message :: accepted segmentSize bytes fuel (position + size message) (expectedOffset + size message)

theorem accepted_none (segmentSize : Nat) (bytes : Bytes) (fuel position expectedOffset : Nat)
    (unreadable : readRecord segmentSize bytes position expectedOffset = none) :
    accepted segmentSize bytes fuel position expectedOffset = [] := by
  cases fuel with
  | zero => rfl
  | succ fuel => simp only [accepted, unreadable]

theorem accepted_sound (segmentSize : Nat) (bytes : Bytes) (fuel position expectedOffset : Nat)
    (inside : position ≤ segmentSize) :
    let messages := accepted segmentSize bytes fuel position expectedOffset
    Chain expectedOffset messages ∧ position + totalSize messages ≤ segmentSize ∧
      bytes.drop position = encodeRecords messages ++ bytes.drop (position + totalSize messages) := by
  induction fuel generalizing position expectedOffset with
  | zero => simpa [accepted, Chain] using inside
  | succ fuel ih =>
    cases read : readRecord segmentSize bytes position expectedOffset with
    | none => simpa [accepted, read, Chain] using inside
    | some message =>
      obtain ⟨offset, canonical, fits, here⟩ := readRecord_sound _ _ _ _ _ inside read
      obtain ⟨chain, bound, rest⟩ := ih (position + size message) (expectedOffset + size message) fits
      simp only [accepted, read, Chain, totalSize_cons, encodeRecords_cons]
      refine ⟨⟨offset, canonical, chain⟩, by omega, ?_⟩
      rw [here, rest, List.append_assoc, Nat.add_assoc]

theorem accepted_append (segmentSize : Nat) (bytes : Bytes) (messages : List Message) (rest : Bytes)
    (fuel position expectedOffset : Nat) (chain : Chain expectedOffset messages)
    (fits : position + totalSize messages ≤ segmentSize)
    (here : bytes.drop position = encodeRecords messages ++ rest) :
    accepted segmentSize bytes (messages.length + fuel) position expectedOffset =
      messages ++ accepted segmentSize bytes fuel (position + totalSize messages)
        (expectedOffset + totalSize messages) := by
  induction messages generalizing position expectedOffset with
  | nil => simp
  | cons message others ih =>
    obtain ⟨offset, canonical, chain⟩ := chain
    simp only [totalSize_cons, encodeRecords_cons, List.append_assoc] at fits here
    have read := readRecord_complete segmentSize bytes position message _ canonical (by omega) here
    rw [offset] at read
    have next : bytes.drop (position + size message) = encodeRecords others ++ rest := by
      rw [← List.drop_drop, here, List.drop_left' (length_encodeRecord message)]
    have tail := ih (position + size message) (expectedOffset + size message) chain (by omega) next
    rw [List.length_cons, Nat.add_right_comm, accepted, read]
    simp only [tail, totalSize_cons, List.cons_append, Nat.add_assoc]

def endOutcome (isLatest : Bool) (path bytes : Bytes) (position : Nat) : Except LogError Bool :=
  if bytes.length < position + recordHeaderSize ∨ isZero (bytes.drop position) = true then .ok false
  else if isLatest then .ok true
  else if getU32 (slice bytes position recordHeaderSize) = 0 then
    .error (.runtimeError "corrupt tail in sealed segment" (some path))
  else .error (.runtimeError "corrupt record in sealed segment" (some path))

theorem getU32_of_isZero (bytes : Bytes) (position : Nat) (zero : isZero (bytes.drop position) = true) :
    getU32 (slice bytes position recordHeaderSize) = 0 := by
  rw [isZero_iff] at zero
  rw [slice, zero, take_zeros, getU32, getUint_eq_decode, take_zeros, LittleEndian.decode_eq_zero_iff]
  simp [zeros]

theorem readRecord_parts (segmentSize : Nat) (bytes : Bytes) (position expectedOffset : Nat) (message : Message)
    (read : readRecord segmentSize bytes position expectedOffset = some message) :
    position + recordHeaderSize ≤ bytes.length ∧
      getU32 (slice bytes position recordHeaderSize) ≠ 0 ∧
      checkRecordHeader segmentSize bytes position expectedOffset = some message.payload.length ∧
      checkRecordPayload bytes position expectedOffset message.payload.length = some message := by
  simp only [readRecord, Option.bind_eq_bind, Option.bind_eq_some_iff] at read
  obtain ⟨payloadLength, header, payload⟩ := read
  have same : message.payload.length = payloadLength := by
    simp only [checkRecordPayload] at payload
    split_ifs at payload with check
    rw [Option.some.injEq] at payload
    rw [← payload]
    exact check.1
  rw [same]
  refine ⟨?_, ?_, header, payload⟩
  · simp only [checkRecordHeader] at header
    split_ifs at header with fields fits
    omega
  · simp only [checkRecordHeader] at header
    split_ifs at header with fields fits
    rw [fields.2.1]
    decide

private theorem scanRecords_unreadable (segmentSize expectedId : Nat) (path : Bytes) (isLatest : Bool)
    (bytes : Bytes) (fuel position expectedOffset : Nat)
    (unreadable : readRecord segmentSize bytes position expectedOffset = none) :
    scanRecords noFaults segmentSize expectedId path isLatest bytes (fuel + 1) position expectedOffset =
      ⟨[], position, expectedOffset, endOutcome isLatest path bytes position⟩ := by
  simp only [scanRecords, noFaults, Bool.false_eq_true, ↓reduceIte, and_false, endOutcome, stopDamaged]
  by_cases short : bytes.length < position + recordHeaderSize
  · simp only [short, ↓reduceIte, true_or]
  by_cases zero : isZero (bytes.drop position) = true
  · simp only [short, zero, getU32_of_isZero bytes position zero, ↓reduceIte, or_true]
  by_cases magic : getU32 (slice bytes position recordHeaderSize) = 0
  · simp only [short, zero, magic, ↓reduceIte, or_self, Bool.false_eq_true]
  simp only [short, zero, magic, ↓reduceIte, or_self, Bool.false_eq_true]
  cases header : checkRecordHeader segmentSize bytes position expectedOffset with
  | none => rfl
  | some payloadLength =>
    cases payload : checkRecordPayload bytes position expectedOffset payloadLength with
    | none => simp only [payload]
    | some message => simp [readRecord, header, payload] at unreadable

/-- Without faults the loop pushes exactly the readable records. -/
theorem scanRecords_eq (segmentSize expectedId : Nat) (path : Bytes) (isLatest : Bool) (bytes : Bytes)
    (fuel position expectedOffset : Nat) (enough : bytes.length < position + 32 * fuel)
    (bounded : expectedOffset + totalSize (accepted segmentSize bytes fuel position expectedOffset) ≤ maxU64)
    (inside : position ≤ segmentSize) :
    let messages := accepted segmentSize bytes fuel position expectedOffset
    scanRecords noFaults segmentSize expectedId path isLatest bytes fuel position expectedOffset =
      ⟨messages, position + totalSize messages, expectedOffset + totalSize messages,
        endOutcome isLatest path bytes (position + totalSize messages)⟩ := by
  induction fuel generalizing position expectedOffset with
  | zero =>
    have short : bytes.length < position + recordHeaderSize := by omega
    simp [accepted, scanRecords, endOutcome, short]
  | succ fuel ih =>
    cases read : readRecord segmentSize bytes position expectedOffset with
    | none =>
      simp only [accepted, read, totalSize_nil, Nat.add_zero]
      exact scanRecords_unreadable segmentSize expectedId path isLatest bytes fuel position expectedOffset read
    | some message =>
      obtain ⟨present, magic, header, payload⟩ := readRecord_parts _ _ _ _ _ read
      obtain ⟨_, _, fits, _⟩ := readRecord_sound _ _ _ _ _ inside read
      have advance : recordHeaderSize + message.payload.length = size message := rfl
      have least : 32 ≤ size message := by simp [size, recordHeaderSize]
      simp only [accepted, read, totalSize_cons] at bounded
      have room : ¬ maxU64 - size message < expectedOffset := by omega
      have long : ¬ bytes.length < position + recordHeaderSize := by omega
      have rest := ih (position + size message) (expectedOffset + size message) (by omega) (by omega) fits
      simp only [scanRecords, noFaults, long, magic, header, payload, advance, room, Bool.false_eq_true,
        and_false, ↓reduceIte]
      change ({ scanRecords noFaults _ _ _ _ _ _ _ _ with messages := _ } : RecordScan) = _
      rw [rest]
      simp only [accepted, read, totalSize_cons, Nat.add_assoc]

theorem scanRecords_bounded (segmentSize expectedId : Nat) (path : Bytes) (isLatest : Bool) (bytes : Bytes)
    (fuel position expectedOffset : Nat) (truncate : Bool) (start : expectedOffset ≤ maxU64)
    (inside : position ≤ segmentSize)
    (ended : (scanRecords noFaults segmentSize expectedId path isLatest bytes fuel position
      expectedOffset).outcome = .ok truncate) :
    expectedOffset + totalSize (accepted segmentSize bytes fuel position expectedOffset) ≤ maxU64 := by
  induction fuel generalizing position expectedOffset with
  | zero => simpa [accepted] using start
  | succ fuel ih =>
    cases read : readRecord segmentSize bytes position expectedOffset with
    | none => simpa [accepted, read] using start
    | some message =>
      obtain ⟨present, magic, header, payload⟩ := readRecord_parts _ _ _ _ _ read
      obtain ⟨_, canonical, fits, _⟩ := readRecord_sound _ _ _ _ _ inside read
      have advance : recordHeaderSize + message.payload.length = size message := rfl
      have long : ¬ bytes.length < position + recordHeaderSize := by omega
      simp only [accepted, read, totalSize_cons]
      simp only [scanRecords, noFaults, long, magic, header, payload, advance, Bool.false_eq_true,
        and_false, ↓reduceIte] at ended
      by_cases full : maxU64 - size message < expectedOffset
      · simp only [full, ↓reduceIte, reduceCtorEq] at ended
      · simp only [full, ↓reduceIte] at ended
        have small : size message ≤ maxU64 := by
          have limit := canonical.payload
          simp only [size, recordHeaderSize, maxU64]
          omega
        have rest := ih (position + size message) (expectedOffset + size message) (by omega) fits ended
        omega

/-- Faults only turn a scan into an exception; they never change what it accepts. -/
theorem scanRecords_faults (faults : Faults) (segmentSize expectedId : Nat) (path : Bytes) (isLatest : Bool)
    (bytes : Bytes) (fuel position expectedOffset : Nat) (truncate : Bool)
    (ended : (scanRecords faults segmentSize expectedId path isLatest bytes fuel position
      expectedOffset).outcome = .ok truncate) :
    scanRecords faults segmentSize expectedId path isLatest bytes fuel position expectedOffset =
      scanRecords noFaults segmentSize expectedId path isLatest bytes fuel position expectedOffset := by
  induction fuel generalizing position expectedOffset with
  | zero => rfl
  | succ fuel ih =>
    simp only [scanRecords, noFaults, Bool.false_eq_true, and_false, ↓reduceIte] at ended ⊢
    by_cases short : bytes.length < position + recordHeaderSize
    · simp only [short, ↓reduceIte]
    by_cases unread : faults (.readRecord expectedId position) = true
    · simp only [short, unread, ↓reduceIte, reduceCtorEq] at ended
    by_cases magic : getU32 (slice bytes position recordHeaderSize) = 0
    · by_cases unreadTail : faults (.readZeroTail expectedId) = true
      · simp only [short, unread, magic, unreadTail, ↓reduceIte, reduceCtorEq] at ended
      · simp only [short, unread, magic, unreadTail, Bool.false_eq_true, ↓reduceIte]
    simp only [short, unread, magic, Bool.false_eq_true, ↓reduceIte] at ended ⊢
    cases header : checkRecordHeader segmentSize bytes position expectedOffset with
    | none => rfl
    | some payloadLength =>
      simp only [header] at ended ⊢
      by_cases unreadPayload : payloadLength ≠ 0 ∧ faults (.readPayload expectedId position) = true
      · simp only [if_pos unreadPayload, reduceCtorEq] at ended
      · rw [if_neg unreadPayload] at ended ⊢
        cases payload : checkRecordPayload bytes position expectedOffset payloadLength with
        | none => rfl
        | some message =>
          simp only [payload] at ended ⊢
          split_ifs at ended ⊢
          rw [ih _ _ ended]

end FleetGateway.Storage.Scan
