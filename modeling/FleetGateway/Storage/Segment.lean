import FleetGateway.Storage.Scan

/-! One whole segment file. A file that holds a header, a chain of records and
zero padding scans to exactly that chain; a scan that succeeds leaves such a file. -/

namespace FleetGateway.Storage.Segment
open Library Library.ByteStore Format Record Disk Scan

@[simp] theorem length_segmentPrefix (id base segmentSize : Nat) :
    (segmentPrefix id base segmentSize).length = 32 := by
  have magic : segmentMagic.length = 8 := rfl
  simp [segmentPrefix, magic]

@[simp] theorem length_segmentFields (id base segmentSize : Nat) :
    (segmentFields id base segmentSize).length = 36 := by
  simp [segmentFields]

@[simp] theorem length_segmentHeader (id base segmentSize : Nat) :
    (segmentHeader id base segmentSize).length = 40 := by
  simp [segmentHeader]

theorem segmentPrefix_fields (id base segmentSize : Nat) (rest : Bytes) (idBound : id < 2 ^ 32)
    (baseBound : base < 2 ^ 64) (sizeBound : segmentSize < 2 ^ 64) :
    let header := segmentPrefix id base segmentSize ++ rest
    header.take 8 = segmentMagic ∧ getU32 (header.drop 8) = segmentVersion ∧
      getU32 (header.drop 12) = id ∧ getU64 (header.drop 16) = base ∧
      getU64 (header.drop 24) = segmentSize ∧ header.drop 32 = rest := by
  intro header
  have layout : header = segmentMagic ++ (putU32 segmentVersion ++ (putU32 id ++ (putU64 base ++
      (putU64 segmentSize ++ rest)))) := by
    simp only [header, segmentPrefix, List.append_assoc]
  have d8 : header.drop 8 = putU32 segmentVersion ++ (putU32 id ++ (putU64 base ++
      (putU64 segmentSize ++ rest))) := by
    rw [layout]; exact List.drop_left' rfl
  have d12 : header.drop 12 = putU32 id ++ (putU64 base ++ (putU64 segmentSize ++ rest)) := by
    rw [show 12 = 8 + 4 by rfl, ← List.drop_drop, d8]; exact List.drop_left' (length_putU32 _)
  have d16 : header.drop 16 = putU64 base ++ (putU64 segmentSize ++ rest) := by
    rw [show 16 = 12 + 4 by rfl, ← List.drop_drop, d12]; exact List.drop_left' (length_putU32 _)
  have d24 : header.drop 24 = putU64 segmentSize ++ rest := by
    rw [show 24 = 16 + 8 by rfl, ← List.drop_drop, d16]; exact List.drop_left' (length_putU64 _)
  have d32 : header.drop 32 = rest := by
    rw [show 32 = 24 + 8 by rfl, ← List.drop_drop, d24]; exact List.drop_left' (length_putU64 _)
  refine ⟨?_, ?_, ?_, ?_, ?_, d32⟩
  · rw [layout]; exact List.take_left' rfl
  · rw [d8]; exact getU32_put _ _ (by decide)
  · rw [d12]; exact getU32_put _ _ idBound
  · rw [d16]; exact getU64_put _ _ baseBound
  · rw [d24]; exact getU64_put _ _ sizeBound

theorem segmentPrefix_of_fields (header : Bytes) (enough : 32 ≤ header.length)
    (magic : header.take 8 = segmentMagic) (version : getU32 (header.drop 8) = segmentVersion) :
    header.take 32 = segmentPrefix (getU32 (header.drop 12)) (getU64 (header.drop 16))
      (getU64 (header.drop 24)) := by
  have long : ∀ count width, count + width ≤ 32 → width ≤ (header.drop count).length := by
    intro count width small
    rw [List.length_drop]
    omega
  rw [show 32 = 8 + (4 + (4 + (8 + 8))) by rfl, List.take_add, List.take_add, List.take_add,
    List.take_add, List.drop_drop, List.drop_drop, List.drop_drop, magic]
  rw [take_eq_putU32 _ (long 8 4 (by omega)), take_eq_putU32 _ (long 12 4 (by omega)),
    take_eq_putU64 _ (long 16 8 (by omega)), take_eq_putU64 _ (long 24 8 (by omega)), version]
  rfl

theorem segmentCrc_take (header : Bytes) : segmentCrc (header.take 32) = segmentCrc header := by
  rw [segmentCrc, segmentCrc, List.take_take, Nat.min_self]

theorem segmentFields_accepted (id base segmentSize : Nat) (rest : Bytes) (idBound : id < 2 ^ 32)
    (baseBound : base < 2 ^ 64) (sizeBound : segmentSize < 2 ^ 64) :
    checkSegmentHeader segmentSize id (segmentFields id base segmentSize ++ rest) = true ∧
      getU64 ((segmentFields id base segmentSize ++ rest).drop 16) = base := by
  obtain ⟨magic, version, sameId, sameBase, sameSize, stored⟩ := segmentPrefix_fields id base segmentSize
    (putU32 (segmentCrc (segmentPrefix id base segmentSize)).toNat ++ rest) idBound baseBound sizeBound
  rw [← List.append_assoc] at magic version sameId sameBase sameSize stored
  change (segmentFields id base segmentSize ++ rest).take 8 = _ at magic
  change getU32 ((segmentFields id base segmentSize ++ rest).drop 8) = _ at version
  change getU32 ((segmentFields id base segmentSize ++ rest).drop 12) = _ at sameId
  change getU64 ((segmentFields id base segmentSize ++ rest).drop 16) = _ at sameBase
  change getU64 ((segmentFields id base segmentSize ++ rest).drop 24) = _ at sameSize
  change (segmentFields id base segmentSize ++ rest).drop 32 = _ at stored
  have covered : segmentCrc (segmentFields id base segmentSize ++ rest) =
      segmentCrc (segmentPrefix id base segmentSize) := by
    rw [← segmentCrc_take, segmentFields, List.append_assoc, List.take_left' (length_segmentPrefix _ _ _)]
  have crc := getU32_put _ rest (segmentCrc (segmentPrefix id base segmentSize)).toNat_lt
  refine ⟨?_, sameBase⟩
  simp only [checkSegmentHeader, magic, version, sameId, sameSize, stored, crc, covered, decide_true,
    Bool.and_self]

/-- The header checks accept exactly the written fields; the reserved bytes are free. -/
theorem checkSegmentHeader_iff (segmentSize id : Nat) (header : Bytes) (enough : 36 ≤ header.length)
    (idBound : id < 2 ^ 32) (sizeBound : segmentSize < 2 ^ 64) :
    checkSegmentHeader segmentSize id header = true ↔
      header.take 36 = segmentFields id (getU64 (header.drop 16)) segmentSize := by
  constructor
  · intro accepted
    simp only [checkSegmentHeader, Bool.and_eq_true, decide_eq_true_eq] at accepted
    obtain ⟨⟨⟨⟨magic, version⟩, sameId⟩, sameSize⟩, crc⟩ := accepted
    have cut : header.take 36 = header.take 32 ++ (header.drop 32).take 4 := List.take_add (i := 32) (j := 4)
    have stored := take_eq_putU32 (header.drop 32) (by rw [List.length_drop]; omega)
    have fields := segmentPrefix_of_fields header (by omega) magic version
    rw [sameId, sameSize] at fields
    rw [cut, stored, crc, ← segmentCrc_take, fields]
    rfl
  · intro fields
    have accepted := (segmentFields_accepted id (getU64 (header.drop 16)) segmentSize (header.drop 36) idBound
      (getU64_lt _) sizeBound).1
    rwa [← fields, List.take_append_drop] at accepted

/-- A segment file: header fields, reserved bytes, a chain of records, zero padding. -/
structure SegmentFile (segmentSize id base : Nat) (messages : List Message) (bytes : Bytes) : Prop where
  chain : Chain base messages
  fields : bytes.take 36 = segmentFields id base segmentSize
  records : bytes.drop segmentHeaderSize = encodeRecords messages ++
    zeros (bytes.length - (segmentHeaderSize + totalSize messages))
  room : segmentHeaderSize + totalSize messages ≤ bytes.length
  limit : bytes.length ≤ segmentSize

def segmentInfo (id base : Nat) (messages : List Message) : LogSegmentInfo :=
  ⟨id, base, base + totalSize messages, segmentHeaderSize + totalSize messages, segmentPath id⟩

def scanned (segmentSize base : Nat) (bytes : Bytes) : List Message :=
  accepted segmentSize bytes (bytes.length + 1) segmentHeaderSize base

/-- A header that passes every check before the record loop. -/
structure Opens (segmentSize id base : Nat) (bytes : Bytes) : Prop where
  long : segmentHeaderSize ≤ bytes.length
  fields : bytes.take 36 = segmentFields id base segmentSize
  limit : bytes.length ≤ segmentSize

section Scanning

variable {segmentSize id base : Nat} {bytes : Bytes}

theorem Opens.checks (opens : Opens segmentSize id base bytes) (idBound : id < 2 ^ 32)
    (baseBound : base < 2 ^ 64) (sizeBound : segmentSize < 2 ^ 64) :
    checkSegmentHeader segmentSize id (slice bytes 0 segmentHeaderSize) = true ∧
      getU64 ((slice bytes 0 segmentHeaderSize).drop 16) = base := by
  have long := opens.long
  have shape : slice bytes 0 segmentHeaderSize = segmentFields id base segmentSize ++ (bytes.drop 36).take 4 := by
    rw [slice, List.drop_zero, segmentHeaderSize, List.take_add (i := 36) (j := 4), opens.fields]
  rw [shape]
  exact segmentFields_accepted id base segmentSize _ idBound baseBound sizeBound

theorem opens_of_checks (idBound : id < 2 ^ 32) (sizeBound : segmentSize < 2 ^ 64)
    (long : segmentHeaderSize ≤ bytes.length) (limit : bytes.length ≤ segmentSize)
    (header : checkSegmentHeader segmentSize id (slice bytes 0 segmentHeaderSize) = true)
    (sameBase : getU64 ((slice bytes 0 segmentHeaderSize).drop 16) = base) : Opens segmentSize id base bytes := by
  refine ⟨long, ?_, limit⟩
  have cut : (slice bytes 0 segmentHeaderSize).length = 40 := by
    simp only [slice, segmentHeaderSize, List.drop_zero, List.length_take] at long ⊢
    omega
  have fields := (checkSegmentHeader_iff segmentSize id _ (by omega) idBound sizeBound).mp header
  rw [sameBase] at fields
  rw [← fields, slice, List.drop_zero, List.take_take]
  rfl

theorem scanned_sound (opens : Opens segmentSize id base bytes) :
    Chain base (scanned segmentSize base bytes) ∧
      segmentHeaderSize + totalSize (scanned segmentSize base bytes) ≤ bytes.length ∧
      bytes.drop segmentHeaderSize = encodeRecords (scanned segmentSize base bytes) ++
        bytes.drop (segmentHeaderSize + totalSize (scanned segmentSize base bytes)) := by
  have long := opens.long
  have limit := opens.limit
  obtain ⟨chain, _, here⟩ := accepted_sound segmentSize bytes (bytes.length + 1) segmentHeaderSize base (by omega)
  refine ⟨chain, ?_, here⟩
  have lengths := congrArg List.length here
  simp only [List.length_drop, List.length_append, length_encodeRecords] at lengths
  simp only [scanned]
  omega

private theorem isZero_false_nonempty (tail : Bytes) (damaged : isZero tail = false) : 0 < tail.length := by
  cases tail with
  | nil => simp [isZero] at damaged
  | cons byte rest => simp

/-- Without faults and with room for the offsets, a scan that gets past the header
keeps a zero tail, cuts a damaged newest segment and refuses a damaged sealed one. -/
theorem scanSegment_eq (opens : Opens segmentSize id base bytes) (idBound : id < 2 ^ 32)
    (baseBound : base < 2 ^ 64) (sizeBound : segmentSize < 2 ^ 64) (path : Bytes) (isLatest : Bool) (durable : Nat)
    (bounded : base + totalSize (scanned segmentSize base bytes) ≤ maxU64) :
    let messages := scanned segmentSize base bytes
    let position := segmentHeaderSize + totalSize messages
    let info : LogSegmentInfo := ⟨id, base, base + totalSize messages, position, path⟩
    let scan := scanSegment noFaults segmentSize id path isLatest base ⟨bytes, durable⟩
    (isZero (bytes.drop position) = true → scan = ⟨messages, ⟨bytes, durable⟩, .ok info⟩) ∧
    (isZero (bytes.drop position) = false → isLatest = true →
      scan = ⟨messages, ⟨bytes.take position, min durable position⟩, .ok info⟩) ∧
    (isZero (bytes.drop position) = false → isLatest = false →
      ∃ error, scan = ⟨messages, ⟨bytes, durable⟩, .error error⟩) := by
  intro messages position info scan
  have long := opens.long
  have limit := opens.limit
  obtain ⟨header, sameBase⟩ := opens.checks idBound baseBound sizeBound
  obtain ⟨_, inside, _⟩ := scanned_sound opens
  have enough : bytes.length < segmentHeaderSize + 32 * (bytes.length + 1) := by omega
  have records : scanRecords noFaults segmentSize id path isLatest bytes (bytes.length + 1) segmentHeaderSize base =
      ⟨messages, position, base + totalSize messages, endOutcome isLatest path bytes position⟩ :=
    scanRecords_eq segmentSize id path isLatest bytes (bytes.length + 1) segmentHeaderSize base
      enough bounded (by omega)
  have notLong : ¬ bytes.length < segmentHeaderSize := by omega
  have notLarge : ¬ segmentSize < bytes.length := by omega
  have tail : slice bytes position (bytes.length - position) = bytes.drop position := by
    rw [slice, List.take_of_length_le (by rw [List.length_drop])]
  have start : scan = scanSegment noFaults segmentSize id path isLatest base ⟨bytes, durable⟩ := rfl
  simp only [scanSegment, finishScan, notLong, header, sameBase, notLarge, records, tail, ↓reduceIte] at start
  simp only [noFaults, Bool.false_eq_true, and_false, ↓reduceIte, ne_eq, not_true_eq_false,
    Bool.true_eq_false] at start
  refine ⟨fun zero => ?_, fun damaged latest => ?_, fun damaged sealedSegment => ?_⟩
  · have ended : endOutcome isLatest path bytes position = .ok false := by
      simp only [endOutcome, zero, or_true, ↓reduceIte]
    simp only [ended, zero, Bool.not_true, Bool.and_false, Bool.or_self, Bool.false_eq_true, false_and,
      ↓reduceIte] at start
    exact start
  · have nonempty := isZero_false_nonempty _ damaged
    rw [List.length_drop] at nonempty
    have cut := resize_take bytes position inside
    by_cases short : bytes.length < position + recordHeaderSize
    · have ended : endOutcome isLatest path bytes position = .ok false := by
        simp only [endOutcome, short, true_or, ↓reduceIte]
      have before : position < bytes.length := by omega
      rw [ended] at start
      simpa only [File.truncate, damaged, short, before, latest, cut, decide_true, Bool.not_false, Bool.and_self,
        Bool.or_true, Bool.true_eq_false, and_false, ↓reduceIte] using start
    · have ended : endOutcome isLatest path bytes position = .ok true := by
        simp only [endOutcome, short, damaged, latest, Bool.false_eq_true, or_self, ↓reduceIte]
      rw [ended] at start
      simpa only [File.truncate, damaged, short, latest, cut, decide_false, Bool.and_false, Bool.false_and,
        Bool.or_false, Bool.true_eq_false, Bool.false_eq_true, and_false, ↓reduceIte] using start
  · have nonempty := isZero_false_nonempty _ damaged
    rw [List.length_drop] at nonempty
    by_cases short : bytes.length < position + recordHeaderSize
    · have ended : endOutcome isLatest path bytes position = .ok false := by
        simp only [endOutcome, short, true_or, ↓reduceIte]
      have before : position < bytes.length := by omega
      rw [ended] at start
      simp only [damaged, short, before, sealedSegment, decide_true, Bool.not_false, Bool.and_self,
        and_self, ↓reduceIte] at start
      exact ⟨_, start⟩
    · have ended : ∃ error, endOutcome isLatest path bytes position = .error error := by
        simp only [endOutcome, short, damaged, sealedSegment, Bool.false_eq_true, or_self, ↓reduceIte]
        split_ifs
        · exact ⟨_, rfl⟩
        · exact ⟨_, rfl⟩
      obtain ⟨error, ended⟩ := ended
      simp only [ended] at start
      exact ⟨error, start⟩

theorem readRecord_zero (segmentSize : Nat) (bytes : Bytes) (position expectedOffset : Nat)
    (zero : isZero (bytes.drop position) = true) :
    readRecord segmentSize bytes position expectedOffset = none := by
  cases read : readRecord segmentSize bytes position expectedOffset with
  | none => rfl
  | some message =>
    obtain ⟨_, magic, _⟩ := readRecord_parts _ _ _ _ _ read
    exact False.elim (magic (getU32_of_isZero bytes position zero))

theorem scanned_append (messages : List Message) (rest : Bytes) (chain : Chain base messages)
    (limit : segmentHeaderSize + totalSize messages ≤ segmentSize)
    (here : bytes.drop segmentHeaderSize = encodeRecords messages ++ rest) :
    ∃ fuel, scanned segmentSize base bytes = messages ++
      accepted segmentSize bytes fuel (segmentHeaderSize + totalSize messages) (base + totalSize messages) := by
  have count := length_le_totalSize messages
  have lengths := congrArg List.length here
  simp only [List.length_drop, List.length_append, length_encodeRecords] at lengths
  refine ⟨bytes.length + 1 - messages.length, ?_⟩
  have run := accepted_append segmentSize bytes messages rest (bytes.length + 1 - messages.length)
    segmentHeaderSize base chain limit here
  rwa [Nat.add_sub_cancel' (by omega)] at run

theorem scanned_eq (messages : List Message) (rest : Bytes) (chain : Chain base messages)
    (limit : segmentHeaderSize + totalSize messages ≤ segmentSize)
    (here : bytes.drop segmentHeaderSize = encodeRecords messages ++ rest)
    (unreadable : readRecord segmentSize bytes (segmentHeaderSize + totalSize messages)
      (base + totalSize messages) = none) :
    scanned segmentSize base bytes = messages := by
  obtain ⟨fuel, run⟩ := scanned_append messages rest chain limit here
  rw [run, accepted_none _ _ _ _ _ unreadable, List.append_nil]

theorem SegmentFile.tail {messages : List Message} (file : SegmentFile segmentSize id base messages bytes) :
    bytes.drop (segmentHeaderSize + totalSize messages) =
      zeros (bytes.length - (segmentHeaderSize + totalSize messages)) := by
  rw [← List.drop_drop, file.records, List.drop_left' (length_encodeRecords messages)]

theorem SegmentFile.drop_records {front back : List Message}
    (file : SegmentFile segmentSize id base (front ++ back) bytes) :
    bytes.drop (segmentHeaderSize + totalSize front) = encodeRecords back ++
      zeros (bytes.length - (segmentHeaderSize + totalSize (front ++ back))) := by
  rw [← List.drop_drop, file.records, encodeRecords_append, List.append_assoc,
    List.drop_left' (length_encodeRecords front)]

theorem SegmentFile.opens {messages : List Message} (file : SegmentFile segmentSize id base messages bytes) :
    Opens segmentSize id base bytes := by
  have room := file.room
  exact ⟨by omega, file.fields, file.limit⟩

theorem SegmentFile.scanned_eq {messages : List Message}
    (file : SegmentFile segmentSize id base messages bytes) : scanned segmentSize base bytes = messages := by
  have room := file.room
  have limit := file.limit
  apply Segment.scanned_eq messages _ file.chain (by omega) file.records
  apply readRecord_zero
  rw [file.tail, isZero_zeros]

theorem SegmentFile.scanSegment {messages : List Message}
    (file : SegmentFile segmentSize id base messages bytes) (idBound : id < 2 ^ 32)
    (sizeBound : segmentSize < 2 ^ 64) (bounded : base + totalSize messages ≤ maxU64) (isLatest : Bool)
    (durable : Nat) :
    scanSegment noFaults segmentSize id (segmentPath id) isLatest base ⟨bytes, durable⟩ =
      ⟨messages, ⟨bytes, durable⟩, .ok (segmentInfo id base messages)⟩ := by
  have same := file.scanned_eq
  have baseBound : base < 2 ^ 64 := by simp only [maxU64] at bounded; omega
  have cases := scanSegment_eq file.opens idBound baseBound sizeBound (segmentPath id) isLatest durable
    (by rw [same]; exact bounded)
  rw [same] at cases
  exact cases.1 (by rw [file.tail, isZero_zeros])

variable {faults : Faults} {path : Bytes} {isLatest : Bool} {file : File} {info : LogSegmentInfo}

theorem scanSegment_passed (idBound : id < 2 ^ 32) (sizeBound : segmentSize < 2 ^ 64)
    (passed : (Scan.scanSegment faults segmentSize id path isLatest base file).result = .ok info) :
    Opens segmentSize id base file.bytes ∧ ∃ truncate, (scanRecords faults segmentSize id path isLatest
      file.bytes (file.bytes.length + 1) segmentHeaderSize base).outcome = .ok truncate := by
  have starts := scanSegment_starts faults segmentSize id path isLatest base file
  generalize Scan.scanSegment faults segmentSize id path isLatest base file = scan at starts passed
  cases starts with
  | refused error => cases passed
  | proceeds opened stat long read header sameBase fits =>
    unfold finishScan at passed
    split at passed
    · cases passed
    next truncate ended =>
    rw [Bool.not_eq_false] at header
    rw [ne_eq, not_not] at sameBase
    exact ⟨opens_of_checks idBound sizeBound (Nat.le_of_not_lt long) (Nat.le_of_not_lt fits) header sameBase,
      truncate, ended⟩

private theorem finishScan_faults (scan : RecordScan)
    (passed : (finishScan faults id path isLatest base file scan).result = .ok info) :
    finishScan faults id path isLatest base file scan = finishScan noFaults id path isLatest base file scan := by
  unfold finishScan at passed ⊢
  split at passed
  · cases passed
  next truncate ended =>
  simp only [noFaults, Bool.false_eq_true, and_false, ↓reduceIte] at passed ⊢
  split at passed
  · cases passed
  next unread =>
  rw [if_neg unread]
  split at passed
  · cases passed
  next intact =>
  rw [if_neg intact, if_neg intact]
  split at passed
  · cases passed
  next cut =>
  rw [if_neg cut]
  split at passed
  · cases passed
  next closed => rw [if_neg closed]

theorem scanSegment_faults (idBound : id < 2 ^ 32) (sizeBound : segmentSize < 2 ^ 64)
    (passed : (Scan.scanSegment faults segmentSize id path isLatest base file).result = .ok info) :
    Scan.scanSegment faults segmentSize id path isLatest base file =
      Scan.scanSegment noFaults segmentSize id path isLatest base file := by
  obtain ⟨_, truncate, ended⟩ := scanSegment_passed idBound sizeBound passed
  have records := scanRecords_faults faults segmentSize id path isLatest file.bytes _ _ _ truncate ended
  have quiet : ∀ call, noFaults call = false := fun _ => rfl
  have starts := scanSegment_starts faults segmentSize id path isLatest base file
  generalize Scan.scanSegment faults segmentSize id path isLatest base file = scan at starts passed ⊢
  cases starts with
  | refused error => cases passed
  | proceeds opened stat long read header sameBase fits =>
    rw [finishScan_faults _ passed, records]
    simp only [Scan.scanSegment, quiet, long, header, sameBase, fits, Bool.false_eq_true,
      Bool.true_eq_false, ↓reduceIte]

theorem scanSegment_refused (faults : Faults) (path : Bytes) (isLatest : Bool) (base : Nat) (file : File)
    (bad : file.bytes.length < segmentHeaderSize ∨
      checkSegmentHeader segmentSize id (slice file.bytes 0 segmentHeaderSize) = false) :
    ∃ error, Scan.scanSegment faults segmentSize id path isLatest base file = ⟨[], file, .error error⟩ := by
  have starts := scanSegment_starts faults segmentSize id path isLatest base file
  generalize Scan.scanSegment faults segmentSize id path isLatest base file = scan at starts ⊢
  cases starts with
  | refused error => exact ⟨error, rfl⟩
  | proceeds opened stat long read header => exact absurd bad (not_or.mpr ⟨long, header⟩)

theorem SegmentFile.scanSegment_file {messages : List Message}
    (whole : SegmentFile segmentSize id base messages file.bytes) (bounded : base + totalSize messages ≤ maxU64)
    (faults : Faults) (path : Bytes) (isLatest : Bool) :
    (Scan.scanSegment faults segmentSize id path isLatest base file).file = file := by
  have room := whole.room
  have limit := whole.limit
  have same := whole.scanned_eq
  have tail := whole.tail
  have enough : file.bytes.length < segmentHeaderSize + 32 * (file.bytes.length + 1) := by omega
  have records := scanRecords_eq segmentSize id path isLatest file.bytes (file.bytes.length + 1) segmentHeaderSize
    base enough (by rw [scanned] at same; rw [same]; exact bounded) (by omega)
  rw [scanned] at same
  simp only [same] at records
  have ended : endOutcome isLatest path file.bytes (segmentHeaderSize + totalSize messages) = .ok false := by
    rw [endOutcome, tail, isZero_zeros]
    simp
  have starts := scanSegment_starts faults segmentSize id path isLatest base file
  generalize Scan.scanSegment faults segmentSize id path isLatest base file = scan at starts ⊢
  cases starts with
  | refused error => rfl
  | proceeds =>
  unfold finishScan
  split
  · rfl
  next truncate outcome =>
  have calm := scanRecords_faults faults segmentSize id path isLatest file.bytes _ _ _ truncate outcome
  rw [calm, records] at outcome ⊢
  simp only [ended, Except.ok.injEq] at outcome
  have quiet : isZero (slice file.bytes (segmentHeaderSize + totalSize messages)
      (file.bytes.length - (segmentHeaderSize + totalSize messages))) = true := by
    rw [slice, tail, take_zeros, isZero_zeros]
  simp only [← outcome, quiet, Bool.not_true, Bool.and_false, Bool.or_self, Bool.false_eq_true, false_and,
    ↓reduceIte]
  split_ifs
  · rfl
  · rfl
  · rfl

/-- The bytes a successful scan keeps are a whole segment file again. -/
theorem Opens.segmentFile_of_zero {bytes : Bytes} (opens : Opens segmentSize id base bytes)
    (zero : isZero (bytes.drop (segmentHeaderSize + totalSize (scanned segmentSize base bytes))) = true) :
    SegmentFile segmentSize id base (scanned segmentSize base bytes) bytes := by
  obtain ⟨chain, inside, here⟩ := scanned_sound opens
  refine ⟨chain, opens.fields, ?_, inside, opens.limit⟩
  rw [isZero_iff, List.length_drop] at zero
  rw [here, ← zero]

theorem Opens.segmentFile_of_cut {bytes : Bytes} (opens : Opens segmentSize id base bytes) :
    SegmentFile segmentSize id base (scanned segmentSize base bytes)
      (bytes.take (segmentHeaderSize + totalSize (scanned segmentSize base bytes))) := by
  obtain ⟨chain, inside, here⟩ := scanned_sound opens
  have limit := opens.limit
  have cut : (bytes.take (segmentHeaderSize + totalSize (scanned segmentSize base bytes))).length =
      segmentHeaderSize + totalSize (scanned segmentSize base bytes) := by
    rw [List.length_take, Nat.min_eq_left inside]
  refine ⟨chain, ?_, ?_, by rw [cut], by rw [cut]; omega⟩
  · rw [List.take_take, Nat.min_eq_left (by simp only [segmentHeaderSize]; omega), opens.fields]
  · rw [cut, Nat.sub_self, List.drop_take, here, Nat.add_sub_cancel_left,
      List.take_left' (length_encodeRecords _)]
    simp [zeros]

theorem scanSegment_sound (idBound : id < 2 ^ 32) (sizeBound : segmentSize < 2 ^ 64) (start : base ≤ maxU64)
    (passed : (Scan.scanSegment faults segmentSize id path isLatest base file).result = .ok info) :
    let scan := Scan.scanSegment faults segmentSize id path isLatest base file
    info = ⟨id, base, base + totalSize scan.messages, segmentHeaderSize + totalSize scan.messages, path⟩ ∧
      SegmentFile segmentSize id base scan.messages scan.file.bytes ∧
      base + totalSize scan.messages ≤ maxU64 ∧ (isLatest = false → scan.file = file) := by
  intro scan
  obtain ⟨opens, truncate, ended⟩ := scanSegment_passed idBound sizeBound passed
  have long := opens.long
  have limit := opens.limit
  rw [scanRecords_faults faults segmentSize id path isLatest file.bytes _ _ _ truncate ended] at ended
  have bounded := scanRecords_bounded segmentSize id path isLatest file.bytes _ segmentHeaderSize base truncate
    start (by omega) ended
  have quiet := scanSegment_faults idBound sizeBound passed
  have same : scan = Scan.scanSegment noFaults segmentSize id path isLatest base file := quiet
  obtain ⟨whole, repaired, refused⟩ := scanSegment_eq opens idBound (by simp only [maxU64] at start; omega)
    sizeBound path isLatest file.durable bounded
  rw [quiet] at passed
  cases zero : isZero (file.bytes.drop (segmentHeaderSize + totalSize (scanned segmentSize base file.bytes))) with
  | true =>
    have result := whole zero
    rw [result] at passed same
    rw [same]
    exact ⟨(Except.ok.inj passed).symm, opens.segmentFile_of_zero zero, bounded, fun _ => rfl⟩
  | false =>
    cases isLatest with
    | true =>
      have result := repaired zero rfl
      rw [result] at passed same
      rw [same]
      exact ⟨(Except.ok.inj passed).symm, opens.segmentFile_of_cut, bounded, fun impossible => by cases impossible⟩
    | false =>
      obtain ⟨error, result⟩ := refused zero rfl
      rw [result] at passed
      cases passed

end Scanning

section Writing

variable {segmentSize id base : Nat} {messages : List Message} {bytes : Bytes}

theorem SegmentFile.split (file : SegmentFile segmentSize id base messages bytes) :
    bytes = bytes.take (segmentHeaderSize + totalSize messages) ++
      zeros (bytes.length - (segmentHeaderSize + totalSize messages)) := by
  rw [← file.tail, List.take_append_drop]

theorem SegmentFile.extend (file : SegmentFile segmentSize id base messages bytes) :
    SegmentFile segmentSize id base messages (resize bytes segmentSize) := by
  have room := file.room
  have limit := file.limit
  have least : 36 ≤ bytes.length := by
    simp only [segmentHeaderSize] at room
    omega
  refine ⟨file.chain, ?_, ?_, by rw [length_resize]; omega, by rw [length_resize]⟩
  · rw [take_resize bytes 36 segmentSize least (by omega), file.fields]
  · have whole : resize bytes segmentSize = bytes ++ zeros (segmentSize - bytes.length) := by
      rw [resize, List.take_of_length_le limit]
    rw [length_resize, whole, List.drop_append_of_le_length (by omega), file.records, List.append_assoc,
      ← zeros_add]
    congr 2
    omega

/-- Copying the payload and then the header at the end of the records adds one record. -/
theorem SegmentFile.write (file : SegmentFile segmentSize id base messages bytes) (message : Message)
    (fits : segmentHeaderSize + totalSize messages + size message ≤ bytes.length)
    (chain : Chain (base + totalSize messages) [message]) :
    let position := segmentHeaderSize + totalSize messages
    SegmentFile segmentSize id base (messages ++ [message])
      (overwrite (overwrite bytes (position + recordHeaderSize) message.payload) position
        (recordHeader message.offset message.timestampNs message.payload)) := by
  intro position
  have room := file.room
  have limit := file.limit
  have split := file.split
  generalize frontEq : bytes.take position = front at split
  generalize paddingEq : bytes.length - position = padding at split
  have length : front.length = position := by
    rw [← frontEq, List.length_take, Nat.min_eq_left room]
  have header := length_recordHeader message.offset message.timestampNs message.payload
  have enough : recordHeaderSize + message.payload.length ≤ padding := by
    simp only [size] at fits
    omega
  have payload : overwrite bytes (position + recordHeaderSize) message.payload =
      front ++ (zeros recordHeaderSize ++ (message.payload ++ zeros (padding - size message))) := by
    have cut : bytes = (front ++ zeros recordHeaderSize) ++ zeros (padding - recordHeaderSize) := by
      rw [List.append_assoc, ← zeros_add, Nat.add_sub_cancel' (by omega)]
      exact split
    have place : position + recordHeaderSize = (front ++ zeros recordHeaderSize).length := by
      rw [List.length_append, length, length_zeros]
    rw [cut, place, overwrite_padding, Nat.sub_sub]
    simp only [List.append_assoc, size]
  have record : overwrite (front ++ (zeros recordHeaderSize ++ (message.payload ++
      zeros (padding - size message)))) position (recordHeader message.offset message.timestampNs message.payload) =
      front ++ (encodeRecord message ++ zeros (padding - size message)) := by
    rw [overwrite, ← length, List.take_left, ← List.drop_drop, List.drop_left, header,
      List.drop_left' (show (zeros recordHeaderSize).length = 32 from length_zeros _), encodeRecord]
    simp only [List.append_assoc]
  have start : front.drop segmentHeaderSize = encodeRecords messages := by
    rw [← frontEq, List.drop_take, file.records, Nat.add_sub_cancel_left,
      List.take_left' (length_encodeRecords messages)]
  have early : 36 ≤ front.length := by
    rw [length]
    simp only [position, segmentHeaderSize]
    omega
  have total : (front ++ (encodeRecord message ++ zeros (padding - size message))).length = bytes.length := by
    simp only [List.length_append, length_encodeRecord, length_zeros, length, size] at *
    omega
  rw [payload, record]
  refine ⟨(chain_append _ _ _).mpr ⟨file.chain, chain⟩, ?_, ?_, ?_, by rw [total]; exact limit⟩
  · rw [List.take_append_of_le_length early, ← frontEq, List.take_take, Nat.min_eq_left (by omega), file.fields]
  · rw [List.drop_append_of_le_length (by rw [length]; omega), start, encodeRecords_append, total]
    simp only [encodeRecords_cons, encodeRecords_nil, List.append_nil, List.append_assoc, totalSize_append,
      totalSize_cons, totalSize_nil]
    congr 3
    omega
  · rw [total]
    simp only [totalSize_append, totalSize_cons, totalSize_nil]
    omega

theorem segmentFile_created (segmentSize id base : Nat) (enough : segmentHeaderSize ≤ segmentSize) :
    SegmentFile segmentSize id base []
      (overwrite (resize [] segmentSize) 0 (segmentHeader id base segmentSize)) := by
  have shape : overwrite (resize [] segmentSize) 0 (segmentHeader id base segmentSize) =
      segmentHeader id base segmentSize ++ zeros (segmentSize - segmentHeaderSize) := by
    simp [overwrite, resize, drop_zeros, segmentHeaderSize]
  have total : (segmentHeader id base segmentSize ++ zeros (segmentSize - segmentHeaderSize)).length =
      segmentSize := by
    simp only [segmentHeaderSize, List.length_append, length_segmentHeader, length_zeros] at *
    omega
  rw [shape]
  refine ⟨trivial, ?_, ?_, by rw [total]; simpa using enough, le_of_eq total⟩
  · rw [segmentHeader, List.append_assoc, List.take_left' (length_segmentFields id base segmentSize)]
  · rw [total, List.drop_left' (show _ = segmentHeaderSize from length_segmentHeader id base segmentSize)]
    simp

end Writing

end FleetGateway.Storage.Segment
