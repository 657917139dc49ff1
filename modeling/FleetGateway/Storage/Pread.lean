import FleetGateway.Library.Asking
import FleetGateway.Storage.Log

/-! Recovery down to the single `pread`: the loop of `pread_all` over short and interrupted reads, the
pieces of `zero_tail`, and `scan_segment` and `recover_or_create` on top of them. What the kernel answers
to the reads decides only which of them fails. -/

namespace FleetGateway.Storage.Pread
open Library Library.ByteStore Library.Asking Format Record Disk Scan Log RingBuffer

/-- What `pread` answers: as many bytes as it likes, `EINTR`, or another error. -/
inductive PreadOutcome where
  | bytes (count : Nat)
  | interrupted
  | failed
  deriving DecidableEq

def PreadOutcome.isInterrupted : PreadOutcome → Bool
  | .interrupted => true
  | _ => false

abbrev Reading (α : Type) : Type := Script PreadOutcome α

/-- The loop of `pread_all` on a file with these bytes. It gives back the bytes read, or none on an error. -/
def preadLoop (bytes : Bytes) (offset length : Nat) :
    Bytes → List PreadOutcome → Option (Option Bytes × List PreadOutcome)
  | got, [] => if got.length < length then none else some (some got, [])
  | got, answer :: rest =>
    if got.length < length then
      match answer with
      | .interrupted => preadLoop bytes offset length got rest
      | .failed => some (none, rest)
      | .bytes count =>
        -- no more than is asked for, and at least one byte where the file has one
        let result := slice bytes (offset + got.length) (min (max 1 count) (length - got.length))
        if result = [] then some (some got, rest) else preadLoop bytes offset length (got ++ result) rest
    else some (some got, answer :: rest)

def preadAll (bytes : Bytes) (offset length : Nat) : Reading (Option Bytes) := preadLoop bytes offset length []

/-- Every turn takes a piece of the length, so `fuel` up to the length is enough. -/
def zeroTail (bytes path : Bytes) : Nat → Nat → Nat → Reading (Except LogError Bool)
  | 0, _, _ => pure (.ok true)
  | fuel + 1, offset, length =>
    if length = 0 then pure (.ok true)
    else do
      let chunk := min length 4096
      match ← preadAll bytes offset chunk with
      | none => pure (.error (.systemError "pread" (some path)))
      | some got =>
        if got.length ≠ chunk then pure (.error (.runtimeError "unable to read segment tail" (some path)))
        else if isZero got = false then pure (.ok false)
        else zeroTail bytes path fuel (offset + chunk) (length - chunk)

/-- The comparisons of a record header that was read; a buffer that was not filled ends in zeros. -/
def isRecordHeader (got : Bytes) (expectedOffset : Nat) : Bool :=
  let header := resize got recordHeaderSize
  decide (got.length = recordHeaderSize) && decide (getU32 header = recordMagic) &&
    decide (getU32 (header.drop 4) = recordVersionSize) && decide (getU64 (header.drop 8) = expectedOffset)

def announcedLength (got : Bytes) (expectedOffset : Nat) : Nat :=
  if isRecordHeader got expectedOffset then getU32 ((resize got recordHeaderSize).drop 24) else 0

def readRecords (segmentSize : Nat) (path : Bytes) (isLatest : Bool) (bytes : Bytes) :
    Nat → Nat → Nat → Reading RecordScan
  | 0, position, expectedOffset => pure ⟨[], position, expectedOffset, .ok false⟩
  | fuel + 1, position, expectedOffset =>
    let stop := fun outcome => (⟨[], position, expectedOffset, outcome⟩ : RecordScan)
    let failure : LogError := .systemError "pread" (some path)
    let damaged := stopDamaged isLatest path position expectedOffset
    if bytes.length < position + recordHeaderSize then pure (stop (.ok false))
    else do
      match ← preadAll bytes position recordHeaderSize with
      | none => pure (stop (.error failure))
      | some got =>
        let header := resize got recordHeaderSize
        if got.length = 0 then pure (stop (.ok false))
        else if getU32 header = 0 then
          match ← zeroTail bytes path (bytes.length - position) position (bytes.length - position) with
          | .error error => pure (stop (.error error))
          | .ok true => pure (stop (.ok false))
          | .ok false => pure (damaged "corrupt tail in sealed segment")
        else
          let payloadLength := announcedLength got expectedOffset
          let totalRecordSize := recordHeaderSize + payloadLength
          if ¬ (isRecordHeader got expectedOffset = true ∧ totalRecordSize ≤ segmentSize - position ∧
              position + totalRecordSize ≤ bytes.length) then
            pure (damaged "corrupt record in sealed segment")
          else
            match ← (if payloadLength = 0 then pure (some []) else
                preadAll bytes (position + recordHeaderSize) payloadLength) with
            | none => pure (stop (.error failure))
            | some payload =>
              if ¬ (payload.length = payloadLength ∧ getU32 (header.drop 28) = (recordCrc header payload).toNat) then
                pure (damaged "corrupt record in sealed segment")
              else if maxU64 - totalRecordSize < expectedOffset then
                pure (stop (.error (.runtimeError "record offsets overflow in segment" (some path))))
              else do
                let rest ← readRecords segmentSize path isLatest bytes fuel (position + totalRecordSize)
                  (expectedOffset + totalRecordSize)
                pure { rest with messages := ⟨expectedOffset, getU64 (header.drop 16), payloadLength, payload⟩ ::
                  rest.messages }

/-- The end of `scan_segment` once it is known whether the tail goes. -/
def closeScan (faults : Faults) (expectedId : Nat) (path : Bytes) (baseOffset : Nat) (file : File) (scan : RecordScan)
    (truncateTail : Bool) : SegmentScan :=
  let kept := if truncateTail then file.truncate scan.position else file
  if truncateTail ∧ faults (.truncateTail expectedId) then
    ⟨scan.messages, file, .error (.systemError "truncate recovered segment" (some path))⟩
  else if faults (.scanClose expectedId) then ⟨scan.messages, kept, .error (.systemError "close" (some path))⟩
  else ⟨scan.messages, kept, .ok ⟨expectedId, baseOffset, scan.expectedOffset, scan.position, path⟩⟩

def finishRead (faults : Faults) (expectedId : Nat) (path : Bytes) (isLatest : Bool) (baseOffset : Nat) (file : File)
    (scan : RecordScan) : Reading SegmentScan :=
  match scan.outcome with
  | .error error => pure ⟨scan.messages, file, .error error⟩
  | .ok truncateLoop =>
    let actualSize := file.bytes.length
    let finish := closeScan faults expectedId path baseOffset file scan
    if scan.position < actualSize ∧ actualSize < scan.position + recordHeaderSize then do
      match ← preadAll file.bytes scan.position (actualSize - scan.position) with
      | none => pure ⟨scan.messages, file, .error (.systemError "pread" (some path))⟩
      | some tail =>
        if isZero (resize tail (actualSize - scan.position)) then pure (finish truncateLoop)
        else if isLatest = false then
          pure ⟨scan.messages, file, .error (.runtimeError "truncated record in sealed segment" (some path))⟩
        else pure (finish true)
    else pure (finish truncateLoop)

def readSegment (faults : Faults) (segmentSize expectedId : Nat) (path : Bytes) (isLatest : Bool)
    (expectedOffset : Nat) (file : File) : Reading SegmentScan :=
  let actualSize := file.bytes.length
  let refuse := fun error => (⟨[], file, .error error⟩ : SegmentScan)
  if faults (.scanOpen expectedId) then pure (refuse (.systemError "open" (some path)))
  else if faults (.scanStat expectedId) then pure (refuse (.systemError "fstat" (some path)))
  else if actualSize < segmentHeaderSize then
    pure (refuse (.runtimeError "segment header is truncated" (some path)))
  else do
    match ← preadAll file.bytes 0 segmentHeaderSize with
    | none => pure (refuse (.runtimeError "unable to read segment header" (some path)))
    | some header =>
      if header.length ≠ segmentHeaderSize then
        pure (refuse (.runtimeError "unable to read segment header" (some path)))
      else if checkSegmentHeader segmentSize expectedId header = false then
        pure (refuse (.runtimeError "invalid segment header" (some path)))
      else if getU64 (header.drop 16) ≠ expectedOffset then
        pure (refuse (.runtimeError "segment base offset is discontinuous" (some path)))
      else if segmentSize < actualSize then
        pure (refuse (.runtimeError "segment file exceeds configured size" (some path)))
      else do
        let scan ← readRecords segmentSize path isLatest file.bytes (actualSize + 1) segmentHeaderSize expectedOffset
        finishRead faults expectedId path isLatest expectedOffset file scan

/-- The loop of `recover_or_create`, as `recoverSegments` has it. -/
def readSegments (faults : Faults) : Nat → List (Nat × Bytes) → Nat → Store → Reading (Outcome Nat)
  | _, [], expectedOffset, store => pure ⟨.ok expectedOffset, store⟩
  | index, (id, path) :: rest, expectedOffset, store =>
    if id ≠ index + 1 then pure ⟨.error (.runtimeError "log segment sequence has a gap" none), store⟩
    else do
      let file := (fileAt store.disk path).getD ⟨[], 0⟩
      let scan ← readSegment faults store.log.segmentSize id path rest.isEmpty expectedOffset file
      let log := { store.log with recentCache := pushAll store.log.recentCache scan.messages }
      let disk := update store.disk path fun _ => scan.file
      match scan.result with
      | .error error => pure ⟨.error error, ⟨log, disk⟩⟩
      | .ok info =>
        let indexed := { log with segmentIndex := log.segmentIndex ++ [info] }
        readSegments faults (index + 1) rest info.endOffset ⟨indexed, disk⟩

def readOrCreate (faults : Faults) (store : Store) : Reading (Outcome Unit) :=
  let cleared := { store.log with nextMessageOffset := 0, segmentIndex := [] }
  if faults .listDirectory then pure ⟨.error (.systemError "directory_iterator" none), store⟩
  else do
    let scan ← readSegments faults 0 (segmentFiles store.disk) 0 { store with log := cleared }
    pure (mapOrCreate faults scan)

def openReading (faults : Faults) (initialSize recentCapacity : Nat) (store : Store) : Reading (Outcome Unit) :=
  if store.log.opened then pure ⟨.error (.logicError "memory-mapped log is already open"), store⟩
  else if initialSize < segmentHeaderSize + recordHeaderSize + 1 ∨ maxU64 < initialSize ∨ maxOffT < initialSize then
    pure ⟨.error (.invalidArgument "segment size is outside the supported range"), store⟩
  else if recentCapacity = 0 then pure ⟨.error (.invalidArgument "recent capacity must be positive"), store⟩
  else
    let log := { store.log with segmentSize := initialSize, recentCache := ofCapacity recentCapacity }
    if faults .createDirectories then
      pure ⟨.error (.systemError "create_directories" none), { store with log := log }⟩
    else do
      match ← readOrCreate faults { store with log := log } with
      | ⟨.error error, left⟩ => pure ⟨.error error, left⟩
      | ⟨.ok _, left⟩ => pure ⟨.ok (), { left with log := { left.log with opened := true } }⟩

theorem slice_grows (bytes : Bytes) (offset first second : Nat) :
    slice bytes offset first ++ slice bytes (offset + first) second = slice bytes offset (first + second) := by
  rw [slice, slice, slice, ← List.drop_drop, List.take_add]

theorem length_slice_inside (bytes : Bytes) (offset length : Nat) (inside : offset + length ≤ bytes.length) :
    (slice bytes offset length).length = length := by
  rw [slice, List.length_take, List.length_drop]
  omega

def Answers (faulty : Prop) (answer : PreadOutcome) : Prop := answer = .failed → faulty

abbrev Reads {α : Type} (faulty : Prop) (reading : Reading α) (post : α → Prop) (limit : Nat) : Prop :=
  Meets (Answers faulty) PreadOutcome.isInterrupted reading post limit

section Loop

variable {faulty : Prop} {bytes : Bytes} {offset length : Nat}

/-- Whatever the kernel answers, the loop reads all that it is asked for or fails. -/
theorem preadLoop_returns (inside : offset + length ≤ bytes.length) (answers rest : List PreadOutcome) (read : Nat)
    (short : read ≤ length) (result : Option Bytes) (within : ∀ answer ∈ answers, Answers faulty answer)
    (same : preadLoop bytes offset length (slice bytes offset read) answers = some (result, rest)) :
    (faulty ∧ result = none ∨ result = some (slice bytes offset length)) ∧ ∀ answer ∈ rest, Answers faulty answer := by
  induction answers generalizing read with
  | nil =>
    unfold preadLoop at same
    rw [length_slice_inside bytes offset read (by omega)] at same
    split at same
    next more => exact absurd same (Option.some_ne_none _).symm
    next done =>
      obtain ⟨rfl, rfl⟩ := Prod.mk.inj (Option.some.inj same)
      have whole : read = length := by omega
      exact ⟨.inr (by rw [whole]), within⟩
  | cons answer answers ih =>
    unfold preadLoop at same
    rw [length_slice_inside bytes offset read (by omega)] at same
    have later : ∀ answer ∈ answers, Answers faulty answer := fun other member =>
      within other (List.mem_cons_of_mem _ member)
    split at same
    next more =>
      cases answer with
      | interrupted => exact ih read short later same
      | failed =>
        obtain ⟨rfl, rfl⟩ := Prod.mk.inj (Option.some.inj same)
        exact ⟨.inl ⟨within _ List.mem_cons_self rfl, rfl⟩, later⟩
      | bytes count =>
        have piece := length_slice_inside bytes (offset + read) (min (max 1 count) (length - read)) (by omega)
        have some' : slice bytes (offset + read) (min (max 1 count) (length - read)) ≠ [] := by
          intro empty
          rw [empty, List.length_nil] at piece
          omega
        dsimp only at same
        rw [if_neg some', slice_grows] at same
        exact ih _ (by omega) later same
    next done =>
      obtain ⟨rfl, rfl⟩ := Prod.mk.inj (Option.some.inj same)
      have whole : read = length := by omega
      exact ⟨.inr (by rw [whole]), within⟩

theorem preadLoop_ends (inside : offset + length ≤ bytes.length) (answers : List PreadOutcome) (read : Nat)
    (short : read ≤ length) (enough : length - read ≤ productive PreadOutcome.isInterrupted answers) :
    ∃ result rest, preadLoop bytes offset length (slice bytes offset read) answers = some (result, rest) ∧
      productive PreadOutcome.isInterrupted answers ≤
        productive PreadOutcome.isInterrupted rest + (length - read) := by
  induction answers generalizing read with
  | nil =>
    have none : productive PreadOutcome.isInterrupted [] = 0 := rfl
    unfold preadLoop
    rw [length_slice_inside bytes offset read (by omega), if_neg (by omega)]
    exact ⟨_, _, rfl, Nat.le_add_right _ _⟩
  | cons answer answers ih =>
    rw [productive_cons] at enough ⊢
    unfold preadLoop
    rw [length_slice_inside bytes offset read (by omega)]
    split
    next more =>
      cases answer with
      | interrupted => exact ih read short enough
      | failed =>
        refine ⟨none, answers, rfl, ?_⟩
        simp only [PreadOutcome.isInterrupted, Bool.false_eq_true, if_false]
        omega
      | bytes count =>
        have piece := length_slice_inside bytes (offset + read) (min (max 1 count) (length - read)) (by omega)
        have some' : slice bytes (offset + read) (min (max 1 count) (length - read)) ≠ [] := by
          intro empty
          rw [empty, List.length_nil] at piece
          omega
        dsimp only
        rw [if_neg some', slice_grows]
        simp only [PreadOutcome.isInterrupted, Bool.false_eq_true, if_false] at enough ⊢
        obtain ⟨result, rest, same, used⟩ := ih (read + min (max 1 count) (length - read)) (by omega) (by omega)
        exact ⟨result, rest, same, by omega⟩
    next done =>
      refine ⟨_, _, rfl, ?_⟩
      rw [productive_cons]
      exact Nat.le_add_right _ _

end Loop

variable {faulty : Prop}

theorem preadAll_reads (faulty : Prop) (bytes : Bytes) (offset length : Nat) (inside : offset + length ≤ bytes.length) :
    Reads faulty (preadAll bytes offset length)
      (fun result => faulty ∧ result = none ∨ result = some (slice bytes offset length)) length where
  returns answers result rest within same := preadLoop_returns inside answers rest 0 (Nat.zero_le _) result within same
  ends answers _ enough := preadLoop_ends inside answers 0 (Nat.zero_le _) enough

theorem zeroTail_reads (bytes path : Bytes) (fuel offset length : Nat) (enough : length ≤ fuel)
    (inside : offset + length ≤ bytes.length) : Reads faulty (zeroTail bytes path fuel offset length)
      (fun result => faulty ∧ result = .error (.systemError "pread" (some path)) ∨
        result = .ok (isZero (slice bytes offset length))) length := by
  induction fuel generalizing offset length with
  | zero =>
    have none : length = 0 := Nat.le_zero.mp enough
    rw [none]
    exact .pure (.inr rfl)
  | succ fuel ih =>
    unfold zeroTail
    by_cases none : length = 0
    · rw [if_pos none, none]
      exact .pure (.inr rfl)
    rw [if_neg none]
    have pieces : slice bytes offset length =
        slice bytes offset (min length 4096) ++ slice bytes (offset + min length 4096) (length - min length 4096) := by
      rw [slice_grows]
      congr 1
      omega
    have read := preadAll_reads faulty bytes offset (min length 4096) (by omega)
    refine (read.bind (length - min length 4096) fun result got => ?_).weaken (fun _ holds => holds) (by omega)
    rcases got with ⟨failed, rfl⟩ | rfl
    · exact .pure (.inl ⟨failed, rfl⟩)
    dsimp only
    rw [if_neg (not_not.mpr (length_slice_inside _ _ _ (by omega)))]
    split
    next nonzero =>
      refine .pure (.inr ?_)
      rw [pieces, isZero, List.all_append, ← isZero, nonzero, Bool.false_and]
    next zero =>
      rw [Bool.not_eq_false] at zero
      refine (ih _ _ (by omega) (by omega)).weaken (fun result => Or.imp_right fun same => ?_) le_rfl
      rw [same, pieces]
      simp only [isZero, List.all_append] at zero ⊢
      rw [zero, Bool.true_and]

def Call.isRead : Call → Bool
  | .readHeader _ | .readRecord _ _ | .readPayload _ _ | .readZeroTail _ | .readShortTail _ => true
  | _ => false

/-- Of the reads at most one fails; the other calls do as they did. -/
def losing (faults : Faults) (lost : Option Call) : Faults := fun call =>
  if Call.isRead call then decide (lost = some call) else faults call

def Behind (id position : Nat) : Call → Prop
  | .readRecord other place | .readPayload other place => other = id ∧ position ≤ place
  | .readZeroTail other => other = id
  | _ => False

theorem Behind.mono {id first second : Nat} {call : Call} (behind : Behind id second call) (onward : first ≤ second) :
    Behind id first call := by
  cases call with
  | readRecord other place => exact ⟨behind.1, onward.trans behind.2⟩
  | readPayload other place => exact ⟨behind.1, onward.trans behind.2⟩
  | readZeroTail other => exact behind
  | _ => exact behind

/-- Only a faulty file loses a read, which is then among these and ends the work. -/
def Lost {α : Type} (faulty : Prop) (among : Call → Prop) (lost : Option Call) (outcome : Except LogError α) : Prop :=
  ∀ call, lost = some call → faulty ∧ among call ∧ ∃ error, outcome = .error error

theorem lost_none {α : Type} {among : Call → Prop} {outcome : Except LogError α} : Lost faulty among none outcome :=
  fun _ impossible => absurd impossible (Option.some_ne_none _).symm

theorem losing_own (faults : Faults) (call : Call) (read : Call.isRead call = true) :
    losing faults (some call) call = true := by
  rw [losing, if_pos read]
  exact decide_eq_true rfl

theorem losing_spared (faults : Faults) {lost : Option Call} {call : Call} (read : Call.isRead call = true)
    (spared : lost ≠ some call) : ¬ losing faults lost call = true := by
  rw [losing, if_pos read, decide_eq_true_eq]
  exact spared

theorem losing_none (faults : Faults) {call : Call} (read : Call.isRead call = true) :
    ¬ losing faults none call = true :=
  losing_spared faults read (Option.some_ne_none _).symm

theorem losing_foreign (faults : Faults) (lost : Option Call) {call : Call} (foreign : Call.isRead call = false) :
    losing faults lost call = faults call :=
  if_neg (by rw [foreign]; exact Bool.false_ne_true)

theorem losing_other {α : Type} {faults : Faults} {among : Call → Prop} {lost : Option Call}
    {outcome : Except LogError α} (loses : Lost faulty among lost outcome) {call : Call} (read : Call.isRead call = true)
    (apart : ¬ among call) : ¬ losing faults lost call = true :=
  losing_spared faults read fun same => apart (loses call same).2.1

theorem resize_full {bytes : Bytes} {size : Nat} (full : bytes.length = size) : resize bytes size = bytes := by
  rw [resize_take bytes size full.ge, List.take_of_length_le full.le]

theorem checkRecordHeader_read (segmentSize : Nat) (bytes : Bytes) (position expectedOffset : Nat)
    (inside : position + recordHeaderSize ≤ bytes.length) :
    let got := slice bytes position recordHeaderSize
    let totalRecordSize := recordHeaderSize + announcedLength got expectedOffset
    checkRecordHeader segmentSize bytes position expectedOffset =
      if isRecordHeader got expectedOffset = true ∧ totalRecordSize ≤ segmentSize - position ∧
        position + totalRecordSize ≤ bytes.length then some (announcedLength got expectedOffset) else none := by
  intro got totalRecordSize
  have full : got.length = recordHeaderSize := length_slice_inside _ _ _ inside
  have known : isRecordHeader got expectedOffset = true ↔ got.length = recordHeaderSize ∧ getU32 got = recordMagic ∧
      getU32 (got.drop 4) = recordVersionSize ∧ getU64 (got.drop 8) = expectedOffset := by
    simp only [isRecordHeader, resize_full full, Bool.and_eq_true, decide_eq_true_eq, and_assoc]
  unfold checkRecordHeader
  dsimp only
  by_cases state : isRecordHeader got expectedOffset = true
  · have length : announcedLength got expectedOffset = getU32 (got.drop 24) := by
      rw [announcedLength, if_pos state, resize_full full]
    rw [if_pos (known.mp state), ← length]
    simp only [state, true_and, totalRecordSize]
  · rw [if_neg fun fields => state (known.mpr fields), if_neg fun fields => state fields.1]

theorem payload_reads (bytes : Bytes) (offset length : Nat) (inside : offset + length ≤ bytes.length) :
    Reads faulty (if length = 0 then pure (some []) else preadAll bytes offset length : Reading _)
      (fun result => (length ≠ 0 ∧ faulty) ∧ result = none ∨ result = some (slice bytes offset length)) length := by
  split
  next none =>
    refine .pure (.inr ?_)
    rw [none]
    rfl
  next some =>
    exact (preadAll_reads _ _ _ _ inside).weaken (fun _ => Or.imp_left fun lost => ⟨⟨some, lost.1⟩, lost.2⟩) le_rfl

section Turn

variable {faults : Faults} {segmentSize id : Nat} {path : Bytes} {isLatest : Bool} {bytes : Bytes}
  {fuel position expectedOffset : Nat}

/-! One turn of the record loop behind a header that was read. -/

theorem scanRecords_zeros (long : ¬ bytes.length < position + recordHeaderSize)
    (headed : ¬ faults (.readRecord id position) = true) (zero : getU32 (slice bytes position recordHeaderSize) = 0) :
    scanRecords faults segmentSize id path isLatest bytes (fuel + 1) position expectedOffset =
      if faults (.readZeroTail id) then ⟨[], position, expectedOffset, .error (.systemError "pread" (some path))⟩
      else if isZero (bytes.drop position) then ⟨[], position, expectedOffset, .ok false⟩
      else stopDamaged isLatest path position expectedOffset "corrupt tail in sealed segment" := by
  rw [scanRecords]
  dsimp only
  rw [if_neg long, if_neg headed, if_pos zero]

theorem scanRecords_headed (long : ¬ bytes.length < position + recordHeaderSize)
    (headed : ¬ faults (.readRecord id position) = true) (nonzero : ¬ getU32 (slice bytes position recordHeaderSize) = 0) :
    scanRecords faults segmentSize id path isLatest bytes (fuel + 1) position expectedOffset =
      let damaged := stopDamaged isLatest path position expectedOffset "corrupt record in sealed segment"
      (checkRecordHeader segmentSize bytes position expectedOffset).elim damaged fun payloadLength =>
        if payloadLength ≠ 0 ∧ faults (.readPayload id position) then
          ⟨[], position, expectedOffset, .error (.systemError "pread" (some path))⟩
        else (checkRecordPayload bytes position expectedOffset payloadLength).elim damaged fun message =>
          if maxU64 - (recordHeaderSize + payloadLength) < expectedOffset then
            ⟨[], position, expectedOffset, .error (.runtimeError "record offsets overflow in segment" (some path))⟩
          else
            let rest := scanRecords faults segmentSize id path isLatest bytes fuel
              (position + (recordHeaderSize + payloadLength)) (expectedOffset + (recordHeaderSize + payloadLength))
            { rest with messages := message :: rest.messages } := by
  rw [scanRecords]
  dsimp only
  rw [if_neg long, if_neg headed, if_neg nonzero]
  cases checkRecordHeader segmentSize bytes position expectedOffset with
  | none => rfl
  | some payloadLength =>
    dsimp only [Option.elim_some]
    split
    · rfl
    · cases checkRecordPayload bytes position expectedOffset payloadLength with
      | none => rfl
      | some message => rfl

end Turn

theorem readRecords_reads (faults : Faults) (segmentSize id : Nat) (path : Bytes) (isLatest : Bool) (bytes : Bytes)
    (fuel position expectedOffset : Nat) (inside : position ≤ bytes.length) :
    Reads faulty (readRecords segmentSize path isLatest bytes fuel position expectedOffset)
      (fun scan => (∃ lost, Lost faulty (Behind id position) lost scan.outcome ∧
        scan = scanRecords (losing faults lost) segmentSize id path isLatest bytes fuel position expectedOffset) ∧
          scan.position ≤ bytes.length) (bytes.length - position + recordHeaderSize) := by
  induction fuel generalizing position expectedOffset with
  | zero => exact .pure ⟨⟨none, lost_none, rfl⟩, inside⟩
  | succ fuel ih =>
    unfold readRecords
    by_cases short : bytes.length < position + recordHeaderSize
    · dsimp only
      rw [if_pos short]
      refine .pure ⟨⟨none, lost_none, ?_⟩, inside⟩
      rw [scanRecords]
      exact (if_pos short).symm
    dsimp only
    rw [if_neg short]
    have read := preadAll_reads faulty bytes position recordHeaderSize (by omega)
    have full := length_slice_inside bytes position recordHeaderSize (by omega)
    have own (failed : faulty) (call : Call) (behind : Behind id position call) (error : LogError) :
        Lost faulty (Behind id position) (some call) (.error error : Except LogError Bool) := by
      intro other same
      rw [← Option.some.inj same]
      exact ⟨failed, behind, error, rfl⟩
    refine (read.bind (bytes.length - position) fun result got => ?_).weaken (fun _ holds => holds) (by omega)
    rcases got with ⟨failed, rfl⟩ | rfl
    · have behind : Behind id position (.readRecord id position) := ⟨rfl, le_rfl⟩
      refine .pure ⟨⟨some (.readRecord id position), own failed _ behind _, ?_⟩, inside⟩
      rw [scanRecords]
      dsimp only
      rw [if_neg short, if_pos (losing_own _ _ rfl)]
    dsimp only
    rw [resize_full full, if_neg (by rw [full]; decide)]
    by_cases zero : getU32 (slice bytes position recordHeaderSize) = 0
    · have tail : slice bytes position (bytes.length - position) = bytes.drop position :=
        List.take_of_length_le (by rw [List.length_drop])
      rw [if_pos zero]
      have zeros : Reads faulty _ _ _ := zeroTail_reads bytes path (bytes.length - position) position
        (bytes.length - position) le_rfl (by omega)
      rw [tail] at zeros
      refine zeros.bind (0) fun result known => ?_
      rcases known with ⟨failed, rfl⟩ | rfl
      · have behind : Behind id position (.readZeroTail id) := rfl
        refine .pure ⟨⟨some (.readZeroTail id), own failed _ behind _, ?_⟩, inside⟩
        rw [scanRecords_zeros short (losing_spared faults rfl (by simp)) zero, if_pos (losing_own _ _ rfl)]
      · have scanned : scanRecords (losing faults none) segmentSize id path isLatest bytes (fuel + 1) position
            expectedOffset = if isZero (bytes.drop position) then ⟨[], position, expectedOffset, .ok false⟩
              else stopDamaged isLatest path position expectedOffset "corrupt tail in sealed segment" := by
          rw [scanRecords_zeros short (losing_none faults rfl) zero, if_neg (losing_none faults rfl)]
        cases clean : isZero (bytes.drop position) with
        | true =>
          refine .pure ⟨⟨none, lost_none, ?_⟩, inside⟩
          rw [scanned, clean]
          rfl
        | false =>
          refine .pure ⟨⟨none, lost_none, ?_⟩, inside⟩
          rw [scanned, clean]
          rfl
    rw [if_neg zero]
    have header := checkRecordHeader_read segmentSize bytes position expectedOffset (by omega)
    dsimp only at header
    split
    next invalid =>
      rw [if_neg invalid] at header
      refine .pure ⟨⟨none, lost_none, ?_⟩, inside⟩
      rw [scanRecords_headed short (losing_none faults rfl) zero, header, Option.elim_none]
    next valid =>
      rw [not_not] at valid
      rw [if_pos valid] at header
      have fits := valid.2.2
      generalize announcedLength (slice bytes position recordHeaderSize) expectedOffset = payloadLength at header fits ⊢
      have payload : Reads faulty _ _ _ := payload_reads bytes (position + recordHeaderSize) payloadLength (by omega)
      have most : payloadLength + (bytes.length - (position + (recordHeaderSize + payloadLength)) + recordHeaderSize) ≤
          bytes.length - position := by omega
      refine (payload.bind (bytes.length - (position + (recordHeaderSize + payloadLength)) + recordHeaderSize)
        fun result read => ?_).weaken (fun _ holds => holds) most
      rcases read with ⟨⟨some', failed⟩, rfl⟩ | rfl
      · have behind : Behind id position (.readPayload id position) := ⟨rfl, le_rfl⟩
        refine .pure ⟨⟨some (.readPayload id position), own failed _ behind _, ?_⟩, inside⟩
        rw [scanRecords_headed short (losing_spared faults rfl (by simp)) zero, header, Option.elim_some,
          if_pos ⟨some', losing_own _ _ rfl⟩]
      dsimp only
      have checked : checkRecordPayload bytes position expectedOffset payloadLength =
          if (slice bytes (position + recordHeaderSize) payloadLength).length = payloadLength ∧
              getU32 ((slice bytes position recordHeaderSize).drop 28) = (recordCrc (slice bytes position recordHeaderSize)
                (slice bytes (position + recordHeaderSize) payloadLength)).toNat then
            some ⟨expectedOffset, getU64 ((slice bytes position recordHeaderSize).drop 16), payloadLength,
              slice bytes (position + recordHeaderSize) payloadLength⟩
          else none := rfl
      split
      next corrupt =>
        rw [if_neg corrupt] at checked
        refine .pure ⟨⟨none, lost_none, ?_⟩, inside⟩
        rw [scanRecords_headed short (losing_none faults rfl) zero, header, Option.elim_some,
          if_neg fun lost => losing_none faults rfl lost.2, checked, Option.elim_none]
      next intact =>
        rw [not_not] at intact
        rw [if_pos intact] at checked
        split
        next full =>
          refine .pure ⟨⟨none, lost_none, ?_⟩, inside⟩
          rw [scanRecords_headed short (losing_none faults rfl) zero, header, Option.elim_some,
            if_neg fun lost => losing_none faults rfl lost.2, checked, Option.elim_some, if_pos full]
        next room =>
          refine (ih _ _ fits).bind (0) fun rest scanned => ?_
          obtain ⟨⟨lost, loses, same⟩, ended⟩ := scanned
          have positive : position < position + (recordHeaderSize + payloadLength) := by
            simp only [recordHeaderSize]
            omega
          have unheaded : ¬ losing faults lost (.readRecord id position) = true :=
            losing_other loses rfl fun behind => absurd behind.2 (by omega)
          have unpaid : ¬ losing faults lost (.readPayload id position) = true :=
            losing_other loses rfl fun behind => absurd behind.2 (by omega)
          have wider : Lost faulty (Behind id position) lost rest.outcome := fun call one =>
            ⟨(loses call one).1, (loses call one).2.1.mono positive.le, (loses call one).2.2⟩
          refine .pure ⟨⟨lost, wider, ?_⟩, ended⟩
          rw [scanRecords_headed short unheaded zero, header, Option.elim_some, if_neg fun lost => unpaid lost.2, checked,
            Option.elim_some, if_neg room, ← same]

def Call.segment : Call → Option Nat
  | .readHeader id | .readRecord id _ | .readPayload id _ | .readZeroTail id | .readShortTail id => some id
  | _ => none

theorem Behind.segment {id position : Nat} {call : Call} (behind : Behind id position call) :
    Call.segment call = some id := by
  cases call with
  | readRecord other place => exact congrArg some behind.1
  | readPayload other place => exact congrArg some behind.1
  | readZeroTail other => exact congrArg some behind
  | _ => exact False.elim behind

theorem scanRecords_congr {first second : Faults} {segmentSize id : Nat} {path : Bytes} {isLatest : Bool} {bytes : Bytes}
    (fuel position expectedOffset : Nat) (same : ∀ call, Behind id position call → first call = second call) :
    scanRecords first segmentSize id path isLatest bytes fuel position expectedOffset =
      scanRecords second segmentSize id path isLatest bytes fuel position expectedOffset := by
  induction fuel generalizing position expectedOffset with
  | zero => rfl
  | succ fuel ih =>
    have next (length : Nat) := ih (position + (recordHeaderSize + length)) (expectedOffset + (recordHeaderSize + length))
      fun call behind => same call (behind.mono (Nat.le_add_right _ _))
    have record : first (.readRecord id position) = second (.readRecord id position) := same _ ⟨rfl, le_rfl⟩
    have payload : first (.readPayload id position) = second (.readPayload id position) := same _ ⟨rfl, le_rfl⟩
    have tail : first (.readZeroTail id) = second (.readZeroTail id) := same _ rfl
    simp only [scanRecords, record, payload, tail, next]

theorem scanSegment_congr {first second : Faults} {segmentSize id : Nat} {path : Bytes} {isLatest : Bool} {base : Nat}
    {file : File} (reads : ∀ call, Call.segment call = some id → first call = second call)
    (others : ∀ call, Call.isRead call = false → first call = second call) :
    scanSegment first segmentSize id path isLatest base file =
      scanSegment second segmentSize id path isLatest base file := by
  have records : scanRecords first segmentSize id path isLatest file.bytes (file.bytes.length + 1) segmentHeaderSize base =
      scanRecords second segmentSize id path isLatest file.bytes (file.bytes.length + 1) segmentHeaderSize base :=
    scanRecords_congr _ _ _ fun call behind => reads call behind.segment
  simp only [scanSegment, finishScan, records, reads (.readHeader id) rfl, reads (.readShortTail id) rfl,
    others (.scanOpen id) rfl, others (.scanStat id) rfl, others (.truncateTail id) rfl, others (.scanClose id) rfl]

/-- What comes of a segment that is read: a scan with at most one lost read, on a file that does not grow. -/
def Scanned (faulty : Prop) (faults : Faults) (segmentSize id : Nat) (path : Bytes) (isLatest : Bool) (base : Nat)
    (file : File) (scan : SegmentScan) : Prop :=
  (∃ lost, Lost faulty (fun call => Call.segment call = some id) lost scan.result ∧
    scan = scanSegment (losing faults lost) segmentSize id path isLatest base file) ∧
  scan.file.bytes.length ≤ file.bytes.length

theorem closeScan_shrinks {faults : Faults} {id : Nat} {path : Bytes} {base : Nat} {file : File} {scan : RecordScan}
    (truncateTail : Bool) (ended : scan.position ≤ file.bytes.length) :
    (closeScan faults id path base file scan truncateTail).file.bytes.length ≤ file.bytes.length := by
  have kept : (if truncateTail then file.truncate scan.position else file).bytes.length ≤ file.bytes.length := by
    split
    · exact (length_resize file.bytes scan.position).trans_le ended
    · exact le_rfl
  unfold closeScan
  dsimp only
  split
  · exact le_rfl
  · split
    · exact kept
    · exact kept

/-- Behind the record loop a read is made only of a tail that is too short for a record. -/
theorem finishRead_reads (faults : Faults) (id : Nat) (path : Bytes) (isLatest : Bool) (base : Nat) (file : File)
    (scan : RecordScan) (ended : scan.position ≤ file.bytes.length) :
    Reads faulty (finishRead faults id path isLatest base file scan)
      (fun result => (∃ lost, Lost faulty (fun call => call = .readShortTail id) lost result.result ∧
        result = finishScan (losing faults lost) id path isLatest base file scan) ∧
          result.file.bytes.length ≤ file.bytes.length) recordHeaderSize := by
  have unlost {lost : Option Call} (call : Call) (foreign : Call.isRead call = false) :
      losing faults lost call = faults call := losing_foreign faults lost foreign
  unfold finishRead
  cases outcome : scan.outcome with
  | error error =>
    refine .pure ⟨⟨none, lost_none, ?_⟩, le_rfl⟩
    rw [finishScan, outcome]
  | ok truncateLoop =>
    dsimp only
    by_cases short : scan.position < file.bytes.length ∧ file.bytes.length < scan.position + recordHeaderSize
    · rw [if_pos short]
      have tail : (decide (scan.position < file.bytes.length) &&
          decide (file.bytes.length < scan.position + recordHeaderSize)) = true := by
        simpa using short
      have read := preadAll_reads faulty file.bytes scan.position (file.bytes.length - scan.position) (by omega)
      have full := length_slice_inside file.bytes scan.position (file.bytes.length - scan.position) (by omega)
      have fewer : file.bytes.length - scan.position + 0 ≤ recordHeaderSize := by omega
      refine (read.bind (0) fun result got => ?_).weaken (fun _ holds => holds) fewer
      rcases got with ⟨failed, rfl⟩ | rfl
      · have own : Lost faulty (fun call => call = .readShortTail id) (some (.readShortTail id))
            (.error (.systemError "pread" (some path)) : Except LogError LogSegmentInfo) := by
          intro call one
          exact ⟨failed, (Option.some.inj one).symm, _, rfl⟩
        refine .pure ⟨⟨some (.readShortTail id), own, ?_⟩, le_rfl⟩
        simp only [finishScan, outcome, tail, losing_own faults (.readShortTail id) rfl, and_self, if_true]
      dsimp only
      rw [resize_full full]
      have unread : ¬ losing faults none (.readShortTail id) = true := losing_none faults rfl
      split
      next zero =>
        refine .pure ⟨⟨none, lost_none, ?_⟩, closeScan_shrinks truncateLoop ended⟩
        simp only [finishScan, outcome, tail, zero, unread, closeScan, Bool.not_true, Bool.and_false, Bool.or_false,
          Bool.false_eq_true, and_false, false_and, if_false, unlost (.truncateTail id) rfl, unlost (.scanClose id) rfl]
      next nonzero =>
        rw [Bool.not_eq_true] at nonzero
        split
        next sealed' =>
          refine .pure ⟨⟨none, lost_none, ?_⟩, le_rfl⟩
          simp only [finishScan, outcome, tail, nonzero, unread, sealed', Bool.not_false, Bool.and_self,
            Bool.false_eq_true, and_false, and_self, if_false, if_true]
        next latest =>
          refine .pure ⟨⟨none, lost_none, ?_⟩, closeScan_shrinks true ended⟩
          simp only [finishScan, outcome, tail, nonzero, unread, latest, closeScan, Bool.not_false, Bool.and_self,
            Bool.or_true, Bool.false_eq_true, Bool.true_eq_false, and_false, true_and, if_false, if_true,
            unlost (.truncateTail id) rfl, unlost (.scanClose id) rfl]
    · rw [if_neg short]
      have long : (decide (scan.position < file.bytes.length) &&
          decide (file.bytes.length < scan.position + recordHeaderSize)) = false := by
        simpa using short
      refine .pure ⟨⟨none, lost_none, ?_⟩, closeScan_shrinks truncateLoop ended⟩
      simp only [finishScan, outcome, long, closeScan, Bool.false_and, Bool.or_false, Bool.false_eq_true, false_and,
        if_false, unlost (.truncateTail id) rfl, unlost (.scanClose id) rfl]

theorem Behind.isRead {id position : Nat} {call : Call} (behind : Behind id position call) : Call.isRead call = true := by
  cases call with
  | readRecord other place => rfl
  | readPayload other place => rfl
  | readZeroTail other => rfl
  | _ => exact False.elim behind

def Inside (id : Nat) (call : Call) : Prop := Behind id segmentHeaderSize call ∨ call = .readShortTail id

theorem Inside.segment {id : Nat} {call : Call} (inside : Inside id call) : Call.segment call = some id := by
  rcases inside with behind | rfl
  · exact behind.segment
  · rfl

theorem readBody_reads (faults : Faults) (segmentSize id : Nat) (path : Bytes) (isLatest : Bool) (base : Nat)
    (file : File) (headed : segmentHeaderSize ≤ file.bytes.length) :
    Reads faulty (readRecords segmentSize path isLatest file.bytes (file.bytes.length + 1) segmentHeaderSize base >>=
        finishRead faults id path isLatest base file)
      (fun result => (∃ lost, Lost faulty (Inside id) lost result.result ∧
        result = finishScan (losing faults lost) id path isLatest base file (scanRecords (losing faults lost) segmentSize
          id path isLatest file.bytes (file.bytes.length + 1) segmentHeaderSize base)) ∧
            result.file.bytes.length ≤ file.bytes.length)
      (file.bytes.length - segmentHeaderSize + recordHeaderSize + recordHeaderSize) := by
  have records : Reads faulty _ _ _ := readRecords_reads faults segmentSize id path isLatest file.bytes
    (file.bytes.length + 1) segmentHeaderSize base headed
  refine records.bind recordHeaderSize fun scan found => ?_
  obtain ⟨⟨lost, loses, same⟩, ended⟩ := found
  refine (finishRead_reads faults id path isLatest base file scan ended).weaken (fun result closed => ?_) le_rfl
  obtain ⟨⟨lost', loses', same'⟩, shrinks⟩ := closed
  cases lost with
  | none =>
    -- the records were read, so that only the short tail can be lost
    have agree : scanRecords (losing faults lost') segmentSize id path isLatest file.bytes (file.bytes.length + 1)
        segmentHeaderSize base = scan := by
      rw [same]
      apply scanRecords_congr
      intro call behind
      have foreign : ¬ call = .readShortTail id := fun tail => by
        rw [tail] at behind
        exact behind
      rw [Bool.eq_false_iff.mpr (losing_other loses' behind.isRead foreign),
        Bool.eq_false_iff.mpr (losing_none faults behind.isRead)]
    refine ⟨⟨lost', fun call one => ?_, ?_⟩, shrinks⟩
    · obtain ⟨failed, tail, error⟩ := loses' call one
      exact ⟨failed, .inr tail, error⟩
    · rw [agree]
      exact same'
  | some call =>
    obtain ⟨failed, behind, error, ended⟩ := loses call rfl
    have stops (faults : Faults) : finishScan faults id path isLatest base file scan =
        ⟨scan.messages, file, .error error⟩ := by
      rw [finishScan, ended]
    refine ⟨⟨some call, fun other one => ?_, ?_⟩, shrinks⟩
    · rw [← Option.some.inj one, same', stops]
      exact ⟨failed, .inl behind, error, rfl⟩
    · rw [← same, stops, same', stops]

theorem readSegment_reads (faults : Faults) (segmentSize id : Nat) (path : Bytes) (isLatest : Bool) (base : Nat)
    (file : File) : Reads faulty (readSegment faults segmentSize id path isLatest base file)
      (Scanned faulty faults segmentSize id path isLatest base file) (file.bytes.length + 2 * recordHeaderSize) := by
  have unlost {lost : Option Call} (call : Call) (foreign : Call.isRead call = false) :
      losing faults lost call = faults call := losing_foreign faults lost foreign
  have headed : ¬ losing faults none (.readHeader id) = true := losing_none faults rfl
  have refused {error : LogError}
      (same : scanSegment (losing faults none) segmentSize id path isLatest base file = ⟨[], file, .error error⟩) :
      Scanned faulty faults segmentSize id path isLatest base file ⟨[], file, .error error⟩ :=
    ⟨⟨none, lost_none, same.symm⟩, le_rfl⟩
  unfold readSegment
  dsimp only
  by_cases closed : faults (.scanOpen id) = true
  · rw [if_pos closed]
    exact .pure (refused (by simp only [scanSegment, unlost (.scanOpen id) rfl, closed, if_true]))
  by_cases blind : faults (.scanStat id) = true
  · rw [if_neg closed, if_pos blind]
    exact .pure (refused (by simp only [scanSegment, unlost (.scanOpen id) rfl, unlost (.scanStat id) rfl, closed, blind,
      Bool.false_eq_true, if_false, if_true]))
  by_cases small : file.bytes.length < segmentHeaderSize
  · rw [if_neg closed, if_neg blind, if_pos small]
    exact .pure (refused (by simp only [scanSegment, unlost (.scanOpen id) rfl, unlost (.scanStat id) rfl, closed, blind,
      small, Bool.false_eq_true, if_false, if_true]))
  rw [if_neg closed, if_neg blind, if_neg small]
  have scanned (lost : Option Call) : scanSegment (losing faults lost) segmentSize id path isLatest base file =
      if losing faults lost (.readHeader id) then
        ⟨[], file, .error (.runtimeError "unable to read segment header" (some path))⟩
      else if checkSegmentHeader segmentSize id (slice file.bytes 0 segmentHeaderSize) = false then
        ⟨[], file, .error (.runtimeError "invalid segment header" (some path))⟩
      else if getU64 ((slice file.bytes 0 segmentHeaderSize).drop 16) ≠ base then
        ⟨[], file, .error (.runtimeError "segment base offset is discontinuous" (some path))⟩
      else if segmentSize < file.bytes.length then
        ⟨[], file, .error (.runtimeError "segment file exceeds configured size" (some path))⟩
      else finishScan (losing faults lost) id path isLatest base file
        (scanRecords (losing faults lost) segmentSize id path isLatest file.bytes (file.bytes.length + 1)
          segmentHeaderSize base) := by
    simp only [scanSegment, unlost (.scanOpen id) rfl, unlost (.scanStat id) rfl, closed, blind, small,
      Bool.false_eq_true, if_false]
  have read := preadAll_reads faulty file.bytes 0 segmentHeaderSize (by omega)
  have full := length_slice_inside file.bytes 0 segmentHeaderSize (by omega)
  have most : segmentHeaderSize + (file.bytes.length - segmentHeaderSize + recordHeaderSize + recordHeaderSize) ≤
      file.bytes.length + 2 * recordHeaderSize := by omega
  refine (read.bind (file.bytes.length - segmentHeaderSize + recordHeaderSize + recordHeaderSize)
    fun result got => ?_).weaken (fun _ holds => holds) most
  rcases got with ⟨failed, rfl⟩ | rfl
  · refine .pure ⟨⟨some (.readHeader id), fun call one => ⟨failed, ?_, _, rfl⟩, ?_⟩, le_rfl⟩
    · rw [← Option.some.inj one]
      rfl
    · rw [scanned, if_pos (losing_own faults (.readHeader id) rfl)]
  dsimp only
  rw [if_neg (not_not.mpr full)]
  have known := scanned none
  rw [if_neg headed] at known
  split
  next invalid =>
    rw [if_pos invalid] at known
    exact .pure (refused known)
  next valid =>
  rw [if_neg valid] at known
  split
  next discontinuous =>
    rw [if_pos discontinuous] at known
    exact .pure (refused known)
  next continuous =>
  rw [if_neg continuous] at known
  split
  next large =>
    rw [if_pos large] at known
    exact .pure (refused known)
  next fits =>
  refine (readBody_reads faults segmentSize id path isLatest base file (by omega)).weaken (fun result body => ?_) le_rfl
  obtain ⟨⟨lost, loses, same⟩, shrinks⟩ := body
  have header : ¬ losing faults lost (.readHeader id) = true := by
    refine losing_other loses rfl fun inside => ?_
    rcases inside with behind | tail
    · exact behind
    · cases tail
  refine ⟨⟨lost, fun call one => ?_, ?_⟩, shrinks⟩
  · obtain ⟨failed, inside, error⟩ := loses call one
    exact ⟨failed, inside.segment, error⟩
  · rw [scanned, if_neg header, if_neg valid, if_neg continuous, if_neg fits]
    exact same

/-- The bytes of the files that recovery reads, and two record headers for each of them. -/
def demand (directory : Directory) : List (Nat × Bytes) → Nat
  | [] => 0
  | (_, path) :: rest =>
    ((fileAt directory path).getD ⟨[], 0⟩).bytes.length + 2 * recordHeaderSize + demand directory rest

theorem demand_update (directory : Directory) (path : Bytes) (file : File) (files : List (Nat × Bytes))
    (shrinks : file.bytes.length ≤ ((fileAt directory path).getD ⟨[], 0⟩).bytes.length) :
    demand (update directory path fun _ => file) files ≤ demand directory files := by
  induction files with
  | nil => exact le_rfl
  | cons head rest ih =>
    obtain ⟨id, other⟩ := head
    have here : ((fileAt (update directory path fun _ => file) other).getD ⟨[], 0⟩).bytes.length ≤
        ((fileAt directory other).getD ⟨[], 0⟩).bytes.length := by
      rw [fileAt_update]
      split
      next same =>
        rw [same]
        cases found : fileAt directory path with
        | none => exact le_rfl
        | some old =>
          rw [found] at shrinks
          exact shrinks
      next different => exact le_rfl
    rw [demand, demand]
    omega

def Later (index : Nat) (call : Call) : Prop := ∃ id, Call.segment call = some id ∧ index < id

theorem Later.isRead {index : Nat} {call : Call} (later : Later index call) : Call.isRead call = true := by
  obtain ⟨id, segment, _⟩ := later
  cases call with
  | readHeader | readRecord | readPayload | readZeroTail | readShortTail => rfl
  | _ => exact absurd segment (Option.some_ne_none _).symm

theorem readSegments_reads (faults : Faults) (index : Nat) (files : List (Nat × Bytes)) (base : Nat) (store : Store) :
    Reads faulty (readSegments faults index files base store)
      (fun outcome => ∃ lost, Lost faulty (Later index) lost outcome.result ∧
        outcome = recoverSegments (losing faults lost) index files base store) (demand store.disk files) := by
  induction files generalizing index base store with
  | nil => exact .pure ⟨none, lost_none, rfl⟩
  | cons head rest ih =>
    obtain ⟨id, path⟩ := head
    unfold readSegments
    by_cases gap : id ≠ index + 1
    · rw [if_pos gap]
      exact .pure ⟨none, lost_none, (if_pos gap).symm⟩
    rw [if_neg gap]
    dsimp only
    have next : id = index + 1 := not_not.mp gap
    have read : Reads faulty _ _ _ := readSegment_reads faults store.log.segmentSize id path rest.isEmpty base
      ((fileAt store.disk path).getD ⟨[], 0⟩)
    refine read.bind (demand store.disk rest) fun scan scanned => ?_
    obtain ⟨⟨lost, loses, same⟩, shrinks⟩ := scanned
    cases ended : scan.result with
    | error error =>
      refine .pure ⟨lost, fun call one => ?_, ?_⟩
      · obtain ⟨failed, segment, _⟩ := loses call one
        exact ⟨failed, ⟨id, segment, by omega⟩, error, rfl⟩
      · rw [recoverSegments, if_neg gap]
        dsimp only
        rw [← same, ended]
    | ok info =>
      have spared : lost = none := by
        cases lost with
        | none => rfl
        | some call =>
          obtain ⟨_, _, error, failed⟩ := loses call rfl
          rw [ended] at failed
          cases failed
      refine (ih (index + 1) info.endOffset _).weaken (fun outcome recovered => ?_) (demand_update _ _ _ _ shrinks)
      obtain ⟨lost', loses', same'⟩ := recovered
      -- what is lost further on is not lost here
      have agree : scanSegment (losing faults lost') store.log.segmentSize id path rest.isEmpty base
          ((fileAt store.disk path).getD ⟨[], 0⟩) = scan := by
        rw [same, spared]
        apply scanSegment_congr
        · intro call segment
          have later : Later index call := ⟨id, segment, by omega⟩
          have read := later.isRead
          rw [Bool.eq_false_iff.mpr (losing_none faults read)]
          refine Bool.eq_false_iff.mpr (losing_other loses' read fun later => ?_)
          obtain ⟨id', segment', further⟩ := later
          rw [segment, Option.some.injEq] at segment'
          omega
        · intro call foreign
          rw [losing_foreign faults lost' foreign, losing_foreign faults none foreign]
      refine ⟨lost', fun call one => ?_, ?_⟩
      · obtain ⟨failed, later, error⟩ := loses' call one
        obtain ⟨id', segment, further⟩ := later
        exact ⟨failed, ⟨id', segment, by omega⟩, error⟩
      · rw [recoverSegments, if_neg gap]
        dsimp only
        rw [agree, ended]
        exact same'

theorem mapOrCreate_congr {first second : Faults} (scan : Outcome Nat)
    (others : ∀ call, Call.isRead call = false → first call = second call) :
    mapOrCreate first scan = mapOrCreate second scan := by
  simp only [mapOrCreate, createSegment, mapActiveSegment, abandonSegment, unmapActive, discardFile,
    others .removeFile rfl, others .unmapMsync rfl, others (.unmapMunmap false) rfl, others .unmapFsync rfl,
    others (.unmapClose false) rfl, others .createOpen rfl, others .createTruncate rfl, others .createMmap rfl,
    others .headerMsync rfl, others .headerFsync rfl, others .directoryOpen rfl, others .directoryFsync rfl,
    others .mapOpen rfl, others .mapTruncate rfl, others .mapMmap rfl]

theorem readOrCreate_reads (faults : Faults) (store : Store) :
    Reads faulty (readOrCreate faults store)
      (fun outcome => ∃ lost, Lost faulty (Later 0) lost outcome.result ∧
        outcome = recoverOrCreate (losing faults lost) store) (demand store.disk (segmentFiles store.disk)) := by
  unfold readOrCreate
  dsimp only
  by_cases hidden : faults .listDirectory = true
  · rw [if_pos hidden]
    refine .pure ⟨none, lost_none, ?_⟩
    rw [recoverOrCreate, if_pos (by rw [losing_foreign faults none rfl]; exact hidden)]
  rw [if_neg hidden]
  refine Meets.bind (readSegments_reads faults 0 (segmentFiles store.disk) 0 _) 0 fun scan recovered => ?_
  obtain ⟨lost, loses, same⟩ := recovered
  refine .pure ⟨lost, fun call one => ?_, ?_⟩
  · obtain ⟨failed, later, error, thrown⟩ := loses call one
    obtain ⟨result, left⟩ := scan
    cases thrown
    exact ⟨failed, later, error, rfl⟩
  · rw [recoverOrCreate, if_neg (by rw [losing_foreign faults lost rfl]; exact hidden), ← same]
    exact mapOrCreate_congr scan fun call foreign => (losing_foreign faults lost foreign).symm

theorem openReading_reads (faults : Faults) (initialSize recentCapacity : Nat) (store : Store) :
    Reads faulty (openReading faults initialSize recentCapacity store)
      (fun outcome => ∃ lost, Lost faulty (Later 0) lost outcome.result ∧
        outcome = openLog (losing faults lost) initialSize recentCapacity store)
      (demand store.disk (segmentFiles store.disk)) := by
  unfold openReading
  by_cases already : store.log.opened = true
  · rw [if_pos already]
    exact .pure ⟨none, lost_none, (if_pos already).symm⟩
  rw [if_neg already]
  by_cases sized : initialSize < segmentHeaderSize + recordHeaderSize + 1 ∨ maxU64 < initialSize ∨ maxOffT < initialSize
  · rw [if_pos sized]
    refine .pure ⟨none, lost_none, ?_⟩
    rw [openLog, if_neg already, if_pos sized]
  rw [if_neg sized]
  by_cases empty : recentCapacity = 0
  · rw [if_pos empty]
    refine .pure ⟨none, lost_none, ?_⟩
    rw [openLog, if_neg already, if_neg sized, if_pos empty]
  rw [if_neg empty]
  dsimp only
  have opening (lost : Option Call) : losing faults lost .createDirectories = faults .createDirectories :=
    losing_foreign faults lost rfl
  by_cases homeless : faults .createDirectories = true
  · rw [if_pos homeless]
    refine .pure ⟨none, lost_none, ?_⟩
    rw [openLog, if_neg already, if_neg sized, if_neg empty, if_pos (by rw [opening]; exact homeless)]
  rw [if_neg homeless]
  refine Meets.bind (readOrCreate_reads faults _) 0 fun outcome recovered => ?_
  obtain ⟨lost, loses, same⟩ := recovered
  obtain ⟨result, left⟩ := outcome
  cases result with
  | error error =>
    refine .pure ⟨lost, loses, ?_⟩
    rw [openLog, if_neg already, if_neg sized, if_neg empty, if_neg (by rw [opening]; exact homeless)]
    dsimp only
    rw [← same]
  | ok done =>
    refine .pure ⟨lost, fun call one => ?_, ?_⟩
    · obtain ⟨_, _, error, thrown⟩ := loses call one
      cases thrown
    · rw [openLog, if_neg already, if_neg sized, if_neg empty, if_neg (by rw [opening]; exact homeless)]
      dsimp only
      rw [← same]

/-- However the kernel cuts its answers to the reads, and however often it interrupts them, opening the log does
what it does where every read is whole: at most one read fails, only where the kernel gave an error, and then the
log is not opened. It returns as soon as the answers that are not interruptions are as many as the bytes it reads. -/
theorem recovery_piecewise (faults : Faults) (initialSize recentCapacity : Nat) (store : Store)
    (answers : List PreadOutcome) :
    let run := openReading faults initialSize recentCapacity store answers
    (∀ outcome rest, run = some (outcome, rest) →
      ∃ lost, Lost (PreadOutcome.failed ∈ answers) (Later 0) lost outcome.result ∧
        outcome = openLog (losing faults lost) initialSize recentCapacity store) ∧
    (demand store.disk (segmentFiles store.disk) ≤ productive PreadOutcome.isInterrupted answers → run.isSome) := by
  intro run
  have meets : Reads (PreadOutcome.failed ∈ answers) _ _ _ := openReading_reads faults initialSize recentCapacity store
  have within : ∀ answer ∈ answers, Answers (PreadOutcome.failed ∈ answers) answer := fun answer member failed => by
    rw [← failed]
    exact member
  refine ⟨fun outcome rest returned => (meets.returns answers outcome rest within returned).1, fun enough => ?_⟩
  obtain ⟨outcome, rest, returned, _⟩ := meets.ends answers within enough
  exact Option.isSome_of_eq_some returned

end FleetGateway.Storage.Pread
