import FleetGateway.Storage.RingBuffer
import FleetGateway.Storage.Segment

/-! `MemoryMappedLog`: the object, the directory it works on and its operations.
The mapping is shared, so its bytes are those of the file at `active.path`. An
operation that throws keeps the changes it made before the exception. -/

namespace FleetGateway.Storage.Log
open Library Library.ByteStore Format Record Disk Scan RingBuffer

/-- The mapped segment; `fdOpen` is `fd != -1` and `mapped` is `data != nullptr`. -/
structure Mapping where
  fdOpen : Bool := false
  mapped : Bool := false
  size : Nat := 0
  path : Bytes := []
  segmentId : Nat := 0
  baseOffset : Nat := 0
  writePosition : Nat := segmentHeaderSize
  deriving DecidableEq, Repr

structure MemoryMappedLog where
  segmentSize : Nat := 0
  nextMessageOffset : Nat := 0
  active : Mapping := {}
  segmentIndex : List LogSegmentInfo := []
  recentCache : CircularBuffer Message := ofCapacity 1
  opened : Bool := false
  deriving DecidableEq, Repr

structure Store where
  log : MemoryMappedLog := {}
  disk : Directory := ∅

/-- The result or the exception of an operation, and what it leaves behind. -/
structure Outcome (α : Type) where
  result : Except LogError α
  store : Store

/-- `std::filesystem::remove` of a file that could not be set up. The original
error is thrown unless the removal itself fails. -/
def discardFile (faults : Faults) (path : Bytes) (error : LogError) (store : Store) : Outcome Unit :=
  if faults .removeFile then ⟨.error (.systemError "remove" (some path)), store⟩
  else ⟨.error error, { store with disk := store.disk.erase path }⟩

/-- Every step runs whatever failed before it; the first failure is thrown at the end. -/
def unmapActive (faults : Faults) (sync : Bool) (store : Store) : Outcome Unit :=
  let active := store.log.active
  let msyncFailed := active.mapped && sync && faults .unmapMsync
  let munmapFailed := active.mapped && faults (.unmapMunmap sync)
  let fsyncFailed := active.fdOpen && sync && faults .unmapFsync
  let closeFailed := active.fdOpen && faults (.unmapClose sync)
  let synced := sync && active.mapped && active.fdOpen && !msyncFailed && !fsyncFailed
  let disk := if synced then update store.disk active.path (·.sync active.size) else store.disk
  let log := { store.log with active := { active with fdOpen := false, mapped := false, size := 0 } }
  if msyncFailed || munmapFailed || fsyncFailed || closeFailed then
    ⟨.error (.systemError "flush and close segment" (some active.path)), ⟨log, disk⟩⟩
  else ⟨.ok (), ⟨log, disk⟩⟩

/-- A failure after the header was copied: unmap without syncing, then remove. -/
def abandonSegment (faults : Faults) (path : Bytes) (error : LogError) (store : Store) : Outcome Unit :=
  match unmapActive faults false store with
  | ⟨.error other, left⟩ => ⟨.error other, left⟩
  | ⟨.ok _, left⟩ => discardFile faults path error left

def mappingOf (segmentSize segmentId baseOffset writePosition : Nat) : Mapping :=
  { fdOpen := true, mapped := true, size := segmentSize, path := segmentPath segmentId,
    segmentId := segmentId, baseOffset := baseOffset, writePosition := writePosition }

/-! The disk after each step of `create_segment`. -/

def fileCreated (disk : Directory) (segmentId : Nat) : Directory :=
  Disk.store disk (segmentPath segmentId) ⟨[], 0⟩

def fileExtended (disk : Directory) (segmentSize segmentId : Nat) : Directory :=
  update (fileCreated disk segmentId) (segmentPath segmentId) (·.truncate segmentSize)

def headerWritten (disk : Directory) (segmentSize segmentId baseOffset : Nat) : Directory :=
  update (fileExtended disk segmentSize segmentId) (segmentPath segmentId)
    (·.write 0 (segmentHeader segmentId baseOffset segmentSize))

def headerSynced (disk : Directory) (segmentSize segmentId baseOffset : Nat) : Directory :=
  update (headerWritten disk segmentSize segmentId baseOffset) (segmentPath segmentId)
    (·.sync segmentHeaderSize)

def createSegment (faults : Faults) (segmentId baseOffset : Nat) (store : Store) : Outcome Unit :=
  let path := segmentPath segmentId
  let segmentSize := store.log.segmentSize
  if (store.disk.lookup path).isSome ∨ faults .createOpen then
    ⟨.error (.systemError "open" (some path)), store⟩
  else if faults .createTruncate then
    discardFile faults path (.systemError "ftruncate" (some path))
      { store with disk := fileCreated store.disk segmentId }
  else if faults .createMmap then
    discardFile faults path (.systemError "mmap" (some path))
      { store with disk := fileExtended store.disk segmentSize segmentId }
  else
    let active := mappingOf segmentSize segmentId baseOffset segmentHeaderSize
    let written : Store :=
      ⟨{ store.log with active := active }, headerWritten store.disk segmentSize segmentId baseOffset⟩
    let synced : Store :=
      { written with disk := headerSynced store.disk segmentSize segmentId baseOffset }
    if faults .headerMsync ∨ faults .headerFsync then
      abandonSegment faults path (.systemError "persist segment header" (some path)) written
    else if faults .directoryOpen then
      abandonSegment faults path (.systemError "open directory" none) synced
    else if faults .directoryFsync then
      abandonSegment faults path (.systemError "fsync directory" none) synced
    else
      let info : LogSegmentInfo := ⟨segmentId, baseOffset, baseOffset, segmentHeaderSize, path⟩
      ⟨.ok (), { synced with log :=
        { synced.log with segmentIndex := synced.log.segmentIndex ++ [info] } }⟩

def mapActiveSegment (faults : Faults) (segmentId baseOffset writePosition : Nat) (store : Store) :
    Outcome Unit :=
  let path := segmentPath segmentId
  let segmentSize := store.log.segmentSize
  let extended := update store.disk path (·.truncate segmentSize)
  if fileAt store.disk path = none ∨ faults .mapOpen then ⟨.error (.systemError "open" (some path)), store⟩
  else if faults .mapTruncate then ⟨.error (.systemError "ftruncate" (some path)), store⟩
  else if faults .mapMmap then ⟨.error (.systemError "mmap" (some path)), { store with disk := extended }⟩
  else
    let active := mappingOf segmentSize segmentId baseOffset writePosition
    ⟨.ok (), ⟨{ store.log with active := active }, extended⟩⟩

/-- The loop of `recover_or_create` over the sorted files; `index` counts those before. -/
def recoverSegments (faults : Faults) : Nat → List (Nat × Bytes) → Nat → Store → Outcome Nat
  | _, [], expectedOffset, store => ⟨.ok expectedOffset, store⟩
  | index, (id, path) :: rest, expectedOffset, store =>
    if id ≠ index + 1 then ⟨.error (.runtimeError "log segment sequence has a gap" none), store⟩
    else
      let file := (fileAt store.disk path).getD ⟨[], 0⟩
      let scan := scanSegment faults store.log.segmentSize id path rest.isEmpty expectedOffset file
      let log := { store.log with recentCache := pushAll store.log.recentCache scan.messages }
      let disk := update store.disk path fun _ => scan.file
      match scan.result with
      | .error error => ⟨.error error, ⟨log, disk⟩⟩
      | .ok info => recoverSegments faults (index + 1) rest info.endOffset
          ⟨{ log with segmentIndex := log.segmentIndex ++ [info] }, disk⟩

/-- The end of `recover_or_create`: the newest segment is mapped, or the first one
created when there was none. -/
def mapOrCreate (faults : Faults) (scan : Outcome Nat) : Outcome Unit :=
  match scan with
  | ⟨.error error, left⟩ => ⟨.error error, left⟩
  | ⟨.ok expectedOffset, left⟩ =>
    let recovered := { left with log := { left.log with nextMessageOffset := expectedOffset } }
    match recovered.log.segmentIndex.getLast? with
    | none => createSegment faults 1 0 recovered
    | some last => mapActiveSegment faults last.segmentId last.firstOffset last.validBytes recovered

def recoverOrCreate (faults : Faults) (store : Store) : Outcome Unit :=
  let cleared := { store.log with nextMessageOffset := 0, segmentIndex := [] }
  if faults .listDirectory then ⟨.error (.systemError "directory_iterator" none), store⟩
  else mapOrCreate faults
    (recoverSegments faults 0 (segmentFiles store.disk) 0 { store with log := cleared })

/-- The largest `off_t`, which is below the largest `size_t`. -/
def maxOffT : Nat := 2 ^ 63 - 1

def openLog (faults : Faults) (initialSize recentCapacity : Nat) (store : Store) : Outcome Unit :=
  if store.log.opened then ⟨.error (.logicError "memory-mapped log is already open"), store⟩
  else if initialSize < segmentHeaderSize + recordHeaderSize + 1 ∨ maxU64 < initialSize ∨
      maxOffT < initialSize then
    ⟨.error (.invalidArgument "segment size is outside the supported range"), store⟩
  else if recentCapacity = 0 then
    ⟨.error (.invalidArgument "recent capacity must be positive"), store⟩
  else
    let log := { store.log with segmentSize := initialSize, recentCache := ofCapacity recentCapacity }
    if faults .createDirectories then
      ⟨.error (.systemError "create_directories" none), { store with log := log }⟩
    else match recoverOrCreate faults { store with log := log } with
      | ⟨.error error, left⟩ => ⟨.error error, left⟩
      | ⟨.ok _, left⟩ => ⟨.ok (), { left with log := { left.log with opened := true } }⟩

/-- `count()` of the wall clock in nanoseconds, cast to an unsigned 64-bit value. -/
def timestampOf (now : Int) : Nat := (now % 2 ^ 64).toNat

def copyToActive (position : Nat) (data : Bytes) (store : Store) : Store :=
  { store with disk := update store.disk store.log.active.path (·.write position data) }

/-- The cached message and the payload bytes, which go in before the header. -/
def copyPayload (message : Message) (store : Store) : Store :=
  let cached := { store with log :=
    { store.log with recentCache := push store.log.recentCache message } }
  if message.payload = [] then cached
  else copyToActive (store.log.active.writePosition + recordHeaderSize) message.payload cached

def copyHeader (message : Message) (store : Store) : Store :=
  copyToActive store.log.active.writePosition
    (recordHeader message.offset message.timestampNs message.payload) store

def advance (message : Message) (store : Store) : Store :=
  let log := store.log
  let writePosition := log.active.writePosition + size message
  let nextMessageOffset := log.nextMessageOffset + size message
  { store with log := { log with
    active := { log.active with writePosition := writePosition }
    nextMessageOffset := nextMessageOffset
    segmentIndex := log.segmentIndex.modifyLast fun info =>
      { info with endOffset := nextMessageOffset, validBytes := writePosition } } }

/-- Seal the full segment and start the next one; any failure closes the log. -/
def rollOver (faults : Faults) (store : Store) : Outcome Unit :=
  let closed := fun (left : Store) => { left with log := { left.log with opened := false } }
  match unmapActive faults true store with
  | ⟨.error error, left⟩ => ⟨.error error, closed left⟩
  | ⟨.ok _, left⟩ =>
    match createSegment faults (left.log.active.segmentId + 1) left.log.nextMessageOffset left with
    | ⟨.error error, left⟩ => ⟨.error error, closed left⟩
    | ⟨.ok _, left⟩ => ⟨.ok (), left⟩

def nextMessage (payload : Bytes) (now : Int) (log : MemoryMappedLog) : Message :=
  ⟨log.nextMessageOffset, timestampOf now, payload.length, payload⟩

def writeMessage (message : Message) (store : Store) : Store :=
  advance message (copyHeader message (copyPayload message store))

def checkAppend (payload : Bytes) (log : MemoryMappedLog) : Except LogError Unit :=
  let recordSize := recordHeaderSize + payload.length
  if log.opened = false then .error (.logicError "memory-mapped log is not open")
  else if maxU32 < payload.length then .error (.lengthError "payload exceeds the on-disk format limit")
  else if log.active.size - segmentHeaderSize < recordSize then
    .error (.lengthError "record is too large to fit in an empty segment")
  else if maxU64 - recordSize < log.nextMessageOffset then
    .error (.overflowError "message offset space is exhausted")
  else if log.active.size - recordSize < log.active.writePosition ∧ maximumSegmentId ≤ log.active.segmentId then
    .error (.overflowError "segment id space is exhausted")
  else .ok ()

def append (faults : Faults) (payload : Bytes) (now : Int) (store : Store) : Outcome Nat :=
  match checkAppend payload store.log with
  | .error error => ⟨.error error, store⟩
  | .ok _ =>
    let full := store.log.active.size - (recordHeaderSize + payload.length) < store.log.active.writePosition
    match (if full then rollOver faults store else ⟨.ok (), store⟩ : Outcome Unit) with
    | ⟨.error error, left⟩ => ⟨.error error, left⟩
    | ⟨.ok _, left⟩ =>
      ⟨.ok left.log.nextMessageOffset, writeMessage (nextMessage payload now left.log) left⟩

def flush (faults : Faults) (store : Store) : Outcome Unit :=
  let active := store.log.active
  if store.log.opened = false then ⟨.ok (), store⟩
  else if faults .flushMsync then ⟨.error (.systemError "msync" (some active.path)), store⟩
  else if faults .flushFsync then ⟨.error (.systemError "fsync" (some active.path)), store⟩
  else ⟨.ok (), { store with disk := update store.disk active.path (·.sync active.size) }⟩

def close (faults : Faults) (store : Store) : Outcome Unit :=
  let log := store.log
  if log.opened = false ∧ log.active.fdOpen = false ∧ log.active.mapped = false then ⟨.ok (), store⟩
  else
    let closing := { store with log := { log with opened := false } }
    if log.active.fdOpen then unmapActive faults true closing else ⟨.ok (), closing⟩

def getRecent (store : Store) (count : Nat) : List Message := RingBuffer.getRecent store.log.recentCache count

def segments (store : Store) : List LogSegmentInfo := store.log.segmentIndex

def nextOffset (store : Store) : Nat := store.log.nextMessageOffset

def isOpen (store : Store) : Bool := store.log.opened

end FleetGateway.Storage.Log
