import FleetGateway.Storage.Operations
import Mathlib.Data.List.ModifyLast

/-! `append`, `flush` and `close` on an open log. A record goes into the active
segment when it fits; otherwise the segment is sealed and a new one is started. -/

namespace FleetGateway.Storage.Writing
open Library Library.ByteStore Format Record Disk Scan Segment Log RingBuffer Contents Recovery Operations

def recordWrite (position : Nat) (message : Message) (file : File) : File :=
  ⟨overwrite (overwrite file.bytes (position + recordHeaderSize) message.payload) position
    (recordHeader message.offset message.timestampNs message.payload), min file.durable position⟩

theorem overwrite_nil (bytes : Bytes) (position : Nat) : overwrite bytes position [] = bytes := by
  simp [overwrite]

theorem update_update_same (disk : Directory) (name : Bytes) (first second both : File → File)
    (compose : ∀ file, second (first file) = both file) :
    SameFiles (update (update disk name first) name second) (update disk name both) := by
  intro key
  by_cases same : key = name
  · subst same
    cases found : fileAt disk key with
    | none => simp only [update, found]
    | some file =>
      have inner : update disk key first = Disk.store disk key (first file) := by simp only [update, found]
      have outer : update disk key both = Disk.store disk key (both file) := by simp only [update, found]
      rw [inner, outer]
      simp only [update, fileAt_store_self, compose]
      rw [Disk.store, AList.lookup_insert, Disk.store, AList.lookup_insert]
  · rw [lookup_update_ne _ _ _ _ same, lookup_update_ne _ _ _ _ same, lookup_update_ne _ _ _ _ same]

def advanced (message : Message) (log : MemoryMappedLog) : MemoryMappedLog :=
  { log with
    active := { log.active with writePosition := log.active.writePosition + size message }
    nextMessageOffset := log.nextMessageOffset + size message
    segmentIndex := log.segmentIndex.modifyLast fun info =>
      { info with endOffset := log.nextMessageOffset + size message
                  validBytes := log.active.writePosition + size message }
    recentCache := push log.recentCache message }

theorem writeMessage_log (message : Message) (store : Store) :
    (writeMessage message store).log = advanced message store.log := by
  unfold writeMessage advance copyHeader copyPayload copyToActive
  split_ifs
  · rfl
  · rfl

theorem writeMessage_disk (message : Message) (store : Store) :
    SameFiles (writeMessage message store).disk (update store.disk store.log.active.path
      (recordWrite store.log.active.writePosition message)) := by
  unfold writeMessage advance copyHeader copyPayload copyToActive
  split_ifs with empty
  · have change : (fun file : File => file.write store.log.active.writePosition
        (recordHeader message.offset message.timestampNs message.payload)) =
        recordWrite store.log.active.writePosition message := by
      funext file
      rw [File.write, recordWrite, empty, overwrite_nil]
    dsimp only
    rw [change]
    exact fun _ => rfl
  · apply update_update_same
    intro file
    simp only [File.write, recordWrite, File.mk.injEq, true_and]
    omega

section Live

variable {segmentSize : Nat} {store : Store} {front : List (List Message)} {current : List Message}

theorem record_disk (live : Live segmentSize store front current) (message : Message) :
    SameFiles (writeMessage message store).disk (update store.disk (segmentPath (front.length + 1))
      (recordWrite (segmentHeaderSize + totalSize current) message)) := by
  have path : store.log.active.path = segmentPath (front.length + 1) := by rw [live.active]; rfl
  have position : store.log.active.writePosition = segmentHeaderSize + totalSize current := by
    rw [live.active]; rfl
  rw [← path, ← position]
  exact writeMessage_disk message store

/-- Writing a record that fits extends the newest segment by it. -/
theorem writeMessage_live (live : Live segmentSize store front current) (message : Message)
    (canonical : Canonical message) (offset : message.offset = store.log.nextMessageOffset)
    (fits : segmentHeaderSize + totalSize current + size message ≤ segmentSize)
    (bounded : store.log.nextMessageOffset + size message ≤ maxU64) :
    Live segmentSize (writeMessage message store) front (current ++ [message]) := by
  have next := live.flatten_next
  have disk := record_disk live message
  have position : store.log.active.writePosition = segmentHeaderSize + totalSize current := by
    rw [live.active]; rfl
  refine ⟨?_, ?_, ?_, ?_, ?_, ?_, ?_⟩
  · apply Holds.congr _ disk
    apply live.holds.update_last
    · intro file found whole
      apply whole.write message
      · rw [live.extended file found]
        exact fits
      · exact ⟨by rw [offset, next], canonical, trivial⟩
    · simp only [List.flatten_append, List.flatten_singleton, totalSize_append, totalSize_cons, totalSize_nil]
      omega
  · rw [writeMessage_log]
    exact live.opened
  · rw [writeMessage_log]
    exact live.sized
  · rw [writeMessage_log]
    simp only [advanced, live.index, indexFrom_append, indexFrom, segmentInfo, List.modifyLast_concat, position,
      next, Nat.zero_add, totalSize_append, totalSize_cons, totalSize_nil, Nat.add_zero, Nat.add_assoc]
  · rw [writeMessage_log]
    simp only [advanced, next, List.flatten_append, List.flatten_singleton, totalSize_append, totalSize_cons,
      totalSize_nil, Nat.add_zero, Nat.add_assoc]
  · rw [writeMessage_log]
    simp only [advanced, live.active, mappingOf, totalSize_append, totalSize_cons, totalSize_nil, Nat.add_zero,
      Nat.add_assoc]
  · intro file found
    obtain ⟨before, present, _⟩ := live.holds.last
    rw [disk.fileAt, fileAt_update, if_pos rfl, present, Option.map_some, Option.some.injEq] at found
    have length := live.extended before present
    have header := length_recordHeader message.offset message.timestampNs message.payload
    have inner : (overwrite before.bytes (segmentHeaderSize + totalSize current + recordHeaderSize)
        message.payload).length = before.bytes.length := by
      apply length_overwrite
      simp only [size] at fits
      omega
    rw [← found, recordWrite, length_overwrite, inner, length]
    rw [header, inner, length]
    simp only [size, recordHeaderSize] at fits
    omega

def sealedDisk (segmentSize count : Nat) (disk : Directory) : Directory :=
  update disk (segmentPath count) (·.sync segmentSize)

theorem sealedDisk_holds (holds : Holds segmentSize store.disk (front ++ [current])) :
    Holds segmentSize (sealedDisk segmentSize (front.length + 1) store.disk) (front ++ [current]) :=
  holds.update_last _ current (fun _ _ whole => whole) holds.bounded

theorem unmapActive_live (faults : Faults) (log : MemoryMappedLog) (disk : Directory)
    (active : log.active = mappingOf segmentSize (front.length + 1) (totalSize front.flatten)
      (segmentHeaderSize + totalSize current)) :
    ∃ result left, unmapActive faults true ⟨log, disk⟩ =
        ⟨result, ⟨{ log with active := released log.active }, left⟩⟩ ∧
      (left = disk ∧ result ≠ .ok () ∨ left = sealedDisk segmentSize (front.length + 1) disk) ∧
      (faults = noFaults → result = .ok ()) := by
  obtain ⟨result, left, run, disks, quiet⟩ := unmapActive_spec faults true ⟨log, disk⟩
    (by rw [active]; rfl) (by rw [active]; rfl)
  refine ⟨result, left, run, ?_, quiet⟩
  rcases disks with ⟨same, failed⟩ | ⟨same, _⟩
  · exact Or.inl ⟨same, failed rfl⟩
  · refine Or.inr ?_
    rw [same, active]
    rfl

def sealedStore (segmentSize count : Nat) (store : Store) : Store :=
  ⟨{ store.log with active := released store.log.active }, sealedDisk segmentSize count store.disk⟩

theorem unmapActive_sealed (faults : Faults) {left : Store} (live : Live segmentSize store front current)
    (done : unmapActive faults true store = ⟨.ok (), left⟩) :
    left = sealedStore segmentSize (front.length + 1) store := by
  obtain ⟨result, disk, run, disks, _⟩ := unmapActive_live faults store.log store.disk live.active
  change unmapActive faults true store = _ at run
  rw [run, Outcome.mk.injEq] at done
  obtain ⟨returned, rfl⟩ := done
  rcases disks with ⟨_, failed⟩ | rfl
  · exact absurd returned failed
  · rfl

/-- A segment file with no valid header stands behind intact segments: the log stays closed. -/
structure Blocked (segmentSize : Nat) (store : Store) (contents : List (List Message)) : Prop where
  allowed : SizeAllowed segmentSize
  nonempty : contents ≠ []
  files : HoldsFrom segmentSize store.disk 0 0 contents
  listed : ∀ id, id ≤ maximumSegmentId →
    ((fileAt store.disk (segmentPath id)).isSome ↔ 1 ≤ id ∧ id ≤ contents.length + 1)
  count : contents.length + 1 ≤ maximumSegmentId
  bounded : totalSize contents.flatten ≤ maxU64
  junk : ∃ file, fileAt store.disk (segmentPath (contents.length + 1)) = some file ∧
    (file.bytes = [] ∨ file.bytes = zeros segmentSize)
  opened : store.log.opened = false
  unmapped : Unmapped store.log.active

theorem Blocked.unopened {left : Store} {contents : List (List Message)}
    (blocked : Blocked segmentSize store contents) (unopened : Unopened store left) :
    Blocked segmentSize left contents where
  allowed := blocked.allowed
  nonempty := blocked.nonempty
  files := holdsFrom_congr segmentSize store.disk left.disk 0 0 contents
    (fun id _ _ => by rw [unopened.disk.fileAt]) blocked.files
  listed := fun id bound => by rw [unopened.disk.fileAt]; exact blocked.listed id bound
  count := blocked.count
  bounded := blocked.bounded
  junk := by rw [unopened.disk.fileAt]; exact blocked.junk
  opened := unopened.opened
  unmapped := by rw [unopened.active]; exact blocked.unmapped

theorem checkSegmentHeader_zeros (expectedSize expectedId count : Nat) :
    checkSegmentHeader expectedSize expectedId (slice (zeros count) 0 segmentHeaderSize) = false := by
  rw [Bool.eq_false_iff]
  intro accepted
  simp only [checkSegmentHeader, Bool.and_eq_true, decide_eq_true_eq] at accepted
  have magic := accepted.1.1.1.1
  rw [slice_zeros, take_zeros] at magic
  have bytes : segmentMagic = 73 :: (segmentMagic.drop 1) := rfl
  have member : (73 : UInt8) ∈ zeros (min 8 (min segmentHeaderSize (count - 0))) := by
    rw [magic, bytes]
    exact List.mem_cons_self
  exact absurd (List.eq_of_mem_replicate member) (by decide)

/-- Behind such a file every later open throws. -/
theorem openLog_blocked (faults : Faults) (size capacity : Nat) {contents : List (List Message)}
    (blocked : Blocked segmentSize store contents) :
    ∃ error left, openLog faults size capacity store = ⟨.error error, left⟩ ∧ Unopened store left := by
  have listing : segmentFiles store.disk = filesFrom 0 (contents.length + 1) :=
    segmentFiles_eq store.disk _ blocked.count blocked.listed
  have count := blocked.count
  obtain ⟨junk, found, shape⟩ := blocked.junk
  have bad : junk.bytes.length < segmentHeaderSize ∨
      checkSegmentHeader segmentSize (contents.length + 1) (slice junk.bytes 0 segmentHeaderSize) = false := by
    rcases shape with empty | zero
    · exact Or.inl (by rw [empty]; decide)
    · exact Or.inr (by rw [zero]; exact checkSegmentHeader_zeros _ _ _)
  by_cases same : size = segmentSize
  · subst same
    apply openLog_fails faults size capacity store (Unopened store)
    · exact fun log opened active => ⟨opened.trans blocked.opened, active, fun _ => rfl⟩
    intro log sized opened active allowed
    rcases recoverOrCreate_front faults ⟨log, store.disk⟩ contents (filesFrom contents.length 1) allowed sized
      blocked.files blocked.bounded (by omega) (by rw [listing, filesFrom_add, Nat.zero_add]) with
      ⟨error, left, run, _, stillClosed, unmoved, same⟩ | ⟨left, same, indexes, run⟩
    · exact ⟨error, left, run, (stillClosed.trans opened).trans blocked.opened, unmoved.trans active, same⟩
    · obtain ⟨error, refused⟩ := scanSegment_refused faults (segmentPath (contents.length + 1)) true
        (totalSize contents.flatten) junk bad
      have leftSized : left.log.segmentSize = size := by rw [indexes]; exact sized
      rw [← same.fileAt] at found
      rw [run]
      simp only [mapOrCreate, filesFrom, recoverSegments, ne_eq, not_true_eq_false, ↓reduceIte, found,
        Option.getD_some, List.isEmpty_nil, leftSized, refused]
      refine ⟨error, _, rfl, ?_, ?_, ?_⟩
      · rw [indexes]; exact opened.trans blocked.opened
      · rw [indexes]; exact active
      · exact (update_same left.disk _ _ (fun other present =>
          Option.some.inj (found.symm.trans present))).trans same
  · obtain ⟨messages, rest, cons⟩ := List.exists_cons_of_ne_nil blocked.nonempty
    have files := blocked.files
    rw [cons] at files
    obtain ⟨⟨file, present, whole⟩, _⟩ := files
    exact openLog_otherSize faults size capacity store messages file _
      blocked.opened (by rw [listing]; rfl) present whole blocked.allowed same

theorem blocked_of_puts {contents : List (List Message)} {disk : Directory} {file : File}
    (holds : Holds segmentSize disk contents) (nonempty : contents ≠ [])
    (small : contents.length + 1 ≤ maximumSegmentId)
    (puts : Puts disk (segmentPath (contents.length + 1)) file store.disk)
    (junk : file.bytes = [] ∨ file.bytes = zeros segmentSize) (opened : store.log.opened = false)
    (unmapped : Unmapped store.log.active) : Blocked segmentSize store contents := by
  have apart : ∀ id, id ≤ maximumSegmentId → id ≠ contents.length + 1 →
      fileAt store.disk (segmentPath id) = fileAt disk (segmentPath id) := by
    intro id bound different
    apply puts.fileAt_ne
    intro same
    exact different (segmentPath_injective _ _ bound small same)
  refine ⟨holds.allowed, nonempty, ?_, ?_, small, holds.bounded, ⟨file, puts.here, junk⟩, opened, unmapped⟩
  · apply holdsFrom_congr segmentSize disk store.disk 0 0 contents _ holds.files
    intro id _ high
    rw [apart id (by omega) (by omega)]
  · intro id bound
    by_cases new : id = contents.length + 1
    · rw [new, puts.here]
      simp
    · rw [apart id bound new, holds.listed id bound]
      omega

theorem leftover_idle {contents : List (List Message)} {disk : Directory}
    (holds : Holds segmentSize disk contents) (small : contents.length + 1 ≤ maximumSegmentId)
    (made : store.disk = headerWritten disk segmentSize (contents.length + 1) (totalSize contents.flatten) ∨
      store.disk = headerSynced disk segmentSize (contents.length + 1) (totalSize contents.flatten))
    (opened : store.log.opened = false) (unmapped : Unmapped store.log.active) :
    Idle segmentSize store (contents ++ [[]]) := by
  have least := holds.allowed.least
  have whole := newSegment_whole segmentSize (contents.length + 1) (totalSize contents.flatten) (by omega)
  refine ⟨?_, by simp, opened, unmapped⟩
  rcases made with same | same
  · have puts := puts_headerWritten disk segmentSize (contents.length + 1) (totalSize contents.flatten)
    rw [← same] at puts
    exact holds.add _ small puts.here puts.fileAt_ne whole
  · have puts := puts_headerSynced disk segmentSize (contents.length + 1) (totalSize contents.flatten) (by omega)
    rw [← same] at puts
    exact holds.add _ small puts.here puts.fileAt_ne whole

theorem leftover_cases {contents : List (List Message)} {disk : Directory} {faults : Faults}
    (holds : Holds segmentSize disk contents) (nonempty : contents ≠ [])
    (small : contents.length + 1 ≤ maximumSegmentId)
    (leftover : Leftover segmentSize (contents.length + 1) (totalSize contents.flatten) disk store.disk)
    (tidy : faults .removeFile = false →
      store.disk = headerWritten disk segmentSize (contents.length + 1) (totalSize contents.flatten) ∨
        store.disk = headerSynced disk segmentSize (contents.length + 1) (totalSize contents.flatten))
    (opened : store.log.opened = false) (unmapped : Unmapped store.log.active) :
    Idle segmentSize store (contents ++ [[]]) ∨
      faults .removeFile = true ∧ Blocked segmentSize store contents := by
  cases removal : faults .removeFile with
  | false => exact Or.inl (leftover_idle holds small (tidy removal) opened unmapped)
  | true =>
    obtain ⟨_, same | same | made⟩ := leftover
    · have puts := puts_fileCreated disk (contents.length + 1)
      rw [← same] at puts
      exact Or.inr ⟨rfl, blocked_of_puts holds nonempty small puts (Or.inl rfl) opened unmapped⟩
    · have puts := puts_fileExtended disk segmentSize (contents.length + 1)
      rw [← same] at puts
      exact Or.inr ⟨rfl, blocked_of_puts holds nonempty small puts (Or.inr rfl) opened unmapped⟩
    · exact Or.inl (leftover_idle holds small made opened unmapped)

structure Retains (store left : Store) : Prop where
  index : left.log.segmentIndex = store.log.segmentIndex
  next : left.log.nextMessageOffset = store.log.nextMessageOffset
  recent : left.log.recentCache = store.log.recentCache

/-- The rollover succeeds, or throws and leaves the same segments, one more empty
segment, or a file that blocks every later open. -/
theorem rollOver_cases (live : Live segmentSize store front current)
    (small : front.length + 2 ≤ maximumSegmentId) (faults : Faults) :
    let sealedLog := sealedStore segmentSize (front.length + 1) store
    (rollOver faults store =
      ⟨.ok (), created (front.length + 2) (totalSize (front ++ [current]).flatten) sealedLog⟩ ∧
      Live segmentSize (created (front.length + 2) (totalSize (front ++ [current]).flatten) sealedLog)
        (front ++ [current]) []) ∨
    (∃ error left, rollOver faults store = ⟨.error error, left⟩ ∧ Retains store left ∧
      (CreationSucceeds faults → left.log.active = released store.log.active) ∧
      (Idle segmentSize left (front ++ [current]) ∧
          (left.disk = store.disk ∨ SameFiles left.disk sealedLog.disk) ∨
        ¬ CreationSucceeds faults ∧ (Idle segmentSize left (front ++ [current] ++ [[]]) ∨
          faults .removeFile = true ∧ Blocked segmentSize left (front ++ [current])))) := by
  intro sealedLog
  have least := live.holds.allowed.least
  have sized := live.sized
  have sealedHolds := sealedDisk_holds live.holds
  have count : (front ++ [current]).length + 1 = front.length + 2 := by simp
  have nonempty : front ++ [current] ≠ [] := by simp
  obtain ⟨result, disk, run, disks, _⟩ := unmapActive_live faults store.log store.disk live.active
  change unmapActive faults true store = _ at run
  unfold rollOver
  rw [run]
  cases result with
  | error error =>
    refine Or.inr ⟨error, _, rfl, ⟨rfl, rfl, rfl⟩, fun _ => rfl,
      Or.inl ⟨⟨?_, nonempty, rfl, released_unmapped _⟩, ?_⟩⟩
    · rcases disks with ⟨rfl, _⟩ | rfl
      · exact live.holds
      · exact sealedHolds
    · rcases disks with ⟨rfl, _⟩ | rfl
      · exact Or.inl rfl
      · exact Or.inr fun _ => rfl
  | ok done =>
    have same : disk = sealedDisk segmentSize (front.length + 1) store.disk := by
      rcases disks with ⟨_, failed⟩ | same
      · exact absurd rfl failed
      · exact same
    subst same
    have id : (released store.log.active).segmentId + 1 = front.length + 2 := by
      rw [live.active]
      rfl
    have call : createSegment faults ((released store.log.active).segmentId + 1) store.log.nextMessageOffset
        sealedLog = createSegment faults (front.length + 2) (totalSize (front ++ [current]).flatten) sealedLog := by
      rw [id]
      exact congrArg (fun base => createSegment faults (front.length + 2) base sealedLog) live.next
    change createSegment faults ((released store.log.active).segmentId + 1) store.log.nextMessageOffset
      ⟨{ store.log with active := released store.log.active }, sealedDisk segmentSize (front.length + 1) store.disk⟩ =
      _ at call
    dsimp only at call ⊢
    rw [call]
    rcases createSegment_cases faults (front.length + 2) (totalSize (front ++ [current]).flatten) sealedLog
      (show segmentHeaderSize ≤ store.log.segmentSize by omega) with
      ⟨made, _⟩ | ⟨error, active, disk, failed, mapping, disks, unlikely⟩
    · rw [made]
      have fresh := live_created sealedLog (front ++ [current]) sealedHolds (by rw [count]; exact small) sized
        live.opened live.index live.next
      rw [count] at fresh
      exact Or.inl ⟨rfl, fresh⟩
    · rw [failed]
      have unmapped : Unmapped active := by
        rcases mapping with rfl | unmapped
        · exact released_unmapped _
        · exact unmapped
      refine Or.inr ⟨error, _, rfl, ⟨rfl, rfl, rfl⟩, fun succeeds => (unlikely succeeds).1, ?_⟩
      rcases disks with same | ⟨leftover, tidy⟩
      · exact Or.inl ⟨⟨sealedHolds.congr same, nonempty, rfl, unmapped⟩, Or.inr same⟩
      · refine Or.inr ⟨fun succeeds => (unlikely succeeds).2 leftover.1, ?_⟩
        have sealedSize : sealedLog.log.segmentSize = segmentSize := sized
        rw [sealedSize, ← count] at leftover tidy
        exact leftover_cases sealedHolds nonempty (by rw [count]; exact small) leftover tidy rfl unmapped

/-- The test by which `append` decides to start a new segment. -/
def needsRollover (payload : Bytes) (log : MemoryMappedLog) : Prop :=
  log.active.size - (recordHeaderSize + payload.length) < log.active.writePosition

instance (payload : Bytes) (log : MemoryMappedLog) : Decidable (needsRollover payload log) :=
  inferInstanceAs (Decidable (_ < _))

theorem checkAppend_ok (live : Live segmentSize store front current) (payload : Bytes)
    (passed : checkAppend payload store.log = .ok ()) :
    payload.length ≤ maxU32 ∧ segmentHeaderSize + (recordHeaderSize + payload.length) ≤ segmentSize ∧
      store.log.nextMessageOffset + (recordHeaderSize + payload.length) ≤ maxU64 ∧
      (needsRollover payload store.log → front.length + 2 ≤ maximumSegmentId) := by
  have size : store.log.active.size = segmentSize := by rw [live.active]; rfl
  have id : store.log.active.segmentId = front.length + 1 := by rw [live.active]; rfl
  have least := live.holds.allowed.least
  unfold checkAppend at passed
  dsimp only at passed
  split at passed
  · cases passed
  split at passed
  · cases passed
  split at passed
  · cases passed
  split at passed
  · cases passed
  split at passed
  · cases passed
  next short fits bounded notLast =>
  rw [size] at fits notLast
  rw [id] at notLast
  simp only [maxU32, maxU64, recordHeaderSize, segmentHeaderSize] at *
  refine ⟨by omega, by omega, by omega, fun full => ?_⟩
  rw [needsRollover, size] at full
  simp only [recordHeaderSize] at full
  omega

theorem needsRollover_iff (live : Live segmentSize store front current) (payload : Bytes)
    (fits : segmentHeaderSize + (recordHeaderSize + payload.length) ≤ segmentSize) :
    needsRollover payload store.log ↔
      segmentSize < segmentHeaderSize + totalSize current + (recordHeaderSize + payload.length) := by
  have size : store.log.active.size = segmentSize := by rw [live.active]; rfl
  have position : store.log.active.writePosition = segmentHeaderSize + totalSize current := by
    rw [live.active]; rfl
  rw [needsRollover, size, position]
  omega

theorem timestampOf_lt (now : Int) : timestampOf now < 2 ^ 64 := by
  have low : 0 ≤ now % 2 ^ 64 := Int.emod_nonneg now (by decide)
  have high : now % 2 ^ 64 < 2 ^ 64 := Int.emod_lt_of_pos now (by decide)
  unfold timestampOf
  omega

theorem nextMessage_canonical (payload : Bytes) (now : Int) (log : MemoryMappedLog)
    (short : payload.length ≤ maxU32) (bounded : log.nextMessageOffset ≤ maxU64) :
    Canonical (nextMessage payload now log) where
  offset := by
    simp only [nextMessage, maxU64] at bounded ⊢
    omega
  timestampNs := timestampOf_lt now
  payloadLength := rfl
  payload := by
    simp only [nextMessage, maxU32] at short ⊢
    omega

/-- Every way an append can end on an open log: refused, written in place, written
behind a rollover, or thrown out of the rollover. -/
theorem append_cases (live : Live segmentSize store front current) (faults : Faults) (payload : Bytes)
    (now : Int) :
    let message := nextMessage payload now store.log
    let rolled := created (front.length + 2) (totalSize (front ++ [current]).flatten)
      (sealedStore segmentSize (front.length + 1) store)
    (∃ error, append faults payload now store = ⟨.error error, store⟩ ∧
      checkAppend payload store.log = .error error) ∨
    (checkAppend payload store.log = .ok () ∧ ¬ needsRollover payload store.log ∧
      append faults payload now store = ⟨.ok store.log.nextMessageOffset, writeMessage message store⟩ ∧
      Live segmentSize (writeMessage message store) front (current ++ [message])) ∨
    (checkAppend payload store.log = .ok () ∧ needsRollover payload store.log ∧ current ≠ [] ∧
      segmentSize < segmentHeaderSize + totalSize current + size message ∧
      ((append faults payload now store = ⟨.ok store.log.nextMessageOffset, writeMessage message rolled⟩ ∧
          Live segmentSize rolled (front ++ [current]) [] ∧
          Live segmentSize (writeMessage message rolled) (front ++ [current]) [message]) ∨
        (∃ error left, append faults payload now store = ⟨.error error, left⟩ ∧ Retains store left ∧
          (CreationSucceeds faults → left.log.active = released store.log.active) ∧
          (Idle segmentSize left (front ++ [current]) ∧ (left.disk = store.disk ∨
              SameFiles left.disk (sealedStore segmentSize (front.length + 1) store).disk) ∨
            ¬ CreationSucceeds faults ∧ (Idle segmentSize left (front ++ [current] ++ [[]]) ∨
              faults .removeFile = true ∧ Blocked segmentSize left (front ++ [current])))))) := by
  intro message rolled
  cases check : checkAppend payload store.log with
  | error error => exact Or.inl ⟨error, by simp only [append, check], rfl⟩
  | ok passed =>
    obtain ⟨short, fits, bounded, room⟩ := checkAppend_ok live payload check
    have canonical := nextMessage_canonical payload now store.log short (by omega)
    have total : size message = recordHeaderSize + payload.length := rfl
    refine Or.inr ?_
    by_cases full : needsRollover payload store.log
    · have overflow := (needsRollover_iff live payload fits).mp full
      have nonempty : current ≠ [] := by
        rintro rfl
        simp only [totalSize_nil] at overflow
        omega
      refine Or.inr ⟨rfl, full, nonempty, overflow, ?_⟩
      rcases rollOver_cases live (room full) faults with ⟨run, fresh⟩ | ⟨error, left, run, retains, active, states⟩
      · have sameNext : rolled.log.nextMessageOffset = store.log.nextMessageOffset := rfl
        refine Or.inl ⟨?_, fresh, ?_⟩
        · rw [needsRollover] at full
          simp only [append, check, if_pos full, run]
          rfl
        · apply writeMessage_live fresh message canonical sameNext.symm
          · rw [totalSize_nil, total]
            omega
          · rw [sameNext, total]
            exact bounded
      · refine Or.inr ⟨error, left, ?_, retains, active, states⟩
        rw [needsRollover] at full
        simp only [append, check, if_pos full, run]
    · have inPlace := full
      rw [needsRollover_iff live payload fits, not_lt] at inPlace
      refine Or.inl ⟨rfl, full, ?_, writeMessage_live live message canonical rfl inPlace bounded⟩
      rw [needsRollover] at full
      simp only [append, check, if_neg full]
      rfl

theorem flush_cases (live : Live segmentSize store front current) (faults : Faults) :
    (∃ error, flush faults store = ⟨.error error, store⟩ ∧ faults ≠ noFaults) ∨
    (flush faults store = ⟨.ok (), { store with
        disk := sealedDisk segmentSize (front.length + 1) store.disk }⟩ ∧
      Live segmentSize { store with disk := sealedDisk segmentSize (front.length + 1) store.disk } front current) := by
  have broken : ∀ call, faults call = true → faults ≠ noFaults := by
    rintro call failed rfl
    cases failed
  unfold flush
  dsimp only
  rw [if_neg (by rw [live.opened]; decide)]
  split
  next failed => exact Or.inl ⟨_, rfl, broken _ failed⟩
  split
  next failed => exact Or.inl ⟨_, rfl, broken _ failed⟩
  refine Or.inr ⟨by rw [live.active]; rfl, ?_⟩
  refine ⟨sealedDisk_holds live.holds, live.opened, live.sized, live.index, live.next, live.active, ?_⟩
  intro file found
  rw [sealedDisk, fileAt_update, if_pos rfl, Option.map_eq_some_iff] at found
  obtain ⟨before, present, rfl⟩ := found
  exact live.extended before present

theorem close_cases (live : Live segmentSize store front current) (faults : Faults) :
    ∃ result left, close faults store = ⟨result, left⟩ ∧ Idle segmentSize left (front ++ [current]) ∧
      left.log.segmentIndex = store.log.segmentIndex ∧
      left.log.nextMessageOffset = store.log.nextMessageOffset ∧
      left.log.active = released store.log.active ∧
      (left.disk = store.disk ∧ result ≠ .ok () ∨
        left.disk = sealedDisk segmentSize (front.length + 1) store.disk) := by
  obtain ⟨result, disk, run, disks, _⟩ := unmapActive_live faults { store.log with opened := false } store.disk
    live.active
  have fdOpen : store.log.active.fdOpen = true := by rw [live.active]; rfl
  refine ⟨result, ⟨{ store.log with opened := false, active := released store.log.active }, disk⟩, ?_,
    ⟨?_, by simp, rfl, released_unmapped _⟩, rfl, rfl, rfl, disks⟩
  · unfold close
    dsimp only
    rw [if_neg (by rw [live.opened]; simp), if_pos fdOpen]
    exact run
  · rcases disks with ⟨rfl, _⟩ | rfl
    · exact live.holds
    · exact sealedDisk_holds live.holds

end Live

theorem close_unmapped (faults : Faults) (store : Store) (opened : store.log.opened = false)
    (unmapped : Unmapped store.log.active) : close faults store = ⟨.ok (), store⟩ := by
  unfold close
  dsimp only
  rw [if_pos ⟨opened, unmapped.1, unmapped.2⟩]

theorem flush_closed (faults : Faults) (store : Store) (opened : store.log.opened = false) :
    flush faults store = ⟨.ok (), store⟩ := by
  unfold flush
  dsimp only
  rw [if_pos opened]

theorem append_closed (faults : Faults) (payload : Bytes) (now : Int) (store : Store)
    (opened : store.log.opened = false) : ∃ error, append faults payload now store = ⟨.error error, store⟩ := by
  refine ⟨.logicError "memory-mapped log is not open", ?_⟩
  simp only [append, checkAppend, opened, ↓reduceIte]

end FleetGateway.Storage.Writing
