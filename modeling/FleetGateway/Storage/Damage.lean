import FleetGateway.Storage.Writing

/-! Opening a directory whose files in front are whole and whose newest file may hold
anything, and opening one in which some file cannot be scanned. -/

namespace FleetGateway.Storage.Damage
open Library Library.ByteStore Format Record Disk Scan Segment Log RingBuffer Contents Recovery Operations

/-- Whole segments in front of one more segment file, of which nothing is known. -/
structure Newest (segmentSize : Nat) (disk : Directory) (front : List (List Message)) (file : File) : Prop where
  allowed : SizeAllowed segmentSize
  files : HoldsFrom segmentSize disk 0 0 front
  listed : ∀ id, id ≤ maximumSegmentId →
    ((fileAt disk (segmentPath id)).isSome ↔ 1 ≤ id ∧ id ≤ front.length + 1)
  count : front.length + 1 ≤ maximumSegmentId
  bounded : totalSize front.flatten ≤ maxU64
  found : fileAt disk (segmentPath (front.length + 1)) = some file

theorem indexed_append (log : MemoryMappedLog) (before base : Nat) (front back : List (List Message)) :
    indexed (indexed log before base front) (before + front.length) (base + totalSize front.flatten) back =
      indexed log before base (front ++ back) := by
  simp only [indexed, pushAll_append, indexFrom_append, List.flatten_append, List.append_assoc]

section Opening

variable {segmentSize : Nat} {disk : Directory} {front : List (List Message)} {file : File}

theorem Newest.segmentFiles (newest : Newest segmentSize disk front file) :
    segmentFiles disk = filesFrom 0 front.length ++ filesFrom front.length 1 := by
  rw [segmentFiles_eq disk _ newest.count newest.listed, filesFrom_add, Nat.zero_add]

theorem Newest.replace (newest : Newest segmentSize disk front file) (other : Directory) (next : File)
    (puts : Puts disk (segmentPath (front.length + 1)) next other) : Newest segmentSize other front next := by
  have apart : ∀ id, id ≤ maximumSegmentId → id ≠ front.length + 1 →
      fileAt other (segmentPath id) = fileAt disk (segmentPath id) := by
    intro id bound different
    apply puts.fileAt_ne
    intro same
    exact different (segmentPath_injective _ _ bound newest.count same)
  have count := newest.count
  refine ⟨newest.allowed, ?_, ?_, newest.count, newest.bounded, puts.here⟩
  · apply holdsFrom_congr segmentSize disk other 0 0 front _ newest.files
    intro id _ high
    rw [apart id (by omega) (by omega)]
  · intro id bound
    by_cases last : id = front.length + 1
    · rw [last, puts.here]
      simp
    · rw [apart id bound last]
      exact newest.listed id bound

theorem Newest.holds (newest : Newest segmentSize disk front file) (current : List Message)
    (whole : SegmentFile segmentSize (front.length + 1) (totalSize front.flatten) current file.bytes)
    (bounded : totalSize front.flatten + totalSize current ≤ maxU64) :
    Holds segmentSize disk (front ++ [current]) := by
  refine ⟨newest.allowed, ?_, ?_, ?_, ?_⟩
  · rw [holdsFrom_append, Nat.zero_add, Nat.zero_add]
    exact ⟨newest.files, ⟨file, newest.found, whole⟩, trivial⟩
  · rw [List.length_append, List.length_singleton]
    exact newest.listed
  · rw [List.length_append, List.length_singleton]
    exact newest.count
  · rw [List.flatten_append, List.flatten_singleton, totalSize_append]
    exact bounded

theorem newest_of_holds {current : List Message} (holds : Holds segmentSize disk (front ++ [current]))
    (found : fileAt disk (segmentPath (front.length + 1)) = some file) : Newest segmentSize disk front file := by
  have bounded := holds.bounded
  have listed := holds.listed
  rw [List.flatten_append, totalSize_append] at bounded
  rw [List.length_append, List.length_singleton] at listed
  exact ⟨holds.allowed, ((holdsFrom_append _ _ _ _ _ _).mp holds.files).1, listed, holds.count_lt, by omega, found⟩

/-- The scan of the newest file keeps what it accepts and leaves a whole file. -/
theorem scanSegment_newest {id base : Nat} (opens : Opens segmentSize id base file.bytes) (idBound : id < 2 ^ 32)
    (sizeBound : segmentSize < 2 ^ 64) (path : Bytes)
    (bounded : base + totalSize (scanned segmentSize base file.bytes) ≤ maxU64) :
    let messages := scanned segmentSize base file.bytes
    ∃ kept, scanSegment noFaults segmentSize id path true base file =
        ⟨messages, kept, .ok ⟨id, base, base + totalSize messages, segmentHeaderSize + totalSize messages, path⟩⟩ ∧
      SegmentFile segmentSize id base messages kept.bytes := by
  intro messages
  obtain ⟨whole, cut, _⟩ := scanSegment_eq opens idBound (by simp only [maxU64] at bounded; omega) sizeBound path
    true file.durable bounded
  cases zero : isZero (file.bytes.drop (segmentHeaderSize + totalSize messages)) with
  | true => exact ⟨_, whole zero, opens.segmentFile_of_zero zero⟩
  | false => exact ⟨_, cut zero rfl, opens.segmentFile_of_cut⟩

theorem openLog_newest (store : Store) (capacity : Nat) (newest : Newest segmentSize store.disk front file)
    (closed : store.log.opened = false) (positive : 0 < capacity)
    (opens : Opens segmentSize (front.length + 1) (totalSize front.flatten) file.bytes)
    (bounded : totalSize front.flatten +
      totalSize (scanned segmentSize (totalSize front.flatten) file.bytes) ≤ maxU64) :
    let current := scanned segmentSize (totalSize front.flatten) file.bytes
    ∃ left, openLog noFaults segmentSize capacity store = ⟨.ok (), left⟩ ∧
      Live segmentSize left front current ∧
      Keeps left.log.recentCache capacity (front ++ [current]).flatten := by
  intro current
  have count := newest.count
  obtain ⟨kept, scan, whole⟩ := scanSegment_newest opens (maximumSegmentId_lt newest.count)
    newest.allowed.bound (segmentPath (front.length + 1)) bounded
  let log := { store.log with segmentSize := segmentSize, recentCache := ofCapacity capacity }
  rcases recoverOrCreate_front noFaults ⟨log, store.disk⟩ front (filesFrom front.length 1) newest.allowed rfl
    newest.files newest.bounded (by omega) newest.segmentFiles with ⟨_, _, _, impossible, _⟩ | ⟨left, same, indexes, run⟩
  · exact absurd rfl impossible
  have found : fileAt left.disk (segmentPath (front.length + 1)) = some file := by
    rw [same.fileAt]
    exact newest.found
  have sized : left.log.segmentSize = segmentSize := by rw [indexes]; rfl
  let final : Store := ⟨indexed left.log front.length (totalSize front.flatten) [current],
    update left.disk (segmentPath (front.length + 1)) fun _ => kept⟩
  have scanned : recoverSegments noFaults front.length (filesFrom front.length 1) (totalSize front.flatten) left =
      ⟨.ok (totalSize (front ++ [current]).flatten), final⟩ := by
    simp only [filesFrom, recoverSegments, ne_eq, not_true_eq_false, ↓reduceIte, found, Option.getD_some,
      List.isEmpty_nil, sized, scan, List.flatten_append, totalSize_append, List.flatten_singleton]
    simp [final, indexed, indexFrom, segmentInfo, sized, current]
  have after : Newest segmentSize final.disk front kept := by
    apply newest.replace
    refine ⟨by rw [fileAt_update, if_pos rfl, found, Option.map_some], fun key different => ?_⟩
    rw [lookup_update_ne _ _ _ _ different, same key]
  have holds := after.holds current whole bounded
  have logs : final.log = indexed { log with nextMessageOffset := 0, segmentIndex := [] } 0 0 (front ++ [current]) := by
    have joined := indexed_append { log with nextMessageOffset := 0, segmentIndex := [] } 0 0 front [current]
    rw [Nat.zero_add, Nat.zero_add] at joined
    rw [← joined, ← indexes]
  rw [scanned] at run
  rcases mapOrCreate_cases noFaults log final front current (by rw [after.found]; rfl) logs with
    ⟨_, _, _, impossible, _⟩ | mapping
  · exact absurd rfl impossible
  rw [mapping] at run
  refine ⟨_, openLog_succeeds capacity store _ newest.allowed positive closed run, ?_, ?_⟩
  · exact live_of_recovered ⟨log, final.disk⟩ front current holds final.disk (fun _ => rfl) rfl
  · exact (keeps_ofCapacity capacity positive).pushAll (front ++ [current]).flatten

/-- A file that cannot be scanned stops recovery, whatever follows it. -/
theorem openLog_throws (store : Store) (capacity : Nat) (rest : List (Nat × Bytes))
    (allowed : SizeAllowed segmentSize) (files : HoldsFrom segmentSize store.disk 0 0 front)
    (bounded : totalSize front.flatten ≤ maxU64) (small : front.length ≤ maximumSegmentId)
    (listing : segmentFiles store.disk = filesFrom 0 front.length ++
      ((front.length + 1, segmentPath (front.length + 1)) :: rest))
    (found : fileAt store.disk (segmentPath (front.length + 1)) = some file)
    (refused : ∃ messages kept error, scanSegment noFaults segmentSize (front.length + 1)
      (segmentPath (front.length + 1)) rest.isEmpty (totalSize front.flatten) file = ⟨messages, kept, .error error⟩) :
    ∃ error, (openLog noFaults segmentSize capacity store).result = .error error := by
  obtain ⟨messages, kept, error, scan⟩ := refused
  obtain ⟨thrown, left, run, _⟩ := openLog_fails noFaults segmentSize capacity store (fun _ => True)
    (fun _ _ _ => trivial) (by
      intro log sized _ _ _
      rcases recoverOrCreate_front noFaults ⟨log, store.disk⟩ front _ allowed sized files bounded small listing with
        ⟨_, _, _, impossible, _⟩ | ⟨left, same, indexes, run⟩
      · exact absurd rfl impossible
      have here : fileAt left.disk (segmentPath (front.length + 1)) = some file := by
        rw [same.fileAt]
        exact found
      have leftSized : left.log.segmentSize = segmentSize := by rw [indexes]; exact sized
      rw [run]
      simp only [mapOrCreate, recoverSegments, ne_eq, not_true_eq_false, ↓reduceIte, here, Option.getD_some,
        leftSized, scan]
      exact ⟨error, _, rfl, trivial⟩)
  exact ⟨thrown, by rw [run]⟩

end Opening

end FleetGateway.Storage.Damage
