import FleetGateway.Storage.Recovery

/-! One description for each operation of the log. `Live` is an open log in
agreement with its directory, `Idle` a closed one over an intact directory. -/

namespace FleetGateway.Storage.Operations
open Library Library.ByteStore Format Record Disk Scan Segment Log RingBuffer Contents Recovery

def Unmapped (active : Mapping) : Prop := active.fdOpen = false ∧ active.mapped = false

def released (active : Mapping) : Mapping := { active with fdOpen := false, mapped := false, size := 0 }

theorem released_unmapped (active : Mapping) : Unmapped (released active) := ⟨rfl, rfl⟩

/-- An open log that stands at the end of `current`, behind the segments in `front`. -/
structure Live (segmentSize : Nat) (store : Store) (front : List (List Message)) (current : List Message) :
    Prop where
  holds : Holds segmentSize store.disk (front ++ [current])
  opened : store.log.opened = true
  sized : store.log.segmentSize = segmentSize
  index : store.log.segmentIndex = indexFrom 0 0 (front ++ [current])
  next : store.log.nextMessageOffset = totalSize (front ++ [current]).flatten
  active : store.log.active = mappingOf segmentSize (front.length + 1) (totalSize front.flatten)
    (segmentHeaderSize + totalSize current)
  extended : ∀ file, fileAt store.disk (segmentPath (front.length + 1)) = some file →
    file.bytes.length = segmentSize

theorem Live.flatten_next {segmentSize : Nat} {store : Store} {front : List (List Message)} {current : List Message}
    (live : Live segmentSize store front current) :
    store.log.nextMessageOffset = totalSize front.flatten + totalSize current := by
  rw [live.next, List.flatten_append, totalSize_append, List.flatten_singleton]

structure Idle (segmentSize : Nat) (store : Store) (contents : List (List Message)) : Prop where
  holds : Holds segmentSize store.disk contents
  nonempty : contents ≠ []
  opened : store.log.opened = false
  unmapped : Unmapped store.log.active

/-- The calls whose failure makes `create_segment` throw. -/
def creationCalls : List Call :=
  [.createOpen, .createTruncate, .createMmap, .headerMsync, .headerFsync, .directoryOpen, .directoryFsync]

def CreationSucceeds (faults : Faults) : Prop := ∀ call ∈ creationCalls, faults call = false

theorem puts_fileCreated (disk : Directory) (id : Nat) :
    Puts disk (segmentPath id) ⟨[], 0⟩ (fileCreated disk id) where
  here := fileAt_store_self _ _ _
  frame := fun _ different => AList.lookup_insert_ne different

theorem puts_fileExtended (disk : Directory) (segmentSize id : Nat) :
    Puts disk (segmentPath id) ⟨zeros segmentSize, 0⟩ (fileExtended disk segmentSize id) := by
  have puts := (puts_fileCreated disk id).update (·.truncate segmentSize)
  have file : File.truncate ⟨[], 0⟩ segmentSize = ⟨zeros segmentSize, 0⟩ := by simp [File.truncate, resize]
  rwa [file] at puts

def newSegment (segmentSize id base : Nat) : Bytes :=
  overwrite (zeros segmentSize) 0 (segmentHeader id base segmentSize)

theorem puts_headerWritten (disk : Directory) (segmentSize id base : Nat) :
    Puts disk (segmentPath id) ⟨newSegment segmentSize id base, 0⟩ (headerWritten disk segmentSize id base) := by
  have puts := (puts_fileExtended disk segmentSize id).update
    (·.write 0 (segmentHeader id base segmentSize))
  have file : File.write ⟨zeros segmentSize, 0⟩ 0 (segmentHeader id base segmentSize) =
      ⟨newSegment segmentSize id base, 0⟩ := by simp [File.write, newSegment]
  rwa [file] at puts

theorem newSegment_whole (segmentSize id base : Nat) (enough : segmentHeaderSize ≤ segmentSize) :
    SegmentFile segmentSize id base [] (newSegment segmentSize id base) := by
  have whole := segmentFile_created segmentSize id base enough
  rwa [resize, List.take_nil, List.nil_append, List.length_nil, Nat.sub_zero] at whole

theorem puts_headerSynced (disk : Directory) (segmentSize id base : Nat)
    (enough : segmentHeaderSize ≤ segmentSize) :
    Puts disk (segmentPath id) ⟨newSegment segmentSize id base, segmentHeaderSize⟩
      (headerSynced disk segmentSize id base) := by
  have puts := (puts_headerWritten disk segmentSize id base).update (·.sync segmentHeaderSize)
  have long := (newSegment_whole segmentSize id base enough).room
  have file : File.sync ⟨newSegment segmentSize id base, 0⟩ segmentHeaderSize =
      ⟨newSegment segmentSize id base, segmentHeaderSize⟩ := by
    simp only [File.sync, totalSize_nil, Nat.add_zero] at long ⊢
    rw [Nat.min_eq_left long, Nat.max_eq_right (Nat.zero_le _)]
  rwa [file] at puts

def Leftover (segmentSize id base : Nat) (disk other : Directory) : Prop :=
  disk.lookup (segmentPath id) = none ∧
    (other = fileCreated disk id ∨ other = fileExtended disk segmentSize id ∨
      other = headerWritten disk segmentSize id base ∨ other = headerSynced disk segmentSize id base)

def created (id base : Nat) (store : Store) : Store where
  log := { store.log with
    active := mappingOf store.log.segmentSize id base segmentHeaderSize
    segmentIndex := store.log.segmentIndex ++ [segmentInfo id base []] }
  disk := headerSynced store.disk store.log.segmentSize id base

theorem created_disk (id base : Nat) (store : Store) :
    (created id base store).disk = headerSynced store.disk store.log.segmentSize id base := by
  rw [created]

theorem unmapActive_spec (faults : Faults) (sync : Bool) (store : Store)
    (fdOpen : store.log.active.fdOpen = true) (mapped : store.log.active.mapped = true) :
    ∃ result disk, unmapActive faults sync store =
        ⟨result, ⟨{ store.log with active := released store.log.active }, disk⟩⟩ ∧
      (disk = store.disk ∧ (sync = true → result ≠ .ok ()) ∨
        disk = update store.disk store.log.active.path (·.sync store.log.active.size) ∧ sync = true) ∧
      (faults = noFaults → result = .ok ()) := by
  simp only [unmapActive, fdOpen, mapped, Bool.true_and]
  cases sync with
  | false =>
    simp only [Bool.false_and, Bool.false_eq_true, ↓reduceIte, Bool.false_or]
    split_ifs with failed
    · refine ⟨_, _, rfl, Or.inl ⟨rfl, by simp⟩, ?_⟩
      rintro rfl
      simp [noFaults] at failed
    · exact ⟨_, _, rfl, Or.inl ⟨rfl, by simp⟩, fun _ => rfl⟩
  | true =>
    simp only [Bool.true_and]
    split_ifs with failed synced synced
    · refine ⟨_, _, rfl, Or.inr ⟨rfl, trivial⟩, ?_⟩
      rintro rfl
      simp [noFaults] at failed
    · refine ⟨_, _, rfl, Or.inl ⟨rfl, by simp⟩, ?_⟩
      rintro rfl
      simp [noFaults] at failed
    · exact ⟨_, _, rfl, Or.inr ⟨rfl, trivial⟩, fun _ => rfl⟩
    · simp only [Bool.or_eq_true, not_or, Bool.not_eq_true] at failed
      simp [failed.1.1.1, failed.1.2] at synced

private theorem discardFile_cases (faults : Faults) (path : Bytes) (error : LogError) (log : MemoryMappedLog)
    (left disk : Directory) (file : File) (puts : Puts disk path file left) (absent : disk.lookup path = none) :
    ∃ thrown other, discardFile faults path error ⟨log, left⟩ = ⟨.error thrown, ⟨log, other⟩⟩ ∧
      (SameFiles other disk ∨ other = left ∧ faults .removeFile = true) := by
  unfold discardFile
  split_ifs with failed
  · exact ⟨_, _, rfl, Or.inr ⟨rfl, failed⟩⟩
  · refine ⟨_, _, rfl, Or.inl ?_⟩
    intro name
    by_cases same : name = path
    · rw [same, AList.lookup_erase, absent]
    · rw [AList.lookup_erase_ne same, puts.frame name same]

private theorem abandonSegment_cases (faults : Faults) (path : Bytes) (error : LogError) (log : MemoryMappedLog)
    (left disk : Directory) (file : File) (puts : Puts disk path file left) (absent : disk.lookup path = none)
    (fdOpen : log.active.fdOpen = true) (mapped : log.active.mapped = true) :
    ∃ thrown other, abandonSegment faults path error ⟨log, left⟩ =
        ⟨.error thrown, ⟨{ log with active := released log.active }, other⟩⟩ ∧
      (SameFiles other disk ∨ other = left) := by
  obtain ⟨result, after, run, disks, _⟩ := unmapActive_spec faults false ⟨log, left⟩ fdOpen mapped
  have kept : after = left := by
    rcases disks with ⟨same, _⟩ | ⟨_, impossible⟩
    · exact same
    · cases impossible
  rw [kept] at run
  rw [abandonSegment, run]
  cases result with
  | error thrown => exact ⟨thrown, left, rfl, Or.inr rfl⟩
  | ok done =>
    obtain ⟨thrown, other, run, disks⟩ := discardFile_cases faults path error
      { log with active := released log.active } left disk file puts absent
    exact ⟨thrown, other, run, disks.imp_right And.left⟩

/-- A creation goes through, or throws over an unmapped object. When the removal of the
new file works, only a file with its whole header may stay. -/
theorem createSegment_cases (faults : Faults) (id base : Nat) (store : Store)
    (enough : segmentHeaderSize ≤ store.log.segmentSize) :
    (createSegment faults id base store = ⟨.ok (), created id base store⟩ ∧
      store.disk.lookup (segmentPath id) = none ∧ CreationSucceeds faults) ∨
    (∃ error active disk, createSegment faults id base store =
        ⟨.error error, ⟨{ store.log with active := active }, disk⟩⟩ ∧
      (active = store.log.active ∨ Unmapped active) ∧
      (SameFiles disk store.disk ∨ Leftover store.log.segmentSize id base store.disk disk ∧
        (faults .removeFile = false → disk = headerWritten store.disk store.log.segmentSize id base ∨
          disk = headerSynced store.disk store.log.segmentSize id base)) ∧
      (CreationSucceeds faults → active = store.log.active ∧ store.disk.lookup (segmentPath id) ≠ none)) := by
  have written := puts_headerWritten store.disk store.log.segmentSize id base
  have synced := puts_headerSynced store.disk store.log.segmentSize id base enough
  unfold createSegment
  dsimp only
  split
  next taken =>
    refine Or.inr ⟨_, store.log.active, store.disk, rfl, Or.inl rfl, Or.inl fun _ => rfl, ?_⟩
    refine fun succeeds => ⟨rfl, fun absent => ?_⟩
    rw [absent, succeeds .createOpen (by simp [creationCalls])] at taken
    simp at taken
  next free =>
  rw [not_or] at free
  have absent : store.disk.lookup (segmentPath id) = none := by
    simpa using free.1
  have broken : ∀ call ∈ creationCalls, faults call = true → ∀ active : Mapping, CreationSucceeds faults →
      active = store.log.active ∧ store.disk.lookup (segmentPath id) ≠ none := by
    intro call member failed active succeeds
    rw [succeeds call member] at failed
    cases failed
  split
  next failed =>
    obtain ⟨error, disk, run, disks⟩ := discardFile_cases faults (segmentPath id)
      (.systemError "ftruncate" (some (segmentPath id))) store.log (fileCreated store.disk id) store.disk _
      (puts_fileCreated store.disk id) absent
    refine Or.inr ⟨error, store.log.active, disk, run, Or.inl rfl, ?_, broken _ (by simp [creationCalls]) failed _⟩
    exact disks.imp_right fun ⟨same, stuck⟩ => ⟨⟨absent, Or.inl same⟩, by simp [stuck]⟩
  split
  next failed =>
    obtain ⟨error, disk, run, disks⟩ := discardFile_cases faults (segmentPath id)
      (.systemError "mmap" (some (segmentPath id))) store.log
      (fileExtended store.disk store.log.segmentSize id) store.disk _
      (puts_fileExtended store.disk store.log.segmentSize id) absent
    refine Or.inr ⟨error, store.log.active, disk, run, Or.inl rfl, ?_, broken _ (by simp [creationCalls]) failed _⟩
    exact disks.imp_right fun ⟨same, stuck⟩ => ⟨⟨absent, Or.inr (Or.inl same)⟩, by simp [stuck]⟩
  split
  next failed =>
    obtain ⟨error, disk, run, disks⟩ := abandonSegment_cases faults (segmentPath id)
      (.systemError "persist segment header" (some (segmentPath id)))
      { store.log with active := mappingOf store.log.segmentSize id base segmentHeaderSize }
      (headerWritten store.disk store.log.segmentSize id base) store.disk _ written absent rfl rfl
    refine Or.inr ⟨error, _, disk, run, Or.inr (released_unmapped _), ?_, ?_⟩
    · exact disks.imp_right fun same => ⟨⟨absent, Or.inr (Or.inr (Or.inl same))⟩, fun _ => Or.inl same⟩
    · rcases failed with failed | failed
      · exact broken _ (by simp [creationCalls]) failed _
      · exact broken _ (by simp [creationCalls]) failed _
  have afterSync : ∀ error, ∃ thrown active disk, abandonSegment faults (segmentPath id) error
      ⟨{ store.log with active := mappingOf store.log.segmentSize id base segmentHeaderSize },
        headerSynced store.disk store.log.segmentSize id base⟩ =
        ⟨.error thrown, ⟨{ store.log with active := active }, disk⟩⟩ ∧
      (active = store.log.active ∨ Unmapped active) ∧
      (SameFiles disk store.disk ∨ Leftover store.log.segmentSize id base store.disk disk ∧
        (faults .removeFile = false → disk = headerWritten store.disk store.log.segmentSize id base ∨
          disk = headerSynced store.disk store.log.segmentSize id base)) := by
    intro error
    obtain ⟨thrown, disk, run, disks⟩ := abandonSegment_cases faults (segmentPath id) error
      { store.log with active := mappingOf store.log.segmentSize id base segmentHeaderSize }
      (headerSynced store.disk store.log.segmentSize id base) store.disk _ synced absent rfl rfl
    exact ⟨thrown, _, disk, run, Or.inr (released_unmapped _),
      disks.imp_right fun same => ⟨⟨absent, Or.inr (Or.inr (Or.inr same))⟩, fun _ => Or.inr same⟩⟩
  split
  next failed =>
    obtain ⟨error, active, disk, run, unmapped, disks⟩ := afterSync (.systemError "open directory" none)
    exact Or.inr ⟨error, active, disk, run, unmapped, disks, broken _ (by simp [creationCalls]) failed _⟩
  split
  next failed =>
    obtain ⟨error, active, disk, run, unmapped, disks⟩ := afterSync (.systemError "fsync directory" none)
    exact Or.inr ⟨error, active, disk, run, unmapped, disks, broken _ (by simp [creationCalls]) failed _⟩
  next truncated mapped persisted directory listed =>
  rw [not_or] at persisted
  refine Or.inl ⟨rfl, absent, fun call member => Bool.eq_false_of_not_eq_true ?_⟩
  simp only [creationCalls, List.mem_cons, List.not_mem_nil, or_false] at member
  rcases member with rfl | rfl | rfl | rfl | rfl | rfl | rfl
  · exact free.2
  · exact truncated
  · exact mapped
  · exact persisted.1
  · exact persisted.2
  · exact directory
  · exact listed

def Extended (segmentSize count : Nat) (disk other : Directory) : Prop :=
  SameFiles other disk ∨
    ∃ middle, SameFiles middle disk ∧ other = update middle (segmentPath count) (·.truncate segmentSize)

theorem holds_extended {segmentSize : Nat} {disk other : Directory} {contents : List (List Message)}
    (holds : Holds segmentSize disk contents) (nonempty : contents ≠ [])
    (extended : Extended segmentSize contents.length disk other) : Holds segmentSize other contents := by
  rcases extended with same | ⟨middle, same, rfl⟩
  · exact holds.congr same
  · obtain ⟨front, current, rfl⟩ := (List.eq_nil_or_concat' contents).resolve_left nonempty
    rw [List.length_append, List.length_singleton]
    exact (holds.congr same).update_last _ current (fun file _ whole => whole.extend) holds.bounded

def recovered (log : MemoryMappedLog) (front : List (List Message)) (current : List Message) : MemoryMappedLog :=
  { log with
    nextMessageOffset := totalSize (front ++ [current]).flatten
    segmentIndex := indexFrom 0 0 (front ++ [current])
    recentCache := pushAll log.recentCache (front ++ [current]).flatten
    active := mappingOf log.segmentSize (front.length + 1) (totalSize front.flatten)
      (segmentHeaderSize + totalSize current) }

theorem mapActiveSegment_cases (faults : Faults) (id base position : Nat) (store : Store)
    (present : (fileAt store.disk (segmentPath id)).isSome) :
    let extended := update store.disk (segmentPath id) (·.truncate store.log.segmentSize)
    (∃ error disk, mapActiveSegment faults id base position store = ⟨.error error, { store with disk := disk }⟩ ∧
      faults ≠ noFaults ∧ (disk = store.disk ∨ disk = extended)) ∨
    mapActiveSegment faults id base position store = ⟨.ok (), ⟨{ store.log with
      active := mappingOf store.log.segmentSize id base position }, extended⟩⟩ := by
  intro extended
  have broken : ∀ call, faults call = true → faults ≠ noFaults := by
    rintro call failed rfl
    cases failed
  unfold mapActiveSegment
  dsimp only
  split
  next closed =>
    rcases closed with absent | failed
    · rw [absent] at present
      cases present
    · exact Or.inl ⟨_, _, rfl, broken _ failed, Or.inl rfl⟩
  split
  next failed => exact Or.inl ⟨_, _, rfl, broken _ failed, Or.inl rfl⟩
  split
  next failed => exact Or.inl ⟨_, _, rfl, broken _ failed, Or.inr rfl⟩
  exact Or.inr rfl

theorem getLast?_indexFrom (before base : Nat) (front : List (List Message)) (current : List Message) :
    (indexFrom before base (front ++ [current])).getLast? =
      some (segmentInfo (before + front.length + 1) (base + totalSize front.flatten) current) := by
  simp [indexFrom_append, indexFrom]

section Opening

variable {segmentSize : Nat}

theorem recoverOrCreate_front (faults : Faults) (start : Store) (contents : List (List Message))
    (rest : List (Nat × Bytes)) (allowed : SizeAllowed segmentSize) (sized : start.log.segmentSize = segmentSize)
    (holds : HoldsFrom segmentSize start.disk 0 0 contents) (bounded : totalSize contents.flatten ≤ maxU64)
    (small : contents.length ≤ maximumSegmentId)
    (listing : segmentFiles start.disk = filesFrom 0 contents.length ++ rest) :
    (∃ error left, recoverOrCreate faults start = ⟨.error error, left⟩ ∧ faults ≠ noFaults ∧
      left.log.opened = start.log.opened ∧ left.log.active = start.log.active ∧ SameFiles left.disk start.disk) ∨
    (∃ left, SameFiles left.disk start.disk ∧
      left.log = indexed { start.log with nextMessageOffset := 0, segmentIndex := [] } 0 0 contents ∧
      recoverOrCreate faults start =
        mapOrCreate faults (recoverSegments faults contents.length rest (totalSize contents.flatten) left)) := by
  unfold recoverOrCreate
  dsimp only
  split
  next failed =>
    refine Or.inl ⟨_, start, rfl, ?_, rfl, rfl, fun _ => rfl⟩
    rintro rfl
    cases failed
  have scan := recoverSegments_holds faults contents 0 0 rest
    { start with log := { start.log with nextMessageOffset := 0, segmentIndex := [] } } allowed sized holds
    (by rw [Nat.zero_add]; exact bounded) (by rw [Nat.zero_add]; exact small)
  rw [listing]
  rcases scan with ⟨error, left, run, faulty, same, cache, index, touched⟩ | ⟨left, run, same, log⟩
  · rw [run]
    refine Or.inl ⟨error, left, rfl, faulty, ?_, ?_, same⟩
    · rw [touched]
    · rw [touched]
  · rw [Nat.zero_add, Nat.zero_add] at run
    exact Or.inr ⟨left, same, log, by rw [run]⟩

theorem mapOrCreate_cases (faults : Faults) (log : MemoryMappedLog) (left : Store)
    (front : List (List Message)) (current : List Message)
    (present : (fileAt left.disk (segmentPath (front.length + 1))).isSome)
    (indexes : left.log =
      indexed { log with nextMessageOffset := 0, segmentIndex := [] } 0 0 (front ++ [current])) :
    let extended := update left.disk (segmentPath (front.length + 1)) (·.truncate log.segmentSize)
    (∃ error disk, mapOrCreate faults ⟨.ok (totalSize (front ++ [current]).flatten), left⟩ =
        ⟨.error error, ⟨{ left.log with nextMessageOffset := totalSize (front ++ [current]).flatten }, disk⟩⟩ ∧
      faults ≠ noFaults ∧ (disk = left.disk ∨ disk = extended)) ∨
    mapOrCreate faults ⟨.ok (totalSize (front ++ [current]).flatten), left⟩ =
      ⟨.ok (), ⟨recovered log front current, extended⟩⟩ := by
  intro extended
  have last : left.log.segmentIndex.getLast? =
      some (segmentInfo (front.length + 1) (totalSize front.flatten) current) := by
    have known := getLast?_indexFrom 0 0 front current
    rw [Nat.zero_add, Nat.zero_add] at known
    rw [indexes, ← known]
    rfl
  have kept : left.log.segmentSize = log.segmentSize := by rw [indexes]; rfl
  rw [mapOrCreate]
  dsimp only
  rw [last, segmentInfo]
  dsimp only
  rcases mapActiveSegment_cases faults (front.length + 1) (totalSize front.flatten)
    (segmentHeaderSize + totalSize current)
    { left with log := { left.log with nextMessageOffset := totalSize (front ++ [current]).flatten } }
    present with ⟨error, disk, mapping, faulty, disks⟩ | mapping
  · refine Or.inl ⟨error, disk, mapping, faulty, disks.imp_right fun same => same.trans ?_⟩
    dsimp only
    rw [kept]
  · refine Or.inr ?_
    rw [mapping, indexes]
    rfl

/-- Recovery of an intact directory: the mapped newest segment, or a fault. -/
theorem recoverOrCreate_holds (faults : Faults) (store : Store) (front : List (List Message))
    (current : List Message) (holds : Holds segmentSize store.disk (front ++ [current]))
    (sized : store.log.segmentSize = segmentSize) :
    (∃ error left, recoverOrCreate faults store = ⟨.error error, left⟩ ∧ faults ≠ noFaults ∧
      left.log.active = store.log.active ∧ left.log.opened = store.log.opened ∧
      Extended segmentSize (front.length + 1) store.disk left.disk) ∨
    (∃ middle, SameFiles middle store.disk ∧ recoverOrCreate faults store = ⟨.ok (),
      ⟨recovered store.log front current,
        update middle (segmentPath (front.length + 1)) (·.truncate segmentSize)⟩⟩) := by
  rcases recoverOrCreate_front faults store (front ++ [current]) [] holds.allowed sized holds.files holds.bounded
    holds.count (by rw [List.append_nil, holds.segmentFiles]) with
    ⟨error, left, run, faulty, opened, active, same⟩ | ⟨left, same, log, run⟩
  · exact Or.inl ⟨error, left, run, faulty, active, opened, Or.inl same⟩
  rw [run, recoverSegments]
  have present : (fileAt left.disk (segmentPath (front.length + 1))).isSome := by
    obtain ⟨file, found, _⟩ := holds.last
    rw [same.fileAt, found]
    rfl
  rcases mapOrCreate_cases faults store.log left front current present log with
    ⟨error, disk, mapping, faulty, disks⟩ | mapping
  · refine Or.inl ⟨error, _, mapping, faulty, by rw [log]; rfl, by rw [log]; rfl, ?_⟩
    rcases disks with rfl | rfl
    · exact Or.inl same
    · exact Or.inr ⟨left.disk, same, by rw [sized]⟩
  · rw [sized] at mapping
    exact Or.inr ⟨left.disk, same, mapping⟩

theorem live_of_recovered (store : Store) (front : List (List Message)) (current : List Message)
    (holds : Holds segmentSize store.disk (front ++ [current])) (middle : Directory)
    (same : SameFiles middle store.disk) (sized : store.log.segmentSize = segmentSize) :
    Live segmentSize ⟨{ recovered store.log front current with opened := true },
      update middle (segmentPath (front.length + 1)) (·.truncate segmentSize)⟩ front current where
  holds := (holds.congr same).update_last _ current (fun file _ whole => whole.extend) holds.bounded
  opened := rfl
  sized := sized
  index := rfl
  next := rfl
  active := by rw [← sized]; rfl
  extended := by
    intro file found
    rw [fileAt_update, if_pos rfl, Option.map_eq_some_iff] at found
    obtain ⟨before, _, rfl⟩ := found
    exact length_resize _ _

/-- Opening an intact directory with its own segment size succeeds unless a call
fails or the capacity is zero; in the latter case nothing is touched. -/
theorem openLog_idle (faults : Faults) (capacity : Nat) (store : Store) (front : List (List Message))
    (current : List Message) (idle : Idle segmentSize store (front ++ [current])) :
    (∃ error left, openLog faults segmentSize capacity store = ⟨.error error, left⟩ ∧
      Idle segmentSize left (front ++ [current]) ∧ left.log.active = store.log.active ∧
      Extended segmentSize (front.length + 1) store.disk left.disk ∧
      (faults = noFaults → capacity = 0 ∧ left = store)) ∨
    (∃ left, openLog faults segmentSize capacity store = ⟨.ok (), left⟩ ∧ Live segmentSize left front current ∧
      Keeps left.log.recentCache capacity (front ++ [current]).flatten ∧
      Extended segmentSize (front.length + 1) store.disk left.disk) := by
  unfold openLog
  rw [if_neg (by rw [idle.opened]; decide), if_neg idle.holds.allowed.accepted]
  split
  next zero =>
    exact Or.inl ⟨_, store, rfl, idle, rfl, Or.inl fun _ => rfl, fun _ => ⟨zero, rfl⟩⟩
  next positive =>
  dsimp only
  split
  next failed =>
    refine Or.inl ⟨_, _, rfl, ⟨idle.holds, idle.nonempty, idle.opened, idle.unmapped⟩, rfl,
      Or.inl fun _ => rfl, ?_⟩
    rintro rfl
    cases failed
  rcases recoverOrCreate_holds faults
    { store with log := { store.log with segmentSize := segmentSize, recentCache := ofCapacity capacity } }
    front current idle.holds rfl with ⟨error, left, run, faulty, active, opened, extended⟩ | ⟨middle, same, run⟩
  · rw [run]
    refine Or.inl ⟨error, left, rfl, ⟨?_, idle.nonempty, ?_, ?_⟩, active, extended,
      fun quiet => absurd quiet faulty⟩
    · exact holds_extended idle.holds idle.nonempty (by simpa using extended)
    · rw [opened]; exact idle.opened
    · rw [active]; exact idle.unmapped
  · rw [run]
    refine Or.inr ⟨_, rfl, ?_, ?_, Or.inr ⟨middle, same, rfl⟩⟩
    · exact live_of_recovered
        { store with log := { store.log with segmentSize := segmentSize, recentCache := ofCapacity capacity } }
        front current idle.holds middle same rfl
    · exact (keeps_ofCapacity capacity (by omega)).pushAll (front ++ [current]).flatten

theorem holds_created {contents : List (List Message)} {disk : Directory}
    (holds : Holds segmentSize disk contents) (small : contents.length + 1 ≤ maximumSegmentId) :
    Holds segmentSize (headerSynced disk segmentSize (contents.length + 1) (totalSize contents.flatten))
      (contents ++ [[]]) := by
  have least := holds.allowed.least
  have puts := puts_headerSynced disk segmentSize (contents.length + 1) (totalSize contents.flatten) (by omega)
  exact holds.add _ small puts.here puts.fileAt_ne (newSegment_whole _ _ _ (by omega))

theorem length_headerSynced {id base : Nat} {disk : Directory} (enough : segmentHeaderSize ≤ segmentSize)
    (file : File) (found : fileAt (headerSynced disk segmentSize id base) (segmentPath id) = some file) :
    file.bytes.length = segmentSize := by
  have puts := puts_headerSynced disk segmentSize id base enough
  rw [puts.here, Option.some.injEq] at found
  rw [← found]
  have fits : 0 + (segmentHeader id base segmentSize).length ≤ (zeros segmentSize).length := by
    rw [Nat.zero_add, length_segmentHeader, length_zeros]
    exact enough
  rw [newSegment, length_overwrite _ _ _ fits, length_zeros]

theorem live_created (store : Store) (contents : List (List Message))
    (holds : Holds segmentSize store.disk contents) (small : contents.length + 1 ≤ maximumSegmentId)
    (sized : store.log.segmentSize = segmentSize) (opened : store.log.opened = true)
    (index : store.log.segmentIndex = indexFrom 0 0 contents)
    (next : store.log.nextMessageOffset = totalSize contents.flatten) :
    Live segmentSize (created (contents.length + 1) (totalSize contents.flatten) store) contents [] where
  holds := by
    rw [created_disk, sized]
    exact holds_created holds small
  opened := opened
  sized := sized
  index := by
    rw [created, index, indexFrom_append, Nat.zero_add, Nat.zero_add]
    rfl
  next := by
    rw [created, next, List.flatten_append, totalSize_append]
    rfl
  active := by
    rw [created, sized]
    rfl
  extended := by
    intro file found
    have least := holds.allowed.least
    rw [created_disk, sized] at found
    exact length_headerSynced (by omega) file found

theorem recoverSegments_holdsAll (faults : Faults) (store left : Store) (expected : Nat)
    (allowed : SizeAllowed segmentSize) (sized : store.log.segmentSize = segmentSize)
    (run : recoverSegments faults 0 (segmentFiles store.disk) 0 store = ⟨.ok expected, left⟩) :
    ∃ contents, Holds segmentSize left.disk contents ∧ expected = totalSize contents.flatten ∧
      left.log = indexed store.log 0 0 contents ∧
      contents.flatten = acceptedMessages segmentSize store.disk (segmentFiles store.disk) 0 := by
  obtain ⟨contents, files, total, bound, log, holds, accepted, _, presence⟩ := recoverSegments_sound faults
    store.disk (segmentFiles store.disk) 0 0 store left expected allowed sized (Nat.zero_le _)
    (fun id name member => by
      obtain ⟨parsed, present⟩ := (mem_segmentFiles store.disk id name).mp member
      exact ⟨parsed, present, rfl⟩) (segmentFiles_nodup store.disk) run
  have inRange : ∀ id, (id, segmentPath id) ∈ segmentFiles store.disk ↔ 1 ≤ id ∧ id ≤ contents.length := by
    intro id
    rw [files, mem_filesFrom, Nat.zero_add]
    exact ⟨fun range => ⟨range.1, range.2.1⟩, fun range => ⟨range.1, range.2, rfl⟩⟩
  have count : contents.length ≤ maximumSegmentId := by
    by_cases zero : contents.length = 0
    · omega
    · have member := (inRange contents.length).mpr (by omega)
      exact (segmentPath_of_parse _ _ ((mem_segmentFiles _ _ _).mp member).1).2
  rw [Nat.zero_add] at total
  refine ⟨contents, ⟨allowed, holds, ?_, count, total ▸ bound⟩, total, log, accepted⟩
  intro id small
  rw [presence, ← inRange id, mem_segmentFiles, parseSegmentId_segmentPath id small]
  simp

/-- A recovery that succeeds on any directory maps the newest whole segment, or the
first segment of an empty log. -/
theorem recoverOrCreate_sound (faults : Faults) (store left : Store) (allowed : SizeAllowed segmentSize)
    (sized : store.log.segmentSize = segmentSize) (run : recoverOrCreate faults store = ⟨.ok (), left⟩) :
    ∃ front current, Live segmentSize { left with log := { left.log with opened := true } } front current ∧
      left.log.recentCache = pushAll store.log.recentCache (front ++ [current]).flatten ∧
      (front ++ [current]).flatten = acceptedMessages segmentSize store.disk (segmentFiles store.disk) 0 := by
  subst sized
  have least := allowed.least
  unfold recoverOrCreate at run
  dsimp only at run
  split at run
  · cases run
  cases scan : recoverSegments faults 0 (segmentFiles store.disk) 0
    { store with log := { store.log with nextMessageOffset := 0, segmentIndex := [] } } with | mk result middle =>
  rw [scan] at run
  cases result with
  | error error => cases run
  | ok expected =>
  obtain ⟨contents, holds, total, log, accepted⟩ := recoverSegments_holdsAll faults
    { store with log := { store.log with nextMessageOffset := 0, segmentIndex := [] } } middle expected allowed
    rfl scan
  have index : middle.log.segmentIndex = indexFrom 0 0 contents := by rw [log]; rfl
  have kept : middle.log.segmentSize = store.log.segmentSize := by rw [log]; rfl
  have cache : middle.log.recentCache = pushAll store.log.recentCache contents.flatten := by rw [log]; rfl
  rcases List.eq_nil_or_concat' contents with rfl | ⟨front, current, rfl⟩
  · have last : middle.log.segmentIndex.getLast? = none := by rw [index]; rfl
    rw [mapOrCreate] at run
    dsimp only at run
    rw [last] at run
    dsimp only at run
    generalize startEq : ({ middle with log := { middle.log with nextMessageOffset := expected } } : Store) = start
      at run
    have sized : start.log.segmentSize = store.log.segmentSize := by rw [← startEq]; exact kept
    have disk : start.disk = middle.disk := by rw [← startEq]
    rcases createSegment_cases faults 1 0 start (by rw [sized]; omega) with ⟨made, _⟩ | ⟨error, _, _, failed, _⟩
    · rw [made, Outcome.mk.injEq] at run
      obtain ⟨_, rfl⟩ := run
      have live := live_created { start with log := { start.log with opened := true } } []
        (disk ▸ holds) (by decide) sized rfl (by rw [← startEq]; exact index) (by rw [← startEq]; exact total)
      rw [List.length_nil, Nat.zero_add, List.flatten_nil, totalSize_nil] at live
      refine ⟨[], [], live, ?_, accepted⟩
      rw [created, ← startEq]
      exact cache
    · rw [failed, Outcome.mk.injEq] at run
      cases run.1
  · have present : (fileAt middle.disk (segmentPath (front.length + 1))).isSome := by
      obtain ⟨file, found, _⟩ := holds.last
      rw [found]
      rfl
    rcases mapOrCreate_cases faults store.log middle front current present log with
      ⟨error, _, failed, _⟩ | mapping
    · rw [total] at run
      rw [failed, Outcome.mk.injEq] at run
      cases run.1
    · rw [total] at run
      rw [mapping, Outcome.mk.injEq] at run
      obtain ⟨_, rfl⟩ := run
      exact ⟨front, current, live_of_recovered ⟨store.log, middle.disk⟩ front current holds middle.disk
        (fun _ => rfl) rfl, rfl, accepted⟩

theorem openLog_sound (faults : Faults) (capacity : Nat) (store left : Store)
    (run : openLog faults segmentSize capacity store = ⟨.ok (), left⟩) :
    ∃ front current, Live segmentSize left front current ∧
      Keeps left.log.recentCache capacity (front ++ [current]).flatten ∧
      (front ++ [current]).flatten = acceptedMessages segmentSize store.disk (segmentFiles store.disk) 0 := by
  unfold openLog at run
  split at run
  · cases run
  split at run
  · cases run
  next sizes =>
  have allowed : SizeAllowed segmentSize := ⟨by omega, by omega⟩
  split at run
  · cases run
  next positive =>
  dsimp only at run
  split at run
  · cases run
  split at run
  · cases run
  next middle recovery =>
  rw [Outcome.mk.injEq] at run
  obtain ⟨_, rfl⟩ := run
  obtain ⟨front, current, live, cache, accepted⟩ := recoverOrCreate_sound faults
    { store with log := { store.log with segmentSize := segmentSize, recentCache := ofCapacity capacity } }
    middle allowed rfl recovery
  refine ⟨front, current, live, ?_, accepted⟩
  rw [cache]
  exact (keeps_ofCapacity capacity (by omega)).pushAll (front ++ [current]).flatten

private theorem checkSegmentHeader_otherSize {id base other : Nat} {messages : List Message} {bytes : Bytes}
    (whole : SegmentFile segmentSize id base messages bytes) (allowed : SizeAllowed segmentSize)
    (different : other ≠ segmentSize) (idBound : id < 2 ^ 32) (baseBound : base < 2 ^ 64) :
    checkSegmentHeader other id (slice bytes 0 segmentHeaderSize) = false := by
  have stored := (whole.opens.checks idBound baseBound allowed.bound).1
  rw [Bool.eq_false_iff]
  intro accepted
  simp only [checkSegmentHeader, Bool.and_eq_true, decide_eq_true_eq] at stored accepted
  exact different (accepted.1.2.symm.trans stored.1.2)

structure Unopened (store left : Store) : Prop where
  opened : left.log.opened = false
  active : left.log.active = store.log.active
  disk : SameFiles left.disk store.disk

theorem openLog_fails (faults : Faults) (size capacity : Nat) (store : Store) (leaves : Store → Prop)
    (early : ∀ log : MemoryMappedLog, log.opened = store.log.opened → log.active = store.log.active →
      leaves ⟨log, store.disk⟩)
    (recovery : ∀ log : MemoryMappedLog, log.segmentSize = size → log.opened = store.log.opened →
      log.active = store.log.active → SizeAllowed size →
      ∃ error left, recoverOrCreate faults ⟨log, store.disk⟩ = ⟨.error error, left⟩ ∧ leaves left) :
    ∃ error left, openLog faults size capacity store = ⟨.error error, left⟩ ∧ leaves left := by
  unfold openLog
  split
  · exact ⟨_, _, rfl, early _ rfl rfl⟩
  split
  · exact ⟨_, _, rfl, early _ rfl rfl⟩
  next sizes =>
  have allowed : SizeAllowed size := ⟨by omega, by omega⟩
  split
  · exact ⟨_, _, rfl, early _ rfl rfl⟩
  dsimp only
  split
  · exact ⟨_, _, rfl, early _ rfl rfl⟩
  obtain ⟨error, left, run, kept⟩ := recovery
    { store.log with segmentSize := size, recentCache := ofCapacity capacity } rfl rfl rfl allowed
  rw [run]
  exact ⟨error, left, rfl, kept⟩

theorem openLog_succeeds (capacity : Nat) (store left : Store) (allowed : SizeAllowed segmentSize)
    (positive : 0 < capacity) (closed : store.log.opened = false)
    (recovery : recoverOrCreate noFaults
      ⟨{ store.log with segmentSize := segmentSize, recentCache := ofCapacity capacity }, store.disk⟩ =
      ⟨.ok (), left⟩) :
    openLog noFaults segmentSize capacity store = ⟨.ok (), { left with log := { left.log with opened := true } }⟩ := by
  unfold openLog
  rw [if_neg (by rw [closed]; decide), if_neg allowed.accepted, if_neg (by omega)]
  dsimp only
  rw [if_neg (by decide), recovery]

theorem openLog_otherSize (faults : Faults) (other capacity : Nat) (store : Store) (messages : List Message)
    (file : File) (rest : List (Nat × Bytes)) (closed : store.log.opened = false)
    (listed : segmentFiles store.disk = (1, segmentPath 1) :: rest)
    (found : fileAt store.disk (segmentPath 1) = some file)
    (whole : SegmentFile segmentSize 1 0 messages file.bytes) (allowed : SizeAllowed segmentSize)
    (different : other ≠ segmentSize) :
    ∃ error left, openLog faults other capacity store = ⟨.error error, left⟩ ∧ Unopened store left := by
  apply openLog_fails faults other capacity store (Unopened store)
  · exact fun log opened active => ⟨opened.trans closed, active, fun _ => rfl⟩
  intro log sized opened active _
  unfold recoverOrCreate
  dsimp only
  split
  · exact ⟨_, _, rfl, opened.trans closed, active, fun _ => rfl⟩
  obtain ⟨error, refused⟩ := scanSegment_refused faults (segmentPath 1) rest.isEmpty 0 file
    (Or.inr (checkSegmentHeader_otherSize whole allowed different (by decide) (by decide)))
  have same := update_same store.disk (segmentPath 1) (fun _ => file) (fun other same =>
    Option.some.inj (found.symm.trans same))
  rw [listed]
  simp only [mapOrCreate, recoverSegments, Nat.zero_add, sized, ne_eq, not_true_eq_false, ↓reduceIte, found,
    Option.getD_some, refused]
  exact ⟨error, _, rfl, opened.trans closed, active, same⟩

theorem Idle.unopened {store left : Store} {contents : List (List Message)}
    (idle : Idle segmentSize store contents) (unopened : Unopened store left) : Idle segmentSize left contents where
  holds := idle.holds.congr unopened.disk
  nonempty := idle.nonempty
  opened := unopened.opened
  unmapped := by rw [unopened.active]; exact idle.unmapped

end Opening

end FleetGateway.Storage.Operations
