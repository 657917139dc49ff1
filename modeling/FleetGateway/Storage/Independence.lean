import FleetGateway.Storage.Log

/-! `open` depends on the directory and its arguments only. A log that is not open may
carry an index, an offset, cached messages and a mapping from a close, a failed open or a
failed rollover; each of them is set again before it is read. -/

namespace FleetGateway.Storage.Independence
open Library Library.ByteStore Format Record Disk Scan RingBuffer Log

def remap (active : Mapping) (store : Store) : Store := { store with log := { store.log with active := active } }

/-- Two outcomes over one directory; the objects may differ when the operation threw. -/
structure Agrees (one two : Outcome Unit) : Prop where
  result : one.result = two.result
  disk : one.store.disk = two.store.disk
  stores : one.result = .ok () → one.store = two.store

theorem Agrees.refl (outcome : Outcome Unit) : Agrees outcome outcome := ⟨rfl, rfl, fun _ => rfl⟩

theorem Agrees.thrown (error : LogError) (disk : Directory) (first second : MemoryMappedLog) :
    Agrees ⟨.error error, ⟨first, disk⟩⟩ ⟨.error error, ⟨second, disk⟩⟩ := ⟨rfl, rfl, nofun⟩

theorem Agrees.branch {condition : Prop} {one : Decidable condition} {two : Decidable condition}
    {yes no yes' no' : Outcome Unit} (taken : Agrees yes yes') (avoided : Agrees no no') :
    Agrees (@ite _ condition one yes no) (@ite _ condition two yes' no') := by
  by_cases holds : condition
  · rwa [if_pos holds, if_pos holds]
  · rwa [if_neg holds, if_neg holds]

/-- The scan never looks at the mapping. -/
theorem recoverSegments_remap (active : Mapping) (faults : Faults) (files : List (Nat × Bytes)) :
    ∀ (index expected : Nat) (store : Store),
    recoverSegments faults index files expected (remap active store) =
      ⟨(recoverSegments faults index files expected store).result,
        remap active (recoverSegments faults index files expected store).store⟩ := by
  induction files with
  | nil => exact fun _ _ _ => rfl
  | cons file rest ih =>
    intro index expected store
    obtain ⟨id, path⟩ := file
    simp only [recoverSegments, remap]
    generalize scanSegment faults store.log.segmentSize id path rest.isEmpty expected
      ((fileAt store.disk path).getD ⟨[], 0⟩) = scan
    split_ifs
    · rfl
    · cases scan.result with
      | error error => rfl
      | ok info =>
        exact ih (index + 1) info.endOffset ⟨{ store.log with
          segmentIndex := store.log.segmentIndex ++ [info]
          recentCache := pushAll store.log.recentCache scan.messages }, update store.disk path fun _ => scan.file⟩

theorem discardFile_agrees (faults : Faults) (path : Bytes) (error : LogError) (disk : Directory)
    (first second : MemoryMappedLog) :
    Agrees (discardFile faults path error ⟨first, disk⟩) (discardFile faults path error ⟨second, disk⟩) := by
  unfold discardFile
  apply Agrees.branch
  · exact Agrees.thrown _ _ _ _
  · exact Agrees.thrown _ _ _ _

/-- Every failure before the new mapping leaves the old one alone, and every failure
after it unmaps the new one. -/
theorem createSegment_agrees (active : Mapping) (faults : Faults) (id base : Nat) (store : Store) :
    Agrees (createSegment faults id base store) (createSegment faults id base (remap active store)) := by
  unfold createSegment
  apply Agrees.branch
  · exact Agrees.thrown _ _ _ _
  apply Agrees.branch
  · exact discardFile_agrees _ _ _ _ _ _
  apply Agrees.branch
  · exact discardFile_agrees _ _ _ _ _ _
  · exact Agrees.refl _

theorem mapActiveSegment_agrees (active : Mapping) (faults : Faults) (id base position : Nat) (store : Store) :
    Agrees (mapActiveSegment faults id base position store)
      (mapActiveSegment faults id base position (remap active store)) := by
  unfold mapActiveSegment
  apply Agrees.branch
  · exact Agrees.thrown _ _ _ _
  apply Agrees.branch
  · exact Agrees.thrown _ _ _ _
  apply Agrees.branch
  · exact Agrees.thrown _ _ _ _
  · exact Agrees.refl _

theorem mapOrCreate_agrees (active : Mapping) (faults : Faults) (result : Except LogError Nat) (left : Store) :
    Agrees (mapOrCreate faults ⟨result, left⟩) (mapOrCreate faults ⟨result, remap active left⟩) := by
  cases result with
  | error error => exact Agrees.thrown _ _ _ _
  | ok expected =>
    simp only [mapOrCreate, remap]
    split
    · exact createSegment_agrees active faults 1 0 { left with log := { left.log with nextMessageOffset := expected } }
    · exact mapActiveSegment_agrees active faults _ _ _
        { left with log := { left.log with nextMessageOffset := expected } }

/-- Recovery clears the offset and the index, so only its configuration is left of a log. -/
theorem recoverOrCreate_agrees (faults : Faults) (disk : Directory) (first second : MemoryMappedLog)
    (sized : first.segmentSize = second.segmentSize) (cached : first.recentCache = second.recentCache)
    (opened : first.opened = second.opened) :
    Agrees (recoverOrCreate faults ⟨first, disk⟩) (recoverOrCreate faults ⟨second, disk⟩) := by
  have cleared : ({ second with nextMessageOffset := 0, segmentIndex := [] } : MemoryMappedLog) =
      { first with nextMessageOffset := 0, segmentIndex := [], active := second.active } := by
    rw [sized, cached, opened]
  have start : (⟨{ second with nextMessageOffset := 0, segmentIndex := [] }, disk⟩ : Store) =
      remap second.active ⟨{ first with nextMessageOffset := 0, segmentIndex := [] }, disk⟩ :=
    congrArg (fun log => Store.mk log disk) cleared
  unfold recoverOrCreate
  apply Agrees.branch
  · exact Agrees.thrown _ _ _ _
  · dsimp only
    rw [start, recoverSegments_remap]
    exact mapOrCreate_agrees _ _ _ _

/-- What `open` does with the outcome of the recovery. -/
def opening (recovery : Outcome Unit) : Outcome Unit :=
  match recovery with
  | ⟨.error error, left⟩ => ⟨.error error, left⟩
  | ⟨.ok _, left⟩ => ⟨.ok (), { left with log := { left.log with opened := true } }⟩

theorem Agrees.opening {one two : Outcome Unit} (agrees : Agrees one two) :
    Agrees (opening one) (opening two) := by
  obtain ⟨result, left⟩ := one
  obtain ⟨other, right⟩ := two
  obtain rfl : result = other := agrees.result
  cases result with
  | error error => exact ⟨rfl, agrees.disk, nofun⟩
  | ok done =>
    obtain rfl : left = right := agrees.stores rfl
    exact Agrees.refl _

theorem openLog_agrees (faults : Faults) (segmentSize capacity : Nat) (disk : Directory)
    (first second : MemoryMappedLog) (firstClosed : first.opened = false) (secondClosed : second.opened = false) :
    Agrees (openLog faults segmentSize capacity ⟨first, disk⟩)
      (openLog faults segmentSize capacity ⟨second, disk⟩) := by
  have recovery := recoverOrCreate_agrees faults disk
    { first with segmentSize := segmentSize, recentCache := ofCapacity capacity }
    { second with segmentSize := segmentSize, recentCache := ofCapacity capacity } rfl rfl
    (firstClosed.trans secondClosed.symm)
  have closed : ∀ log : MemoryMappedLog, log.opened = false → ¬ (⟨log, disk⟩ : Store).log.opened = true := by
    intro log closed opened
    exact Bool.noConfusion (closed.symm.trans opened)
  unfold openLog
  rw [if_neg (closed first firstClosed), if_neg (closed second secondClosed)]
  apply Agrees.branch
  · exact Agrees.thrown _ _ _ _
  apply Agrees.branch
  · exact Agrees.thrown _ _ _ _
  apply Agrees.branch
  · exact Agrees.thrown _ _ _ _
  · exact recovery.opening

def appendAll : Store → List (Faults × Bytes × Int) → List (Except LogError Nat) × Store
  | store, [] => ([], store)
  | store, (faults, payload, now) :: rest =>
    let outcome := append faults payload now store
    let later := appendAll outcome.store rest
    (outcome.result :: later.1, later.2)

/-- Any two logs that are not open, whatever happened to them before: opening them on the
same directory with the same arguments and the same failing calls throws the same error or
gives logs that no later append tells apart. -/
theorem open_forgets (faults : Faults) (segmentSize capacity : Nat) (disk : Directory)
    (first second : MemoryMappedLog) (firstClosed : first.opened = false) (secondClosed : second.opened = false) :
    let one := openLog faults segmentSize capacity ⟨first, disk⟩
    let two := openLog faults segmentSize capacity ⟨second, disk⟩
    one.result = two.result ∧ one.store.disk = two.store.disk ∧
      (one.result = .ok () → one.store = two.store ∧ segments one.store = segments two.store ∧
        nextOffset one.store = nextOffset two.store ∧
        (∀ count, getRecent one.store count = getRecent two.store count) ∧
        ∀ appends, appendAll one.store appends = appendAll two.store appends) := by
  intro one two
  obtain ⟨result, disks, stores⟩ := openLog_agrees faults segmentSize capacity disk first second firstClosed
    secondClosed
  refine ⟨result, disks, fun opens => ?_⟩
  have same : one.store = two.store := stores opens
  rw [same]
  exact ⟨rfl, rfl, rfl, fun _ => rfl, fun _ => rfl⟩

/-- A fresh object and one whose rollover failed to map the new segment: the second
still indexes a segment and caches a message when it is opened again. -/
theorem open_forgets_rollover :
    let left := (append (· == .createMmap) [4, 5, 6, 7] 6
      (append noFaults [1, 2, 3] 5 (openLog noFaults 100 3 {}).store).store).store
    let one := openLog noFaults 100 2 ⟨{}, left.disk⟩
    let two := openLog noFaults 100 2 ⟨left.log, left.disk⟩
    (left.log.opened = false ∧ left.log.active.segmentId = 1 ∧ left.log.segmentIndex.length = 1 ∧
      getRecent left 3 ≠ [] ∧ one.result = .ok ()) ∧
    one.result = two.result ∧ one.store.disk = two.store.disk ∧
      (one.result = .ok () → one.store = two.store ∧ segments one.store = segments two.store ∧
        nextOffset one.store = nextOffset two.store ∧
        (∀ count, getRecent one.store count = getRecent two.store count) ∧
        ∀ appends, appendAll one.store appends = appendAll two.store appends) :=
  ⟨by decide +kernel, open_forgets noFaults 100 2 _ {} _ rfl (by decide +kernel)⟩

end FleetGateway.Storage.Independence
