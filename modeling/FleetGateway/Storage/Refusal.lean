import FleetGateway.Storage.Operations

/-! A refused `open` destroys nothing. Segments are scanned and repaired in one pass, but
only the newest may be cut, and only after everything else has been accepted. -/

namespace FleetGateway.Storage.Refusal
open Library Library.ByteStore Format Record Disk Scan Segment Log RingBuffer Contents Operations

/-- The error reports what was found, not a call that failed. -/
def Finding (faults : Faults) (error : LogError) : Prop :=
  faults = noFaults ∨ ∃ what path, error = .runtimeError what path

theorem not_finding_system {faults : Faults} {call : Call} {operation : String} {path : Option Bytes}
    (failed : faults call = true) : ¬ Finding faults (.systemError operation path) := by
  rintro (rfl | ⟨what, place, impossible⟩)
  · cases failed
  · cases impossible

section Scanning

variable {faults : Faults} {segmentSize id base : Nat} {path : Bytes} {isLatest : Bool} {file : File}

/-- The record loop asks for a truncation in the newest segment only. -/
theorem scanRecords_truncates (bytes : Bytes) (fuel position expectedOffset : Nat)
    (ended : (scanRecords faults segmentSize id path isLatest bytes fuel position expectedOffset).outcome =
      .ok true) : isLatest = true := by
  have stopped : ∀ place expected corrupt, (stopDamaged isLatest path place expected corrupt).outcome = .ok true →
      isLatest = true := by
    intro place expected corrupt damaged
    unfold stopDamaged at damaged
    dsimp only at damaged
    split at damaged
    · assumption
    · cases damaged
  induction fuel generalizing position expectedOffset with
  | zero => cases ended
  | succ fuel ih =>
    rw [scanRecords] at ended
    dsimp only at ended
    split at ended
    · cases ended
    split at ended
    · cases ended
    split at ended
    · split at ended
      · cases ended
      split at ended
      · cases ended
      · exact stopped _ _ _ ended
    split at ended
    · exact stopped _ _ _ ended
    split at ended
    · cases ended
    split at ended
    · exact stopped _ _ _ ended
    split at ended
    · cases ended
    · exact ih _ _ ended

def Repairs (faults : Faults) (id : Nat) (isLatest : Bool) (scan : SegmentScan) : Prop :=
  isLatest = true ∧ ((∃ info, scan.result = .ok info) ∨
    faults (.scanClose id) = true ∧ ∃ path, scan.result = .error (.systemError "close" path))

theorem finishScan_file (scan : RecordScan) (truncates : scan.outcome = .ok true → isLatest = true) :
    let left := finishScan faults id path isLatest base file scan
    left.file = file ∨ Repairs faults id isLatest left := by
  intro left
  simp only [left, finishScan]
  split
  · exact Or.inl rfl
  next truncateLoop ended =>
  split
  · exact Or.inl rfl
  split
  · exact Or.inl rfl
  next intact =>
  split
  · exact Or.inl rfl
  -- from here on the file is cut when either part of the scan asked for it
  have latest : (truncateLoop || (decide (scan.position < file.bytes.length) &&
      decide (file.bytes.length < scan.position + recordHeaderSize) &&
      !isZero (slice file.bytes scan.position (file.bytes.length - scan.position)))) = true → isLatest = true := by
    intro cut
    rw [Bool.or_eq_true] at cut
    rcases cut with loop | damaged
    · exact truncates (by rw [ended, loop])
    · by_contra older
      exact intact ⟨damaged, Bool.eq_false_of_not_eq_true older⟩
  split
  next failed =>
    split
    next cut => exact Or.inr ⟨latest cut, Or.inr ⟨failed, _, rfl⟩⟩
    next => exact Or.inl rfl
  next =>
    split
    next cut => exact Or.inr ⟨latest cut, Or.inl ⟨_, rfl⟩⟩
    next => exact Or.inl rfl

theorem scanSegment_file :
    let left := scanSegment faults segmentSize id path isLatest base file
    left.file = file ∨ Repairs faults id isLatest left := by
  have starts := scanSegment_starts faults segmentSize id path isLatest base file
  generalize scanSegment faults segmentSize id path isLatest base file = scan at starts ⊢
  cases starts with
  | refused error => exact Or.inl rfl
  | proceeds => exact finishScan_file _ (scanRecords_truncates _ _ _ _)

theorem scanSegment_id {info : LogSegmentInfo}
    (passed : (scanSegment faults segmentSize id path isLatest base file).result = .ok info) :
    info.segmentId = id := by
  have starts := scanSegment_starts faults segmentSize id path isLatest base file
  generalize scanSegment faults segmentSize id path isLatest base file = scan at starts passed
  cases starts with
  | refused error => cases passed
  | proceeds =>
    unfold finishScan at passed
    split at passed
    · cases passed
    dsimp only at passed
    split at passed
    · cases passed
    split at passed
    · cases passed
    split at passed
    · cases passed
    split at passed
    · cases passed
    · cases passed
      rfl

end Scanning

/-- What the scan of a listing leaves: all files but the last are as they were, and so is
the last when the scan was refused for what it found. -/
structure Scanned (faults : Faults) (files : List (Nat × Bytes)) (store : Store) (run : Outcome Nat) : Prop where
  opened : run.store.log.opened = store.log.opened
  frame : ∀ name, (∀ id, files.getLast? ≠ some (id, name)) → run.store.disk.lookup name = store.disk.lookup name
  present : ∀ name, (fileAt run.store.disk name).isSome = (fileAt store.disk name).isSome
  refused : ∀ error, run.result = .error error → Finding faults error → SameFiles run.store.disk store.disk
  indexed : ∀ expected, run.result = .ok expected → ∃ infos,
    run.store.log.segmentIndex = store.log.segmentIndex ++ infos ∧
      infos.map LogSegmentInfo.segmentId = files.map Prod.fst

theorem update_scanned (disk : Directory) (path : Bytes) (scanned : File → File)
    (kept : scanned ((fileAt disk path).getD ⟨[], 0⟩) = (fileAt disk path).getD ⟨[], 0⟩) :
    SameFiles (update disk path fun _ => scanned ((fileAt disk path).getD ⟨[], 0⟩)) disk := by
  apply update_same
  intro file found
  rw [kept, found, Option.getD_some]

theorem recoverSegments_scanned (faults : Faults) (files : List (Nat × Bytes)) (index expected : Nat)
    (store : Store) : Scanned faults files store (recoverSegments faults index files expected store) := by
  induction files generalizing index expected store with
  | nil =>
    refine ⟨rfl, fun _ _ => rfl, fun _ => rfl, fun _ _ _ _ => rfl, fun _ _ => ⟨[], ?_, rfl⟩⟩
    exact (List.append_nil _).symm
  | cons entry rest ih =>
    obtain ⟨id, path⟩ := entry
    rw [recoverSegments]
    by_cases gap : id ≠ index + 1
    · rw [if_pos gap]
      exact ⟨rfl, fun _ _ => rfl, fun _ => rfl, fun _ _ _ _ => rfl, fun _ impossible => by cases impossible⟩
    rw [if_neg gap]
    dsimp only
    have cases := @scanSegment_file faults store.log.segmentSize id expected path rest.isEmpty
      ((fileAt store.disk path).getD ⟨[], 0⟩)
    have same := fun kept => update_scanned store.disk path
      (fun file => (scanSegment faults store.log.segmentSize id path rest.isEmpty expected file).file) kept
    cases outcome : (scanSegment faults store.log.segmentSize id path rest.isEmpty expected
      ((fileAt store.disk path).getD ⟨[], 0⟩)).result with
    | error error =>
      refine ⟨rfl, fun name last => ?_, fun name => isSome_fileAt_update _ _ _ _, fun thrown raised found => ?_,
        fun _ impossible => by cases impossible⟩
      · rcases cases with kept | ⟨empty, _⟩
        · exact same kept name
        · apply lookup_update_ne
          rintro rfl
          rw [List.isEmpty_iff.mp empty] at last
          exact last id rfl
      · rcases cases with kept | ⟨_, passed | ⟨failed, path, closing⟩⟩
        · exact same kept
        · obtain ⟨info, passed⟩ := passed
          rw [outcome] at passed
          cases passed
        · rw [outcome] at closing
          cases raised
          cases closing
          exact absurd found (not_finding_system failed)
    | ok info =>
      have later := ih (index + 1) info.endOffset
        ⟨{ store.log with
            recentCache := pushAll store.log.recentCache (scanSegment faults store.log.segmentSize id path
              rest.isEmpty expected ((fileAt store.disk path).getD ⟨[], 0⟩)).messages
            segmentIndex := store.log.segmentIndex ++ [info] },
          update store.disk path fun _ => (scanSegment faults store.log.segmentSize id path rest.isEmpty expected
            ((fileAt store.disk path).getD ⟨[], 0⟩)).file⟩
      refine ⟨later.opened, fun name last => ?_, fun name => ?_, fun error raised found => ?_, fun final done => ?_⟩
      · cases rest with
        | nil =>
          apply lookup_update_ne
          rintro rfl
          exact last id rfl
        | cons next others =>
          have kept : SameFiles _ store.disk := same (cases.resolve_right fun repaired => by cases repaired.1)
          exact (later.frame name last).trans (kept name)
      · exact (later.present name).trans (isSome_fileAt_update _ _ _ _)
      · cases rest with
        | nil => cases raised
        | cons next others =>
          have kept : SameFiles _ store.disk := same (cases.resolve_right fun repaired => by cases repaired.1)
          exact (later.refused error raised found).trans kept
      · obtain ⟨infos, index, ids⟩ := later.indexed final done
        refine ⟨info :: infos, ?_, ?_⟩
        · rw [index]
          simp only [List.append_assoc, List.singleton_append]
        · rw [List.map_cons, List.map_cons, ids, scanSegment_id outcome]

/-- An operation that touches one file, and throws only over a call that failed or
without touching anything. -/
structure Confined (faults : Faults) (name : Bytes) (store : Store) (run : Outcome Unit) : Prop where
  opened : run.store.log.opened = store.log.opened
  frame : ∀ other, other ≠ name → run.store.disk.lookup other = store.disk.lookup other
  refused : ∀ error, run.result = .error error → Finding faults error → SameFiles run.store.disk store.disk

theorem Confined.thrown {faults : Faults} {name : Bytes} {store left : Store} {call : Call} {operation : String}
    {path : Option Bytes} (opened : left.log.opened = store.log.opened)
    (frame : ∀ other, other ≠ name → left.disk.lookup other = store.disk.lookup other)
    (failed : faults call = true) : Confined faults name store ⟨.error (.systemError operation path), left⟩ := by
  refine ⟨opened, frame, fun error raised found => ?_⟩
  cases raised
  exact absurd found (not_finding_system failed)

theorem Confined.done {faults : Faults} {name : Bytes} {store : Store} (log : MemoryMappedLog) (disk : Directory)
    (opened : log.opened = store.log.opened)
    (frame : ∀ other, other ≠ name → disk.lookup other = store.disk.lookup other) :
    Confined faults name store ⟨.ok (), ⟨log, disk⟩⟩ :=
  ⟨opened, frame, fun _ impossible => by cases impossible⟩

section Creating

variable {faults : Faults} {path : Bytes} {store left : Store} {call : Call} {operation : String}
  {place : Option Bytes}

theorem discardFile_confined (opened : left.log.opened = store.log.opened)
    (frame : ∀ other, other ≠ path → left.disk.lookup other = store.disk.lookup other)
    (failed : faults call = true) :
    Confined faults path store (discardFile faults path (.systemError operation place) left) := by
  unfold discardFile
  split
  next stuck => exact .thrown opened frame stuck
  next =>
    refine .thrown opened (fun other different => ?_) failed
    exact (AList.lookup_erase_ne different).trans (frame other different)

theorem abandonSegment_confined (opened : left.log.opened = store.log.opened)
    (frame : ∀ other, other ≠ path → left.disk.lookup other = store.disk.lookup other)
    (failed : faults call = true) :
    Confined faults path store (abandonSegment faults path (.systemError operation place) left) := by
  unfold abandonSegment
  simp only [unmapActive, Bool.and_false, Bool.false_and, Bool.false_eq_true, ↓reduceIte, Bool.false_or,
    Bool.or_false]
  split
  next run =>
    split at run
    next broken =>
      cases run
      rw [Bool.or_eq_true, Bool.and_eq_true, Bool.and_eq_true] at broken
      rcases broken with ⟨_, stuck⟩ | ⟨_, stuck⟩
      · exact .thrown opened frame stuck
      · exact .thrown opened frame stuck
    next => cases run
  next run =>
    split at run
    · cases run
    · cases run
      exact discardFile_confined opened frame failed

end Creating

theorem createSegment_confined (faults : Faults) (id base : Nat) (store : Store) :
    Confined faults (segmentPath id) store (createSegment faults id base store) := by
  have made : ∀ other, other ≠ segmentPath id → (fileCreated store.disk id).lookup other = store.disk.lookup other :=
    (puts_fileCreated store.disk id).frame
  have extended : ∀ other, other ≠ segmentPath id →
      (fileExtended store.disk store.log.segmentSize id).lookup other = store.disk.lookup other :=
    (puts_fileExtended store.disk store.log.segmentSize id).frame
  have written : ∀ other, other ≠ segmentPath id →
      (headerWritten store.disk store.log.segmentSize id base).lookup other = store.disk.lookup other :=
    (puts_headerWritten store.disk store.log.segmentSize id base).frame
  have synced : ∀ other, other ≠ segmentPath id →
      (headerSynced store.disk store.log.segmentSize id base).lookup other = store.disk.lookup other :=
    fun other different => (lookup_update_ne _ _ _ _ different).trans (written other different)
  have discarded : ∀ call operation disk, (∀ other, other ≠ segmentPath id →
      disk.lookup other = store.disk.lookup other) → faults call = true → Confined faults (segmentPath id) store
        (discardFile faults (segmentPath id) (.systemError operation (some (segmentPath id))) ⟨store.log, disk⟩) :=
    fun call operation disk frame failed => by
      have opened : (Store.mk store.log disk).log.opened = store.log.opened := rfl
      exact discardFile_confined opened frame failed
  have abandoned : ∀ call operation place disk, (∀ other, other ≠ segmentPath id →
      disk.lookup other = store.disk.lookup other) → faults call = true → Confined faults (segmentPath id) store
        (abandonSegment faults (segmentPath id) (.systemError operation place)
          ⟨{ store.log with active := mappingOf store.log.segmentSize id base segmentHeaderSize }, disk⟩) :=
    fun call operation place disk frame failed => by
      have opened : (Store.mk { store.log with active := mappingOf store.log.segmentSize id base segmentHeaderSize }
        disk).log.opened = store.log.opened := rfl
      exact abandonSegment_confined opened frame failed
  unfold createSegment
  dsimp only
  split
  · exact ⟨rfl, fun _ _ => rfl, fun _ _ _ _ => rfl⟩
  split
  next failed => exact discarded _ _ _ made failed
  split
  next failed => exact discarded _ _ _ extended failed
  split
  next failed =>
    rcases failed with failed | failed
    · exact abandoned _ _ _ _ written failed
    · exact abandoned _ _ _ _ written failed
  split
  next failed => exact abandoned _ _ _ _ synced failed
  split
  next failed => exact abandoned _ _ _ _ synced failed
  exact .done _ _ rfl synced

theorem mapActiveSegment_confined (faults : Faults) (id base position : Nat) (store : Store) :
    Confined faults (segmentPath id) store (mapActiveSegment faults id base position store) := by
  have extended : ∀ other, other ≠ segmentPath id → (update store.disk (segmentPath id)
      (·.truncate store.log.segmentSize)).lookup other = store.disk.lookup other :=
    fun other different => lookup_update_ne _ _ _ _ different
  unfold mapActiveSegment
  dsimp only
  split
  · exact ⟨rfl, fun _ _ => rfl, fun _ _ _ _ => rfl⟩
  split
  · exact ⟨rfl, fun _ _ => rfl, fun _ _ _ _ => rfl⟩
  split
  next failed => exact .thrown rfl extended failed
  exact .done _ _ rfl extended

theorem mapActiveSegment_finds (faults : Faults) (id base position : Nat) (store : Store) (error : LogError)
    (present : (fileAt store.disk (segmentPath id)).isSome)
    (raised : (mapActiveSegment faults id base position store).result = .error error) : ¬ Finding faults error := by
  unfold mapActiveSegment at raised
  dsimp only at raised
  split at raised
  next closed =>
    rcases closed with absent | failed
    · rw [absent] at present
      cases present
    · cases raised
      exact not_finding_system failed
  split at raised
  next failed =>
    cases raised
    exact not_finding_system failed
  split at raised
  next failed =>
    cases raised
    exact not_finding_system failed
  · cases raised

def newest (disk : Directory) : Option (Nat × Bytes) := (segmentFiles disk).getLast?

theorem segmentFiles_sorted (disk : Directory) :
    (segmentFiles disk).Pairwise fun first second => first.1 ≤ second.1 := by
  rw [segmentFiles]
  exact List.pairwise_insertionSort _ _

theorem ne_newest {disk : Directory} {id : Nat} {name : Bytes} {newer : Nat × Bytes}
    (member : (id, name) ∈ segmentFiles disk) (among : newer ∈ segmentFiles disk) (older : id < newer.1)
    (other : Nat) : newest disk ≠ some (other, name) := by
  intro last
  obtain ⟨front, listing⟩ := List.getLast?_eq_some_iff.mp last
  have sorted := segmentFiles_sorted disk
  rw [listing, List.pairwise_append] at sorted
  have parsed := ((mem_segmentFiles disk id name).mp member).1
  have lastMember : (other, name) ∈ segmentFiles disk := List.mem_of_getLast? last
  have same := ((mem_segmentFiles disk other name).mp lastMember).1
  rw [parsed, Option.some.injEq] at same
  subst same
  rw [listing, List.mem_append, List.mem_singleton] at among
  rcases among with before | rfl
  · have below := sorted.2.2 newer before (id, name) (List.mem_singleton.mpr rfl)
    dsimp only at below
    omega
  · exact absurd older (lt_irrefl _)

structure Recovers (faults : Faults) (store : Store) (run : Outcome Unit) : Prop where
  opened : run.store.log.opened = store.log.opened
  frame : ∀ id name, (id, name) ∈ segmentFiles store.disk → (∀ other, newest store.disk ≠ some (other, name)) →
    run.store.disk.lookup name = store.disk.lookup name
  refused : ∀ error, run.result = .error error → Finding faults error → SameFiles run.store.disk store.disk

theorem mapOrCreate_recovers (faults : Faults) (store left : Store) (expected : Nat)
    (empty : store.log.segmentIndex = [])
    (scanned : Scanned faults (segmentFiles store.disk) store ⟨.ok expected, left⟩) :
    Recovers faults store (mapOrCreate faults ⟨.ok expected, left⟩) := by
  obtain ⟨infos, index, ids⟩ := scanned.indexed expected rfl
  rw [empty, List.nil_append] at index
  unfold mapOrCreate
  dsimp only
  split
  next none =>
    -- no segment file at all
    rw [index, List.getLast?_eq_none_iff] at none
    rw [none, List.map_nil, eq_comm, List.map_eq_nil_iff] at ids
    have same : SameFiles left.disk store.disk := by
      intro name
      refine scanned.frame name fun id last => ?_
      rw [ids] at last
      cases last
    have confined := createSegment_confined faults 1 0
      { left with log := { left.log with nextMessageOffset := expected } }
    refine ⟨confined.opened.trans scanned.opened, fun id name member => ?_, fun error raised found => ?_⟩
    · rw [ids] at member
      exact absurd member List.not_mem_nil
    · exact (confined.refused error raised found).trans same
  next last found =>
    rw [index] at found
    obtain ⟨front, rfl⟩ := List.getLast?_eq_some_iff.mp found
    obtain ⟨files, name, listing⟩ : ∃ files name, segmentFiles store.disk = files ++ [(last.segmentId, name)] := by
      rw [List.map_append, List.map_singleton] at ids
      obtain ⟨files, tail, listing, _, single⟩ := List.map_eq_append_iff.mp ids.symm
      obtain ⟨⟨id, name⟩, rfl, same⟩ := List.map_eq_singleton_iff.mp single
      dsimp only at same
      exact ⟨files, name, by rw [listing, same]⟩
    have member : (last.segmentId, name) ∈ segmentFiles store.disk := by
      rw [listing]
      exact List.mem_append_right _ (List.mem_singleton.mpr rfl)
    obtain ⟨parsed, present⟩ := (mem_segmentFiles store.disk _ _).mp member
    obtain ⟨named, _⟩ := segmentPath_of_parse name _ parsed
    have isNewest : newest store.disk = some (last.segmentId, name) := by
      rw [newest, listing, List.getLast?_concat]
    have there : (fileAt left.disk (segmentPath last.segmentId)).isSome := by
      rw [← named]
      exact (scanned.present name).trans present
    have confined := mapActiveSegment_confined faults last.segmentId last.firstOffset last.validBytes
      { left with log := { left.log with nextMessageOffset := expected } }
    refine ⟨confined.opened.trans scanned.opened, fun id key _ older => ?_, fun error raised found => ?_⟩
    · have different : key ≠ segmentPath last.segmentId := by
        rintro rfl
        exact older last.segmentId (by rw [isNewest, named])
      exact (confined.frame key different).trans (scanned.frame key older)
    · exact absurd found (mapActiveSegment_finds faults last.segmentId last.firstOffset last.validBytes
        { left with log := { left.log with nextMessageOffset := expected } } error there raised)

theorem recoverOrCreate_recovers (faults : Faults) (store : Store) :
    Recovers faults store (recoverOrCreate faults store) := by
  unfold recoverOrCreate
  dsimp only
  split
  next failed =>
    refine ⟨rfl, fun _ _ _ _ => rfl, fun error raised found => ?_⟩
    cases raised
    exact absurd found (not_finding_system failed)
  have scanned := recoverSegments_scanned faults (segmentFiles store.disk) 0 0
    { store with log := { store.log with nextMessageOffset := 0, segmentIndex := [] } }
  cases run : recoverSegments faults 0 (segmentFiles store.disk) 0
      { store with log := { store.log with nextMessageOffset := 0, segmentIndex := [] } } with
  | mk result left =>
  rw [run] at scanned
  cases result with
  | error error =>
    refine ⟨scanned.opened, fun id name _ older => scanned.frame name older, fun thrown raised found => ?_⟩
    cases raised
    exact scanned.refused error rfl found
  | ok expected =>
    have recovers := mapOrCreate_recovers faults
      { store with log := { store.log with nextMessageOffset := 0, segmentIndex := [] } } left expected rfl scanned
    exact ⟨recovers.opened, recovers.frame, recovers.refused⟩

theorem openLog_recovers (faults : Faults) (segmentSize capacity : Nat) (store : Store) :
    let run := openLog faults segmentSize capacity store
    (∀ id name, (id, name) ∈ segmentFiles store.disk → (∀ other, newest store.disk ≠ some (other, name)) →
      run.store.disk.lookup name = store.disk.lookup name) ∧
    (∀ error, run.result = .error error → isOpen run.store = isOpen store ∧
      (Finding faults error → SameFiles run.store.disk store.disk)) := by
  intro run
  have early : ∀ (error : LogError) (log : MemoryMappedLog), log.opened = store.log.opened →
      run = ⟨.error error, ⟨log, store.disk⟩⟩ →
      (∀ id name, (id, name) ∈ segmentFiles store.disk → (∀ other, newest store.disk ≠ some (other, name)) →
        run.store.disk.lookup name = store.disk.lookup name) ∧
      (∀ error, run.result = .error error → isOpen run.store = isOpen store ∧
        (Finding faults error → SameFiles run.store.disk store.disk)) := by
    intro error log opened ended
    rw [ended]
    exact ⟨fun _ _ _ _ => rfl, fun _ _ => ⟨opened, fun _ _ => rfl⟩⟩
  have start : run = openLog faults segmentSize capacity store := rfl
  unfold openLog at start
  split at start
  · exact early _ store.log rfl start
  split at start
  · exact early _ store.log rfl start
  split at start
  · exact early _ store.log rfl start
  dsimp only at start
  split at start
  · exact early _ { store.log with segmentSize := segmentSize, recentCache := ofCapacity capacity } rfl start
  have recovers := recoverOrCreate_recovers faults
    { store with log := { store.log with segmentSize := segmentSize, recentCache := ofCapacity capacity } }
  split at start
  next error left recovery =>
    rw [recovery] at recovers
    rw [start]
    refine ⟨recovers.frame, fun thrown raised => ⟨recovers.opened, fun found => ?_⟩⟩
    cases raised
    exact recovers.refused _ rfl found
  next left recovery =>
    rw [recovery] at recovers
    rw [start]
    exact ⟨recovers.frame, fun _ impossible => by cases impossible⟩

/-- When `open` throws for what it found, with or without failing calls along the way, a
log that was not open stays so and every file is as it was. And no `open`, whatever its
result and whatever failed in it, changes a segment file that is not the newest. -/
theorem refused_open_keeps (faults : Faults) (segmentSize capacity : Nat) (store : Store) :
    let run := openLog faults segmentSize capacity store
    (∀ error, run.result = .error error → Finding faults error →
      (isOpen store = false → isOpen run.store = false) ∧ SameFiles run.store.disk store.disk) ∧
    ∀ id name newer, (id, name) ∈ segmentFiles store.disk → newer ∈ segmentFiles store.disk → id < newer.1 →
      fileAt run.store.disk name = fileAt store.disk name := by
  intro run
  obtain ⟨frame, refused⟩ := openLog_recovers faults segmentSize capacity store
  constructor
  · intro error raised found
    obtain ⟨opened, same⟩ := refused error raised
    exact ⟨fun closed => opened.trans closed, same found⟩
  · intro id name newer member among older
    have same := frame id name member (ne_newest member among older)
    simp only [fileAt]
    rw [same]

/-- A damaged sealed segment and a damaged newest one: neither is touched. -/
theorem refused_open_keeps_damaged :
    let first : File := ⟨segmentHeader 1 0 120 ++ encodeRecord ⟨0, 5, 2, [1, 2]⟩ ++ [0, 0, 9], 0⟩
    let second : File := ⟨segmentHeader 2 34 120 ++ [7, 7], 0⟩
    let store : Store := { disk := Disk.store (Disk.store ∅ (segmentPath 2) second) (segmentPath 1) first }
    let run := openLog noFaults 120 4 store
    run.result = .error (.runtimeError "truncated record in sealed segment" (some (segmentPath 1))) ∧
    (∀ error, run.result = .error error → Finding noFaults error →
      (isOpen store = false → isOpen run.store = false) ∧ SameFiles run.store.disk store.disk) ∧
    ∀ id name newer, (id, name) ∈ segmentFiles store.disk → newer ∈ segmentFiles store.disk → id < newer.1 →
      fileAt run.store.disk name = fileAt store.disk name :=
  ⟨by decide +kernel, refused_open_keeps noFaults 120 4 _⟩

end FleetGateway.Storage.Refusal
