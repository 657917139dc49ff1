import FleetGateway.Library.Decimal
import FleetGateway.Storage.Format
import Mathlib.Data.List.AList
import Mathlib.Data.List.Sort

/-! The log directory as the file system shows it, and the names by which
recovery finds its segments. Names outside the segment pattern are ignored. -/

namespace FleetGateway.Storage.Disk
open Library Library.ByteStore Format

/-- A regular file. `durable` counts the leading bytes whose present value a
completed `msync` and `fsync` of the file cover. -/
structure File where
  bytes : Bytes
  durable : Nat := 0
  deriving DecidableEq, Repr

inductive Entry where
  | regular (file : File)
  | other
  deriving DecidableEq, Repr

abbrev Directory := AList (fun _ : Bytes => Entry)

/-- Every call into the operating system that a log operation makes and checks,
one constructor for each place in the source. -/
inductive Call where
  | createDirectories
  | listDirectory
  | scanOpen (id : Nat)
  | scanStat (id : Nat)
  | readHeader (id : Nat)
  | readRecord (id position : Nat)
  | readPayload (id position : Nat)
  | readZeroTail (id : Nat)
  | readShortTail (id : Nat)
  | truncateTail (id : Nat)
  | scanClose (id : Nat)
  | mapOpen
  | mapTruncate
  | mapMmap
  | createOpen
  | createTruncate
  | createMmap
  | headerMsync
  | headerFsync
  | directoryOpen
  | directoryFsync
  | removeFile
  | unmapMsync
  | unmapMunmap (sync : Bool)
  | unmapFsync
  | unmapClose (sync : Bool)
  | flushMsync
  | flushFsync
  deriving DecidableEq, Repr

abbrev Faults := Call → Bool

def noFaults : Faults := fun _ => false

/-- The exception classes that leave a log operation. A path of `none` is the
directory itself, or a message without a path. -/
inductive LogError where
  | logicError (what : String)
  | invalidArgument (what : String)
  | lengthError (what : String)
  | overflowError (what : String)
  | runtimeError (what : String) (path : Option Bytes)
  | systemError (operation : String) (path : Option Bytes)
  deriving DecidableEq, Repr

/-- The file name that `snprintf("log-%08u.seg")` produces. -/
def segmentPath (segmentId : Nat) : Bytes :=
  text "log-" ++ (Decimal.padded 8 segmentId ++ text ".seg")

def parseSegmentId (name : Bytes) : Option Nat :=
  if name.length ≠ 16 ∨ name.take 4 ≠ text "log-" ∨ slice name 12 4 ≠ text ".seg" then none
  else if (slice name 4 8).all Decimal.isDigit then some (Decimal.value (slice name 4 8))
  else none

/-- The regular files with a segment name, as `(id, name)`, sorted by id. -/
def segmentFiles (directory : Directory) : List (Nat × Bytes) :=
  (directory.entries.filterMap fun entry =>
    match entry.2 with
    | .regular _ => (parseSegmentId entry.1).map fun id => (id, entry.1)
    | .other => none).insertionSort (fun left right => left.1 ≤ right.1)

def fileAt (directory : Directory) (name : Bytes) : Option File :=
  match directory.lookup name with
  | some (.regular file) => some file
  | _ => none

def store (directory : Directory) (name : Bytes) (file : File) : Directory :=
  directory.insert name (.regular file)

/-- `ftruncate`: cut, or extend with zeros. -/
def File.truncate (file : File) (size : Nat) : File := ⟨resize file.bytes size, min file.durable size⟩

/-- A copy into the mapping; what stood from `position` on is no longer covered. -/
def File.write (file : File) (position : Nat) (data : Bytes) : File :=
  ⟨overwrite file.bytes position data, min file.durable position⟩

/-- A completed `msync` of the first `size` bytes and `fsync` of the file. -/
def File.sync (file : File) (size : Nat) : File :=
  ⟨file.bytes, max file.durable (min size file.bytes.length)⟩

def update (directory : Directory) (name : Bytes) (change : File → File) : Directory :=
  match fileAt directory name with
  | some file => store directory name (change file)
  | none => directory

theorem maximumSegmentId_lt {id : Nat} (bound : id ≤ maximumSegmentId) : id < 2 ^ 32 := by
  simp only [maximumSegmentId] at bound
  omega

theorem length_segmentPath (segmentId : Nat) (bound : segmentId ≤ maximumSegmentId) :
    (segmentPath segmentId).length = 16 := by
  have digits := Decimal.length_padded 8 segmentId (by simp only [maximumSegmentId] at bound; omega)
  have front : (text "log-").length = 4 := rfl
  have back : (text ".seg").length = 4 := rfl
  simp only [segmentPath, List.length_append, digits, front, back]

theorem parseSegmentId_segmentPath (segmentId : Nat) (bound : segmentId ≤ maximumSegmentId) :
    parseSegmentId (segmentPath segmentId) = some segmentId := by
  have digits := Decimal.length_padded 8 segmentId (by simp only [maximumSegmentId] at bound; omega)
  have front : (segmentPath segmentId).take 4 = text "log-" := List.take_left' rfl
  have middle : slice (segmentPath segmentId) 4 8 = Decimal.padded 8 segmentId := by
    rw [slice, segmentPath, List.drop_left' (show (text "log-").length = 4 from rfl), List.take_left' digits]
  have back : slice (segmentPath segmentId) 12 4 = text ".seg" := by
    rw [slice, segmentPath, show 12 = 4 + 8 by rfl, ← List.drop_drop,
      List.drop_left' (show (text "log-").length = 4 from rfl), List.drop_left' digits]
    rfl
  rw [parseSegmentId, length_segmentPath segmentId bound, front, middle, back,
    Decimal.isDigit_padded, Decimal.value_padded]
  simp

theorem segmentPath_of_parse (name : Bytes) (segmentId : Nat) (parsed : parseSegmentId name = some segmentId) :
    name = segmentPath segmentId ∧ segmentId ≤ maximumSegmentId := by
  unfold parseSegmentId at parsed
  split_ifs at parsed with shape digits
  rw [not_or, not_or, not_not, not_not, not_not] at shape
  obtain ⟨length, front, back⟩ := shape
  rw [Option.some.injEq] at parsed
  have width : (slice name 4 8).length = 8 := by simp [slice, length]
  have bound := Decimal.value_lt (slice name 4 8) digits
  have field := Decimal.padded_value (slice name 4 8) digits
  rw [width, parsed] at field
  rw [width, parsed] at bound
  have last : name.drop 12 = text ".seg" := by
    rw [← back, slice, List.take_of_length_le (by rw [List.length_drop]; omega)]
  refine ⟨?_, by simp only [maximumSegmentId]; omega⟩
  have inner := (List.take_append_drop 8 (name.drop 4)).symm
  rw [List.drop_drop, last] at inner
  rw [segmentPath, field, slice, ← inner, ← front, List.take_append_drop]

theorem segmentPath_injective (first second : Nat) (firstBound : first ≤ maximumSegmentId)
    (secondBound : second ≤ maximumSegmentId) (same : segmentPath first = segmentPath second) :
    first = second := by
  have parsed := parseSegmentId_segmentPath first firstBound
  rw [same, parseSegmentId_segmentPath second secondBound] at parsed
  exact (Option.some.inj parsed).symm

theorem fileAt_eq_some (directory : Directory) (name : Bytes) (file : File) :
    fileAt directory name = some file ↔ directory.lookup name = some (.regular file) := by
  unfold fileAt
  split
  next found same => simp [same]
  next absent =>
    constructor
    · intro impossible
      cases impossible
    · intro same
      exact False.elim (absent file same)

theorem fileAt_single {directory : Directory} {name key : Bytes} {file other : File}
    (only : directory.entries = [⟨name, .regular file⟩]) (found : fileAt directory key = some other) :
    key = name ∧ other = file := by
  rw [fileAt_eq_some, ← Option.mem_def, AList.mem_lookup_iff, only, List.mem_singleton] at found
  simpa using found

@[simp] theorem fileAt_store_self (directory : Directory) (name : Bytes) (file : File) :
    fileAt (store directory name file) name = some file := by
  rw [fileAt_eq_some]
  exact AList.lookup_insert directory

theorem fileAt_store_ne (directory : Directory) (name other : Bytes) (file : File) (different : other ≠ name) :
    fileAt (store directory name file) other = fileAt directory other := by
  simp only [fileAt, store, AList.lookup_insert_ne different]

theorem fileAt_update (directory : Directory) (name other : Bytes) (change : File → File) :
    fileAt (update directory name change) other =
      if other = name then (fileAt directory name).map change else fileAt directory other := by
  unfold update
  split
  next file found =>
    split_ifs with same
    · rw [same, fileAt_store_self, found, Option.map_some]
    · exact fileAt_store_ne directory name other _ same
  next absent =>
    split_ifs with same
    · rw [same, absent, Option.map_none]
    · rfl

theorem isSome_fileAt_update (disk : Directory) (path name : Bytes) (change : File → File) :
    (fileAt (update disk path change) name).isSome = (fileAt disk name).isSome := by
  rw [fileAt_update]
  split_ifs with same
  · rw [same, Option.isSome_map]
  · rfl

def SameFiles (first second : Directory) : Prop := ∀ name, first.lookup name = second.lookup name

theorem SameFiles.fileAt {first second : Directory} (same : SameFiles first second) (name : Bytes) :
    fileAt first name = fileAt second name := by
  simp only [Disk.fileAt, same name]

theorem SameFiles.trans {first second third : Directory} (same : SameFiles first second)
    (next : SameFiles second third) : SameFiles first third :=
  fun name => (same name).trans (next name)

theorem lookup_update_ne (directory : Directory) (name other : Bytes) (change : File → File)
    (different : other ≠ name) : (update directory name change).lookup other = directory.lookup other := by
  unfold update
  split
  · exact AList.lookup_insert_ne different
  · rfl

theorem update_same (directory : Directory) (name : Bytes) (change : File → File)
    (kept : ∀ file, fileAt directory name = some file → change file = file) :
    SameFiles (update directory name change) directory := by
  intro other
  by_cases same : other = name
  · unfold update
    split
    next file found =>
      rw [kept file found, same, store, AList.lookup_insert]
      exact ((fileAt_eq_some _ _ _).mp found).symm
    next absent => rfl
  · exact lookup_update_ne directory name other change same

theorem mem_segmentFiles (directory : Directory) (segmentId : Nat) (name : Bytes) :
    (segmentId, name) ∈ segmentFiles directory ↔
      parseSegmentId name = some segmentId ∧ (fileAt directory name).isSome := by
  rw [segmentFiles, List.mem_insertionSort, List.mem_filterMap]
  constructor
  · rintro ⟨⟨key, entry⟩, member, found⟩
    cases entry with
    | other => simp at found
    | regular file =>
      simp only [Option.map_eq_some_iff, Prod.mk.injEq] at found
      obtain ⟨id, parsed, rfl, rfl⟩ := found
      have here := (fileAt_eq_some directory key file).mpr (AList.mem_lookup_iff.mpr member)
      exact ⟨parsed, by rw [here]; rfl⟩
  · rintro ⟨parsed, present⟩
    obtain ⟨file, here⟩ := Option.isSome_iff_exists.mp present
    refine ⟨⟨name, .regular file⟩, AList.mem_lookup_iff.mp ((fileAt_eq_some _ _ _).mp here), ?_⟩
    simp [parsed]

theorem segmentFiles_nodup (directory : Directory) : (segmentFiles directory).Nodup := by
  rw [segmentFiles, (List.perm_insertionSort _ _).nodup_iff]
  have keys : directory.entries.Pairwise fun first second => first.1 ≠ second.1 := by
    have nodup := directory.nodupKeys
    rwa [List.NodupKeys, List.keys, List.Nodup, List.pairwise_map] at nodup
  apply keys.filterMap
  rintro ⟨firstName, firstEntry⟩ ⟨secondName, secondEntry⟩ different first firstFound second secondFound
  cases firstEntry with
  | other => simp at firstFound
  | regular =>
    cases secondEntry with
    | other => simp at secondFound
    | regular =>
      simp only [Option.map_eq_some_iff] at firstFound secondFound
      obtain ⟨_, _, rfl⟩ := firstFound
      obtain ⟨_, _, rfl⟩ := secondFound
      intro same
      exact different (congrArg Prod.snd same)

/-- `other` is the directory `disk` with `file` put under `name`. -/
structure Puts (disk : Directory) (name : Bytes) (file : File) (other : Directory) : Prop where
  here : fileAt other name = some file
  frame : ∀ key, key ≠ name → other.lookup key = disk.lookup key

theorem Puts.fileAt_ne {disk other : Directory} {name : Bytes} {file : File} (puts : Puts disk name file other)
    (key : Bytes) (different : key ≠ name) : fileAt other key = fileAt disk key := by
  simp only [fileAt, puts.frame key different]

theorem Puts.update {disk other : Directory} {name : Bytes} {file : File} (puts : Puts disk name file other)
    (change : File → File) : Puts disk name (change file) (update other name change) where
  here := by rw [fileAt_update, if_pos rfl, puts.here, Option.map_some]
  frame := fun key different => by rw [lookup_update_ne _ _ _ _ different, puts.frame key different]

theorem puts_update {disk : Directory} {name : Bytes} {file : File} (found : fileAt disk name = some file)
    (change : File → File) : Puts disk name (change file) (update disk name change) :=
  Puts.update ⟨found, fun _ _ => rfl⟩ change

end FleetGateway.Storage.Disk
