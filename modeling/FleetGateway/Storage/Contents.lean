import FleetGateway.Storage.Log

/-! What the directory holds, seen as a list of segments, each a list of messages.
Segment `index + 1` starts at the offset where the segments before it end. -/

namespace FleetGateway.Storage.Contents
open Library Library.ByteStore Format Record Disk Scan Segment Log

def indexFrom : Nat → Nat → List (List Message) → List LogSegmentInfo
  | _, _, [] => []
  | before, base, messages :: rest =>
    segmentInfo (before + 1) base messages :: indexFrom (before + 1) (base + totalSize messages) rest

def filesFrom : Nat → Nat → List (Nat × Bytes)
  | _, 0 => []
  | before, count + 1 => (before + 1, segmentPath (before + 1)) :: filesFrom (before + 1) count

def HoldsFrom (segmentSize : Nat) (disk : Directory) : Nat → Nat → List (List Message) → Prop
  | _, _, [] => True
  | before, base, messages :: rest =>
    (∃ file, fileAt disk (segmentPath (before + 1)) = some file ∧
      SegmentFile segmentSize (before + 1) base messages file.bytes) ∧
    HoldsFrom segmentSize disk (before + 1) (base + totalSize messages) rest

structure SizeAllowed (segmentSize : Nat) : Prop where
  least : segmentHeaderSize + recordHeaderSize + 1 ≤ segmentSize
  most : segmentSize ≤ maxOffT

/-- The directory holds these segments and no other segment file. -/
structure Holds (segmentSize : Nat) (disk : Directory) (contents : List (List Message)) : Prop where
  allowed : SizeAllowed segmentSize
  files : HoldsFrom segmentSize disk 0 0 contents
  listed : ∀ id, id ≤ maximumSegmentId →
    ((fileAt disk (segmentPath id)).isSome ↔ 1 ≤ id ∧ id ≤ contents.length)
  count : contents.length ≤ maximumSegmentId
  bounded : totalSize contents.flatten ≤ maxU64

theorem SizeAllowed.bound {segmentSize : Nat} (allowed : SizeAllowed segmentSize) : segmentSize < 2 ^ 64 := by
  have most := allowed.most
  simp only [maxOffT] at most
  omega

theorem SizeAllowed.accepted {segmentSize : Nat} (allowed : SizeAllowed segmentSize) :
    ¬ (segmentSize < segmentHeaderSize + recordHeaderSize + 1 ∨ maxU64 < segmentSize ∨ maxOffT < segmentSize) := by
  have least := allowed.least
  have most := allowed.most
  have bound := allowed.bound
  simp only [maxU64]
  omega

theorem holds_without_segments {segmentSize : Nat} {disk : Directory} (allowed : SizeAllowed segmentSize)
    (empty : segmentFiles disk = []) : Holds segmentSize disk [] where
  allowed := allowed
  files := trivial
  listed := by
    intro id bound
    have member := mem_segmentFiles disk id (segmentPath id)
    rw [empty, parseSegmentId_segmentPath id bound] at member
    simp only [List.not_mem_nil, true_and, false_iff] at member
    constructor
    · exact fun present => absurd present member
    · intro range
      rw [List.length_nil] at range
      omega
  count := Nat.zero_le _
  bounded := Nat.zero_le _

theorem indexFrom_append (before base : Nat) (front back : List (List Message)) :
    indexFrom before base (front ++ back) = indexFrom before base front ++
      indexFrom (before + front.length) (base + totalSize front.flatten) back := by
  induction front generalizing before base with
  | nil => simp [indexFrom]
  | cons messages rest ih =>
    simp only [List.cons_append, indexFrom, ih, List.flatten_cons, totalSize_append, List.length_cons,
      Nat.add_assoc, Nat.add_comm 1]

theorem getElem?_indexFrom (before base : Nat) (contents : List (List Message)) (index : Nat) :
    (indexFrom before base contents)[index]? = contents[index]?.map fun messages =>
      segmentInfo (before + index + 1) (base + totalSize (contents.take index).flatten) messages := by
  induction contents generalizing before base index with
  | nil => simp [indexFrom]
  | cons messages rest ih =>
    cases index with
    | zero => simp [indexFrom]
    | succ index =>
      rw [indexFrom, List.getElem?_cons_succ, List.getElem?_cons_succ, ih, List.take_succ_cons,
        List.flatten_cons, totalSize_append, Nat.add_assoc before 1, Nat.add_comm 1 index, Nat.add_assoc base]

theorem length_indexFrom (before base : Nat) (contents : List (List Message)) :
    (indexFrom before base contents).length = contents.length := by
  induction contents generalizing before base with
  | nil => rfl
  | cons messages rest ih => rw [indexFrom, List.length_cons, List.length_cons, ih]

theorem filesFrom_add (before first second : Nat) :
    filesFrom before (first + second) = filesFrom before first ++ filesFrom (before + first) second := by
  induction first generalizing before with
  | zero => simp [filesFrom]
  | succ first ih =>
    rw [Nat.add_right_comm, filesFrom, ih, filesFrom, List.cons_append, Nat.add_assoc before 1 first,
      Nat.add_comm 1 first]

theorem holdsFrom_append (segmentSize : Nat) (disk : Directory) (before base : Nat)
    (front back : List (List Message)) :
    HoldsFrom segmentSize disk before base (front ++ back) ↔ HoldsFrom segmentSize disk before base front ∧
      HoldsFrom segmentSize disk (before + front.length) (base + totalSize front.flatten) back := by
  induction front generalizing before base with
  | nil => simp [HoldsFrom]
  | cons messages rest ih =>
    simp only [List.cons_append, HoldsFrom, ih, List.flatten_cons, totalSize_append, List.length_cons,
      Nat.add_assoc, Nat.add_comm 1, and_assoc]

theorem holdsFrom_getElem? (segmentSize : Nat) (disk : Directory) (before base : Nat)
    (contents : List (List Message)) (index : Nat) (messages : List Message)
    (holds : HoldsFrom segmentSize disk before base contents) (found : contents[index]? = some messages) :
    ∃ file, fileAt disk (segmentPath (before + index + 1)) = some file ∧ SegmentFile segmentSize
      (before + index + 1) (base + totalSize (contents.take index).flatten) messages file.bytes := by
  have inside := (List.getElem?_eq_some_iff.mp found).1
  have split : contents = contents.take index ++ messages :: contents.drop (index + 1) := by
    rw [← (List.getElem?_eq_some_iff.mp found).2, ← List.drop_eq_getElem_cons, List.take_append_drop]
  rw [split, holdsFrom_append] at holds
  have length : (contents.take index).length = index := by rw [List.length_take]; omega
  rw [length] at holds
  exact holds.2.1

/-- The segments depend only on the bytes of their own files. -/
theorem holdsFrom_congr (segmentSize : Nat) (first second : Directory) (before base : Nat)
    (contents : List (List Message))
    (same : ∀ id, before < id → id ≤ before + contents.length →
      (fileAt second (segmentPath id)).map File.bytes = (fileAt first (segmentPath id)).map File.bytes)
    (holds : HoldsFrom segmentSize first before base contents) :
    HoldsFrom segmentSize second before base contents := by
  induction contents generalizing before base with
  | nil => trivial
  | cons messages rest ih =>
    obtain ⟨⟨file, found, whole⟩, holds⟩ := holds
    have here := same (before + 1) (by omega) (by simp)
    rw [found, Option.map_some, Option.map_eq_some_iff] at here
    obtain ⟨other, present, bytes⟩ := here
    refine ⟨⟨other, present, bytes ▸ whole⟩, ih (before + 1) _ ?_ holds⟩
    intro id low high
    exact same id (by omega) (by simp only [List.length_cons]; omega)

theorem mem_filesFrom (before count id : Nat) (name : Bytes) :
    (id, name) ∈ filesFrom before count ↔ before < id ∧ id ≤ before + count ∧ name = segmentPath id := by
  induction count generalizing before with
  | zero =>
    simp only [filesFrom, List.not_mem_nil, false_iff]
    omega
  | succ count ih =>
    simp only [filesFrom, List.mem_cons, Prod.mk.injEq, ih]
    constructor
    · rintro (⟨rfl, rfl⟩ | ⟨low, high, rfl⟩)
      · exact ⟨by omega, by omega, rfl⟩
      · exact ⟨by omega, by omega, rfl⟩
    · rintro ⟨low, high, rfl⟩
      by_cases first : id = before + 1
      · exact Or.inl ⟨first, by rw [first]⟩
      · exact Or.inr ⟨by omega, by omega, rfl⟩

theorem filesFrom_sorted (before count : Nat) :
    (filesFrom before count).Pairwise fun left right => left.1 < right.1 := by
  induction count generalizing before with
  | zero => exact List.Pairwise.nil
  | succ count ih =>
    rw [filesFrom, List.pairwise_cons]
    refine ⟨?_, ih (before + 1)⟩
    rintro ⟨id, name⟩ member
    rw [mem_filesFrom] at member
    exact member.1

theorem segmentFiles_eq (disk : Directory) (count : Nat) (small : count ≤ maximumSegmentId)
    (listed : ∀ id, id ≤ maximumSegmentId →
      ((fileAt disk (segmentPath id)).isSome ↔ 1 ≤ id ∧ id ≤ count)) :
    segmentFiles disk = filesFrom 0 count := by
  have sorted := filesFrom_sorted 0 count
  apply @List.Perm.eq_of_pairwise _ fun left right : Nat × Bytes => left.1 ≤ right.1
  · rintro ⟨left, leftName⟩ ⟨right, rightName⟩ leftMember rightMember low high
    have same : left = right := le_antisymm low high
    rw [mem_segmentFiles] at leftMember
    rw [mem_filesFrom] at rightMember
    rw [(segmentPath_of_parse _ _ leftMember.1).1, rightMember.2.2, same]
  · exact List.pairwise_insertionSort _ _
  · exact sorted.imp (fun low => le_of_lt low)
  · rw [List.perm_ext_iff_of_nodup (segmentFiles_nodup disk) (sorted.imp fun low same => by
      rw [same] at low; exact lt_irrefl _ low)]
    rintro ⟨id, name⟩
    rw [mem_segmentFiles, mem_filesFrom]
    constructor
    · rintro ⟨parsed, present⟩
      obtain ⟨rfl, bound⟩ := segmentPath_of_parse _ _ parsed
      have range := (listed id bound).mp present
      exact ⟨by omega, by omega, rfl⟩
    · rintro ⟨low, high, rfl⟩
      exact ⟨parseSegmentId_segmentPath id (by omega), (listed id (by omega)).mpr ⟨by omega, by omega⟩⟩

theorem Holds.segmentFiles {segmentSize : Nat} {disk : Directory} {contents : List (List Message)}
    (holds : Holds segmentSize disk contents) : segmentFiles disk = filesFrom 0 contents.length :=
  segmentFiles_eq disk contents.length holds.count holds.listed

section Changing

variable {segmentSize : Nat} {disk : Directory} {front : List (List Message)} {current : List Message}

theorem Holds.congr {other : Directory} {contents : List (List Message)} (holds : Holds segmentSize disk contents)
    (same : SameFiles other disk) : Holds segmentSize other contents where
  allowed := holds.allowed
  files := holdsFrom_congr segmentSize disk other 0 0 contents (fun id _ _ => by rw [same.fileAt]) holds.files
  listed := fun id bound => by rw [same.fileAt]; exact holds.listed id bound
  count := holds.count
  bounded := holds.bounded

theorem Holds.last (holds : Holds segmentSize disk (front ++ [current])) :
    ∃ file, fileAt disk (segmentPath (front.length + 1)) = some file ∧
      SegmentFile segmentSize (front.length + 1) (totalSize front.flatten) current file.bytes := by
  have files := ((holdsFrom_append segmentSize disk 0 0 front [current]).mp holds.files).2.1
  rwa [Nat.zero_add, Nat.zero_add] at files

theorem Holds.count_lt (holds : Holds segmentSize disk (front ++ [current])) :
    front.length + 1 ≤ maximumSegmentId := by
  have count := holds.count
  rwa [List.length_append, List.length_singleton] at count

theorem Holds.update_last (holds : Holds segmentSize disk (front ++ [current])) (change : File → File)
    (next : List Message)
    (whole : ∀ file, fileAt disk (segmentPath (front.length + 1)) = some file →
      SegmentFile segmentSize (front.length + 1) (totalSize front.flatten) current file.bytes →
      SegmentFile segmentSize (front.length + 1) (totalSize front.flatten) next (change file).bytes)
    (bounded : totalSize (front ++ [next]).flatten ≤ maxU64) :
    Holds segmentSize (update disk (segmentPath (front.length + 1)) change) (front ++ [next]) := by
  obtain ⟨file, found, before⟩ := holds.last
  have small := holds.count_lt
  refine ⟨holds.allowed, ?_, ?_, by simpa using small, bounded⟩
  · rw [holdsFrom_append]
    refine ⟨?_, ⟨change file, ?_, ?_⟩, trivial⟩
    · apply holdsFrom_congr segmentSize disk _ 0 0 front _
        ((holdsFrom_append segmentSize disk 0 0 front [current]).mp holds.files).1
      intro id _ high
      have different : segmentPath id ≠ segmentPath (front.length + 1) := by
        intro same
        have ids := segmentPath_injective _ _ (by omega) small same
        omega
      rw [fileAt_update, if_neg different]
    · rw [Nat.zero_add, fileAt_update, if_pos rfl, found, Option.map_some]
    · rw [Nat.zero_add, Nat.zero_add]
      exact whole file found before
  · intro id bound
    have present : (fileAt (update disk (segmentPath (front.length + 1)) change) (segmentPath id)).isSome =
        (fileAt disk (segmentPath id)).isSome := by
      rw [fileAt_update]
      split_ifs with same
      · rw [same, Option.isSome_map]
      · rfl
    rw [present, holds.listed id bound]
    simp

theorem Holds.add {other : Directory} {contents : List (List Message)} (holds : Holds segmentSize disk contents)
    (file : File) (small : contents.length + 1 ≤ maximumSegmentId)
    (here : fileAt other (segmentPath (contents.length + 1)) = some file)
    (frame : ∀ name, name ≠ segmentPath (contents.length + 1) → fileAt other name = fileAt disk name)
    (whole : SegmentFile segmentSize (contents.length + 1) (totalSize contents.flatten) [] file.bytes) :
    Holds segmentSize other (contents ++ [[]]) := by
  have apart : ∀ id, id ≤ maximumSegmentId → id ≠ contents.length + 1 →
      segmentPath id ≠ segmentPath (contents.length + 1) := by
    intro id bound different same
    exact different (segmentPath_injective _ _ bound small same)
  have count := holds.count
  refine ⟨holds.allowed, ?_, ?_, by simpa using small, by simpa using holds.bounded⟩
  · rw [holdsFrom_append]
    refine ⟨?_, ⟨file, by rw [Nat.zero_add]; exact here, by rw [Nat.zero_add, Nat.zero_add]; exact whole⟩, trivial⟩
    apply holdsFrom_congr segmentSize disk other 0 0 contents _ holds.files
    intro id _ high
    rw [frame _ (apart id (by omega) (by omega))]
  · intro id bound
    rw [List.length_append, List.length_singleton]
    by_cases new : id = contents.length + 1
    · rw [new, here]
      simp
    · rw [frame _ (apart id bound new), holds.listed id bound]
      omega

end Changing

end FleetGateway.Storage.Contents
