import FleetGateway.Storage.Corruption

/-! Crashes while a segment is being created. The new file may be empty, extended, or
hold part of its header; an open goes through exactly when the header is complete. -/

namespace FleetGateway.Storage.Creation
open Library Library.ByteStore Library.Run Format Record Disk Scan Segment Log RingBuffer Contents Recovery
  Operations Writing Damage Invariant Reopen Corruption

/-- The states of a log and the messages acknowledged in them: a directory without
segments, and every state of every run that starts with a successful open. -/
inductive LogState (segmentSize : Nat) : Store → List Message → Prop
  | fresh (store : Store) (closed : store.log.opened = false) (empty : segmentFiles store.disk = []) :
      LogState segmentSize store []
  | running (faults : Faults) (capacity : Nat) (start : Store)
      (opens : (openLog faults segmentSize capacity start).result = .ok ()) (steps : List (Faults × Operation))
      (history : History)
      (reached : history = run advance ⟨(openLog faults segmentSize capacity start).store, [], []⟩ steps) :
      LogState segmentSize history.store
        (acceptedMessages segmentSize start.disk (segmentFiles start.disk) 0 ++ history.appended)

/-- A call of `create_segment` with its arguments and the store it starts from: on the
first open of a directory without segments, or inside an append that has sealed a segment. -/
inductive Creating (segmentSize : Nat) (faults : Faults) (store : Store) : Operation → Nat → Nat → Store → Prop
  | opening (capacity : Nat) (closed : store.log.opened = false) (empty : segmentFiles store.disk = []) :
      Creating segmentSize faults store (.openLog segmentSize capacity) 1 0 store
  | rolling (payload : Bytes) (now : Int) (left : Store) (check : checkAppend payload store.log = .ok ())
      (full : needsRollover payload store.log) (done : unmapActive faults true store = ⟨.ok (), left⟩) :
      Creating segmentSize faults store (.append payload now) (left.log.active.segmentId + 1)
        left.log.nextMessageOffset left

/-- What a crash after one of the steps leaves in the new file: nothing, or a file of
full size with any part of the header in it. -/
def PartlyCreated (segmentSize id base : Nat) (bytes : Bytes) : Prop :=
  bytes = [] ∨ bytes.length = segmentSize ∧ ∀ (index : Nat) (byte : UInt8), bytes[index]? = some byte →
    byte = 0 ∨ (segmentHeader id base segmentSize)[index]? = some byte

/-- The directory after the crash: the new file, and the others as they were. -/
structure CreationImage (segmentSize id base : Nat) (disk image : Directory) (made : File) : Prop where
  here : fileAt image (segmentPath id) = some made
  shape : PartlyCreated segmentSize id base made.bytes
  others : ∀ name, name ≠ segmentPath id →
    (fileAt image name).map File.bytes = (fileAt disk name).map File.bytes

theorem partlyCreated_zeros (segmentSize id base : Nat) : PartlyCreated segmentSize id base (zeros segmentSize) := by
  refine Or.inr ⟨length_zeros _, fun index byte found => Or.inl ?_⟩
  exact getElem?_of_isZero _ _ _ (isZero_zeros _) found

theorem partlyCreated_newSegment (segmentSize id base : Nat) (enough : segmentHeaderSize ≤ segmentSize) :
    PartlyCreated segmentSize id base (newSegment segmentSize id base) := by
  have header := length_segmentHeader id base segmentSize
  have layout : newSegment segmentSize id base =
      segmentHeader id base segmentSize ++ zeros (segmentSize - segmentHeaderSize) := by
    rw [newSegment, overwrite, List.take_zero, List.nil_append, drop_zeros, Nat.zero_add, header]
    rfl
  rw [layout]
  refine Or.inr ⟨?_, fun index byte found => ?_⟩
  · rw [List.length_append, header, length_zeros]
    simp only [segmentHeaderSize] at enough ⊢
    omega
  · by_cases inside : index < (segmentHeader id base segmentSize).length
    · rw [List.getElem?_append_left inside] at found
      exact Or.inr found
    · rw [List.getElem?_append_right (by omega)] at found
      exact Or.inl (getElem?_of_isZero _ _ _ (isZero_zeros _) found)

/-- The file after every step of `create_segment` has one of these shapes. -/
theorem partlyCreated_steps (disk other : Directory) (segmentSize id base : Nat)
    (enough : segmentHeaderSize ≤ segmentSize)
    (step : other ∈ [fileCreated disk id, fileExtended disk segmentSize id,
      headerWritten disk segmentSize id base, headerSynced disk segmentSize id base]) :
    ∃ file, Puts disk (segmentPath id) file other ∧ PartlyCreated segmentSize id base file.bytes := by
  simp only [List.mem_cons, List.not_mem_nil, or_false] at step
  rcases step with rfl | rfl | rfl | rfl
  · exact ⟨_, puts_fileCreated disk id, Or.inl rfl⟩
  · exact ⟨_, puts_fileExtended disk segmentSize id, partlyCreated_zeros segmentSize id base⟩
  · exact ⟨_, puts_headerWritten disk segmentSize id base, partlyCreated_newSegment segmentSize id base enough⟩
  · exact ⟨_, puts_headerSynced disk segmentSize id base enough,
      partlyCreated_newSegment segmentSize id base enough⟩

section Image

variable {segmentSize : Nat} {disk image : Directory} {contents : List (List Message)} {made : File}

theorem newest_created (holds : Holds segmentSize disk contents) (small : contents.length + 1 ≤ maximumSegmentId)
    (crash : CreationImage segmentSize (contents.length + 1) (totalSize contents.flatten) disk image made) :
    Newest segmentSize image contents made := by
  have same : ∀ id, id ≤ maximumSegmentId → id ≠ contents.length + 1 →
      (fileAt image (segmentPath id)).map File.bytes = (fileAt disk (segmentPath id)).map File.bytes := by
    intro id bound different
    apply crash.others
    intro same
    exact different (segmentPath_injective _ _ bound small same)
  refine ⟨holds.allowed, ?_, ?_, small, holds.bounded, crash.here⟩
  · apply holdsFrom_congr segmentSize disk image 0 0 contents _ holds.files
    intro id _ high
    exact same id (by omega) (by omega)
  · intro id bound
    by_cases new : id = contents.length + 1
    · rw [new, crash.here]
      simp
    · have present := congrArg Option.isSome (same id bound new)
      rw [Option.isSome_map, Option.isSome_map] at present
      rw [present, holds.listed id bound]
      omega

theorem segmentFile_of_complete {id base : Nat} {bytes : Bytes} (allowed : SizeAllowed segmentSize)
    (shape : PartlyCreated segmentSize id base bytes)
    (complete : bytes.take 36 = segmentFields id base segmentSize) :
    SegmentFile segmentSize id base [] bytes := by
  have least := allowed.least
  have header := length_segmentHeader id base segmentSize
  rcases shape with rfl | ⟨length, parts⟩
  · have lengths := congrArg List.length complete
    rw [length_segmentFields, List.take_nil] at lengths
    cases lengths
  have padding : isZero (bytes.drop segmentHeaderSize) = true := by
    rw [isZero, List.all_eq_true]
    intro byte member
    obtain ⟨index, found⟩ := List.mem_iff_getElem?.mp member
    rw [List.getElem?_drop] at found
    rcases parts _ byte found with zero | inside
    · rw [zero]
      rfl
    · have bound := (List.getElem?_eq_some_iff.mp inside).1
      rw [header, segmentHeaderSize] at bound
      omega
  rw [isZero_iff, List.length_drop] at padding
  refine ⟨trivial, complete, ?_, ?_, by omega⟩
  · rw [padding, totalSize_nil, Nat.add_zero, encodeRecords_nil, List.nil_append]
  · rw [totalSize_nil]
    omega

/-- An open of the image goes through exactly when the header of the new file is complete,
and then it recovers the messages of the sealed segments. -/
theorem recovers_iff_complete (holds : Holds segmentSize disk contents)
    (small : contents.length + 1 ≤ maximumSegmentId)
    (crash : CreationImage segmentSize (contents.length + 1) (totalSize contents.flatten) disk image made) :
    (∀ capacity, 0 < capacity → Recovers segmentSize capacity ⟨{}, image⟩ contents.flatten) ↔
      made.bytes.take 36 = segmentFields (contents.length + 1) (totalSize contents.flatten) segmentSize := by
  have newest := newest_created holds small crash
  have idBound := maximumSegmentId_lt newest.count
  constructor
  · intro recovers
    -- a scan that passes has seen the whole header; one that does not makes the open throw
    cases scan : (scanSegment noFaults segmentSize (contents.length + 1) (segmentPath (contents.length + 1)) true
        (totalSize contents.flatten) made).result with
    | ok info => exact (scanSegment_passed idBound newest.allowed.bound scan).1.fields
    | error error =>
      obtain ⟨thrown, throws⟩ := openLog_throws ⟨{}, image⟩ 1 [] newest.allowed newest.files newest.bounded
        (by omega) newest.segmentFiles newest.found ⟨_, _, error, by rw [← scan]; rfl⟩
      have opened := (recovers 1 Nat.one_pos).1
      rw [throws] at opened
      cases opened
  · intro complete capacity positive
    have whole := segmentFile_of_complete newest.allowed crash.shape complete
    have bounded := newest.bounded
    obtain ⟨left, run, live, keeps⟩ := openLog_newest ⟨{}, image⟩ capacity newest rfl positive whole.opens
      (by rw [whole.scanned_eq, totalSize_nil]; exact bounded)
    rw [whole.scanned_eq] at live keeps
    have flatten : (contents ++ [[]]).flatten = contents.flatten := by simp
    rw [Recovers, run]
    refine ⟨rfl, ?_, fun count => ?_⟩
    · rw [nextOffset, live.next, flatten]
    · rw [Log.getRecent, keeps.getRecent, flatten]

end Image

theorem creating_holds {segmentSize id base : Nat} {store left : Store} {acknowledged : List Message}
    {faults : Faults} {operation : Operation} (allowed : SizeAllowed segmentSize)
    (state : LogState segmentSize store acknowledged)
    (creating : Creating segmentSize faults store operation id base left) :
    ∃ contents, Holds segmentSize left.disk contents ∧ contents.length + 1 ≤ maximumSegmentId ∧
      id = contents.length + 1 ∧ base = totalSize contents.flatten ∧ acknowledged = contents.flatten := by
  cases state with
  | fresh _ closed empty =>
    cases creating with
    | opening => exact ⟨[], holds_without_segments allowed empty, by decide, rfl, rfl, rfl⟩
    | rolling payload now left check =>
      simp only [checkAppend, closed, ↓reduceIte] at check
      cases check
  | running otherFaults capacity start opens steps history reached =>
    obtain ⟨contents, standing, flatten, _⟩ := run_sound otherFaults segmentSize capacity start opens steps
    rw [← reached] at standing flatten
    cases creating with
    | opening _ closed empty =>
      rcases standing with ⟨front, current, rfl, live⟩ | idle | blocked
      · rw [live.opened] at closed
        cases closed
      · rw [idle.holds.segmentFiles] at empty
        obtain ⟨messages, rest, cons⟩ := List.exists_cons_of_ne_nil idle.nonempty
        rw [cons] at empty
        cases empty
      · rw [segmentFiles_eq _ _ blocked.count blocked.listed] at empty
        cases empty
    | rolling payload now left check full done =>
      have isOpen : history.store.log.opened ≠ false := by
        intro closed
        simp only [checkAppend, closed, ↓reduceIte] at check
        cases check
      rcases standing with ⟨front, current, rfl, live⟩ | idle | blocked
      · obtain ⟨_, _, _, room⟩ := checkAppend_ok live payload check
        obtain rfl := unmapActive_sealed faults live done
        refine ⟨front ++ [current], sealedDisk_holds live.holds, ?_, ?_, live.next, flatten.symm⟩
        · rw [List.length_append, List.length_singleton]
          exact room full
        · rw [sealedStore, live.active, List.length_append, List.length_singleton]
          rfl
      · exact absurd idle.opened isOpen
      · exact absurd blocked.opened isOpen

/-- A crash inside `create_segment`, in any state of the log: the messages acknowledged
before it are recovered if and only if the new header is complete. -/
theorem creation_crash_recovers_iff (segmentSize : Nat) (allowed : SizeAllowed segmentSize) (store : Store)
    (acknowledged : List Message) (state : LogState segmentSize store acknowledged) (faults : Faults)
    (operation : Operation) (id base : Nat) (left : Store)
    (creating : Creating segmentSize faults store operation id base left) (image : Directory) (made : File)
    (crash : CreationImage segmentSize id base left.disk image made) :
    (∀ capacity, 0 < capacity → Recovers segmentSize capacity ⟨{}, image⟩ acknowledged) ↔
      made.bytes.take 36 = segmentFields id base segmentSize := by
  obtain ⟨contents, holds, small, rfl, rfl, rfl⟩ := creating_holds allowed state creating
  exact recovers_iff_complete holds small crash

theorem creationImage_of_puts {segmentSize id base : Nat} {disk image : Directory} {made : File}
    (puts : Puts disk (segmentPath id) made image) (shape : PartlyCreated segmentSize id base made.bytes) :
    CreationImage segmentSize id base disk image made where
  here := puts.here
  shape := shape
  others := fun name different => by rw [puts.fileAt_ne name different]

/-- A crash after the header of the second segment was written: the one message is recovered. -/
theorem creation_crash_recovers_iff_second_segment :
    let history := run advance ⟨(openLog noFaults 100 1 {}).store, [], []⟩ [(noFaults, .append [1, 2, 3] 5)]
    let acknowledged := acceptedMessages 100 ∅ (segmentFiles ∅) 0 ++ history.appended
    let left := (unmapActive noFaults true history.store).store
    let id := left.log.active.segmentId + 1
    let image := headerWritten left.disk 100 id left.log.nextMessageOffset
    let made : File := ⟨newSegment 100 id left.log.nextMessageOffset, 0⟩
    acknowledged.length = 1 ∧
    ((∀ capacity, 0 < capacity → Recovers 100 capacity ⟨{}, image⟩ acknowledged) ↔
      made.bytes.take 36 = segmentFields id left.log.nextMessageOffset 100) := by
  intro history acknowledged left id image made
  refine ⟨by decide +kernel, creation_crash_recovers_iff 100 ⟨by decide, by decide⟩ history.store acknowledged
    (.running noFaults 1 {} (by decide +kernel) _ history rfl) noFaults (.append (List.replicate 10 0) 6) id _ left
    (.rolling (List.replicate 10 0) 6 left (by decide +kernel) (by decide +kernel) rfl) image made ?_⟩
  exact creationImage_of_puts (puts_headerWritten left.disk 100 _ _)
    (partlyCreated_newSegment 100 _ _ (by decide))

/-- A crash after the second segment file was extended, before its header reached the
disk: the intact first segment can no longer be opened. -/
theorem creation_crash_unopenable :
    let history := run advance ⟨(openLog noFaults 100 1 {}).store, [], []⟩ [(noFaults, .append [1, 2, 3] 5)]
    let acknowledged := acceptedMessages 100 ∅ (segmentFiles ∅) 0 ++ history.appended
    let left := (unmapActive noFaults true history.store).store
    let id := left.log.active.segmentId + 1
    let image := fileExtended left.disk 100 id
    LogState 100 history.store acknowledged ∧
    Creating 100 noFaults history.store (.append (List.replicate 10 0) 6) id left.log.nextMessageOffset left ∧
    CreationImage 100 id left.log.nextMessageOffset left.disk image ⟨zeros 100, 0⟩ ∧
    (openLog noFaults 100 1 ⟨{}, image⟩).result =
      .error (.runtimeError "invalid segment header" (some (segmentPath 2))) ∧
    ¬ Recovers 100 1 ⟨{}, image⟩ acknowledged := by
  intro history acknowledged left id image
  have thrown : (openLog noFaults 100 1 ⟨{}, image⟩).result =
      .error (.runtimeError "invalid segment header" (some (segmentPath 2))) := by decide +kernel
  refine ⟨.running noFaults 1 {} (by decide +kernel) _ history rfl,
    .rolling (List.replicate 10 0) 6 left (by decide +kernel) (by decide +kernel) rfl,
    creationImage_of_puts (puts_fileExtended left.disk 100 id) (partlyCreated_zeros 100 _ _), thrown, ?_⟩
  intro recovers
  have opened := recovers.1
  rw [thrown] at opened
  cases opened

end FleetGateway.Storage.Creation
