import FleetGateway.Storage.Contents

/-! `recover_or_create` read against the directory contents. Scanning whole files
changes nothing and rebuilds their index; a recovery that succeeds, on any
directory, leaves whole files behind. -/

namespace FleetGateway.Storage.Recovery
open Library Library.ByteStore Format Record Disk Scan Segment Log RingBuffer Contents

/-- The messages that the scan of the listed files accepts, in order. -/
def acceptedMessages (segmentSize : Nat) (disk : Directory) : List (Nat × Bytes) → Nat → List Message
  | [], _ => []
  | (id, path) :: rest, expectedOffset =>
    let scan := scanSegment noFaults segmentSize id path rest.isEmpty expectedOffset
      ((fileAt disk path).getD ⟨[], 0⟩)
    scan.messages ++ match scan.result with
      | .ok info => acceptedMessages segmentSize disk rest info.endOffset
      | .error _ => []

/-- The messages that the files hold. -/
def messagesIn (segmentSize : Nat) (disk : Directory) : List Message :=
  acceptedMessages segmentSize disk (segmentFiles disk) 0

def indexed (log : MemoryMappedLog) (before base : Nat) (contents : List (List Message)) : MemoryMappedLog :=
  { log with recentCache := pushAll log.recentCache contents.flatten
             segmentIndex := log.segmentIndex ++ indexFrom before base contents }

theorem pushAll_append {α : Type} (buffer : CircularBuffer α) (front back : List α) :
    pushAll (pushAll buffer front) back = pushAll buffer (front ++ back) := by
  rw [pushAll, pushAll, pushAll, List.foldl_append]

theorem indexed_cons (log : MemoryMappedLog) (before base : Nat) (messages : List Message)
    (rest : List (List Message)) :
    indexed (indexed log before base [messages]) (before + 1) (base + totalSize messages) rest =
      indexed log before base (messages :: rest) := by
  simp only [indexed, pushAll_append, List.flatten_cons, List.flatten_nil, List.append_nil, indexFrom,
    List.append_assoc, List.singleton_append]

def Touched (first second : MemoryMappedLog) : Prop :=
  ∃ cache index, second = { first with recentCache := cache, segmentIndex := index }

theorem indexed_touched (log : MemoryMappedLog) (before base : Nat) (contents : List (List Message)) :
    Touched log (indexed log before base contents) :=
  ⟨_, _, rfl⟩

theorem Touched.trans {first second third : MemoryMappedLog} (step : Touched first second)
    (next : Touched second third) : Touched first third := by
  obtain ⟨_, _, rfl⟩ := step
  obtain ⟨cache, index, rfl⟩ := next
  exact ⟨cache, index, rfl⟩

section Whole

variable {segmentSize : Nat}

theorem accepted_whole (disk : Directory) (contents : List (List Message)) (before base : Nat)
    (rest : List (Nat × Bytes)) (allowed : SizeAllowed segmentSize)
    (holds : HoldsFrom segmentSize disk before base contents) (bounded : base + totalSize contents.flatten ≤ maxU64)
    (small : before + contents.length ≤ maximumSegmentId) :
    acceptedMessages segmentSize disk (filesFrom before contents.length ++ rest) base =
      contents.flatten ++ acceptedMessages segmentSize disk rest (base + totalSize contents.flatten) := by
  induction contents generalizing before base with
  | nil => rfl
  | cons messages others ih =>
    obtain ⟨⟨file, found, whole⟩, behind⟩ := holds
    simp only [List.flatten_cons, totalSize_append, List.length_cons] at bounded small
    have clean := whole.scanSegment (maximumSegmentId_lt (by omega)) allowed.bound (by omega)
      (filesFrom (before + 1) others.length ++ rest).isEmpty file.durable
    have later := ih (before + 1) (base + totalSize messages) behind (by omega) (by omega)
    calc
      acceptedMessages segmentSize disk (filesFrom before (messages :: others).length ++ rest) base =
          messages ++ acceptedMessages segmentSize disk (filesFrom (before + 1) others.length ++ rest)
            (base + totalSize messages) := by
        rw [List.length_cons, filesFrom, List.cons_append, acceptedMessages, found, Option.getD_some]
        simp only [clean]
        rfl
      _ = (messages :: others).flatten ++
          acceptedMessages segmentSize disk rest (base + totalSize (messages :: others).flatten) := by
        rw [later, List.flatten_cons, totalSize_append, List.append_assoc, Nat.add_assoc]

theorem recoverSegments_step (faults : Faults) (before base : Nat) (messages : List Message)
    (rest : List (Nat × Bytes)) (store : Store) (allowed : SizeAllowed segmentSize)
    (sized : store.log.segmentSize = segmentSize) (file : File)
    (found : fileAt store.disk (segmentPath (before + 1)) = some file)
    (whole : SegmentFile segmentSize (before + 1) base messages file.bytes)
    (bounded : base + totalSize messages ≤ maxU64) (small : before + 1 ≤ maximumSegmentId) :
    let run := recoverSegments faults before ((before + 1, segmentPath (before + 1)) :: rest) base store
    (∃ error left, run = ⟨.error error, left⟩ ∧ faults ≠ noFaults ∧ SameFiles left.disk store.disk ∧
      Touched store.log left.log) ∨
    (∃ left, run = recoverSegments faults (before + 1) rest (base + totalSize messages) left ∧
      SameFiles left.disk store.disk ∧ left.log = indexed store.log before base [messages]) := by
  intro run
  subst sized
  have kept := whole.scanSegment_file bounded faults (segmentPath (before + 1)) rest.isEmpty
  have clean := whole.scanSegment (maximumSegmentId_lt small) allowed.bound bounded rest.isEmpty file.durable
  have unchanged : SameFiles (update store.disk (segmentPath (before + 1)) fun _ =>
      (Scan.scanSegment faults store.log.segmentSize (before + 1) (segmentPath (before + 1)) rest.isEmpty base
        file).file) store.disk := by
    apply update_same
    intro other same
    rw [kept]
    exact Option.some.inj (found.symm.trans same)
  simp only [run, recoverSegments, ne_eq, not_true_eq_false, ↓reduceIte, found, Option.getD_some]
  cases outcome : (Scan.scanSegment faults store.log.segmentSize (before + 1) (segmentPath (before + 1))
      rest.isEmpty base file).result with
  | error error =>
    refine Or.inl ⟨error, _, rfl, ?_, unchanged, _, _, rfl⟩
    intro quiet
    rw [quiet, clean] at outcome
    cases outcome
  | ok info =>
    have calm := scanSegment_faults (maximumSegmentId_lt small) allowed.bound outcome
    rw [calm, clean] at outcome unchanged ⊢
    rw [← Except.ok.inj outcome]
    refine Or.inr ⟨_, rfl, unchanged, ?_⟩
    simp [indexed, indexFrom]

theorem recoverSegments_holds (faults : Faults) (contents : List (List Message)) (before base : Nat)
    (rest : List (Nat × Bytes)) (store : Store) (allowed : SizeAllowed segmentSize)
    (sized : store.log.segmentSize = segmentSize)
    (holds : HoldsFrom segmentSize store.disk before base contents)
    (bounded : base + totalSize contents.flatten ≤ maxU64)
    (small : before + contents.length ≤ maximumSegmentId) :
    let run := recoverSegments faults before (filesFrom before contents.length ++ rest) base store
    (∃ error left, run = ⟨.error error, left⟩ ∧ faults ≠ noFaults ∧ SameFiles left.disk store.disk ∧
      Touched store.log left.log) ∨
    (∃ left, run = recoverSegments faults (before + contents.length) rest
        (base + totalSize contents.flatten) left ∧
      SameFiles left.disk store.disk ∧ left.log = indexed store.log before base contents) := by
  induction contents generalizing before base store with
  | nil =>
    refine Or.inr ⟨store, rfl, fun _ => rfl, ?_⟩
    simp [indexed, pushAll, indexFrom]
  | cons messages others ih =>
    obtain ⟨⟨file, found, whole⟩, holds⟩ := holds
    simp only [List.flatten_cons, totalSize_append, List.length_cons] at bounded small
    rcases recoverSegments_step faults before base messages (filesFrom (before + 1) others.length ++ rest) store
      allowed sized file found whole (by omega) (by omega) with failed | ⟨left, run, same, log⟩
    · exact Or.inl failed
    have stillSized : left.log.segmentSize = segmentSize := by
      rw [log, ← sized]
      rfl
    have stillHolds := holdsFrom_congr segmentSize store.disk left.disk (before + 1) _ others
      (fun id _ _ => by rw [same.fileAt]) holds
    simp only [List.length_cons, filesFrom, List.cons_append, List.flatten_cons, totalSize_append]
    rw [run]
    rcases ih (before + 1) (base + totalSize messages) left stillSized stillHolds (by omega) (by omega) with
      ⟨error, final, failed, faulty, after, touched⟩ | ⟨final, finished, after, done⟩
    · refine Or.inl ⟨error, final, failed, faulty, after.trans same, ?_⟩
      rw [log] at touched
      exact (indexed_touched _ _ _ _).trans touched
    · refine Or.inr ⟨final, ?_, after.trans same, ?_⟩
      · rw [finished, Nat.add_assoc before 1, Nat.add_comm 1, Nat.add_assoc base]
      · rw [done, log, indexed_cons]

end Whole

/-- A recovery that succeeds has read every listed file, keeps the names it did not
list, and leaves whole segments whose messages are those the scan accepted. -/
theorem recoverSegments_sound {segmentSize : Nat} (faults : Faults) (original : Directory)
    (files : List (Nat × Bytes)) (before base : Nat) (store left : Store) (expected : Nat)
    (allowed : SizeAllowed segmentSize) (sized : store.log.segmentSize = segmentSize) (start : base ≤ maxU64)
    (listed : ∀ id name, (id, name) ∈ files → parseSegmentId name = some id ∧
      (fileAt store.disk name).isSome ∧ fileAt store.disk name = fileAt original name)
    (distinct : files.Nodup)
    (done : recoverSegments faults before files base store = ⟨.ok expected, left⟩) :
    ∃ contents, files = filesFrom before contents.length ∧ expected = base + totalSize contents.flatten ∧
      expected ≤ maxU64 ∧ left.log = indexed store.log before base contents ∧
      HoldsFrom segmentSize left.disk before base contents ∧
      contents.flatten = acceptedMessages segmentSize original files base ∧
      (∀ name, (∀ id, (id, name) ∉ files) → left.disk.lookup name = store.disk.lookup name) ∧
      (∀ name, (fileAt left.disk name).isSome = (fileAt store.disk name).isSome) := by
  induction files generalizing before base store with
  | nil =>
    simp only [recoverSegments, Outcome.mk.injEq, Except.ok.injEq] at done
    obtain ⟨rfl, rfl⟩ := done
    refine ⟨[], rfl, rfl, start, ?_, trivial, rfl, fun _ _ => rfl, fun _ => rfl⟩
    simp [indexed, pushAll, indexFrom]
  | cons entry rest ih =>
    obtain ⟨id, path⟩ := entry
    subst sized
    obtain ⟨parsed, present, originally⟩ := listed id path List.mem_cons_self
    obtain ⟨named, idBound⟩ := segmentPath_of_parse path id parsed
    obtain ⟨file, found⟩ := Option.isSome_iff_exists.mp present
    simp only [recoverSegments, found, Option.getD_some] at done
    split at done
    · cases done
    next order =>
    rw [ne_eq, not_not] at order
    cases outcome : (Scan.scanSegment faults store.log.segmentSize id path rest.isEmpty base file).result with
    | error error =>
      rw [outcome] at done
      cases done
    | ok info =>
      obtain ⟨entryEq, whole, within, _⟩ := scanSegment_sound (maximumSegmentId_lt idBound) allowed.bound start
        outcome
      have calm := scanSegment_faults (maximumSegmentId_lt idBound) allowed.bound outcome
      simp only [outcome] at done
      rw [entryEq] at done
      generalize scanEq : Scan.scanSegment faults store.log.segmentSize id path rest.isEmpty base file = scan at *
      have apart : ∀ other name, (other, name) ∈ rest → name ≠ path := by
        intro other name member same
        have alike := (listed other name (List.mem_cons_of_mem _ member)).1
        rw [same, parsed, Option.some.injEq] at alike
        rw [← alike, same] at member
        exact (List.nodup_cons.mp distinct).1 member
      have frame : ∀ name, name ≠ path →
          fileAt (update store.disk path fun _ => scan.file) name = fileAt store.disk name := by
        intro name different
        rw [fileAt_update, if_neg different]
      have here : fileAt (update store.disk path fun _ => scan.file) path = some scan.file := by
        rw [fileAt_update, if_pos rfl, found, Option.map_some]
      obtain ⟨contents, files, total, bound, log, holds, accepted, kept, presence⟩ :=
        ih (before + 1) (base + totalSize scan.messages)
        ⟨indexed store.log before base [scan.messages], update store.disk path fun _ => scan.file⟩ rfl within
        (fun other name member => by
          have facts := listed other name (List.mem_cons_of_mem _ member)
          rw [frame name (apart other name member)]
          exact facts) (List.nodup_cons.mp distinct).2
        (by rw [← done]; simp [indexed, indexFrom, segmentInfo, order, named])
      have unlisted : ∀ other, (other, path) ∉ rest := fun other member => apart other path member rfl
      refine ⟨scan.messages :: contents, ?_, ?_, bound, ?_, ⟨⟨scan.file, ?_, ?_⟩, holds⟩, ?_, ?_, ?_⟩
      · rw [files, List.length_cons, filesFrom, named, order]
      · rw [total, List.flatten_cons, totalSize_append, Nat.add_assoc]
      · rw [log, indexed_cons]
      · rw [← order, ← named, ← here]
        simp only [fileAt, kept path unlisted]
      · rw [← order]
        exact whole
      · rw [acceptedMessages, ← originally, found, Option.getD_some, ← calm]
        simp only [outcome, entryEq, List.flatten_cons, accepted]
      · intro name unknown
        have outside : ∀ other, (other, name) ∉ rest := fun other member =>
          unknown other (List.mem_cons_of_mem _ member)
        have different : name ≠ path := by
          rintro rfl
          exact unknown id List.mem_cons_self
        rw [kept name outside]
        exact lookup_update_ne _ _ _ _ different
      · exact fun name => (presence name).trans (isSome_fileAt_update _ _ _ _)

end FleetGateway.Storage.Recovery
