import FleetGateway.Storage.Corruption
import FleetGateway.Storage.Durability

/-! Crashes outside the creation of a segment. What a completed sync covers survives;
behind the last synced record the newest file may hold anything. -/

namespace FleetGateway.Storage.Crash
open Library Library.ByteStore Library.Run Format Record Disk Scan Segment Log RingBuffer Contents Recovery
  Operations Writing Damage Invariant Reopen Corruption Durability

/-- The state in which an append starts to copy its record. A rollover that came
before has made every acknowledged message safe. -/
inductive Ready (faults : Faults) (payload : Bytes) (progress : Progress) : Progress → Prop
  | inPlace (check : checkAppend payload progress.store.log = .ok ())
      (room : ¬ needsRollover payload progress.store.log) : Ready faults payload progress progress
  | rolled (left : Store) (check : checkAppend payload progress.store.log = .ok ())
      (full : needsRollover payload progress.store.log) (done : rollOver faults progress.store = ⟨.ok (), left⟩) :
      Ready faults payload progress ⟨left, progress.acknowledged, progress.acknowledged⟩

def afterScan (faults : Faults) (size capacity : Nat) (store : Store) : Store :=
  (recoverSegments faults 0 (segmentFiles store.disk) 0 ⟨{ store.log with
    segmentSize := size, recentCache := ofCapacity capacity, nextMessageOffset := 0, segmentIndex := [] },
    store.disk⟩).store

def tornPayload (payload : Bytes) (count : Nat) (store : Store) : Store :=
  copyToActive (store.log.active.writePosition + recordHeaderSize) (payload.take count) store

def tornHeader (payload : Bytes) (now : Int) (count : Nat) (store : Store) : Store :=
  let message := nextMessage payload now store.log
  copyToActive store.log.active.writePosition
    ((recordHeader message.offset message.timestampNs payload).take count) (copyPayload message store)

/-- The states in which an operation can be cut off while no segment is being created:
between its calls, and at every byte of the two copies of an append. -/
inductive Interrupted (faults : Faults) (progress : Progress) : Operation → Progress → Prop
  | before (operation : Operation) : Interrupted faults progress operation progress
  | after (operation : Operation) : Interrupted faults progress operation (proceed progress (faults, operation))
  | scanned (size capacity : Nat) (closed : progress.store.log.opened = false) :
      Interrupted faults progress (.openLog size capacity)
        { progress with store := afterScan faults size capacity progress.store }
  | unmapped (payload : Bytes) (now : Int) (left : Store)
      (check : checkAppend payload progress.store.log = .ok ())
      (full : needsRollover payload progress.store.log)
      (done : unmapActive faults true progress.store = ⟨.ok (), left⟩) :
      Interrupted faults progress (.append payload now) { progress with store := left }
  | started (payload : Bytes) (now : Int) (started : Progress) (ready : Ready faults payload progress started) :
      Interrupted faults progress (.append payload now) started
  | copyingPayload (payload : Bytes) (now : Int) (started : Progress)
      (ready : Ready faults payload progress started) (count : Nat) :
      Interrupted faults progress (.append payload now)
        { started with store := tornPayload payload count started.store }
  | copyingHeader (payload : Bytes) (now : Int) (started : Progress)
      (ready : Ready faults payload progress started) (count : Nat) :
      Interrupted faults progress (.append payload now)
        { started with store := tornHeader payload now count started.store }

/-- The leading bytes of a file that survive: those a sync covers, and in the mapped
segment none behind its last record. -/
def syncedEnd (store : Store) (name : Bytes) (file : File) : Nat :=
  if name = store.log.active.path then min file.durable store.log.active.writePosition else file.durable

/-- A directory that the file system may show after the crash. -/
structure CrashImage (segmentSize : Nat) (store : Store) (image : Directory) : Prop where
  files : ∀ name file, fileAt store.disk name = some file → ∃ survivor, fileAt image name = some survivor ∧
    survivor.bytes.take (syncedEnd store name file) = file.bytes.take (syncedEnd store name file) ∧
    syncedEnd store name file ≤ survivor.bytes.length ∧ survivor.bytes.length ≤ segmentSize
  others : ∀ name, fileAt store.disk name = none → image.lookup name = store.disk.lookup name

theorem CrashImage.names {segmentSize : Nat} {store : Store} {image : Directory}
    (survives : CrashImage segmentSize store image) (name : Bytes) :
    (fileAt image name).isSome = (fileAt store.disk name).isSome := by
  cases before : fileAt store.disk name with
  | none =>
    have same : fileAt image name = fileAt store.disk name := by simp only [fileAt, survives.others name before]
    rw [same, before]
  | some file =>
    obtain ⟨survivor, after, _⟩ := survives.files name file before
    rw [after]
    rfl

/-- The bytes of every acknowledged record of the mapped segment did survive. -/
def RecordsSurvive (store : Store) (image : Directory) : Prop :=
  let written := store.log.active.writePosition
  ∀ file survivor, fileAt store.disk store.log.active.path = some file →
    fileAt image store.log.active.path = some survivor →
    survivor.bytes.take written = file.bytes.take written

def newestBytes (image : Directory) (id : Nat) : Bytes :=
  ((fileAt image (segmentPath id)).map File.bytes).getD []

structure Begins (segmentSize id base : Nat) (messages : List Message) (bytes : Bytes) : Prop where
  chain : Chain base messages
  fields : bytes.take 36 = segmentFields id base segmentSize
  records : slice bytes segmentHeaderSize (totalSize messages) = encodeRecords messages
  room : segmentHeaderSize + totalSize messages ≤ bytes.length

section Beginning

variable {segmentSize id base : Nat} {messages : List Message} {bytes : Bytes}

theorem begins_of_segmentFile (whole : SegmentFile segmentSize id base messages bytes) :
    Begins segmentSize id base messages bytes where
  chain := whole.chain
  fields := whole.fields
  records := by rw [slice, whole.records, List.take_left' (length_encodeRecords messages)]
  room := whole.room

theorem Begins.congr {other : Bytes} (begins : Begins segmentSize id base messages bytes) (count : Nat)
    (enough : segmentHeaderSize + totalSize messages ≤ count) (long : count ≤ other.length)
    (same : other.take count = bytes.take count) : Begins segmentSize id base messages other where
  chain := begins.chain
  fields := by
    simp only [segmentHeaderSize] at enough
    rw [← begins.fields, ← Nat.min_eq_left (show 36 ≤ count by omega), ← List.take_take, same, List.take_take]
  records := by
    have inner : ∀ any : Bytes, slice any segmentHeaderSize (totalSize messages) =
        slice (any.take count) segmentHeaderSize (totalSize messages) := by
      intro any
      rw [slice, slice, List.drop_take, List.take_take, Nat.min_eq_left (by omega)]
    rw [inner, same, ← inner, begins.records]
  room := by omega

theorem Begins.front {front : List Message} (begins : Begins segmentSize id base messages bytes)
    (before : front <+: messages) : Begins segmentSize id base front bytes := by
  obtain ⟨back, rfl⟩ := before
  have room := begins.room
  have records := congrArg (List.take (totalSize front)) begins.records
  rw [totalSize_append] at room records
  refine ⟨((chain_append _ _ _).mp begins.chain).1, begins.fields, ?_, by omega⟩
  rw [slice, List.take_take, Nat.min_eq_left (by omega), encodeRecords_append,
    List.take_left' (length_encodeRecords front)] at records
  exact records

theorem Begins.split (begins : Begins segmentSize id base messages bytes) :
    bytes.drop segmentHeaderSize =
      encodeRecords messages ++ (bytes.drop segmentHeaderSize).drop (totalSize messages) := by
  have records := begins.records
  rw [slice] at records
  rw [← records, List.take_append_drop]

theorem Begins.scanned (begins : Begins segmentSize id base messages bytes) (limit : bytes.length ≤ segmentSize) :
    messages <+: scanned segmentSize base bytes := by
  have room := begins.room
  have fits : segmentHeaderSize + totalSize messages ≤ segmentSize := by omega
  obtain ⟨fuel, run⟩ := scanned_append messages _ begins.chain fits begins.split
  rw [run]
  exact List.prefix_append _ _

/-- Where no record magic follows, the scan ends. -/
theorem Begins.scanned_eq (begins : Begins segmentSize id base messages bytes) (limit : bytes.length ≤ segmentSize)
    (ends : getU32 (slice bytes (segmentHeaderSize + totalSize messages) 4) ≠ recordMagic) :
    Segment.scanned segmentSize base bytes = messages := by
  have room := begins.room
  apply Segment.scanned_eq messages _ begins.chain (by omega) begins.split
  cases read : readRecord segmentSize bytes (segmentHeaderSize + totalSize messages) (base + totalSize messages) with
  | none => rfl
  | some message =>
    obtain ⟨_, _, header, _⟩ := readRecord_parts _ _ _ _ _ read
    unfold checkRecordHeader at header
    dsimp only at header
    split_ifs at header with fields
    refine absurd ?_ ends
    have magic := fields.2.1
    rw [getU32, getUint_eq_decode] at magic ⊢
    rw [← magic, slice, slice, List.take_take, List.take_take]
    rfl

end Beginning

structure Survivable (segmentSize : Nat) (progress : Progress) (front : List (List Message))
    (current flushed : List Message) : Prop where
  newest : ∃ file, Newest segmentSize progress.store.disk front file ∧
    Begins segmentSize (front.length + 1) (totalSize front.flatten) current file.bytes
  path : progress.store.log.active.path = segmentPath (front.length + 1)
  position : progress.store.log.active.writePosition = segmentHeaderSize + totalSize current
  covered : Covered segmentSize progress.store.disk front.length (segmentHeaderSize + totalSize flushed)
  kept : flushed <+: current
  acknowledged : progress.acknowledged = front.flatten ++ current
  safe : progress.safe <+: front.flatten ++ flushed

section Moment

variable {segmentSize : Nat} {progress : Progress} {front : List (List Message)} {current flushed : List Message}
  {faults : Faults}

theorem newest_begins {disk : Directory} (holds : Holds segmentSize disk (front ++ [current])) :
    ∃ file, Newest segmentSize disk front file ∧
      Begins segmentSize (front.length + 1) (totalSize front.flatten) current file.bytes := by
  obtain ⟨file, found, whole⟩ := holds.last
  exact ⟨file, newest_of_holds holds found, begins_of_segmentFile whole⟩

theorem tracked_survivable (tracked : Tracked segmentSize progress front current flushed) :
    Survivable segmentSize progress front current flushed where
  newest := newest_begins tracked.guarded.holds
  path := tracked.guarded.path
  position := tracked.guarded.position
  covered := tracked.guarded.covered
  kept := tracked.guarded.kept
  acknowledged := tracked.acknowledged
  safe := tracked.safe

theorem Survivable.copy (survivable : Survivable segmentSize progress front current flushed) (position : Nat)
    (data : Bytes) (behind : segmentHeaderSize + totalSize current ≤ position)
    (inside : position + data.length ≤ segmentSize) :
    Survivable segmentSize { progress with store := copyToActive position data progress.store }
      front current flushed := by
  obtain ⟨file, newest, begins⟩ := survivable.newest
  have length := (survivable.covered.newest file newest.found).1
  have fewer := totalSize_prefix survivable.kept
  have puts : Puts progress.store.disk (segmentPath (front.length + 1)) (file.write position data)
      (update progress.store.disk (segmentPath (front.length + 1)) (·.write position data)) := by
    refine ⟨?_, fun _ different => lookup_update_ne _ _ _ _ different⟩
    rw [fileAt_update, if_pos rfl, newest.found, Option.map_some]
  have room : position + data.length ≤ file.bytes.length := by omega
  refine ⟨⟨file.write position data, ?_, ?_⟩, survivable.path, survivable.position, ?_, survivable.kept,
    survivable.acknowledged, survivable.safe⟩
  · rw [copyToActive, survivable.path]
    exact newest.replace _ _ puts
  · apply begins.congr position behind
    · rw [File.write, length_overwrite _ _ _ room]
      omega
    · exact take_overwrite _ _ _ _ le_rfl (by omega)
  · rw [copyToActive, survivable.path]
    apply survivable.covered.update _ newest.count
    intro before _ whole durable
    refine ⟨?_, ?_⟩
    · rw [File.write, length_overwrite _ _ _ (by omega), whole]
    · simp only [File.write]
      omega

theorem Survivable.copyPayload (survivable : Survivable segmentSize progress front current flushed)
    (message : Message) (room : segmentHeaderSize + totalSize current + size message ≤ segmentSize) :
    Survivable segmentSize { progress with store := Log.copyPayload message progress.store }
      front current flushed := by
  have position := survivable.position
  rw [size] at room
  have cached : Survivable segmentSize { progress with store := { progress.store with
      log := { progress.store.log with recentCache := push progress.store.log.recentCache message } } }
      front current flushed :=
    ⟨survivable.newest, survivable.path, survivable.position, survivable.covered, survivable.kept,
      survivable.acknowledged, survivable.safe⟩
  unfold Log.copyPayload
  dsimp only
  split_ifs
  · exact cached
  · exact cached.copy _ _ (by omega) (by omega)

theorem afterScan_same (capacity : Nat) {store : Store} {contents : List (List Message)}
    (holds : Holds segmentSize store.disk contents) :
    SameFiles (afterScan faults segmentSize capacity store).disk store.disk ∧
      (afterScan faults segmentSize capacity store).log.active = store.log.active ∧
      (afterScan faults segmentSize capacity store).log.opened = store.log.opened := by
  let log := { store.log with
    segmentSize := segmentSize, recentCache := ofCapacity capacity, nextMessageOffset := 0, segmentIndex := [] }
  have scan := recoverSegments_holds faults contents 0 0 [] ⟨log, store.disk⟩ holds.allowed rfl holds.files
    (by rw [Nat.zero_add]; exact holds.bounded) (by rw [Nat.zero_add]; exact holds.count)
  rw [List.append_nil, ← holds.segmentFiles] at scan
  unfold afterScan
  rcases scan with ⟨error, left, run, _, same, cache, index, touched⟩ | ⟨left, run, same, indexes⟩
  · rw [run]
    exact ⟨same, by rw [touched], by rw [touched]⟩
  · rw [run, recoverSegments]
    exact ⟨same, by rw [indexes]; rfl, by rw [indexes]; rfl⟩

theorem scanned_tracked (capacity : Nat) (closed : progress.store.log.opened = false)
    (tracked : Tracked segmentSize progress front current flushed) :
    Tracked segmentSize { progress with store := afterScan faults segmentSize capacity progress.store }
      front current flushed := by
  have guarded := tracked.guarded
  obtain ⟨same, active, opened⟩ := @afterScan_same segmentSize faults capacity _ _ guarded.holds
  rcases guarded.standing with live | idle
  · rw [live.opened] at closed
    cases closed
  · refine ⟨⟨Or.inr ⟨guarded.holds.congr same, idle.nonempty, opened.trans closed, ?_⟩, ?_, ?_,
      guarded.covered.congr same, guarded.kept⟩, tracked.acknowledged, tracked.safe⟩
    · rw [active]; exact idle.unmapped
    · rw [active]; exact guarded.path
    · rw [active]; exact guarded.position

theorem live_of_check (payload : Bytes) (check : checkAppend payload progress.store.log = .ok ())
    (tracked : Tracked segmentSize progress front current flushed) :
    Live segmentSize progress.store front current := by
  rcases tracked.guarded.standing with live | idle
  · exact live
  · simp only [checkAppend, idle.opened, ↓reduceIte] at check
    cases check

theorem ready_tracked {started : Progress} (payload : Bytes) (ready : Ready faults payload progress started)
    (tracked : Tracked segmentSize progress front current flushed) :
    ∃ nextFront next nextFlushed, Tracked segmentSize started nextFront next nextFlushed ∧
      segmentHeaderSize + totalSize next + (recordHeaderSize + payload.length) ≤ segmentSize := by
  cases ready with
  | inPlace check room =>
    have live := live_of_check payload check tracked
    have fits := (checkAppend_ok live payload check).2.1
    rw [needsRollover_iff live payload fits, not_lt] at room
    exact ⟨front, current, flushed, tracked, room⟩
  | rolled left check full done =>
    have live := live_of_check payload check tracked
    obtain ⟨_, fits, _, room⟩ := checkAppend_ok live payload check
    rcases rollOver_cases live (room full) faults with ⟨run, fresh⟩ | ⟨error, other, run, _⟩
    · rw [run, Outcome.mk.injEq] at done
      obtain ⟨_, rfl⟩ := done
      have covered := rolled_covered live (totalSize (front ++ [current]).flatten) (room full)
        tracked.guarded.covered
      refine ⟨front ++ [current], [], [], ⟨Guarded.of_live fresh covered (List.prefix_refl _), ?_, ?_⟩, ?_⟩
      · rw [tracked.acknowledged]
        simp
      · rw [tracked.acknowledged]
        simp
      · rw [totalSize_nil]
        omega
    · rw [run, Outcome.mk.injEq] at done
      cases done.1

/-- Every crash point of an operation on a log that is being tracked. -/
theorem interrupted_survivable {crashed : Progress} {operation : Operation} (creation : CreationSucceeds faults)
    (keeps : KeepsSize segmentSize operation) (interrupted : Interrupted faults progress operation crashed)
    (tracked : Tracked segmentSize progress front current flushed) :
    ∃ nextFront next nextFlushed, Survivable segmentSize crashed nextFront next nextFlushed := by
  cases interrupted with
  | before => exact ⟨front, current, flushed, tracked_survivable tracked⟩
  | after =>
    obtain ⟨nextFront, next, nextFlushed, after⟩ := proceed_tracked operation creation keeps tracked
    exact ⟨nextFront, next, nextFlushed, tracked_survivable after⟩
  | scanned size capacity closed =>
    cases keeps
    exact ⟨front, current, flushed, tracked_survivable (scanned_tracked capacity closed tracked)⟩
  | unmapped payload now left check full done =>
    have live := live_of_check payload check tracked
    obtain rfl := unmapActive_sealed faults live done
    have reach := tracked.guarded.reach_le
    refine ⟨front, current, flushed, newest_begins (sealedDisk_holds live.holds), tracked.guarded.path,
      tracked.guarded.position, ?_, tracked.guarded.kept, tracked.acknowledged, tracked.safe⟩
    exact (tracked.guarded.covered.synced live.holds.count_lt).mono reach
  | started payload now started ready =>
    obtain ⟨nextFront, next, nextFlushed, after, _⟩ := ready_tracked payload ready tracked
    exact ⟨nextFront, next, nextFlushed, tracked_survivable after⟩
  | copyingPayload payload now started ready count =>
    obtain ⟨nextFront, next, nextFlushed, after, room⟩ := ready_tracked payload ready tracked
    have position := after.guarded.position
    have fewer : (payload.take count).length ≤ payload.length := by rw [List.length_take]; omega
    exact ⟨nextFront, next, nextFlushed, (tracked_survivable after).copy _ _ (by omega) (by omega)⟩
  | copyingHeader payload now started ready count =>
    obtain ⟨nextFront, next, nextFlushed, after, room⟩ := ready_tracked payload ready tracked
    have position := after.guarded.position
    have fewer : ∀ offset timestampNs, ((recordHeader offset timestampNs payload).take count).length ≤
        recordHeaderSize := by
      intro offset timestampNs
      rw [List.length_take, length_recordHeader, recordHeaderSize]
      omega
    have copied := (tracked_survivable after).copyPayload (nextMessage payload now started.store.log) room
    refine ⟨nextFront, next, nextFlushed, copied.copy _ _ (by omega) ?_⟩
    have short := fewer (nextMessage payload now started.store.log).offset
      (nextMessage payload now started.store.log).timestampNs
    omega

theorem interrupted_untouched {crashed : Progress} {operation : Operation} (allowed : SizeAllowed segmentSize)
    (creation : CreationSucceeds faults) (keeps : KeepsSize segmentSize operation)
    (interrupted : Interrupted faults progress operation crashed) (untouched : Untouched progress) :
    Untouched crashed ∨ ∃ front current flushed, Survivable segmentSize crashed front current flushed := by
  have closed : ∀ payload, checkAppend payload progress.store.log ≠ .ok () := by
    intro payload check
    simp only [checkAppend, untouched.blank.opened, ↓reduceIte] at check
    cases check
  have idle : ∀ payload started, ¬ Ready faults payload progress started := by
    rintro payload started (⟨check, _⟩ | ⟨_, check, _, _⟩)
    · exact closed payload check
    · exact closed payload check
  cases interrupted with
  | before => exact Or.inl untouched
  | after =>
    exact (proceed_untouched operation allowed creation keeps untouched).imp_right fun tracked =>
      ⟨_, _, _, tracked_survivable tracked⟩
  | scanned size capacity opened =>
    cases keeps
    have blank := untouched.blank
    obtain ⟨same, active, opened⟩ := @afterScan_same segmentSize faults capacity _ _
      (holds_empty allowed blank.disk)
    refine Or.inl ⟨⟨same.trans blank.disk, opened.trans blank.opened, ?_⟩, untouched.acknowledged, untouched.safe⟩
    rw [active]
    exact blank.unmapped
  | unmapped payload now left check full done => exact absurd check (closed payload)
  | started payload now _ ready => exact absurd ready (idle payload crashed)
  | copyingPayload payload now started ready count => exact absurd ready (idle payload started)
  | copyingHeader payload now started ready count => exact absurd ready (idle payload started)

end Moment

/-- What an open of the image recovers: `front` from the sealed segments and `current`
from the newest file. -/
structure Consistent (segmentSize : Nat) (crashed : Progress) (image : Directory)
    (front : List (List Message)) (current : List Message) : Prop where
  recovers : ∀ capacity, 0 < capacity → Recovers segmentSize capacity ⟨{}, image⟩ (front.flatten ++ current)
  safe : crashed.safe <+: front.flatten ++ current
  behind : HoldsFrom segmentSize image 0 0 front
  chain : Chain (totalSize front.flatten) current
  records : slice (newestBytes image (front.length + 1)) segmentHeaderSize (totalSize current) =
    encodeRecords current
  acknowledged : RecordsSurvive crashed.store image → crashed.acknowledged <+: front.flatten ++ current
  ends : ∀ survivors, Chain (totalSize front.flatten) survivors →
    slice (newestBytes image (front.length + 1)) segmentHeaderSize (totalSize survivors) = encodeRecords survivors →
    getU32 (slice (newestBytes image (front.length + 1)) (segmentHeaderSize + totalSize survivors) 4) ≠ recordMagic →
    current = survivors

section Image

variable {segmentSize : Nat} {crashed : Progress} {image : Directory} {front : List (List Message)}
  {current flushed : List Message}

theorem sealed_survives (survivable : Survivable segmentSize crashed front current flushed)
    (survives : CrashImage segmentSize crashed.store image) (id : Nat) (sealedId : id ≤ front.length) :
    (fileAt image (segmentPath id)).map File.bytes = (fileAt crashed.store.disk (segmentPath id)).map File.bytes := by
  obtain ⟨file, newest, _⟩ := survivable.newest
  have count := newest.count
  have apart : segmentPath id ≠ crashed.store.log.active.path := by
    intro same
    rw [survivable.path] at same
    have ids := segmentPath_injective _ _ (by omega) newest.count same
    omega
  cases before : fileAt crashed.store.disk (segmentPath id) with
  | none =>
    have names := survives.names (segmentPath id)
    rw [before, Option.isSome_none, Option.isSome_eq_false_iff, Option.isNone_iff_eq_none] at names
    rw [names]
  | some file =>
    obtain ⟨survivor, after, same, long, limit⟩ := survives.files _ file before
    obtain ⟨length, durable⟩ := survivable.covered.behind id file sealedId before
    rw [syncedEnd, if_neg apart] at same long
    rw [List.take_of_length_le (by omega), List.take_of_length_le (by omega)] at same
    rw [after, Option.map_some, Option.map_some, same]

theorem newest_survives (survivable : Survivable segmentSize crashed front current flushed)
    (survives : CrashImage segmentSize crashed.store image) :
    ∃ survivor, Newest segmentSize image front survivor ∧ survivor.bytes.length ≤ segmentSize ∧
      Begins segmentSize (front.length + 1) (totalSize front.flatten) flushed survivor.bytes ∧
      (RecordsSurvive crashed.store image →
        Begins segmentSize (front.length + 1) (totalSize front.flatten) current survivor.bytes) := by
  obtain ⟨file, newest, begins⟩ := survivable.newest
  have position := survivable.position
  have fewer := totalSize_prefix survivable.kept
  have durable := (survivable.covered.newest file newest.found).2
  obtain ⟨survivor, after, same, long, limit⟩ := survives.files _ file newest.found
  have kept : syncedEnd crashed.store (segmentPath (front.length + 1)) file =
      min file.durable (segmentHeaderSize + totalSize current) := by
    rw [syncedEnd, if_pos survivable.path.symm, position]
  rw [kept] at same long
  refine ⟨survivor, ⟨newest.allowed, ?_, ?_, newest.count, newest.bounded, after⟩, limit, ?_, ?_⟩
  · apply holdsFrom_congr segmentSize crashed.store.disk image 0 0 front _ newest.files
    intro id _ high
    exact sealed_survives survivable survives id (by omega)
  · intro id bound
    rw [survives.names]
    exact newest.listed id bound
  · exact (begins.front survivable.kept).congr _ (by omega) long same
  · intro whole
    have records := whole file survivor (by rw [survivable.path]; exact newest.found)
      (by rw [survivable.path]; exact after)
    rw [position] at records
    have room := begins.room
    have lengths := congrArg List.length records
    rw [List.length_take, List.length_take] at lengths
    exact begins.congr _ le_rfl (by omega) records

/-- Whatever the newest file holds behind its synced records, an open succeeds. -/
theorem survivable_consistent (survivable : Survivable segmentSize crashed front current flushed)
    (survives : CrashImage segmentSize crashed.store image)
    (room : totalSize crashed.acknowledged + segmentSize ≤ maxU64) :
    ∃ recovered, Consistent segmentSize crashed image front recovered := by
  obtain ⟨survivor, newest, limit, begins, whole⟩ := newest_survives survivable survives
  have start := begins.room
  have opens : Opens segmentSize (front.length + 1) (totalSize front.flatten) survivor.bytes :=
    ⟨by omega, begins.fields, limit⟩
  obtain ⟨chain, inside, here⟩ := scanned_sound opens
  have bytes : newestBytes image (front.length + 1) = survivor.bytes := by
    rw [newestBytes, newest.found, Option.map_some, Option.getD_some]
  rw [survivable.acknowledged, totalSize_append] at room
  refine ⟨scanned segmentSize (totalSize front.flatten) survivor.bytes, ?_, ?_, newest.files, chain, ?_, ?_, ?_⟩
  · intro capacity positive
    obtain ⟨left, run, live, keeps⟩ := openLog_newest ⟨{}, image⟩ capacity newest rfl positive opens (by omega)
    rw [Recovers, run]
    rw [List.flatten_append, List.flatten_singleton] at keeps
    refine ⟨rfl, ?_, fun count => keeps.getRecent count⟩
    rw [nextOffset, live.next, List.flatten_append, List.flatten_singleton]
  · exact survivable.safe.trans ((List.prefix_append_right_inj _).mpr (begins.scanned limit))
  · rw [bytes, slice, here, List.take_left' (length_encodeRecords _)]
  · intro survived
    rw [survivable.acknowledged]
    exact (List.prefix_append_right_inj _).mpr ((whole survived).scanned limit)
  · intro survivors linked records ends
    rw [bytes] at records ends
    refine Begins.scanned_eq ⟨linked, begins.fields, records, ?_⟩ limit ends
    have lengths := congrArg List.length records
    rw [slice, List.length_take, List.length_drop, length_encodeRecords] at lengths
    omega

theorem untouched_consistent (allowed : SizeAllowed segmentSize) (untouched : Untouched crashed)
    (survives : CrashImage segmentSize crashed.store image) : Consistent segmentSize crashed image [] [] := by
  have empty : SameFiles image ∅ := by
    intro name
    rw [survives.others name (by rw [untouched.blank.disk.fileAt]; rfl), untouched.blank.disk name]
  have bytes : newestBytes image 1 = [] := by
    rw [newestBytes, empty.fileAt]
    rfl
  refine ⟨?_, by rw [untouched.safe]; exact List.nil_prefix, trivial, trivial, ?_, ?_, ?_⟩
  · intro capacity positive
    have blank : Blank ⟨{}, image⟩ := ⟨empty, rfl, rfl, rfl⟩
    rcases openLog_blank noFaults capacity allowed blank noFaults_creationSucceeds with
      ⟨_, _, _, _, quiet⟩ | ⟨left, run, _, live, keeps⟩
    · have zero := quiet rfl
      omega
    · rw [Recovers, run]
      exact ⟨rfl, live.next, fun count => keeps.getRecent count⟩
  · rw [List.length_nil, Nat.zero_add, bytes]
    rfl
  · intro _
    rw [untouched.acknowledged]
    exact List.nil_prefix
  · intro survivors _ records _
    have lengths := congrArg List.length records
    rw [List.length_nil, Nat.zero_add, bytes, slice, List.drop_nil, List.take_nil, length_encodeRecords] at lengths
    have count := length_le_totalSize survivors
    exact (List.eq_nil_of_length_eq_zero (by rw [List.length_nil] at lengths; omega)).symm

end Image

/-- A crash at any point of any run from an empty directory at which no segment is being
created. Sealed segments are covered as a whole, and an open of what survived recovers
every safe message, then whatever chain of intact records follows. -/
theorem crash_consistent (segmentSize : Nat) (allowed : SizeAllowed segmentSize)
    (steps : List (Faults × Operation))
    (regular : ∀ step ∈ steps, CreationSucceeds step.1 ∧ KeepsSize segmentSize step.2)
    (faults : Faults) (operation : Operation) (creation : CreationSucceeds faults)
    (keeps : KeepsSize segmentSize operation) (crashed : Progress)
    (interrupted : Interrupted faults (run proceed {} steps) operation crashed) (image : Directory)
    (survives : CrashImage segmentSize crashed.store image)
    (room : totalSize crashed.acknowledged + segmentSize ≤ maxU64) :
    (∀ id file, id < maximumSegmentId → (fileAt crashed.store.disk (segmentPath (id + 1))).isSome →
      fileAt crashed.store.disk (segmentPath id) = some file → file.bytes.length ≤ file.durable) ∧
    ∃ front current, Consistent segmentSize crashed image front current := by
  have state : Untouched crashed ∨ ∃ front current flushed, Survivable segmentSize crashed front current flushed := by
    rcases run_tracked allowed steps regular with untouched | ⟨front, current, flushed, tracked⟩
    · exact interrupted_untouched allowed creation keeps interrupted untouched
    · exact Or.inr (interrupted_survivable creation keeps interrupted tracked)
  rcases state with untouched | ⟨front, current, flushed, survivable⟩
  · refine ⟨?_, [], [], untouched_consistent allowed untouched survives⟩
    intro id file _ _ found
    rw [untouched.blank.disk.fileAt] at found
    cases found
  · obtain ⟨recovered, consistent⟩ := survivable_consistent survivable survives room
    refine ⟨?_, front, recovered, consistent⟩
    intro id file bound later found
    obtain ⟨newestFile, newest, _⟩ := survivable.newest
    have place := (newest.listed (id + 1) bound).mp later
    have covered := survivable.covered.behind id file (by omega) found
    omega

theorem crashImage_update (segmentSize : Nat) (store : Store) (name : Bytes) (file : File) (survivor : File)
    (only : store.disk.entries = [⟨name, .regular file⟩])
    (same : survivor.bytes.take (syncedEnd store name file) = file.bytes.take (syncedEnd store name file))
    (long : syncedEnd store name file ≤ survivor.bytes.length) (limit : survivor.bytes.length ≤ segmentSize) :
    CrashImage segmentSize store (update store.disk name fun _ => survivor) := by
  have here : fileAt store.disk name = some file := by
    rw [fileAt_eq_some, ← Option.mem_def, AList.mem_lookup_iff, only]
    exact List.mem_singleton_self _
  constructor
  · intro key other present
    obtain ⟨rfl, rfl⟩ := fileAt_single only present
    exact ⟨survivor, by rw [fileAt_update, if_pos rfl, here, Option.map_some], same, long, limit⟩
  · intro key absent
    apply lookup_update_ne
    rintro rfl
    rw [here] at absent
    cases absent

/-- One flushed record, then an append cut off in its payload, with garbage behind the record. -/
theorem crash_consistent_torn_payload :
    let steps : List (Faults × Operation) :=
      [(noFaults, .openLog 200 1), (noFaults, .append [1, 2, 3] 5), (noFaults, .flush)]
    let reached := run proceed {} steps
    let crashed := { reached with store := tornPayload [7, 8, 9] 2 reached.store }
    let survivor : File := ⟨(newestBytes crashed.store.disk 1).take 75 ++ [5, 5, 5], 0⟩
    let image := update crashed.store.disk (segmentPath 1) fun _ => survivor
    crashed.safe.length = 1 ∧
    (∀ id file, id < maximumSegmentId → (fileAt crashed.store.disk (segmentPath (id + 1))).isSome →
      fileAt crashed.store.disk (segmentPath id) = some file → file.bytes.length ≤ file.durable) ∧
    ∃ front current, Consistent 200 crashed image front current := by
  intro steps reached crashed survivor image
  have survives : CrashImage 200 crashed.store image :=
    crashImage_update 200 crashed.store (segmentPath 1)
      ((fileAt crashed.store.disk (segmentPath 1)).getD ⟨[], 0⟩) survivor
      (by decide +kernel) (by decide +kernel) (by decide +kernel) (by decide +kernel)
  exact ⟨by decide +kernel, crash_consistent 200 ⟨by decide, by decide⟩ steps
    (by simp [steps, KeepsSize, noFaults_creationSucceeds]) noFaults (.append [7, 8, 9] 6)
    noFaults_creationSucceeds trivial crashed
    (.copyingPayload [7, 8, 9] 6 reached (.inPlace (by decide +kernel) (by decide +kernel)) 2) image survives
    (by decide +kernel)⟩

end FleetGateway.Storage.Crash
