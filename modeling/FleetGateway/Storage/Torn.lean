import FleetGateway.Storage.Crash

/-! A log that a crash has left behind: whole segments in front of a file that is only known to
begin with a header and the synced records. Opening it, also where calls fail, cuts that file back
to its chain of records and never touches a record. -/

namespace FleetGateway.Storage.Torn
open Library Library.ByteStore Format Record Disk Scan Segment Log RingBuffer Contents Recovery
  Operations Writing Damage Invariant Reopen Corruption Durability Crash

/-- A newest file that scans to `current`, of which `flushed` is on the disk for good. -/
structure TornFile (segmentSize id base : Nat) (current flushed : List Message) (file : File) : Prop where
  opens : Opens segmentSize id base file.bytes
  scans : scanned segmentSize base file.bytes = current
  durable : segmentHeaderSize + totalSize flushed ≤ file.durable

section File

variable {segmentSize id base : Nat} {current flushed : List Message} {file : File}

theorem TornFile.inside (torn : TornFile segmentSize id base current flushed file) :
    segmentHeaderSize + totalSize current ≤ file.bytes.length := by
  rw [← torn.scans]
  exact (scanned_sound torn.opens).2.1

theorem tornFile_of_segmentFile (whole : SegmentFile segmentSize id base current file.bytes)
    (durable : segmentHeaderSize + totalSize flushed ≤ file.durable) :
    TornFile segmentSize id base current flushed file :=
  ⟨whole.opens, whole.scanned_eq, durable⟩

theorem TornFile.cut (torn : TornFile segmentSize id base current flushed file) :
    SegmentFile segmentSize id base current (file.truncate (segmentHeaderSize + totalSize current)).bytes := by
  have cut := torn.opens.segmentFile_of_cut
  rw [torn.scans] at cut
  simp only [File.truncate, resize_take _ _ torn.inside]
  exact cut

theorem TornFile.truncate (torn : TornFile segmentSize id base current flushed file) (kept : flushed <+: current) :
    TornFile segmentSize id base current flushed (file.truncate (segmentHeaderSize + totalSize current)) := by
  apply tornFile_of_segmentFile torn.cut
  have fewer := totalSize_prefix kept
  have durable := torn.durable
  simp only [File.truncate]
  omega

/-- Whatever calls fail, a scan leaves the file as it is or cuts it back to its records. -/
theorem scanSegment_file (faults : Faults) (torn : TornFile segmentSize id base current flushed file) (path : Bytes)
    (bounded : base + totalSize current ≤ maxU64) :
    let scan := scanSegment faults segmentSize id path true base file
    scan.file = file ∨ scan.file = file.truncate (segmentHeaderSize + totalSize current) := by
  have inside := torn.inside
  have limit := torn.opens.limit
  have scans := torn.scans
  have starts := scanSegment_starts faults segmentSize id path true base file
  generalize scanSegment faults segmentSize id path true base file = scan at starts ⊢
  cases starts with
  | refused error => exact .inl rfl
  | proceeds =>
    unfold finishScan
    split
    · exact .inl rfl
    next truncate ended =>
      -- a record loop that returns has run as without faults, so it stopped behind the last record
      have calm := scanRecords_faults faults segmentSize id path true file.bytes _ _ _ truncate ended
      have records := scanRecords_eq segmentSize id path true file.bytes (file.bytes.length + 1) segmentHeaderSize base
        (by omega) (by rw [← scans] at bounded; exact bounded) (by omega)
      have position : (scanRecords faults segmentSize id path true file.bytes (file.bytes.length + 1) segmentHeaderSize
          base).position = segmentHeaderSize + totalSize current := by
        rw [calm, records, ← scans]
        rfl
      dsimp only
      rw [position]
      split
      · exact .inl rfl
      · split
        · exact .inl rfl
        · split
          · exact .inl rfl
          · split
            · split
              · exact .inr rfl
              · exact .inl rfl
            · split
              · exact .inr rfl
              · exact .inl rfl

theorem scanSegment_torn (faults : Faults) (torn : TornFile segmentSize id base current flushed file)
    (idBound : id < 2 ^ 32) (sizeBound : segmentSize < 2 ^ 64) (path : Bytes)
    (bounded : base + totalSize current ≤ maxU64) (info : LogSegmentInfo)
    (passed : (scanSegment faults segmentSize id path true base file).result = .ok info) :
    let scan := scanSegment faults segmentSize id path true base file
    info = ⟨id, base, base + totalSize current, segmentHeaderSize + totalSize current, path⟩ ∧
      scan.messages = current ∧ SegmentFile segmentSize id base current scan.file.bytes := by
  have calm := scanSegment_faults idBound sizeBound passed
  have scans := torn.scans
  obtain ⟨kept, run, whole⟩ := scanSegment_newest torn.opens idBound sizeBound path (by rw [scans]; exact bounded)
  rw [scans] at run whole
  rw [calm, run] at passed ⊢
  exact ⟨(Except.ok.inj passed).symm, rfl, whole⟩

end File

/-- Sealed segments that are on the disk for good, in front of a torn file. -/
structure TornDisk (segmentSize : Nat) (disk : Directory) (front : List (List Message))
    (current flushed : List Message) : Prop where
  newest : ∃ file, Newest segmentSize disk front file ∧
    TornFile segmentSize (front.length + 1) (totalSize front.flatten) current flushed file
  behind : ∀ id file, id ≤ front.length → fileAt disk (segmentPath id) = some file →
    file.bytes.length = segmentSize ∧ segmentSize ≤ file.durable
  bounded : totalSize front.flatten + totalSize current ≤ maxU64
  kept : flushed <+: current

section Disk

variable {segmentSize : Nat} {disk other : Directory} {front : List (List Message)} {current flushed : List Message}

theorem TornDisk.allowed (torn : TornDisk segmentSize disk front current flushed) : SizeAllowed segmentSize := by
  obtain ⟨_, newest, _⟩ := torn.newest
  exact newest.allowed

theorem TornDisk.count (torn : TornDisk segmentSize disk front current flushed) :
    front.length + 1 ≤ maximumSegmentId := by
  obtain ⟨_, newest, _⟩ := torn.newest
  exact newest.count

theorem TornDisk.replace (torn : TornDisk segmentSize disk front current flushed) (next : File)
    (puts : Puts disk (segmentPath (front.length + 1)) next other)
    (still : TornFile segmentSize (front.length + 1) (totalSize front.flatten) current flushed next) :
    TornDisk segmentSize other front current flushed := by
  have count := torn.count
  obtain ⟨file, newest, _⟩ := torn.newest
  refine ⟨⟨next, newest.replace other next puts, still⟩, ?_, torn.bounded, torn.kept⟩
  intro id found low present
  have apart : segmentPath id ≠ segmentPath (front.length + 1) := by
    intro same
    have ids := segmentPath_injective _ _ (by omega) count same
    omega
  rw [puts.fileAt_ne _ apart] at present
  exact torn.behind id found low present

theorem TornDisk.congr (torn : TornDisk segmentSize disk front current flushed) (same : SameFiles other disk) :
    TornDisk segmentSize other front current flushed := by
  obtain ⟨file, newest, still⟩ := torn.newest
  apply torn.replace file _ still
  exact ⟨(same.fileAt _).trans newest.found, fun name _ => same name⟩

end Disk

structure Recovering (segmentSize : Nat) (store left : Store) (front : List (List Message))
    (current flushed : List Message) : Prop where
  active : left.log.active = store.log.active
  opened : left.log.opened = store.log.opened
  torn : TornDisk segmentSize left.disk front current flushed

section Opening

variable {segmentSize : Nat} {store : Store} {front : List (List Message)} {current flushed : List Message}

theorem recoverNewest_torn (faults : Faults) (sized : store.log.segmentSize = segmentSize)
    (torn : TornDisk segmentSize store.disk front current flushed) :
    let run := recoverSegments faults front.length (filesFrom front.length 1) (totalSize front.flatten) store
    Recovering segmentSize store run.store front current flushed ∧ ∀ expected, run.result = .ok expected →
      expected = totalSize (front ++ [current]).flatten ∧
      run.store.log = indexed store.log front.length (totalSize front.flatten) [current] ∧
      Holds segmentSize run.store.disk (front ++ [current]) := by
  have bounded := torn.bounded
  have idBound := maximumSegmentId_lt torn.count
  have sizeBound := torn.allowed.bound
  obtain ⟨file, newest, still⟩ := torn.newest
  have found := newest.found
  have files := scanSegment_file faults still (segmentPath (front.length + 1)) bounded
  have passed := scanSegment_torn faults still idBound sizeBound (segmentPath (front.length + 1)) bounded
  simp only [filesFrom, recoverSegments, ne_eq, not_true_eq_false, if_false, found, Option.getD_some,
    List.isEmpty_nil, sized]
  generalize scanSegment faults segmentSize (front.length + 1) (segmentPath (front.length + 1)) true
    (totalSize front.flatten) file = scan at files passed ⊢
  have puts := puts_update found fun _ => scan.file
  have kept : TornFile segmentSize (front.length + 1) (totalSize front.flatten) current flushed scan.file := by
    rcases files with same | cut
    · rw [same]
      exact still
    · rw [cut]
      exact still.truncate torn.kept
  have after := torn.replace scan.file puts kept
  cases outcome : scan.result with
  | error error => exact ⟨⟨rfl, rfl, after⟩, fun _ impossible => by cases impossible⟩
  | ok info =>
    obtain ⟨entry, messages, whole⟩ := passed info outcome
    refine ⟨⟨rfl, rfl, after⟩, ?_⟩
    intro expected done
    obtain ⟨_, newest', _⟩ := after.newest
    have holds := (newest.replace _ scan.file puts).holds current whole bounded
    refine ⟨?_, ?_, holds⟩
    · rw [List.flatten_append, List.flatten_singleton, totalSize_append, ← Except.ok.inj done, entry]
    · simp only [messages, entry, indexed, indexFrom, segmentInfo, List.flatten_singleton, sized]

theorem recoverSegments_torn (faults : Faults) (sized : store.log.segmentSize = segmentSize)
    (torn : TornDisk segmentSize store.disk front current flushed) :
    let run := recoverSegments faults 0 (segmentFiles store.disk) 0 store
    Recovering segmentSize store run.store front current flushed ∧ ∀ expected, run.result = .ok expected →
      expected = totalSize (front ++ [current]).flatten ∧ run.store.log = indexed store.log 0 0 (front ++ [current]) ∧
      Holds segmentSize run.store.disk (front ++ [current]) := by
  have count := torn.count
  obtain ⟨file, newest, _⟩ := torn.newest
  have listing := newest.segmentFiles
  have bounded := newest.bounded
  have scan := recoverSegments_holds faults front 0 0 (filesFrom front.length 1) store torn.allowed sized newest.files
    (by omega) (by omega)
  simp only [Nat.zero_add] at scan
  rw [listing]
  rcases scan with ⟨error, left, run, _, same, cache, index, touched⟩ | ⟨left, run, same, log⟩
  · rw [run]
    refine ⟨⟨?_, ?_, torn.congr same⟩, fun _ impossible => by cases impossible⟩
    · rw [touched]
    · rw [touched]
  · have still : left.log.segmentSize = segmentSize := by
      rw [log]
      exact sized
    obtain ⟨recovering, passed⟩ := recoverNewest_torn faults still (torn.congr same)
    rw [run]
    have joined := indexed_append store.log 0 0 front [current]
    rw [Nat.zero_add, Nat.zero_add] at joined
    refine ⟨⟨?_, ?_, recovering.torn⟩, fun expected done => ?_⟩
    · rw [recovering.active, log]
      rfl
    · rw [recovering.opened, log]
      rfl
    · obtain ⟨total, indexes, holds⟩ := passed expected done
      refine ⟨total, ?_, holds⟩
      rw [indexes, log, joined]

theorem TornDisk.extend {disk : Directory} (torn : TornDisk segmentSize disk front current flushed)
    (holds : Holds segmentSize disk (front ++ [current])) :
    let extended := update disk (segmentPath (front.length + 1)) (·.truncate segmentSize)
    TornDisk segmentSize extended front current flushed ∧
      Covered segmentSize extended front.length (segmentHeaderSize + totalSize flushed) := by
  intro extended
  obtain ⟨file, newest, still⟩ := torn.newest
  obtain ⟨other, found, whole⟩ := holds.last
  rw [newest.found, Option.some.injEq] at found
  rw [← found] at whole
  have room := whole.room
  have limit := whole.limit
  have fewer := totalSize_prefix torn.kept
  have durable := still.durable
  have puts := puts_update newest.found (·.truncate segmentSize)
  have reaches : segmentHeaderSize + totalSize flushed ≤ (file.truncate segmentSize).durable := by
    simp only [File.truncate]
    omega
  have after := torn.replace (file.truncate segmentSize) puts (tornFile_of_segmentFile whole.extend reaches)
  refine ⟨after, after.behind, fun kept present => ?_⟩
  rw [puts.here, Option.some.injEq] at present
  rw [← present]
  exact ⟨length_resize _ _, reaches⟩

/-- A recovery of a torn directory fails and leaves it torn, or maps its newest segment. -/
theorem recoverOrCreate_torn (faults : Faults) (sized : store.log.segmentSize = segmentSize)
    (torn : TornDisk segmentSize store.disk front current flushed) :
    (∃ error left, recoverOrCreate faults store = ⟨.error error, left⟩ ∧
      Recovering segmentSize store left front current flushed) ∨
    (∃ middle, Holds segmentSize middle (front ++ [current]) ∧ TornDisk segmentSize middle front current flushed ∧
      recoverOrCreate faults store = ⟨.ok (), ⟨recovered store.log front current,
        update middle (segmentPath (front.length + 1)) (·.truncate segmentSize)⟩⟩) := by
  unfold recoverOrCreate
  dsimp only
  split
  · refine .inl ⟨_, store, rfl, ?_⟩
    exact ⟨rfl, rfl, torn⟩
  let cleared : Store := { store with log := { store.log with nextMessageOffset := 0, segmentIndex := [] } }
  obtain ⟨recovering, passed⟩ := @recoverSegments_torn segmentSize cleared front current flushed faults sized torn
  change (∃ error left, mapOrCreate faults (recoverSegments faults 0 (segmentFiles cleared.disk) 0 cleared) = _ ∧ _) ∨
    ∃ middle, _ ∧ _ ∧ mapOrCreate faults (recoverSegments faults 0 (segmentFiles cleared.disk) 0 cleared) = _
  generalize recoverSegments faults 0 (segmentFiles cleared.disk) 0 cleared = run at recovering passed ⊢
  obtain ⟨result, left⟩ := run
  cases result with
  | error error => exact .inl ⟨error, left, rfl, ⟨recovering.active, recovering.opened, recovering.torn⟩⟩
  | ok expected =>
    obtain ⟨total, indexes, holds⟩ := passed expected rfl
    have present : (fileAt left.disk (segmentPath (front.length + 1))).isSome := by
      obtain ⟨file, found, _⟩ := holds.last
      rw [found]
      rfl
    rw [total]
    rcases mapOrCreate_cases faults store.log left front current present indexes with
      ⟨error, disk, mapping, _, same | same⟩ | mapping
    · refine .inl ⟨error, _, mapping, ⟨recovering.active, recovering.opened, ?_⟩⟩
      rw [same]
      exact recovering.torn
    · refine .inl ⟨error, _, mapping, ⟨recovering.active, recovering.opened, ?_⟩⟩
      rw [same, sized]
      exact (recovering.torn.extend holds).1
    · rw [sized] at mapping
      exact .inr ⟨left.disk, holds, recovering.torn, mapping⟩

theorem openLog_torn (faults : Faults) (capacity : Nat) (closed : store.log.opened = false)
    (torn : TornDisk segmentSize store.disk front current flushed) :
    (∃ error left, openLog faults segmentSize capacity store = ⟨.error error, left⟩ ∧
      Recovering segmentSize store left front current flushed) ∨
    (∃ left, openLog faults segmentSize capacity store = ⟨.ok (), left⟩ ∧ Live segmentSize left front current ∧
      Covered segmentSize left.disk front.length (segmentHeaderSize + totalSize flushed)) := by
  unfold openLog
  rw [if_neg (by rw [closed]; decide), if_neg torn.allowed.accepted]
  split
  · refine .inl ⟨_, store, rfl, ?_⟩
    exact ⟨rfl, rfl, torn⟩
  dsimp only
  split
  · refine .inl ⟨_, _, rfl, ?_⟩
    exact ⟨rfl, rfl, torn⟩
  let log := { store.log with segmentSize := segmentSize, recentCache := ofCapacity capacity }
  rcases @recoverOrCreate_torn segmentSize ⟨log, store.disk⟩ front current flushed faults rfl torn with
    ⟨error, left, run, recovering⟩ | ⟨middle, holds, still, run⟩
  · rw [run]
    exact .inl ⟨error, left, rfl, ⟨recovering.active, recovering.opened, recovering.torn⟩⟩
  · rw [run]
    refine .inr ⟨_, rfl, ?_, (still.extend holds).2⟩
    exact live_of_recovered ⟨log, middle⟩ front current holds middle (fun _ => rfl) rfl

theorem recovers_torn (capacity : Nat) (positive : 0 < capacity) (closed : store.log.opened = false)
    (torn : TornDisk segmentSize store.disk front current flushed) :
    Corruption.Recovers segmentSize capacity store (front.flatten ++ current) := by
  obtain ⟨file, newest, still⟩ := torn.newest
  have bounded := torn.bounded
  rw [← still.scans] at bounded
  obtain ⟨left, run, live, keeps⟩ := openLog_newest store capacity newest closed positive still.opens bounded
  rw [still.scans, List.flatten_append, List.flatten_singleton] at keeps
  rw [still.scans] at live
  unfold Corruption.Recovers
  rw [run]
  refine ⟨rfl, ?_, fun count => keeps.getRecent count⟩
  rw [nextOffset, live.next, List.flatten_append, List.flatten_singleton]

theorem acceptedMessages_torn {disk : Directory} (torn : TornDisk segmentSize disk front current flushed) :
    acceptedMessages segmentSize disk (segmentFiles disk) 0 = front.flatten ++ current := by
  have count := torn.count
  have bounded := torn.bounded
  obtain ⟨file, newest, still⟩ := torn.newest
  have scans := still.scans
  obtain ⟨kept, run, _⟩ := scanSegment_newest still.opens (maximumSegmentId_lt count) torn.allowed.bound
    (segmentPath (front.length + 1)) (by rw [scans]; exact bounded)
  rw [scans] at run
  have within := newest.bounded
  rw [newest.segmentFiles, accepted_whole disk front 0 0 _ torn.allowed newest.files (by omega) (by omega)]
  simp only [filesFrom, acceptedMessages, newest.found, Option.getD_some, List.isEmpty_nil, Nat.zero_add, run,
    List.append_nil]

end Opening

end FleetGateway.Storage.Torn
