import FleetGateway.Storage.Reopen

/-! How far a log built from an empty directory is covered by completed syncs. Sealed
segments are covered as a whole; the newest one up to the end of a record. -/

namespace FleetGateway.Storage.Durability
open Library Library.ByteStore Library.Run Format Record Disk Scan Segment Log RingBuffer Contents Recovery
  Operations Writing Invariant Reopen

/-- `count` sealed files covered as a whole, and the file behind them up to `reach`. -/
structure Covered (segmentSize : Nat) (disk : Directory) (count reach : Nat) : Prop where
  behind : ∀ id file, id ≤ count → fileAt disk (segmentPath id) = some file →
    file.bytes.length = segmentSize ∧ segmentSize ≤ file.durable
  newest : ∀ file, fileAt disk (segmentPath (count + 1)) = some file →
    file.bytes.length = segmentSize ∧ reach ≤ file.durable

section Covering

variable {segmentSize count reach : Nat} {disk : Directory}

theorem Covered.congr {other : Directory} (covered : Covered segmentSize disk count reach)
    (same : SameFiles other disk) : Covered segmentSize other count reach where
  behind := fun id file low found => covered.behind id file low (by rw [← same.fileAt]; exact found)
  newest := fun file found => covered.newest file (by rw [← same.fileAt]; exact found)

theorem Covered.update {next : Nat} (covered : Covered segmentSize disk count reach) (change : File → File)
    (small : count + 1 ≤ maximumSegmentId)
    (kept : ∀ file, fileAt disk (segmentPath (count + 1)) = some file → file.bytes.length = segmentSize →
      reach ≤ file.durable → (change file).bytes.length = segmentSize ∧ next ≤ (change file).durable) :
    Covered segmentSize (Disk.update disk (segmentPath (count + 1)) change) count next where
  behind := by
    intro id file low found
    have apart : segmentPath id ≠ segmentPath (count + 1) := by
      intro same
      have ids := segmentPath_injective _ _ (by omega) small same
      omega
    rw [fileAt_update, if_neg apart] at found
    exact covered.behind id file low found
  newest := by
    intro file found
    rw [fileAt_update, if_pos rfl, Option.map_eq_some_iff] at found
    obtain ⟨before, present, rfl⟩ := found
    obtain ⟨length, durable⟩ := covered.newest before present
    exact kept before present length durable

theorem Covered.synced (covered : Covered segmentSize disk count reach) (small : count + 1 ≤ maximumSegmentId) :
    Covered segmentSize (sealedDisk segmentSize (count + 1) disk) count segmentSize := by
  apply covered.update _ small
  intro file _ length _
  refine ⟨length, ?_⟩
  simp only [File.sync, length]
  omega

theorem Covered.mono {less : Nat} (covered : Covered segmentSize disk count reach) (low : less ≤ reach) :
    Covered segmentSize disk count less where
  behind := covered.behind
  newest := fun file found => ⟨(covered.newest file found).1, low.trans (covered.newest file found).2⟩

theorem Covered.created {other : Directory} (covered : Covered segmentSize disk count segmentSize) (file : File)
    (small : count + 2 ≤ maximumSegmentId) (puts : Puts disk (segmentPath (count + 2)) file other)
    (length : file.bytes.length = segmentSize) :
    Covered segmentSize other (count + 1) file.durable where
  behind := by
    intro id found low present
    have apart : segmentPath id ≠ segmentPath (count + 2) := by
      intro same
      have ids := segmentPath_injective _ _ (by omega) small same
      omega
    rw [puts.fileAt_ne _ apart] at present
    by_cases last : id = count + 1
    · rw [last] at present
      exact covered.newest found present
    · exact covered.behind id found (by omega) present
  newest := by
    intro found present
    rw [puts.here, Option.some.injEq] at present
    rw [← present]
    exact ⟨length, le_rfl⟩

theorem covered_first {other : Directory} {file : File} (empty : SameFiles disk ∅)
    (puts : Puts disk (segmentPath 1) file other) (length : file.bytes.length = segmentSize) :
    Covered segmentSize other 0 file.durable where
  behind := by
    intro id found low present
    have apart : segmentPath id ≠ segmentPath 1 := by
      intro same
      have ids := segmentPath_injective _ _ (by simp only [maximumSegmentId]; omega) (by decide) same
      omega
    rw [puts.fileAt_ne _ apart, empty.fileAt] at present
    cases present
  newest := by
    intro found present
    rw [puts.here, Option.some.injEq] at present
    rw [← present]
    exact ⟨length, le_rfl⟩

end Covering

/-- A log that stands at the end of `current`, of which `flushed` is covered. -/
structure Guarded (segmentSize : Nat) (store : Store) (front : List (List Message))
    (current flushed : List Message) : Prop where
  standing : Live segmentSize store front current ∨ Idle segmentSize store (front ++ [current])
  path : store.log.active.path = segmentPath (front.length + 1)
  position : store.log.active.writePosition = segmentHeaderSize + totalSize current
  covered : Covered segmentSize store.disk front.length (segmentHeaderSize + totalSize flushed)
  kept : flushed <+: current

structure Blank (store : Store) : Prop where
  disk : SameFiles store.disk ∅
  opened : store.log.opened = false
  unmapped : Unmapped store.log.active

section Opening

variable {segmentSize : Nat} {store : Store} {front : List (List Message)} {current flushed : List Message}

theorem Guarded.holds (guarded : Guarded segmentSize store front current flushed) :
    Holds segmentSize store.disk (front ++ [current]) := by
  rcases guarded.standing with live | idle
  · exact live.holds
  · exact idle.holds

theorem Guarded.of_live (live : Live segmentSize store front current)
    (covered : Covered segmentSize store.disk front.length (segmentHeaderSize + totalSize flushed))
    (kept : flushed <+: current) : Guarded segmentSize store front current flushed where
  standing := Or.inl live
  path := by rw [live.active]; rfl
  position := by rw [live.active]; rfl
  covered := covered
  kept := kept

theorem Guarded.reach_le (guarded : Guarded segmentSize store front current flushed) :
    segmentHeaderSize + totalSize flushed ≤ segmentSize := by
  obtain ⟨file, _, whole⟩ := guarded.holds.last
  have room := whole.room
  have limit := whole.limit
  obtain ⟨rest, rfl⟩ := guarded.kept
  rw [totalSize_append] at room
  omega

theorem Covered.extended {other : Directory} {count reach : Nat}
    (covered : Covered segmentSize store.disk count reach) (small : count + 1 ≤ maximumSegmentId)
    (fits : reach ≤ segmentSize) (extended : Extended segmentSize (count + 1) store.disk other) :
    Covered segmentSize other count reach := by
  rcases extended with same | ⟨middle, same, rfl⟩
  · exact covered.congr same
  · apply (covered.congr same).update _ small
    intro file _ length durable
    simp only [File.truncate, length_resize]
    exact ⟨trivial, by omega⟩

theorem openLog_guarded (faults : Faults) (capacity : Nat)
    (guarded : Guarded segmentSize store front current flushed) :
    Guarded segmentSize (openLog faults segmentSize capacity store).store front current flushed := by
  have small := guarded.holds.count_lt
  rcases guarded.standing with live | idle
  · rw [openLog, if_pos live.opened]
    exact guarded
  · rcases openLog_idle faults capacity store front current idle with
      ⟨error, left, run, after, active, extended, _⟩ | ⟨left, run, live, _, extended⟩
    · rw [run]
      refine ⟨Or.inr after, by rw [active]; exact guarded.path, by rw [active]; exact guarded.position, ?_,
        guarded.kept⟩
      exact guarded.covered.extended small guarded.reach_le extended
    · rw [run]
      exact Guarded.of_live live (guarded.covered.extended small guarded.reach_le extended) guarded.kept

theorem holds_empty {disk : Directory} (allowed : SizeAllowed segmentSize) (empty : SameFiles disk ∅) :
    Holds segmentSize disk [] := by
  apply holds_without_segments allowed
  rw [List.eq_nil_iff_forall_not_mem]
  rintro ⟨id, name⟩ member
  have present := ((mem_segmentFiles disk id name).mp member).2
  rw [empty.fileAt] at present
  cases present

theorem created_first (start : Store) (allowed : SizeAllowed segmentSize) (empty : SameFiles start.disk ∅)
    (sized : start.log.segmentSize = segmentSize) (opened : start.log.opened = true)
    (index : start.log.segmentIndex = []) (next : start.log.nextMessageOffset = 0) :
    Live segmentSize (created 1 0 start) [] [] ∧ Guarded segmentSize (created 1 0 start) [] [] [] := by
  have least := allowed.least
  have live := live_created start [] (holds_empty allowed empty) (by decide) sized opened index next
  rw [List.length_nil, Nat.zero_add, List.flatten_nil, totalSize_nil] at live
  refine ⟨live, Guarded.of_live live ?_ (List.prefix_refl _)⟩
  have puts := puts_headerSynced start.disk segmentSize 1 0 (by omega)
  rw [created_disk, sized]
  exact covered_first empty puts (length_headerSynced (by omega) _ puts.here)

/-- The first open creates segment one, unless a call before that fails. -/
theorem openLog_blank (faults : Faults) (capacity : Nat) (allowed : SizeAllowed segmentSize) (blank : Blank store)
    (creation : CreationSucceeds faults) :
    (∃ error left, openLog faults segmentSize capacity store = ⟨.error error, left⟩ ∧ Blank left ∧
      (faults = noFaults → capacity = 0)) ∨
    (∃ left, openLog faults segmentSize capacity store = ⟨.ok (), left⟩ ∧ Guarded segmentSize left [] [] [] ∧
      Live segmentSize left [] [] ∧ Keeps left.log.recentCache capacity []) := by
  have least := allowed.least
  unfold openLog
  rw [if_neg (by rw [blank.opened]; decide), if_neg allowed.accepted]
  split
  next zero => exact Or.inl ⟨_, store, rfl, blank, fun _ => zero⟩
  next positive =>
  dsimp only
  split
  next failed =>
    refine Or.inl ⟨_, _, rfl, ⟨blank.disk, blank.opened, blank.unmapped⟩, ?_⟩
    rintro rfl
    cases failed
  have listing := (holds_empty allowed blank.disk).segmentFiles
  rcases recoverOrCreate_front faults
    { store with log := { store.log with segmentSize := segmentSize, recentCache := ofCapacity capacity } } [] []
    allowed rfl trivial (Nat.zero_le _) (Nat.zero_le _) (by rw [List.append_nil]; exact listing) with
    ⟨error, left, run, faulty, opened, active, same⟩ | ⟨left, same, indexes, run⟩
  · rw [run]
    refine Or.inl ⟨error, left, rfl, ⟨same.trans blank.disk, ?_, ?_⟩, fun quiet => absurd quiet faulty⟩
    · rw [opened]; exact blank.opened
    · rw [active]; exact blank.unmapped
  · have empty := same.trans blank.disk
    let start : Store := { left with log := { left.log with nextMessageOffset := 0 } }
    have sized : start.log.segmentSize = segmentSize := by simp only [start, indexes]; rfl
    have index : start.log.segmentIndex = [] := by simp only [start, indexes]; rfl
    have cache : start.log.recentCache = ofCapacity capacity := by simp only [start, indexes]; rfl
    rw [List.length_nil, List.flatten_nil, totalSize_nil] at run
    have call : mapOrCreate faults (recoverSegments faults 0 [] 0 left) = createSegment faults 1 0 start := by
      have last : left.log.segmentIndex.getLast? = none := by rw [indexes]; rfl
      simp only [recoverSegments, mapOrCreate, last]
      rfl
    rw [run, call]
    rcases createSegment_cases faults 1 0 start (by omega) with ⟨made, _⟩ | ⟨_, _, _, _, _, _, unlikely⟩
    · rw [made]
      obtain ⟨live, guarded⟩ := created_first { start with log := { start.log with opened := true } } allowed empty
        sized rfl index rfl
      refine Or.inr ⟨_, rfl, guarded, live, ?_⟩
      change Keeps start.log.recentCache capacity []
      rw [cache]
      exact keeps_ofCapacity capacity (by omega)
    · exact absurd (empty (segmentPath 1)) (unlikely creation).2

end Opening

section Writing

variable {segmentSize : Nat} {store : Store} {front : List (List Message)} {current flushed : List Message}

theorem totalSize_prefix {front whole : List Message} (before : front <+: whole) :
    totalSize front ≤ totalSize whole := by
  obtain ⟨rest, rfl⟩ := before
  rw [totalSize_append]
  omega

theorem writeMessage_guarded (message : Message) (live : Live segmentSize store front current)
    (after : Live segmentSize (writeMessage message store) front (current ++ [message]))
    (covered : Covered segmentSize store.disk front.length (segmentHeaderSize + totalSize flushed))
    (kept : flushed <+: current) :
    Guarded segmentSize (writeMessage message store) front (current ++ [message]) flushed := by
  have disk := record_disk live message
  refine Guarded.of_live after (Covered.congr ?_ disk) (kept.trans (List.prefix_append _ _))
  apply covered.update _ live.holds.count_lt
  intro file found _ durable
  constructor
  · apply after.extended
    rw [disk.fileAt, fileAt_update, if_pos rfl, found, Option.map_some]
  · have fewer := totalSize_prefix kept
    simp only [recordWrite]
    omega

/-- A rollover leaves the sealed segments covered as a whole and the new one up to its header. -/
theorem rolled_covered (live : Live segmentSize store front current) (base : Nat)
    (small : front.length + 2 ≤ maximumSegmentId)
    (covered : Covered segmentSize store.disk front.length (segmentHeaderSize + totalSize flushed)) :
    Covered segmentSize (created (front.length + 2) base (sealedStore segmentSize (front.length + 1) store)).disk
      (front ++ [current]).length (segmentHeaderSize + totalSize []) := by
  have least := live.holds.allowed.least
  have sized : (sealedStore segmentSize (front.length + 1) store).log.segmentSize = segmentSize := live.sized
  have puts := puts_headerSynced (sealedStore segmentSize (front.length + 1) store).disk segmentSize
    (front.length + 2) base (by omega)
  rw [created_disk, sized, List.length_append, List.length_singleton]
  exact (covered.synced live.holds.count_lt).created _ small puts (length_headerSynced (by omega) _ puts.here)

theorem sealed_guarded {left : Store} (guarded : Guarded segmentSize store front current flushed)
    (standing : Live segmentSize left front current ∨ Idle segmentSize left (front ++ [current]))
    (path : left.log.active.path = store.log.active.path)
    (position : left.log.active.writePosition = store.log.active.writePosition)
    (disk : SameFiles left.disk (sealedDisk segmentSize (front.length + 1) store.disk)) :
    Guarded segmentSize left front current current where
  standing := standing
  path := path.trans guarded.path
  position := position.trans guarded.position
  covered := by
    have covered := guarded.covered.synced guarded.holds.count_lt
    obtain ⟨file, found, whole⟩ := guarded.holds.last
    have room := whole.room
    have limit := whole.limit
    exact (covered.congr disk).mono (by omega)
  kept := List.prefix_refl _

theorem flush_guarded (faults : Faults) (guarded : Guarded segmentSize store front current flushed) :
    ∃ after, Guarded segmentSize (flush faults store).store front current after ∧ flushed <+: after ∧
      (store.log.opened = true → (flush faults store).result = .ok () → after = current) := by
  rcases guarded.standing with live | idle
  · rcases flush_cases live faults with ⟨error, run, _⟩ | ⟨run, after⟩
    · rw [run]
      exact ⟨flushed, guarded, List.prefix_refl _, fun _ impossible => by cases impossible⟩
    · rw [run]
      exact ⟨current, sealed_guarded guarded (Or.inl after) rfl rfl fun _ => rfl, guarded.kept, fun _ _ => rfl⟩
  · rw [flush_closed faults store idle.opened]
    exact ⟨flushed, guarded, List.prefix_refl _, fun opened => by rw [idle.opened] at opened; cases opened⟩

theorem close_guarded (faults : Faults) (guarded : Guarded segmentSize store front current flushed) :
    ∃ after, Guarded segmentSize (close faults store).store front current after ∧ flushed <+: after ∧
      (store.log.opened = true → (close faults store).result = .ok () → after = current) := by
  rcases guarded.standing with live | idle
  · obtain ⟨result, left, run, idle, _, _, active, disks⟩ := close_cases live faults
    have path : left.log.active.path = store.log.active.path := by rw [active]; rfl
    have position : left.log.active.writePosition = store.log.active.writePosition := by rw [active]; rfl
    rw [run]
    rcases disks with ⟨same, failed⟩ | same
    · refine ⟨flushed, ⟨Or.inr idle, path.trans guarded.path, position.trans guarded.position, ?_, guarded.kept⟩,
        List.prefix_refl _, fun _ done => absurd done failed⟩
      rw [same]
      exact guarded.covered
    · exact ⟨current, sealed_guarded guarded (Or.inr idle) path position (by rw [same]; exact fun _ => rfl),
        guarded.kept, fun _ _ => rfl⟩
  · rw [close_unmapped faults store idle.opened idle.unmapped]
    exact ⟨flushed, guarded, List.prefix_refl _, fun opened => by rw [idle.opened] at opened; cases opened⟩

theorem append_guarded (faults : Faults) (payload : Bytes) (now : Int) (creation : CreationSucceeds faults)
    (guarded : Guarded segmentSize store front current flushed) :
    ∃ nextFront next nextFlushed, Guarded segmentSize (append faults payload now store).store nextFront next nextFlushed ∧
      nextFront.flatten ++ next = front.flatten ++ current ++ written faults (.append payload now) store ∧
      front.flatten ++ flushed <+: nextFront.flatten ++ nextFlushed ∧
      ∀ offset, (append faults payload now store).result = .ok offset → needsRollover payload store.log →
        front.flatten ++ current <+: nextFront.flatten ++ nextFlushed := by
  rcases guarded.standing with live | idle
  · have stays : ∀ result : Except LogError Nat, ∀ left : Store, (∀ offset, result ≠ .ok offset) →
        append faults payload now store = ⟨result, left⟩ → written faults (.append payload now) store = [] := by
      intro result left failed run
      cases result with
      | ok offset => exact absurd rfl (failed offset)
      | error error => simp only [written, run]
    rcases append_cases live faults payload now with ⟨error, run, _⟩ | ⟨_, inPlace, run, after⟩ |
      ⟨check, full, _, _, ⟨run, fresh, after⟩ | ⟨error, left, run, _, active, ⟨idle, disks⟩ | ⟨failed, _⟩⟩⟩
    · refine ⟨front, current, flushed, by rw [run]; exact guarded, ?_, List.prefix_refl _, ?_⟩
      · rw [stays _ _ (by simp) run, List.append_nil]
      · rw [run]
        exact fun _ impossible => by cases impossible
    · refine ⟨front, _, flushed, by rw [run]; exact writeMessage_guarded _ live after guarded.covered guarded.kept, ?_,
        List.prefix_refl _, fun _ _ full => absurd full inPlace⟩
      simp only [written, run, List.append_assoc]
      rfl
    · have small := (checkAppend_ok live payload check).2.2.2 full
      have covered := rolled_covered live (totalSize (front ++ [current]).flatten) small guarded.covered
      refine ⟨front ++ [current], _, [], by
        rw [run]; exact writeMessage_guarded _ fresh after covered (List.prefix_refl _), ?_, ?_, ?_⟩
      · simp only [written, run, List.flatten_append, List.flatten_singleton]
        rfl
      · rw [List.append_nil, List.flatten_append, List.flatten_singleton]
        exact List.prefix_append_right_inj _ |>.mpr guarded.kept
      · rw [List.append_nil, List.flatten_append, List.flatten_singleton]
        exact fun _ _ _ => List.prefix_refl _
    · have path : left.log.active.path = store.log.active.path := by rw [active creation]; rfl
      have position : left.log.active.writePosition = store.log.active.writePosition := by rw [active creation]; rfl
      have quiet := stays _ _ (by simp) run
      rw [run]
      rcases disks with same | same
      · refine ⟨front, current, flushed,
          ⟨Or.inr idle, path.trans guarded.path, position.trans guarded.position, ?_, guarded.kept⟩, ?_,
          List.prefix_refl _, fun _ impossible => by cases impossible⟩
        · rw [same]
          exact guarded.covered
        · rw [quiet, List.append_nil]
      · refine ⟨front, current, current, sealed_guarded guarded (Or.inr idle) path position same, ?_,
          (List.prefix_append_right_inj _).mpr guarded.kept, fun _ impossible => by cases impossible⟩
        rw [quiet, List.append_nil]
    · exact absurd creation failed
  · obtain ⟨error, run⟩ := append_closed faults payload now store idle.opened
    refine ⟨front, current, flushed, by rw [run]; exact guarded, ?_, List.prefix_refl _, ?_⟩
    · simp only [written, run, List.append_nil]
    · rw [run]
      exact fun _ impossible => by cases impossible

end Writing

/-- A run so far: the messages acknowledged in it, and those acknowledged before its
last successful flush, close or rollover. -/
structure Progress where
  store : Store := {}
  acknowledged : List Message := []
  safe : List Message := []

/-- A call that returns makes every message acknowledged before it safe, if it syncs. -/
def secured {α : Type} (result : Except LogError α) (syncs : Prop) [Decidable syncs] (progress : Progress) :
    List Message :=
  match result with
  | .ok _ => if syncs then progress.acknowledged else progress.safe
  | .error _ => progress.safe

/-- A flush or close of a closed log does nothing; an append syncs when it rolls over. -/
def proceed (progress : Progress) (step : Faults × Operation) : Progress where
  store := perform step.1 step.2 progress.store
  acknowledged := progress.acknowledged ++ written step.1 step.2 progress.store
  safe :=
    match step.2 with
    | .openLog _ _ => progress.safe
    | .append payload now =>
      secured (append step.1 payload now progress.store).result (needsRollover payload progress.store.log) progress
    | .flush => secured (flush step.1 progress.store).result (progress.store.log.opened = true) progress
    | .close => secured (close step.1 progress.store).result (progress.store.log.opened = true) progress

structure Tracked (segmentSize : Nat) (progress : Progress) (front : List (List Message))
    (current flushed : List Message) : Prop where
  guarded : Guarded segmentSize progress.store front current flushed
  acknowledged : progress.acknowledged = front.flatten ++ current
  safe : progress.safe <+: front.flatten ++ flushed

structure Untouched (progress : Progress) : Prop where
  blank : Blank progress.store
  acknowledged : progress.acknowledged = []
  safe : progress.safe = []

theorem secured_prefix {α : Type} (result : Except LogError α) (syncs : Prop) [Decidable syncs]
    (progress : Progress) (covered : List Message) (before : progress.safe <+: covered)
    (done : ∀ value, result = .ok value → syncs → progress.acknowledged <+: covered) :
    secured result syncs progress <+: covered := by
  unfold secured
  split
  next value =>
    split_ifs with yes
    · exact done value rfl yes
    · exact before
  · exact before

section Run

variable {segmentSize : Nat} {progress : Progress} {faults : Faults}

theorem proceed_tracked {front : List (List Message)} {current flushed : List Message} (operation : Operation)
    (creation : CreationSucceeds faults) (keeps : KeepsSize segmentSize operation)
    (tracked : Tracked segmentSize progress front current flushed) :
    ∃ nextFront next nextFlushed, Tracked segmentSize (proceed progress (faults, operation)) nextFront next nextFlushed := by
  have acknowledged := tracked.acknowledged
  have synced : ∀ after, flushed <+: after → progress.safe <+: front.flatten ++ after := fun after longer =>
    tracked.safe.trans ((List.prefix_append_right_inj _).mpr longer)
  cases operation with
  | openLog size capacity =>
    cases keeps
    refine ⟨front, current, flushed, openLog_guarded faults capacity tracked.guarded, ?_, tracked.safe⟩
    simp only [proceed, written, List.append_nil, acknowledged]
  | append payload now =>
    obtain ⟨nextFront, next, nextFlushed, guarded, messages, longer, done⟩ :=
      append_guarded faults payload now creation tracked.guarded
    refine ⟨nextFront, next, nextFlushed, guarded, ?_, ?_⟩
    · simp only [proceed, messages, acknowledged]
    · apply secured_prefix _ _ _ _ (tracked.safe.trans longer)
      intro offset returned full
      rw [acknowledged]
      exact done offset returned full
  | flush =>
    obtain ⟨after, guarded, longer, done⟩ := flush_guarded faults tracked.guarded
    refine ⟨front, current, after, guarded, ?_, ?_⟩
    · simp only [proceed, written, List.append_nil, acknowledged]
    · apply secured_prefix _ _ _ _ (synced after longer)
      intro value returned opened
      rw [acknowledged, done opened returned]
  | close =>
    obtain ⟨after, guarded, longer, done⟩ := close_guarded faults tracked.guarded
    refine ⟨front, current, after, guarded, ?_, ?_⟩
    · simp only [proceed, written, List.append_nil, acknowledged]
    · apply secured_prefix _ _ _ _ (synced after longer)
      intro value returned opened
      rw [acknowledged, done opened returned]

theorem proceed_untouched (operation : Operation) (allowed : SizeAllowed segmentSize)
    (creation : CreationSucceeds faults) (keeps : KeepsSize segmentSize operation) (untouched : Untouched progress) :
    Untouched (proceed progress (faults, operation)) ∨
      Tracked segmentSize (proceed progress (faults, operation)) [] [] [] := by
  have blank := untouched.blank
  have acknowledged := untouched.acknowledged
  have safe := untouched.safe
  cases operation with
  | openLog size capacity =>
    cases keeps
    rcases openLog_blank faults capacity allowed blank creation with ⟨error, left, run, after, _⟩ |
      ⟨left, run, guarded, _⟩
    · refine Or.inl ⟨?_, ?_, ?_⟩
      · simp only [proceed, perform, run, after]
      · simp only [proceed, written, acknowledged, List.append_nil]
      · simp only [proceed, safe]
    · refine Or.inr ⟨?_, ?_, ?_⟩
      · simp only [proceed, perform, run, guarded]
      · simp only [proceed, written, acknowledged, List.append_nil, List.flatten_nil]
      · simp only [proceed, safe, List.flatten_nil, List.append_nil, List.prefix_refl]
  | append payload now =>
    obtain ⟨error, run⟩ := append_closed faults payload now progress.store blank.opened
    refine Or.inl ⟨?_, ?_, ?_⟩
    · simp only [proceed, perform, run, blank]
    · simp only [proceed, written, run, acknowledged, List.append_nil]
    · simp only [proceed, secured, run, safe]
  | flush =>
    have run := flush_closed faults progress.store blank.opened
    refine Or.inl ⟨?_, ?_, ?_⟩
    · simp only [proceed, perform, run, blank]
    · simp only [proceed, written, acknowledged, List.append_nil]
    · simp only [proceed, secured, run, acknowledged, safe, ite_self]
  | close =>
    have run := close_unmapped faults progress.store blank.opened blank.unmapped
    refine Or.inl ⟨?_, ?_, ?_⟩
    · simp only [proceed, perform, run, blank]
    · simp only [proceed, written, acknowledged, List.append_nil]
    · simp only [proceed, secured, run, acknowledged, safe, ite_self]

theorem run_tracked (allowed : SizeAllowed segmentSize) (steps : List (Faults × Operation))
    (regular : ∀ step ∈ steps, CreationSucceeds step.1 ∧ KeepsSize segmentSize step.2) :
    Untouched (run proceed {} steps) ∨
      ∃ front current flushed, Tracked segmentSize (run proceed {} steps) front current flushed := by
  apply run_invariant proceed (fun progress => Untouched progress ∨
      ∃ front current flushed, Tracked segmentSize progress front current flushed)
    (fun step => CreationSucceeds step.1 ∧ KeepsSize segmentSize step.2)
  · rintro progress ⟨faults, operation⟩ ⟨creation, keeps⟩ (untouched | ⟨front, current, flushed, tracked⟩)
    · exact (proceed_untouched operation allowed creation keeps untouched).imp_right fun tracked => ⟨_, _, _, tracked⟩
    · exact Or.inr (proceed_tracked operation creation keeps tracked)
  · exact regular
  · exact Or.inl ⟨⟨fun _ => rfl, rfl, rfl, rfl⟩, rfl, rfl⟩

end Run

end FleetGateway.Storage.Durability
