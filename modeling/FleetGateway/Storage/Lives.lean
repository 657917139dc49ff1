import FleetGateway.Library.Durable
import FleetGateway.Storage.Torn

/-! The log over any number of process lives, each cut off at any point outside the creation of a
segment: it is a ledger whose flushed front no crash takes away. -/

namespace FleetGateway.Storage.Lives
open Library Library.ByteStore Library.Durable Library.Run Format Record Disk Scan Segment Log RingBuffer Contents Recovery
  Operations Writing Damage Invariant Reopen Corruption Durability Crash Torn

/-- What a process that was cut off leaves: an image of its files, of which what was synced is on
the disk for good. Where only the process died, the image is the directory itself. -/
structure Remains (segmentSize : Nat) (store : Store) (image : Directory) : Prop where
  survives : CrashImage segmentSize store image
  lasting : ∀ name file survivor, fileAt store.disk name = some file → fileAt image name = some survivor →
    syncedEnd store name file ≤ survivor.durable

def reborn (segmentSize : Nat) (crashed : Progress) (image : Directory) : Progress where
  store := ⟨{}, image⟩
  acknowledged := acceptedMessages segmentSize image (segmentFiles image) 0
  safe := crashed.safe

/-- An operation that runs to its end, or one that is cut off and the start of the next process. -/
inductive Next (segmentSize : Nat) : Progress → Progress → Prop
  | operate (progress : Progress) (faults : Faults) (operation : Operation) (creation : CreationSucceeds faults)
      (keeps : KeepsSize segmentSize operation) : Next segmentSize progress (proceed progress (faults, operation))
  | crash (progress crashed : Progress) (faults : Faults) (operation : Operation) (creation : CreationSucceeds faults)
      (keeps : KeepsSize segmentSize operation) (interrupted : Interrupted faults progress operation crashed)
      (image : Directory) (remains : Remains segmentSize crashed.store image)
      (room : totalSize crashed.acknowledged + segmentSize ≤ maxU64) :
      Next segmentSize progress (reborn segmentSize crashed image)

def Follows (segmentSize : Nat) : Progress → Progress → Prop := Relation.ReflTransGen (Next segmentSize)

theorem follows_run (segmentSize : Nat) (progress : Progress) (steps : List (Faults × Operation))
    (regular : ∀ step ∈ steps, CreationSucceeds step.1 ∧ KeepsSize segmentSize step.2) :
    Follows segmentSize progress (run proceed progress steps) := by
  induction steps generalizing progress with
  | nil => exact Relation.ReflTransGen.refl
  | cons step rest ih =>
    obtain ⟨creation, keeps⟩ := regular step List.mem_cons_self
    have later := ih (proceed progress step) fun other member => regular other (List.mem_cons_of_mem _ member)
    exact Relation.ReflTransGen.head (.operate progress step.1 step.2 creation keeps) later

structure TornLog (segmentSize : Nat) (progress : Progress) (front : List (List Message))
    (current flushed : List Message) : Prop where
  opened : progress.store.log.opened = false
  active : progress.store.log.active = {}
  torn : TornDisk segmentSize progress.store.disk front current flushed
  acknowledged : progress.acknowledged = front.flatten ++ current
  safe : progress.safe <+: front.flatten ++ flushed

/-- Nothing was ever created, or the log was not opened in this life, or it was. -/
inductive Stands (segmentSize : Nat) (progress : Progress) : Prop
  | untouched (untouched : Untouched progress)
  | torn (front : List (List Message)) (current flushed : List Message)
      (torn : TornLog segmentSize progress front current flushed)
  | tracked (front : List (List Message)) (current flushed : List Message)
      (tracked : Tracked segmentSize progress front current flushed)

section Life

variable {segmentSize : Nat} {progress crashed : Progress} {faults : Faults} {image : Directory}
  {front : List (List Message)} {current flushed : List Message}

theorem Stands.safe_le (stands : Stands segmentSize progress) : progress.safe <+: progress.acknowledged := by
  cases stands with
  | untouched untouched =>
    rw [untouched.safe]
    exact List.nil_prefix
  | torn front current flushed torn =>
    rw [torn.acknowledged]
    exact torn.safe.trans ((List.prefix_append_right_inj _).mpr torn.torn.kept)
  | tracked front current flushed tracked =>
    rw [tracked.acknowledged]
    exact tracked.safe.trans ((List.prefix_append_right_inj _).mpr tracked.guarded.kept)

theorem TornLog.check (torn : TornLog segmentSize progress front current flushed) (payload : Bytes) :
    checkAppend payload progress.store.log ≠ .ok () := by
  intro check
  simp only [checkAppend, torn.opened, ↓reduceIte] at check
  cases check

theorem proceed_torn (operation : Operation) (keeps : KeepsSize segmentSize operation)
    (torn : TornLog segmentSize progress front current flushed) :
    Stands segmentSize (proceed progress (faults, operation)) := by
  have acknowledged := torn.acknowledged
  cases operation with
  | openLog size capacity =>
    cases keeps
    rcases openLog_torn faults capacity torn.opened torn.torn with ⟨error, left, run, recovering⟩ |
      ⟨left, run, live, covered⟩
    · apply Stands.torn front current flushed
      refine ⟨?_, ?_, ?_, ?_, torn.safe⟩
      · simp only [proceed, perform, run]
        exact recovering.opened.trans torn.opened
      · simp only [proceed, perform, run]
        exact recovering.active.trans torn.active
      · simp only [proceed, perform, run]
        exact recovering.torn
      · simp only [proceed, written, List.append_nil, acknowledged]
    · apply Stands.tracked front current flushed
      refine ⟨?_, ?_, torn.safe⟩
      · simp only [proceed, perform, run]
        exact Guarded.of_live live covered torn.torn.kept
      · simp only [proceed, written, List.append_nil, acknowledged]
  | append payload now =>
    obtain ⟨error, run⟩ := append_closed faults payload now progress.store torn.opened
    apply Stands.torn front current flushed
    refine ⟨?_, ?_, ?_, ?_, ?_⟩
    · simp only [proceed, perform, run, torn.opened]
    · simp only [proceed, perform, run, torn.active]
    · simp only [proceed, perform, run, torn.torn]
    · simp only [proceed, written, run, acknowledged, List.append_nil]
    · simp only [proceed, secured, run, torn.safe]
  | flush =>
    have run := flush_closed faults progress.store torn.opened
    apply Stands.torn front current flushed
    refine ⟨?_, ?_, ?_, ?_, ?_⟩
    · simp only [proceed, perform, run, torn.opened]
    · simp only [proceed, perform, run, torn.active]
    · simp only [proceed, perform, run, torn.torn]
    · simp only [proceed, written, acknowledged, List.append_nil]
    · simp only [proceed, secured, run, torn.opened, Bool.false_eq_true, if_false, torn.safe]
  | close =>
    have unmapped : Unmapped progress.store.log.active := by
      rw [torn.active]
      exact ⟨rfl, rfl⟩
    have run := close_unmapped faults progress.store torn.opened unmapped
    apply Stands.torn front current flushed
    refine ⟨?_, ?_, ?_, ?_, ?_⟩
    · simp only [proceed, perform, run, torn.opened]
    · simp only [proceed, perform, run, torn.active]
    · simp only [proceed, perform, run, torn.torn]
    · simp only [proceed, written, acknowledged, List.append_nil]
    · simp only [proceed, secured, run, torn.opened, Bool.false_eq_true, if_false, torn.safe]

theorem proceed_stands (operation : Operation) (allowed : SizeAllowed segmentSize) (creation : CreationSucceeds faults)
    (keeps : KeepsSize segmentSize operation) (stands : Stands segmentSize progress) :
    Stands segmentSize (proceed progress (faults, operation)) := by
  cases stands with
  | untouched untouched =>
    rcases proceed_untouched operation allowed creation keeps untouched with still | tracked
    · exact .untouched still
    · exact .tracked _ _ _ tracked
  | torn front current flushed torn => exact proceed_torn operation keeps torn
  | tracked front current flushed tracked =>
    obtain ⟨nextFront, next, nextFlushed, after⟩ := proceed_tracked operation creation keeps tracked
    exact .tracked nextFront next nextFlushed after

theorem remains_torn {store : Store} {file : File} (remains : Remains segmentSize store image)
    (newest : Newest segmentSize store.disk front file)
    (begins : Begins segmentSize (front.length + 1) (totalSize front.flatten) flushed file.bytes)
    (reach : segmentHeaderSize + totalSize flushed ≤ syncedEnd store (segmentPath (front.length + 1)) file)
    (behind : ∀ id file, id ≤ front.length → fileAt store.disk (segmentPath id) = some file →
      file.bytes.length = segmentSize ∧ segmentSize ≤ syncedEnd store (segmentPath id) file)
    (room : totalSize front.flatten + segmentSize ≤ maxU64) :
    ∃ recovered, TornDisk segmentSize image front recovered flushed := by
  have names := remains.survives.names
  have count := newest.count
  -- a sealed file survives as it is
  have kept (id : Nat) (low : id ≤ front.length) :
      (fileAt image (segmentPath id)).map File.bytes = (fileAt store.disk (segmentPath id)).map File.bytes := by
    cases before : fileAt store.disk (segmentPath id) with
    | none =>
      have none := names (segmentPath id)
      rw [before, Option.isSome_none, Option.isSome_eq_false_iff, Option.isNone_iff_eq_none] at none
      rw [none]
    | some found =>
      obtain ⟨survivor, after, same, long, limit⟩ := remains.survives.files _ found before
      obtain ⟨length, durable⟩ := behind id found low before
      rw [List.take_of_length_le (by omega), List.take_of_length_le (by omega)] at same
      rw [after, Option.map_some, Option.map_some, same]
  obtain ⟨survivor, after, same, long, limit⟩ := remains.survives.files _ file newest.found
  have beginning : Begins segmentSize (front.length + 1) (totalSize front.flatten) flushed survivor.bytes :=
    begins.congr _ reach long same
  have start := beginning.room
  have opens : Opens segmentSize (front.length + 1) (totalSize front.flatten) survivor.bytes :=
    ⟨by omega, beginning.fields, limit⟩
  obtain ⟨_, inside, _⟩ := scanned_sound opens
  refine ⟨scanned segmentSize (totalSize front.flatten) survivor.bytes, ⟨survivor, ?_, opens, rfl, ?_⟩, ?_, ?_, ?_⟩
  · refine ⟨newest.allowed, ?_, ?_, count, newest.bounded, after⟩
    · apply holdsFrom_congr segmentSize store.disk image 0 0 front _ newest.files
      intro id _ high
      exact kept id (by omega)
    · intro id bound
      rw [names]
      exact newest.listed id bound
  · exact reach.trans (remains.lasting _ file survivor newest.found after)
  · intro id found low present
    obtain ⟨earlier, before⟩ : ∃ earlier, fileAt store.disk (segmentPath id) = some earlier := by
      apply Option.isSome_iff_exists.mp
      rw [← names, present]
      rfl
    obtain ⟨length, durable⟩ := behind id earlier low before
    have bytes := kept id low
    rw [before, present, Option.map_some, Option.map_some, Option.some.injEq] at bytes
    rw [bytes]
    exact ⟨length, durable.trans (remains.lasting _ earlier found before present)⟩
  · omega
  · exact beginning.scanned limit

theorem reborn_torn (torn : ∃ recovered, TornDisk segmentSize image front recovered flushed)
    (safe : crashed.safe <+: front.flatten ++ flushed) : Stands segmentSize (reborn segmentSize crashed image) := by
  obtain ⟨recovered, torn⟩ := torn
  apply Stands.torn front recovered flushed
  exact ⟨rfl, rfl, torn, acceptedMessages_torn torn, safe⟩

theorem survivable_reborn (survivable : Survivable segmentSize crashed front current flushed)
    (remains : Remains segmentSize crashed.store image) (room : totalSize crashed.acknowledged + segmentSize ≤ maxU64) :
    Stands segmentSize (reborn segmentSize crashed image) := by
  obtain ⟨file, newest, begins⟩ := survivable.newest
  have count := newest.count
  have fewer := totalSize_prefix survivable.kept
  have position := survivable.position
  have covered := survivable.covered
  rw [survivable.acknowledged, totalSize_append] at room
  refine reborn_torn (remains_torn remains newest (begins.front survivable.kept) ?_ ?_ (by omega)) survivable.safe
  · have durable := (covered.newest file newest.found).2
    rw [syncedEnd, if_pos survivable.path.symm, position]
    omega
  · intro id found low present
    have apart : segmentPath id ≠ crashed.store.log.active.path := by
      intro same
      rw [survivable.path] at same
      have ids := segmentPath_injective _ _ (by omega) count same
      omega
    rw [syncedEnd, if_neg apart]
    exact covered.behind id found low present

theorem torn_reborn (torn : TornLog segmentSize crashed front current flushed)
    (remains : Remains segmentSize crashed.store image) (room : totalSize crashed.acknowledged + segmentSize ≤ maxU64) :
    Stands segmentSize (reborn segmentSize crashed image) := by
  obtain ⟨file, newest, still⟩ := torn.torn.newest
  have count := newest.count
  have unmapped (id : Nat) (bound : id ≤ maximumSegmentId) : segmentPath id ≠ crashed.store.log.active.path := by
    intro same
    have length := length_segmentPath id bound
    rw [same, torn.active] at length
    cases length
  have begins : Begins segmentSize (front.length + 1) (totalSize front.flatten) current file.bytes := by
    obtain ⟨chain, inside, here⟩ := scanned_sound still.opens
    rw [still.scans] at chain inside here
    refine ⟨chain, still.opens.fields, ?_, inside⟩
    rw [slice, here, List.take_left' (length_encodeRecords _)]
  rw [torn.acknowledged, totalSize_append] at room
  refine reborn_torn (remains_torn remains newest (begins.front torn.torn.kept) ?_ ?_ (by omega)) torn.safe
  · rw [syncedEnd, if_neg (unmapped _ count)]
    exact still.durable
  · intro id found low present
    rw [syncedEnd, if_neg (unmapped id (by omega))]
    exact torn.torn.behind id found low present

theorem reborn_empty (allowed : SizeAllowed segmentSize) (empty : SameFiles image ∅) (safe : crashed.safe = []) :
    Stands segmentSize (reborn segmentSize crashed image) := by
  have none : segmentFiles image = [] := (holds_empty allowed empty).segmentFiles
  apply Stands.untouched
  refine ⟨⟨empty, rfl, ⟨rfl, rfl⟩⟩, ?_, safe⟩
  simp only [reborn, none, acceptedMessages]

theorem untouched_reborn (allowed : SizeAllowed segmentSize) (untouched : Untouched crashed)
    (remains : Remains segmentSize crashed.store image) : Stands segmentSize (reborn segmentSize crashed image) := by
  apply reborn_empty allowed _ untouched.safe
  intro name
  rw [remains.survives.others name (by rw [untouched.blank.disk.fileAt]; rfl), untouched.blank.disk name]

inductive Moment (segmentSize : Nat) (crashed : Progress) : Prop
  | untouched (untouched : Untouched crashed)
  | torn (front : List (List Message)) (current flushed : List Message)
      (torn : TornLog segmentSize crashed front current flushed)
  | survivable (front : List (List Message)) (current flushed : List Message)
      (survivable : Survivable segmentSize crashed front current flushed)

theorem Stands.moment (stands : Stands segmentSize crashed) : Moment segmentSize crashed := by
  cases stands with
  | untouched untouched => exact .untouched untouched
  | torn front current flushed torn => exact .torn front current flushed torn
  | tracked front current flushed tracked => exact .survivable front current flushed (tracked_survivable tracked)

theorem scanned_torn (capacity : Nat) (torn : TornLog segmentSize progress front current flushed) :
    TornLog segmentSize { progress with store := afterScan faults segmentSize capacity progress.store }
      front current flushed := by
  let started : Store := ⟨{ progress.store.log with
    segmentSize := segmentSize, recentCache := ofCapacity capacity, nextMessageOffset := 0, segmentIndex := [] },
    progress.store.disk⟩
  obtain ⟨recovering, _⟩ := @recoverSegments_torn segmentSize started front current flushed faults rfl torn.torn
  refine ⟨?_, ?_, recovering.torn, torn.acknowledged, torn.safe⟩
  · exact recovering.opened.trans torn.opened
  · exact recovering.active.trans torn.active

theorem interrupted_moment {operation : Operation} (allowed : SizeAllowed segmentSize)
    (creation : CreationSucceeds faults) (keeps : KeepsSize segmentSize operation)
    (interrupted : Interrupted faults progress operation crashed) (stands : Stands segmentSize progress) :
    Moment segmentSize crashed := by
  cases stands with
  | untouched untouched =>
    rcases interrupted_untouched allowed creation keeps interrupted untouched with still | ⟨_, _, _, survivable⟩
    · exact .untouched still
    · exact .survivable _ _ _ survivable
  | tracked front current flushed tracked =>
    obtain ⟨_, _, _, survivable⟩ := interrupted_survivable creation keeps interrupted tracked
    exact .survivable _ _ _ survivable
  | torn front current flushed torn =>
    have idle (payload : Bytes) (started : Progress) : ¬ Ready faults payload progress started := by
      intro ready
      cases ready with
      | inPlace check room => exact torn.check payload check
      | rolled left check full done => exact torn.check payload check
    cases interrupted with
    | before => exact .torn front current flushed torn
    | after => exact (proceed_torn operation keeps torn).moment
    | scanned size capacity opened =>
      cases keeps
      exact .torn front current flushed (scanned_torn capacity torn)
    | unmapped payload now left check full done => exact absurd check (torn.check payload)
    | started payload now _ ready => exact absurd ready (idle payload crashed)
    | copyingPayload payload now started ready count => exact absurd ready (idle payload started)
    | copyingHeader payload now started ready count => exact absurd ready (idle payload started)

/-- Cut off at any point, the log stands at its next start. -/
theorem Moment.stands (moment : Moment segmentSize crashed) (allowed : SizeAllowed segmentSize)
    (remains : Remains segmentSize crashed.store image) (room : totalSize crashed.acknowledged + segmentSize ≤ maxU64) :
    Stands segmentSize (reborn segmentSize crashed image) := by
  cases moment with
  | untouched untouched => exact untouched_reborn allowed untouched remains
  | torn front current flushed torn => exact torn_reborn torn remains room
  | survivable front current flushed survivable => exact survivable_reborn survivable remains room

/-- A flush, a close or a rollover makes safe what was acknowledged before; nothing else changes what is safe. -/
theorem proceed_safe (progress : Progress) (step : Faults × Operation) :
    (proceed progress step).safe = progress.safe ∨ (proceed progress step).safe = progress.acknowledged := by
  have either {α : Type} (result : Except LogError α) (syncs : Prop) [Decidable syncs] :
      secured result syncs progress = progress.safe ∨ secured result syncs progress = progress.acknowledged := by
    unfold secured
    split
    · split
      · exact .inr rfl
      · exact .inl rfl
    · exact .inl rfl
  obtain ⟨faults, operation⟩ := step
  cases operation with
  | openLog size capacity => exact .inl rfl
  | append payload now => exact either _ _
  | flush => exact either _ _
  | close => exact either _ _

theorem interrupted_safe {operation : Operation} (interrupted : Interrupted faults progress operation crashed) :
    crashed.safe = progress.safe ∨ crashed.safe = progress.acknowledged := by
  have readied {payload : Bytes} {started : Progress} (ready : Ready faults payload progress started) :
      started.safe = progress.safe ∨ started.safe = progress.acknowledged := by
    cases ready with
    | inPlace check room => exact .inl rfl
    | rolled left check full done => exact .inr rfl
  cases interrupted with
  | before => exact .inl rfl
  | after => exact proceed_safe progress (faults, operation)
  | scanned size capacity opened => exact .inl rfl
  | unmapped payload now left check full done => exact .inl rfl
  | started payload now _ ready => exact readied ready
  | copyingPayload payload now started ready count =>
    have same := readied ready
    exact same
  | copyingHeader payload now started ready count =>
    have same := readied ready
    exact same

/-- The ledger that a log stands for. -/
structure Shows (segmentSize : Nat) (progress : Progress) (ledger : Ledger Message) : Prop where
  entries : ledger.entries = progress.acknowledged
  durable : ledger.durable = progress.safe
  stands : Stands segmentSize progress

theorem later_synced {ledger : Ledger Message} (shows : Shows segmentSize progress ledger) (safe : List Message)
    (either : safe = progress.safe ∨ safe = progress.acknowledged) :
    ∃ next, Later ledger next ∧ next.entries = progress.acknowledged ∧ next.durable = safe := by
  have kept : safe <+: progress.acknowledged := by
    rcases either with same | all
    · rw [same]
      exact shows.stands.safe_le
    · rw [all]
  have longer : ledger.durable <+: safe := by
    rw [shows.durable]
    rcases either with same | all
    · rw [same]
    · rw [all]
      exact shows.stands.safe_le
  exact ⟨⟨progress.acknowledged, safe, kept⟩, .single (.sync shows.entries.symm longer), rfl, rfl⟩

/-- Every operation and every crash is one of the ledger. -/
theorem next_simulated (allowed : SizeAllowed segmentSize) (before after : Progress) (ledger : Ledger Message)
    (next : Next segmentSize before after) (shows : Shows segmentSize before ledger) :
    ∃ result, Later ledger result ∧ Shows segmentSize after result := by
  cases next with
  | operate faults operation creation keeps =>
    have stands := proceed_stands operation allowed creation keeps shows.stands
    obtain ⟨synced, later, entries, durable⟩ := later_synced shows _ (proceed_safe before (faults, operation))
    have written : Step synced ⟨(proceed before (faults, operation)).acknowledged, _, stands.safe_le⟩ :=
      .write (written faults operation before.store) (by rw [entries]; rfl) durable.symm
    exact ⟨_, later.tail written, rfl, rfl, stands⟩
  | crash crashed faults operation creation keeps interrupted image remains room =>
    have stands := (interrupted_moment allowed creation keeps interrupted shows.stands).stands allowed remains room
    obtain ⟨synced, later, _, durable⟩ := later_synced shows _ (interrupted_safe interrupted)
    have lost : Step synced ⟨(reborn segmentSize crashed image).acknowledged, _, stands.safe_le⟩ :=
      .crash durable.symm
    exact ⟨_, later.tail lost, rfl, rfl, stands⟩

theorem Stands.next (stands : Stands segmentSize progress) (opened : progress.store.log.opened = true) :
    nextOffset progress.store = totalSize progress.acknowledged := by
  cases stands with
  | untouched untouched => cases opened.symm.trans untouched.blank.opened
  | torn front current flushed torn => cases opened.symm.trans torn.opened
  | tracked front current flushed tracked =>
    rcases tracked.guarded.standing with live | idle
    · rw [nextOffset, live.next, tracked.acknowledged, List.flatten_append, List.flatten_singleton]
    · cases opened.symm.trans idle.opened

theorem Stands.recovers (stands : Stands segmentSize progress) (allowed : SizeAllowed segmentSize)
    (closed : progress.store.log.opened = false) (capacity : Nat) (positive : 0 < capacity) :
    Corruption.Recovers segmentSize capacity progress.store progress.acknowledged := by
  cases stands with
  | untouched untouched =>
    rw [untouched.acknowledged]
    rcases openLog_blank noFaults capacity allowed untouched.blank noFaults_creationSucceeds with
      ⟨_, _, _, _, quiet⟩ | ⟨left, run, _, live, keeps⟩
    · exact absurd (quiet rfl) (Nat.pos_iff_ne_zero.mp positive)
    · unfold Corruption.Recovers
      rw [run]
      exact ⟨rfl, live.next, fun count => keeps.getRecent count⟩
  | torn front current flushed torn =>
    rw [torn.acknowledged]
    exact recovers_torn capacity positive closed torn.torn
  | tracked front current flushed tracked =>
    rcases tracked.guarded.standing with live | idle
    · cases closed.symm.trans live.opened
    · rcases openLog_idle noFaults capacity progress.store front current idle with
        ⟨_, _, _, _, _, _, quiet⟩ | ⟨left, run, live, keeps, _⟩
      · exact absurd (quiet rfl).1 (Nat.pos_iff_ne_zero.mp positive)
      · have next := live.next
        rw [List.flatten_append, List.flatten_singleton] at keeps next
        rw [tracked.acknowledged]
        unfold Corruption.Recovers
        rw [run]
        exact ⟨rfl, next, fun count => keeps.getRecent count⟩

end Life

/-- Over any number of lives with one segment size, cut off wherever no segment is being created, with
whatever calls failing: what was flushed once stays in the log, at its place, and is never taken for
anything else; the open log goes on behind its acknowledged messages; and the closed one, whatever
the last crash has left of it, opens and recovers exactly these. -/
theorem lives_durable (segmentSize : Nat) (allowed : SizeAllowed segmentSize) (earlier later : Progress)
    (begun : Follows segmentSize {} earlier) (onward : Follows segmentSize earlier later) :
    (earlier.safe <+: later.safe ∧ later.safe <+: later.acknowledged ∧
      ∀ index, index < earlier.safe.length → later.acknowledged[index]? = earlier.acknowledged[index]?) ∧
    (later.store.log.opened = true → nextOffset later.store = totalSize later.acknowledged) ∧
    (later.store.log.opened = false → ∀ capacity, 0 < capacity →
      Corruption.Recovers segmentSize capacity later.store later.acknowledged) := by
  have born : Shows segmentSize {} ⟨[], [], List.prefix_rfl⟩ :=
    ⟨rfl, rfl, .untouched ⟨⟨fun _ => rfl, rfl, ⟨rfl, rfl⟩⟩, rfl, rfl⟩⟩
  obtain ⟨ledger, _, shows⟩ := Later.simulates (Next segmentSize) (Shows segmentSize) (next_simulated allowed)
    {} earlier _ begun born
  obtain ⟨final, kept, shown⟩ := Later.simulates (Next segmentSize) (Shows segmentSize) (next_simulated allowed)
    earlier later ledger onward shows
  refine ⟨⟨?_, shown.stands.safe_le, fun index inside => ?_⟩, shown.stands.next, shown.stands.recovers allowed⟩
  · rw [← shows.durable, ← shown.durable]
    exact kept.durable
  · rw [← shows.entries, ← shown.entries]
    rw [← shows.durable] at inside
    exact kept.entry index inside

/-- One message is flushed, the next append is cut off in its payload, and garbage follows on the disk. -/
theorem lives_durable_torn :
    let first := run proceed {} [(noFaults, .openLog 200 1), (noFaults, .append [1, 2, 3] 5), (noFaults, .flush)]
    let crashed := { first with store := tornPayload [7, 8, 9] 2 first.store }
    let survivor : File := ⟨(newestBytes crashed.store.disk 1).take 75 ++ [5, 5, 5], 75⟩
    let later := reborn 200 crashed (update crashed.store.disk (segmentPath 1) fun _ => survivor)
    first.safe.length = 1 ∧ Corruption.Recovers 200 7 later.store later.acknowledged ∧
      later.acknowledged[0]? = first.acknowledged[0]? := by
  intro first crashed survivor later
  have begun : Follows 200 {} first := follows_run 200 {} _ (by simp [KeepsSize, noFaults_creationSucceeds])
  have only : crashed.store.disk.entries = [⟨segmentPath 1, .regular
      ((fileAt crashed.store.disk (segmentPath 1)).getD ⟨[], 0⟩)⟩] := by decide +kernel
  have remains : Remains 200 crashed.store (update crashed.store.disk (segmentPath 1) fun _ => survivor) := by
    refine ⟨crashImage_update 200 crashed.store _ _ survivor only (by decide +kernel) (by decide +kernel)
      (by decide +kernel), ?_⟩
    intro name file found present image
    obtain ⟨rfl, rfl⟩ := fileAt_single only present
    rw [fileAt_update, if_pos rfl, present, Option.map_some, Option.some.injEq] at image
    rw [← image]
    decide +kernel
  have crash : Next 200 first later :=
    .crash first crashed noFaults (.append [7, 8, 9] 6) noFaults_creationSucceeds trivial
      (.copyingPayload [7, 8, 9] 6 first (.inPlace (by decide +kernel) (by decide +kernel)) 2) _ remains
      (by decide +kernel)
  obtain ⟨⟨_, _, entries⟩, _, recovers⟩ :=
    lives_durable 200 ⟨by decide, by decide⟩ first later begun (Relation.ReflTransGen.single crash)
  exact ⟨by decide +kernel, recovers rfl 7 (by decide), entries 0 (by decide +kernel)⟩

end FleetGateway.Storage.Lives
