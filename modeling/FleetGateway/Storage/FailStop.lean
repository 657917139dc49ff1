import FleetGateway.Storage.Independence
import FleetGateway.Storage.Reopen

/-! An append changes nothing or stops the log. A refused append leaves the object and
every file alone; a rollover that fails closes the log, and a later open goes on from
the messages acknowledged before it. -/

namespace FleetGateway.Storage.FailStop
open Library Library.ByteStore Library.Run Format Record Disk Scan Segment Log RingBuffer Contents Recovery
  Operations Writing Invariant Independence

def sealingCalls : List Call := [.unmapMsync, .unmapMunmap true, .unmapFsync, .unmapClose true]

/-- The calls of a rollover, from the first `msync` to the `fsync` of the directory. -/
def rolloverCalls : List Call := sealingCalls ++ creationCalls

theorem unmapActive_ok_iff (faults : Faults) (store : Store) (fdOpen : store.log.active.fdOpen = true)
    (mapped : store.log.active.mapped = true) :
    (unmapActive faults true store).result = .ok () ↔ ∀ call ∈ sealingCalls, faults call = false := by
  have quiet : (∀ call ∈ sealingCalls, faults call = false) ↔ ¬ (faults .unmapMsync ||
      faults (.unmapMunmap true) || faults .unmapFsync || faults (.unmapClose true)) = true := by
    simp [sealingCalls, and_assoc]
  rw [quiet]
  simp only [unmapActive, fdOpen, mapped, Bool.true_and]
  split
  next failed => exact iff_of_false (fun returned => by cases returned) (not_not_intro failed)
  next fine => exact ⟨fun _ => fine, fun _ => rfl⟩

theorem createSegment_ok_iff (faults : Faults) (id base : Nat) (store : Store)
    (enough : segmentHeaderSize ≤ store.log.segmentSize) :
    (createSegment faults id base store).result = .ok () ↔
      CreationSucceeds faults ∧ store.disk.lookup (segmentPath id) = none := by
  rcases createSegment_cases faults id base store enough with
    ⟨made, absent, succeeds⟩ | ⟨error, active, disk, failed, _, _, unlikely⟩
  · rw [made]
    exact ⟨fun _ => ⟨succeeds, absent⟩, fun _ => rfl⟩
  · rw [failed]
    exact ⟨nofun, fun ⟨succeeds, absent⟩ => absurd absent (unlikely succeeds).2⟩

section Live

variable {segmentSize : Nat} {store : Store} {front : List (List Message)} {current : List Message}

theorem segmentPath_ne {count : Nat} (small : count + 2 ≤ maximumSegmentId) :
    segmentPath (count + 2) ≠ segmentPath (count + 1) := by
  intro same
  have ids := segmentPath_injective _ _ small (by omega) same
  omega

theorem lookup_sealedDisk (small : front.length + 2 ≤ maximumSegmentId) (disk : Directory) :
    (sealedDisk segmentSize (front.length + 1) disk).lookup (segmentPath (front.length + 2)) =
      disk.lookup (segmentPath (front.length + 2)) :=
  lookup_update_ne _ _ _ _ (segmentPath_ne small)

/-- A rollover goes through exactly when each of its calls succeeds and the name of the
new segment is free. -/
theorem rollOver_ok_iff (live : Live segmentSize store front current)
    (small : front.length + 2 ≤ maximumSegmentId) (faults : Faults) :
    (rollOver faults store).result = .ok () ↔
      (∀ call ∈ rolloverCalls, faults call = false) ∧
        store.disk.lookup (segmentPath (front.length + 2)) = none := by
  have least := live.holds.allowed.least
  have sized := live.sized
  have unmap := unmapActive_ok_iff faults store (by rw [live.active]; rfl) (by rw [live.active]; rfl)
  rw [rolloverCalls, List.forall_mem_append, ← unmap]
  cases done : unmapActive faults true store with | mk result left =>
  cases result with
  | error error =>
    simp only [rollOver, done]
    exact ⟨nofun, fun quiet => nomatch quiet.1.1⟩
  | ok _ =>
    have leftEq := unmapActive_sealed faults live done
    have id : left.log.active.segmentId + 1 = front.length + 2 := by
      rw [leftEq, sealedStore, live.active]
      rfl
    have create := createSegment_ok_iff faults (front.length + 2) left.log.nextMessageOffset left
      (by rw [leftEq]; change segmentHeaderSize ≤ store.log.segmentSize; omega)
    have name : left.disk.lookup (segmentPath (front.length + 2)) =
        store.disk.lookup (segmentPath (front.length + 2)) := by
      rw [leftEq]
      exact lookup_sealedDisk small store.disk
    rw [name] at create
    simp only [rollOver, done, id, true_and]
    rw [← CreationSucceeds, ← create]
    cases createSegment faults (front.length + 2) left.log.nextMessageOffset left with | mk result after =>
    cases result with
    | error error => exact ⟨nofun, nofun⟩
    | ok _ => exact Iff.rfl

/-- Past its checks an append throws exactly when it needs a rollover that does not go through. -/
theorem append_ok_iff (live : Live segmentSize store front current) (faults : Faults) (payload : Bytes) (now : Int)
    (check : checkAppend payload store.log = .ok ()) :
    (append faults payload now store).result = .ok store.log.nextMessageOffset ↔
      (needsRollover payload store.log → (∀ call ∈ rolloverCalls, faults call = false) ∧
        store.disk.lookup (segmentPath (front.length + 2)) = none) := by
  by_cases full : needsRollover payload store.log
  · have small := (checkAppend_ok live payload check).2.2.2 full
    have branch := full
    rw [needsRollover] at branch
    simp only [full, forall_const]
    rw [← rollOver_ok_iff live small faults]
    simp only [append, check, if_pos branch]
    rcases rollOver_cases live small faults with ⟨run, _⟩ | ⟨error, left, run, _⟩
    · rw [run]
      exact ⟨fun _ => rfl, fun _ => rfl⟩
    · rw [run]
      exact iff_of_false (fun returned => by cases returned) fun returned => by cases returned
  · have branch := full
    rw [needsRollover] at branch
    refine ⟨fun _ impossible => absurd impossible full, fun _ => ?_⟩
    simp only [append, check, if_neg branch]

theorem checkAppend_passes (live : Live segmentSize store front current) (payload : Bytes)
    (short : payload.length ≤ maxU32)
    (fits : segmentHeaderSize + (recordHeaderSize + payload.length) ≤ segmentSize)
    (bounded : store.log.nextMessageOffset + (recordHeaderSize + payload.length) ≤ maxU64)
    (room : needsRollover payload store.log → front.length + 2 ≤ maximumSegmentId) :
    checkAppend payload store.log = .ok () := by
  have size : store.log.active.size = segmentSize := by rw [live.active]; rfl
  have id : store.log.active.segmentId = front.length + 1 := by rw [live.active]; rfl
  rw [needsRollover, size] at room
  unfold checkAppend
  dsimp only
  rw [size, id, if_neg (by rw [live.opened]; decide), if_neg (by omega), if_neg (by omega), if_neg (by omega),
    if_neg (by omega)]

/-- A closed log that can go on after an open: its newest segment is empty, or a new
segment can follow it. -/
structure Resumable (segmentSize : Nat) (store : Store) (front : List (List Message)) (current : List Message) :
    Prop where
  idle : Idle segmentSize store (front ++ [current])
  room : current = [] ∨ front.length + 2 ≤ maximumSegmentId ∧
    store.disk.lookup (segmentPath (front.length + 2)) = none

/-- Whatever fails in a rollover, as long as the new file can be removed: the segments
are as before, or followed by an empty one whose header was already written. -/
theorem rollOver_resumable (live : Live segmentSize store front current)
    (small : front.length + 2 ≤ maximumSegmentId) (faults : Faults)
    (failing : ∃ call ∈ rolloverCalls, faults call = true) (removal : faults .removeFile = false)
    (free : store.disk.lookup (segmentPath (front.length + 2)) = none) :
    ∃ error left, rollOver faults store = ⟨.error error, left⟩ ∧ Retains store left ∧
      ∃ front' current', (front' ++ [current']).flatten = (front ++ [current]).flatten ∧
        Resumable segmentSize left front' current' := by
  rcases rollOver_cases live small faults with
    ⟨run, _⟩ | ⟨error, left, run, retains, _, ⟨idle, disks⟩ | ⟨_, idle | ⟨stuck, _⟩⟩⟩
  · have quiet := ((rollOver_ok_iff live small faults).mp (by rw [run])).1
    obtain ⟨call, member, failed⟩ := failing
    rw [quiet call member] at failed
    cases failed
  · refine ⟨error, left, run, retains, front, current, rfl, idle, Or.inr ⟨small, ?_⟩⟩
    rcases disks with same | same
    · rw [same, free]
    · rw [same]
      exact (lookup_sealedDisk small store.disk).trans free
  · refine ⟨error, left, run, retains, front ++ [current], [], ?_, idle, Or.inl rfl⟩
    rw [List.flatten_append, List.flatten_singleton, List.append_nil]
  · rw [removal] at stuck
    cases stuck

theorem openLog_resumable (resumable : Resumable segmentSize store front current) (faults : Faults)
    (capacity : Nat) (opens : (openLog faults segmentSize capacity store).result = .ok ()) :
    let again := (openLog faults segmentSize capacity store).store
    Live segmentSize again front current ∧ Keeps again.log.recentCache capacity (front ++ [current]).flatten ∧
      (current = [] ∨ front.length + 2 ≤ maximumSegmentId ∧
        again.disk.lookup (segmentPath (front.length + 2)) = none) := by
  rcases openLog_idle faults capacity store front current resumable.idle with
    ⟨error, left, run, _⟩ | ⟨left, run, live, keeps, extended⟩
  · rw [run] at opens
    cases opens
  · rw [run]
    refine ⟨live, keeps, resumable.room.imp_right fun ⟨small, free⟩ => ⟨small, ?_⟩⟩
    rcases extended with same | ⟨middle, same, update⟩
    · exact (same _).trans free
    · rw [update, lookup_update_ne _ _ _ _ (segmentPath_ne small), same, free]

theorem append_accepted (live : Live segmentSize store front current)
    (room : current = [] ∨ front.length + 2 ≤ maximumSegmentId ∧
      store.disk.lookup (segmentPath (front.length + 2)) = none) (payload : Bytes) (now : Int)
    (check : checkAppend payload store.log = .ok ()) :
    (append noFaults payload now store).result = .ok (nextOffset store) := by
  apply (append_ok_iff live noFaults payload now check).mpr
  intro full
  rcases room with rfl | ⟨_, free⟩
  · obtain ⟨_, fits, _, _⟩ := checkAppend_ok live payload check
    have overflow := (needsRollover_iff live payload fits).mp full
    rw [totalSize_nil] at overflow
    omega
  · exact ⟨fun _ _ => rfl, free⟩

end Live

/-- An open log that continues with `messages`: it takes the given payload and any other
that passes its checks. -/
structure Resumes (capacity : Nat) (store : Store) (messages : List Message) (payload : Bytes) : Prop where
  opened : isOpen store = true
  next : nextOffset store = totalSize messages
  recent : ∀ count, getRecent store count = messages.rtake (min count capacity)
  accepts : ∀ other now, checkAppend other store.log = .ok () →
    (append noFaults other now store).result = .ok (nextOffset store)
  retries : ∀ now, (append noFaults payload now store).result = .ok (nextOffset store)

/-- The log that an append of `payload` has stopped, with the messages acknowledged before. -/
structure Stopped (segmentSize : Nat) (store left : Store) (messages : List Message) (payload : Bytes) : Prop where
  segments : segments left = segments store
  next : nextOffset left = nextOffset store
  recent : ∀ count, getRecent left count = getRecent store count
  closed : isOpen left = false
  refuses : ∀ faults other now, ∃ error, append faults other now left = ⟨.error error, left⟩
  closes : ∀ faults, close faults left = ⟨.ok (), left⟩
  reopens : ∀ capacity, 0 < capacity → (openLog noFaults segmentSize capacity left).result = .ok ()
  resumes : ∀ faults capacity, (openLog faults segmentSize capacity left).result = .ok () →
    Resumes capacity (openLog faults segmentSize capacity left).store messages payload

section Stop

variable {segmentSize : Nat} {store : Store} {front : List (List Message)} {current : List Message}

theorem Resumable.resumes (resumable : Resumable segmentSize store front current) (payload : Bytes)
    (short : payload.length ≤ maxU32)
    (fits : segmentHeaderSize + (recordHeaderSize + payload.length) ≤ segmentSize)
    (bounded : totalSize (front ++ [current]).flatten + (recordHeaderSize + payload.length) ≤ maxU64)
    (faults : Faults) (capacity : Nat) (opens : (openLog faults segmentSize capacity store).result = .ok ()) :
    Resumes capacity (openLog faults segmentSize capacity store).store (front ++ [current]).flatten payload := by
  obtain ⟨live, keeps, room⟩ := openLog_resumable resumable faults capacity opens
  refine ⟨live.opened, live.next, keeps.getRecent, append_accepted live room, fun now => ?_⟩
  apply append_accepted live room payload now
  apply checkAppend_passes live payload short fits
  · rw [live.next]
    exact bounded
  · intro full
    rcases room with rfl | ⟨small, _⟩
    · have overflow := (needsRollover_iff live payload fits).mp full
      rw [totalSize_nil] at overflow
      omega
    · exact small

theorem append_stops (live : Live segmentSize store front current) (faults : Faults) (payload : Bytes) (now : Int)
    (check : checkAppend payload store.log = .ok ()) (full : needsRollover payload store.log)
    (failing : ∃ call ∈ rolloverCalls, faults call = true) (removal : faults .removeFile = false)
    (free : store.disk.lookup (segmentPath (front.length + 2)) = none) :
    ∃ error left, append faults payload now store = ⟨.error error, left⟩ ∧
      Stopped segmentSize store left (front ++ [current]).flatten payload := by
  obtain ⟨short, fits, bounded, small⟩ := checkAppend_ok live payload check
  obtain ⟨error, left, run, retains, front', current', flatten, resumable⟩ :=
    rollOver_resumable live (small full) faults failing removal free
  have idle := resumable.idle
  refine ⟨error, left, ?_, retains.index, retains.next, fun count => ?_, idle.opened, fun faults other now =>
    append_closed faults other now left idle.opened, fun faults => close_unmapped faults left idle.opened
    idle.unmapped, fun capacity positive => ?_, fun faults capacity opens => ?_⟩
  · have branch := full
    rw [needsRollover] at branch
    simp only [append, check, if_pos branch, run]
  · rw [Log.getRecent, Log.getRecent, retains.recent]
  · rcases openLog_idle noFaults capacity left front' current' idle with ⟨_, _, _, _, _, _, quiet⟩ | ⟨_, opened, _⟩
    · have zero := (quiet rfl).1
      omega
    · rw [opened]
  · rw [← flatten]
    apply resumable.resumes payload short fits _ faults capacity opens
    rw [flatten, ← live.next]
    exact bounded

theorem append_unchanged (live : Live segmentSize store front current) {faults : Faults} {payload : Bytes}
    {now : Int} {error : LogError} {left : Store} (thrown : append faults payload now store = ⟨.error error, left⟩)
    (early : ¬ (checkAppend payload store.log = .ok () ∧ needsRollover payload store.log)) : left = store := by
  rcases append_cases live faults payload now with ⟨_, run, _⟩ | ⟨_, _, run, _⟩ | ⟨check, full, _⟩
  · rw [run] at thrown
    exact (Outcome.mk.inj thrown).2.symm
  · rw [run] at thrown
    cases (Outcome.mk.inj thrown).1
  · exact absurd ⟨check, full⟩ early

end Stop

/-- In every open state of every run that starts with a successful open: an append that
throws before its rollover leaves the whole state as it was, and one that throws out of
the rollover, whichever calls fail there, stops the log without losing a message. -/
theorem append_atomic_or_stops (faults : Faults) (segmentSize capacity : Nat) (start : Store)
    (opens : (openLog faults segmentSize capacity start).result = .ok ()) (steps : List (Faults × Operation)) :
    let history := run advance ⟨(openLog faults segmentSize capacity start).store, [], []⟩ steps
    history.store.log.opened = true → ∀ (calls : Faults) (payload : Bytes) (now : Int),
      (∀ error left, append calls payload now history.store = ⟨.error error, left⟩ →
        ¬ (checkAppend payload history.store.log = .ok () ∧ needsRollover payload history.store.log) →
        left = history.store ∧ ∀ appends, appendAll left appends = appendAll history.store appends) ∧
      (checkAppend payload history.store.log = .ok () → needsRollover payload history.store.log →
        (∃ call ∈ rolloverCalls, calls call = true) → calls .removeFile = false →
        history.store.disk.lookup (segmentPath (history.store.log.active.segmentId + 1)) = none →
        ∃ error left, append calls payload now history.store = ⟨.error error, left⟩ ∧
          Stopped segmentSize history.store left
            (acceptedMessages segmentSize start.disk (segmentFiles start.disk) 0 ++ history.appended) payload) := by
  intro history isOpen calls payload now
  obtain ⟨contents, ⟨front, current, rfl, live⟩ | idle | blocked, flatten, _⟩ :=
    run_sound faults segmentSize capacity start opens steps
  · constructor
    · intro error left thrown early
      have same : left = history.store := append_unchanged live thrown early
      exact ⟨same, fun appends => by rw [same]⟩
    · intro check full failing removal free
      have id : history.store.log.active.segmentId + 1 = front.length + 2 := by
        rw [live.active]
        rfl
      rw [id] at free
      rw [← flatten]
      exact append_stops live calls payload now check full failing removal free
  · rw [idle.opened] at isOpen
    cases isOpen
  · rw [blocked.opened] at isOpen
    cases isOpen

/-- The second append does not fit behind the first, and its new segment cannot be mapped. -/
theorem append_atomic_or_stops_unmapped :
    let store := (append noFaults [1, 2, 3] 5 (openLog noFaults 100 3 {}).store).store
    ∃ error left, append (· == .createMmap) [4, 5, 6, 7] 6 store = ⟨.error error, left⟩ ∧
      Stopped 100 store left [⟨0, 5, 3, [1, 2, 3]⟩] [4, 5, 6, 7] :=
  (append_atomic_or_stops noFaults 100 3 {} (by decide +kernel) [(noFaults, .append [1, 2, 3] 5)]
    (by decide +kernel) (· == .createMmap) [4, 5, 6, 7] 6).2 (by decide +kernel) (by decide +kernel)
    ⟨.createMmap, by decide, by decide⟩ (by decide) (by decide +kernel)

end FleetGateway.Storage.FailStop
