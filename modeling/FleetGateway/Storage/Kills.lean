import FleetGateway.Storage.Lives

/-! The log under a process that is killed, at any byte of a copy, and started again: the files stay
as the process saw them, so no acknowledged message is ever lost. -/

namespace FleetGateway.Storage.Kills
open Library Library.ByteStore Library.Run Format Record Disk Scan Segment Log RingBuffer Contents Recovery
  Operations Writing Damage Invariant Reopen Corruption Durability Crash Torn Lives

/-- An operation that runs to its end, or one in which the process is killed and the start of the next. -/
inductive Goes (segmentSize : Nat) : Progress → Progress → Prop
  | operate (progress : Progress) (faults : Faults) (operation : Operation) (creation : CreationSucceeds faults)
      (keeps : KeepsSize segmentSize operation) : Goes segmentSize progress (proceed progress (faults, operation))
  | kill (progress crashed : Progress) (faults : Faults) (operation : Operation) (creation : CreationSucceeds faults)
      (keeps : KeepsSize segmentSize operation) (interrupted : Interrupted faults progress operation crashed)
      (room : totalSize crashed.acknowledged + segmentSize ≤ maxU64) :
      Goes segmentSize progress (reborn segmentSize crashed crashed.store.disk)

section Kill

variable {segmentSize : Nat} {progress crashed : Progress} {faults : Faults} {front : List (List Message)}
  {current flushed : List Message}

theorem survivable_killed (survivable : Survivable segmentSize crashed front current flushed)
    (room : totalSize crashed.acknowledged + segmentSize ≤ maxU64) :
    ∃ recovered, TornDisk segmentSize crashed.store.disk front recovered flushed ∧ current <+: recovered := by
  obtain ⟨file, newest, begins⟩ := survivable.newest
  obtain ⟨length, durable⟩ := survivable.covered.newest file newest.found
  have start := begins.room
  have limit : file.bytes.length ≤ segmentSize := Nat.le_of_eq length
  have opens : Opens segmentSize (front.length + 1) (totalSize front.flatten) file.bytes :=
    ⟨by omega, begins.fields, limit⟩
  have read := begins.scanned limit
  obtain ⟨_, inside, _⟩ := scanned_sound opens
  rw [survivable.acknowledged, totalSize_append] at room
  refine ⟨scanned segmentSize (totalSize front.flatten) file.bytes, ⟨⟨file, newest, opens, rfl, durable⟩, ?_, ?_, ?_⟩, read⟩
  · exact survivable.covered.behind
  · omega
  · exact survivable.kept.trans read

/-- The next process finds every message, and perhaps the one that was being appended. -/
theorem Moment.found (moment : Moment segmentSize crashed) (allowed : SizeAllowed segmentSize)
    (room : totalSize crashed.acknowledged + segmentSize ≤ maxU64) :
    let next := reborn segmentSize crashed crashed.store.disk
    Stands segmentSize next ∧ crashed.acknowledged <+: next.acknowledged := by
  intro next
  cases moment with
  | untouched untouched =>
    refine ⟨reborn_empty allowed untouched.blank.disk untouched.safe, ?_⟩
    rw [untouched.acknowledged]
    exact List.nil_prefix
  | torn front current flushed torn =>
    have accepted : next.acknowledged = front.flatten ++ current := acceptedMessages_torn torn.torn
    refine ⟨reborn_torn ⟨current, torn.torn⟩ torn.safe, ?_⟩
    rw [torn.acknowledged, accepted]
  | survivable front current flushed survivable =>
    obtain ⟨recovered, torn, longer⟩ := survivable_killed survivable room
    have accepted : next.acknowledged = front.flatten ++ recovered := acceptedMessages_torn torn
    refine ⟨reborn_torn ⟨recovered, torn⟩ survivable.safe, ?_⟩
    rw [survivable.acknowledged, accepted]
    exact (List.prefix_append_right_inj _).mpr longer

theorem interrupted_acknowledged {operation : Operation} (interrupted : Interrupted faults progress operation crashed) :
    progress.acknowledged <+: crashed.acknowledged := by
  have readied {payload : Bytes} {started : Progress} (ready : Ready faults payload progress started) :
      progress.acknowledged <+: started.acknowledged := by
    cases ready with
    | inPlace check room => exact List.prefix_rfl
    | rolled left check full done => exact List.prefix_rfl
  cases interrupted with
  | after => exact List.prefix_append _ _
  | started payload now _ ready => exact readied ready
  | copyingPayload payload now started ready count =>
    have longer := readied ready
    exact longer
  | copyingHeader payload now started ready count =>
    have longer := readied ready
    exact longer
  | _ => exact List.prefix_rfl

theorem goes_keeps (allowed : SizeAllowed segmentSize) {next : Progress} (goes : Goes segmentSize progress next)
    (stands : Stands segmentSize progress) : Stands segmentSize next ∧ progress.acknowledged <+: next.acknowledged := by
  cases goes with
  | operate faults operation creation keeps =>
    exact ⟨proceed_stands operation allowed creation keeps stands, List.prefix_append _ _⟩
  | kill crashed faults operation creation keeps interrupted room =>
    have moment := interrupted_moment allowed creation keeps interrupted stands
    obtain ⟨after, found⟩ := Moment.found moment allowed room
    exact ⟨after, (interrupted_acknowledged interrupted).trans found⟩

end Kill

/-- Over any number of lives with one segment size, in which the process is killed wherever no segment is
being created: every message that an append acknowledged stays in the log at its place, flushed or not;
the open log goes on behind these messages; and the closed one opens and recovers exactly these. -/
theorem kills_lose_nothing (segmentSize : Nat) (allowed : SizeAllowed segmentSize) (earlier later : Progress)
    (begun : Relation.ReflTransGen (Goes segmentSize) {} earlier)
    (onward : Relation.ReflTransGen (Goes segmentSize) earlier later) :
    earlier.acknowledged <+: later.acknowledged ∧
      (later.store.log.opened = true → nextOffset later.store = totalSize later.acknowledged) ∧
      (later.store.log.opened = false → ∀ capacity, 0 < capacity →
        Corruption.Recovers segmentSize capacity later.store later.acknowledged) := by
  have keeps (start final : Progress) (run : Relation.ReflTransGen (Goes segmentSize) start final)
      (stands : Stands segmentSize start) : Stands segmentSize final ∧ start.acknowledged <+: final.acknowledged := by
    induction run with
    | refl => exact ⟨stands, List.prefix_rfl⟩
    | tail _ goes ih =>
      obtain ⟨after, longer⟩ := goes_keeps allowed goes ih.1
      exact ⟨after, ih.2.trans longer⟩
  have born : Stands segmentSize {} := .untouched ⟨⟨fun _ => rfl, rfl, ⟨rfl, rfl⟩⟩, rfl, rfl⟩
  obtain ⟨after, longer⟩ := keeps earlier later onward (keeps {} earlier begun born).1
  exact ⟨longer, after.next, after.recovers allowed⟩

/-- Killed within the header of its second record, without a flush, and again before it opens the log. -/
theorem kills_lose_nothing_twice :
    let first := run proceed {} [(noFaults, .openLog 200 1), (noFaults, .append [1, 2, 3] 5)]
    let crashed := { first with store := tornHeader [7, 8, 9] 6 30 first.store }
    let later := reborn 200 crashed crashed.store.disk
    let last := reborn 200 later later.store.disk
    first.safe = [] ∧ first.acknowledged.length = 1 ∧ first.acknowledged <+: last.acknowledged ∧
      Corruption.Recovers 200 7 last.store last.acknowledged := by
  intro first crashed later last
  have started : Goes 200 {} (proceed {} (noFaults, .openLog 200 1)) :=
    .operate {} noFaults (.openLog 200 1) noFaults_creationSucceeds rfl
  have appended : Goes 200 (proceed {} (noFaults, .openLog 200 1)) first :=
    .operate _ noFaults (.append [1, 2, 3] 5) noFaults_creationSucceeds trivial
  have begun : Relation.ReflTransGen (Goes 200) {} first := (Relation.ReflTransGen.single started).tail appended
  have killed : Goes 200 first later :=
    .kill first crashed noFaults (.append [7, 8, 9] 6) noFaults_creationSucceeds trivial
      (.copyingHeader [7, 8, 9] 6 first (.inPlace (by decide +kernel) (by decide +kernel)) 30) (by decide +kernel)
  have again : Goes 200 later last :=
    .kill later later noFaults (.openLog 200 1) noFaults_creationSucceeds rfl (.before _) (by decide +kernel)
  obtain ⟨longer, _, recovers⟩ := kills_lose_nothing 200 ⟨by decide, by decide⟩ first last begun
    ((Relation.ReflTransGen.single killed).tail again)
  exact ⟨by decide +kernel, by decide +kernel, longer, recovers rfl 7 (by decide)⟩

end FleetGateway.Storage.Kills
