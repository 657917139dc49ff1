import FleetGateway.Storage.Invariant

/-! Closing and reopening restores the log. With every call of the operating system
succeeding, the index, the next offset and the recent messages after a reopen are
those of the log before it, whatever was recovered, appended or refused earlier. -/

namespace FleetGateway.Storage.Reopen
open Library Library.ByteStore Library.Run Format Record Disk Log RingBuffer Contents Recovery Operations Writing
  Invariant

/-- An intact log, open or closed, whose object still indexes what the directory holds. -/
structure Settled (segmentSize : Nat) (store : Store) (contents : List (List Message)) : Prop where
  standing : (∃ front current, contents = front ++ [current] ∧ Live segmentSize store front current) ∨
    Idle segmentSize store contents
  index : store.log.segmentIndex = indexFrom 0 0 contents
  next : store.log.nextMessageOffset = totalSize contents.flatten

theorem live_settled {segmentSize : Nat} {store : Store} {front : List (List Message)} {current : List Message}
    (live : Live segmentSize store front current) : Settled segmentSize store (front ++ [current]) where
  standing := Or.inl ⟨front, current, rfl, live⟩
  index := live.index
  next := live.next

section Step

variable {segmentSize : Nat} {store : Store} {contents : List (List Message)}

/-- A new open sees the same contents; only a zero capacity is refused, without effect. -/
theorem openLog_settled (capacity : Nat) (settled : Settled segmentSize store contents) :
    Settled segmentSize (openLog noFaults segmentSize capacity store).store contents := by
  rcases settled.standing with ⟨front, current, rfl, live⟩ | idle
  · have refused : openLog noFaults segmentSize capacity store =
        ⟨.error (.logicError "memory-mapped log is already open"), store⟩ := by
      rw [openLog, if_pos live.opened]
    rw [refused]
    exact settled
  · obtain ⟨front, current, rfl⟩ := (List.eq_nil_or_concat' contents).resolve_left idle.nonempty
    rcases openLog_idle noFaults capacity store front current idle with
      ⟨error, left, run, _, _, _, quiet⟩ | ⟨left, run, live, _⟩
    · obtain ⟨_, rfl⟩ := quiet rfl
      rw [run]
      exact settled
    · rw [run]
      exact live_settled live

theorem flush_settled (settled : Settled segmentSize store contents) :
    Settled segmentSize (flush noFaults store).store contents := by
  rcases settled.standing with ⟨front, current, rfl, live⟩ | idle
  · rcases flush_cases live noFaults with ⟨error, run, faulty⟩ | ⟨run, after⟩
    · exact absurd rfl faulty
    · rw [run]
      exact live_settled after
  · rw [flush_closed noFaults store idle.opened]
    exact settled

theorem close_settled (settled : Settled segmentSize store contents) :
    Settled segmentSize (close noFaults store).store contents ∧
      Idle segmentSize (close noFaults store).store contents ∧
      (close noFaults store).store.log.segmentIndex = store.log.segmentIndex ∧
      (close noFaults store).store.log.nextMessageOffset = store.log.nextMessageOffset := by
  rcases settled.standing with ⟨front, current, rfl, live⟩ | idle
  · obtain ⟨result, left, run, idle, index, next, _⟩ := close_cases live noFaults
    rw [run]
    exact ⟨⟨Or.inr idle, index.trans live.index, next.trans live.next⟩, idle, index, next⟩
  · rw [close_unmapped noFaults store idle.opened idle.unmapped]
    exact ⟨settled, idle, rfl, rfl⟩

theorem noFaults_creationSucceeds : CreationSucceeds noFaults := fun _ _ => rfl

theorem append_settled (payload : Bytes) (now : Int) (settled : Settled segmentSize store contents) :
    ∃ after, Settled segmentSize (append noFaults payload now store).store after ∧
      after.flatten = contents.flatten ++ written noFaults (.append payload now) store := by
  rcases settled.standing with ⟨front, current, rfl, live⟩ | idle
  · rcases append_cases live noFaults payload now with ⟨error, run, _⟩ | ⟨_, _, run, after⟩ |
      ⟨_, _, _, _, ⟨run, _, after⟩ | ⟨error, left, run, retains, _, ⟨idle, _⟩ | ⟨failed, _⟩⟩⟩
    · refine ⟨_, by rw [run]; exact settled, ?_⟩
      simp only [written, run, List.append_nil]
    · refine ⟨_, by rw [run]; exact live_settled after, ?_⟩
      simp only [written, run, List.flatten_append, List.flatten_singleton, List.append_assoc]
      rfl
    · refine ⟨_, by rw [run]; exact live_settled after, ?_⟩
      simp only [written, run, List.flatten_append, List.flatten_singleton]
      rfl
    · refine ⟨_, by rw [run]; exact ⟨Or.inr idle, retains.index.trans live.index, retains.next.trans live.next⟩, ?_⟩
      simp only [written, run, List.append_nil]
    · exact absurd noFaults_creationSucceeds failed
  · obtain ⟨error, run⟩ := append_closed noFaults payload now store idle.opened
    refine ⟨contents, by rw [run]; exact settled, ?_⟩
    simp only [written, run, List.append_nil]

end Step

/-- Every open of the run uses the same segment size. -/
def KeepsSize (segmentSize : Nat) : Operation → Prop
  | .openLog size _ => size = segmentSize
  | _ => True

theorem advance_settled {segmentSize : Nat} {recovered : List Message} (history : History)
    (operation : Operation) (keeps : KeepsSize segmentSize operation)
    (settled : ∃ contents, Settled segmentSize history.store contents ∧
      contents.flatten = recovered ++ history.appended) :
    ∃ contents, Settled segmentSize (advance history (noFaults, operation)).store contents ∧
      contents.flatten = recovered ++ (advance history (noFaults, operation)).appended := by
  obtain ⟨contents, settled, flatten⟩ := settled
  have kept : contents.flatten = recovered ++ (history.appended ++ []) := by rw [List.append_nil, flatten]
  cases operation with
  | openLog size capacity =>
    cases keeps
    exact ⟨contents, openLog_settled capacity settled, kept⟩
  | flush => exact ⟨contents, flush_settled settled, kept⟩
  | close => exact ⟨contents, (close_settled settled).1, kept⟩
  | append payload now =>
    obtain ⟨after, settled, added⟩ := append_settled payload now settled
    refine ⟨after, settled, ?_⟩
    rw [added, flatten, List.append_assoc]
    rfl

theorem run_settled (faults : Faults) (segmentSize capacity : Nat) (start : Store)
    (opens : (openLog faults segmentSize capacity start).result = .ok ()) (operations : List Operation)
    (keeps : ∀ operation ∈ operations, KeepsSize segmentSize operation) :
    let history := run advance ⟨(openLog faults segmentSize capacity start).store, [], []⟩
      (operations.map fun operation => (noFaults, operation))
    ∃ contents, Settled segmentSize history.store contents ∧ contents.flatten =
      acceptedMessages segmentSize start.disk (segmentFiles start.disk) 0 ++ history.appended := by
  intro history
  obtain ⟨front, current, first, _, accepted⟩ := openLog_sound faults capacity start
    (openLog faults segmentSize capacity start).store (by rw [← opens])
  apply run_invariant advance (fun history => ∃ contents, Settled segmentSize history.store contents ∧
      contents.flatten = acceptedMessages segmentSize start.disk (segmentFiles start.disk) 0 ++ history.appended)
    (fun step => step.1 = noFaults ∧ KeepsSize segmentSize step.2)
  · rintro history ⟨stepFaults, operation⟩ ⟨quiet, keeps⟩ settled
    cases quiet
    exact advance_settled history operation keeps settled
  · intro step member
    obtain ⟨operation, present, rfl⟩ := List.mem_map.mp member
    exact ⟨rfl, keeps operation present⟩
  · exact ⟨front ++ [current], live_settled first, by rw [accepted, List.append_nil]⟩

/-- From any directory on which an open succeeds, through any appends, flushes and
reopens with the same segment size, a final close and open restores the log. -/
theorem reopen_restores (faults : Faults) (segmentSize capacity : Nat) (start : Store)
    (opens : (openLog faults segmentSize capacity start).result = .ok ()) (operations : List Operation)
    (keeps : ∀ operation ∈ operations, KeepsSize segmentSize operation) (lastCapacity : Nat)
    (positive : 0 < lastCapacity) :
    let history := run advance ⟨(openLog faults segmentSize capacity start).store, [], []⟩
      (operations.map fun operation => (noFaults, operation))
    let again := openLog noFaults segmentSize lastCapacity (close noFaults history.store).store
    again.result = .ok () ∧ segments again.store = segments history.store ∧
      nextOffset again.store = nextOffset history.store ∧
      ∀ count, getRecent again.store count =
        (acceptedMessages segmentSize start.disk (segmentFiles start.disk) 0 ++ history.appended).rtake
          (min count lastCapacity) := by
  intro history again
  have settled := run_settled faults segmentSize capacity start opens operations keeps
  obtain ⟨contents, settled, flatten⟩ := settled
  obtain ⟨_, idle, index, next⟩ := close_settled settled
  obtain ⟨front, current, rfl⟩ := (List.eq_nil_or_concat' contents).resolve_left idle.nonempty
  rcases openLog_idle noFaults lastCapacity _ front current idle with
    ⟨error, left, run, _, _, _, quiet⟩ | ⟨left, run, live, keepsRecent, _⟩
  · have zero := (quiet rfl).1
    omega
  · have same : again = ⟨.ok (), left⟩ := run
    rw [same]
    refine ⟨rfl, ?_, ?_, ?_⟩
    · rw [segments, segments, live.index, settled.index]
    · rw [nextOffset, nextOffset, live.next, settled.next]
    · intro count
      rw [Log.getRecent, keepsRecent.getRecent, flatten]

/-- Two appends with a rollover between them, a refused append and a reopen. -/
theorem reopen_restores_after_rollover :
    let operations : List Operation := [.append [1, 2, 3] 5, .append (List.replicate 29 0) 6, .close,
      .openLog 100 1, .append [4, 5, 6, 7] 7]
    let history := run advance ⟨(openLog noFaults 100 3 {}).store, [], []⟩
      (operations.map fun operation => (noFaults, operation))
    let again := openLog noFaults 100 2 (close noFaults history.store).store
    history.appended.length = 2 ∧ (segments history.store).length = 2 ∧
      again.result = .ok () ∧ segments again.store = segments history.store ∧
      nextOffset again.store = nextOffset history.store ∧
      ∀ count, getRecent again.store count =
        (acceptedMessages 100 ∅ (segmentFiles ∅) 0 ++ history.appended).rtake (min count 2) :=
  ⟨by decide +kernel, by decide +kernel,
    reopen_restores noFaults 100 3 {} (by decide +kernel) _ (by simp [KeepsSize]) 2 (by decide)⟩

end FleetGateway.Storage.Reopen
