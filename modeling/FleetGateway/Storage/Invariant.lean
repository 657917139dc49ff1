import FleetGateway.Library.Run
import FleetGateway.Storage.Writing

/-! The representation invariant of the log over whole runs. Any call of any
operation may fail; the invariant speaks about every state in which the log is open. -/

namespace FleetGateway.Storage.Invariant
open Library Library.ByteStore Library.Run Format Record Disk Scan Segment Log RingBuffer Contents Recovery
  Operations Writing

inductive Operation where
  | openLog (segmentSize recentCapacity : Nat)
  | append (payload : Bytes) (now : Int)
  | flush
  | close

def perform (faults : Faults) (operation : Operation) (store : Store) : Store :=
  match operation with
  | .openLog segmentSize recentCapacity => (openLog faults segmentSize recentCapacity store).store
  | .append payload now => (append faults payload now store).store
  | .flush => (flush faults store).store
  | .close => (close faults store).store

/-- The message that a call adds to the log; an append that throws adds none. -/
def written (faults : Faults) (operation : Operation) (store : Store) : List Message :=
  match operation with
  | .append payload now =>
    match (append faults payload now store).result with
    | .ok offset => [⟨offset, timestampOf now, payload.length, payload⟩]
    | .error _ => []
  | _ => []

/-- The segment that a call of `append` seals, with the size of the record that had
no room in it. -/
def sealing (operation : Operation) (store : Store) : List (Nat × Nat) :=
  match operation with
  | .append payload _ =>
    match checkAppend payload store.log with
    | .ok _ => if needsRollover payload store.log then
        [(store.log.active.segmentId, recordHeaderSize + payload.length)] else []
    | .error _ => []
  | _ => []

structure History where
  store : Store
  appended : List Message
  rollovers : List (Nat × Nat)

def advance (history : History) (step : Faults × Operation) : History where
  store := perform step.1 step.2 history.store
  appended := history.appended ++ written step.1 step.2 history.store
  rollovers := history.rollovers ++ sealing step.2 history.store

def Extends (before after : List (List Message)) : Prop :=
  ∀ (index : Nat) messages, before[index]? = some messages → ∃ more, after[index]? = some (messages ++ more)

theorem Extends.refl (contents : List (List Message)) : Extends contents contents :=
  fun _ messages found => ⟨[], by rw [found, List.append_nil]⟩

theorem extends_append (contents : List (List Message)) (more : List (List Message)) :
    Extends contents (contents ++ more) := by
  intro index messages found
  have inside : index < contents.length := (List.getElem?_eq_some_iff.mp found).1
  exact ⟨[], by rw [List.getElem?_append_left inside, found, List.append_nil]⟩

theorem extends_last (front : List (List Message)) (current more : List Message) :
    Extends (front ++ [current]) (front ++ [current ++ more]) := by
  intro index messages found
  by_cases inside : index < front.length
  · rw [List.getElem?_append_left inside] at found
    exact ⟨[], by rw [List.getElem?_append_left inside, found, List.append_nil]⟩
  · rw [List.getElem?_append_right (by omega)] at found
    rw [List.getElem?_append_right (by omega)]
    cases place : index - front.length with
    | zero =>
      rw [place, List.getElem?_cons_zero, Option.some.injEq] at found
      exact ⟨more, by rw [List.getElem?_cons_zero, found]⟩
    | succ place' =>
      rw [place] at found
      simp at found

/-- Every sealed segment holds a record, and the record that sealed it had no room. -/
def SealedFull (segmentSize : Nat) (contents : List (List Message)) (rollovers : List (Nat × Nat)) : Prop :=
  ∀ roll ∈ rollovers, 1 ≤ roll.1 ∧ ∃ messages, contents[roll.1 - 1]? = some messages ∧ messages ≠ [] ∧
    segmentSize < segmentHeaderSize + totalSize messages + roll.2

theorem SealedFull.mono {segmentSize : Nat} {before after : List (List Message)} {rollovers : List (Nat × Nat)}
    (full : SealedFull segmentSize before rollovers) (extended : Extends before after) :
    SealedFull segmentSize after rollovers := by
  intro roll member
  obtain ⟨positive, messages, found, nonempty, overflow⟩ := full roll member
  obtain ⟨more, later⟩ := extended _ _ found
  refine ⟨positive, messages ++ more, later, by simp [nonempty], ?_⟩
  rw [totalSize_append]
  omega

/-- What the log object and the directory have to do with the segments. -/
def Standing (segmentSize : Nat) (store : Store) (contents : List (List Message)) : Prop :=
  (∃ front current, contents = front ++ [current] ∧ Live segmentSize store front current) ∨
    Idle segmentSize store contents ∨ Blocked segmentSize store contents

theorem accepted_standing {segmentSize : Nat} {store : Store} {contents : List (List Message)}
    (standing : Standing segmentSize store contents) : messagesIn segmentSize store.disk = contents.flatten := by
  have held (holds : Holds segmentSize store.disk contents) : messagesIn segmentSize store.disk = contents.flatten := by
    have whole := accepted_whole store.disk contents 0 0 [] holds.allowed holds.files
      (by rw [Nat.zero_add]; exact holds.bounded) (by rw [Nat.zero_add]; exact holds.count)
    rw [List.append_nil, acceptedMessages, List.append_nil] at whole
    rw [messagesIn, holds.segmentFiles, whole]
  rcases standing with ⟨front, current, rfl, live⟩ | idle | blocked
  · exact held live.holds
  · exact held idle.holds
  · have count := blocked.count
    have listing : segmentFiles store.disk = filesFrom 0 (contents.length + 1) :=
      segmentFiles_eq store.disk _ blocked.count blocked.listed
    have whole := accepted_whole store.disk contents 0 0 (filesFrom contents.length 1) blocked.allowed blocked.files
      (by rw [Nat.zero_add]; exact blocked.bounded) (by omega)
    obtain ⟨junk, found, shape⟩ := blocked.junk
    have bad : junk.bytes.length < segmentHeaderSize ∨
        checkSegmentHeader segmentSize (contents.length + 1) (slice junk.bytes 0 segmentHeaderSize) = false := by
      rcases shape with empty | zero
      · exact .inl (by rw [empty]; decide)
      · exact .inr (by rw [zero]; exact checkSegmentHeader_zeros _ _ _)
    obtain ⟨error, refused⟩ := scanSegment_refused noFaults (segmentPath (contents.length + 1)) true
      (0 + totalSize contents.flatten) junk bad
    have nothing : acceptedMessages segmentSize store.disk (filesFrom contents.length 1)
        (0 + totalSize contents.flatten) = [] := by
      simp only [filesFrom, acceptedMessages, found, Option.getD_some, List.isEmpty_nil, refused, List.append_nil]
    rw [messagesIn, listing, filesFrom_add, Nat.zero_add, whole, nothing, List.append_nil]

def Sound (segmentSize : Nat) (recovered : List Message) (history : History) : Prop :=
  ∃ contents, Standing segmentSize history.store contents ∧
    contents.flatten = recovered ++ history.appended ∧
    SealedFull segmentSize contents history.rollovers

structure Steps (segmentSize : Nat) (faults : Faults) (operation : Operation) (store : Store)
    (before after : List (List Message)) : Prop where
  standing : Standing segmentSize (perform faults operation store) after
  flatten : after.flatten = before.flatten ++ written faults operation store
  extended : Extends before after
  sealing : SealedFull segmentSize after (sealing operation store)

section Step

variable {segmentSize : Nat} {store : Store} {contents : List (List Message)}

theorem Steps.idle {faults : Faults} {operation : Operation} (quiet : written faults operation store = [])
    (none : Invariant.sealing operation store = [])
    (standing : Standing segmentSize (perform faults operation store) contents) :
    Steps segmentSize faults operation store contents contents where
  standing := standing
  flatten := by rw [quiet, List.append_nil]
  extended := Extends.refl contents
  sealing := by
    rw [none]
    intro roll member
    cases member

theorem openLog_steps (faults : Faults) (size capacity : Nat) (standing : Standing segmentSize store contents) :
    Steps segmentSize faults (.openLog size capacity) store contents contents := by
  apply Steps.idle rfl rfl
  rcases standing with ⟨front, current, rfl, live⟩ | idle | blocked
  · have refused : openLog faults size capacity store =
        ⟨.error (.logicError "memory-mapped log is already open"), store⟩ := by
      rw [openLog, if_pos live.opened]
    rw [perform, refused]
    exact Or.inl ⟨front, current, rfl, live⟩
  · by_cases same : size = segmentSize
    · subst same
      obtain ⟨front, current, rfl⟩ := (List.eq_nil_or_concat' contents).resolve_left idle.nonempty
      rcases openLog_idle faults capacity store front current idle with
        ⟨error, left, run, after, _⟩ | ⟨left, run, live, _⟩
      · rw [perform, run]
        exact Or.inr (Or.inl after)
      · rw [perform, run]
        exact Or.inl ⟨front, current, rfl, live⟩
    · obtain ⟨messages, rest, cons⟩ := List.exists_cons_of_ne_nil idle.nonempty
      have files := idle.holds.files
      have listing := idle.holds.segmentFiles
      rw [cons] at files listing
      obtain ⟨⟨file, present, whole⟩, _⟩ := files
      obtain ⟨error, left, run, unopened⟩ := openLog_otherSize faults size capacity store messages file _
        idle.opened listing present whole idle.holds.allowed same
      rw [perform, run]
      exact Or.inr (Or.inl (idle.unopened unopened))
  · obtain ⟨error, left, run, unopened⟩ := openLog_blocked faults size capacity blocked
    rw [perform, run]
    exact Or.inr (Or.inr (blocked.unopened unopened))

theorem flush_steps (faults : Faults) (standing : Standing segmentSize store contents) :
    Steps segmentSize faults .flush store contents contents := by
  apply Steps.idle rfl rfl
  rcases standing with ⟨front, current, rfl, live⟩ | idle | blocked
  · rcases flush_cases live faults with ⟨error, run, _⟩ | ⟨run, after⟩
    · rw [perform, run]
      exact Or.inl ⟨front, current, rfl, live⟩
    · rw [perform, run]
      exact Or.inl ⟨front, current, rfl, after⟩
  · rw [perform, flush_closed faults store idle.opened]
    exact Or.inr (Or.inl idle)
  · rw [perform, flush_closed faults store blocked.opened]
    exact Or.inr (Or.inr blocked)

theorem close_steps (faults : Faults) (standing : Standing segmentSize store contents) :
    Steps segmentSize faults .close store contents contents := by
  apply Steps.idle rfl rfl
  rcases standing with ⟨front, current, rfl, live⟩ | idle | blocked
  · obtain ⟨result, left, run, after, _⟩ := close_cases live faults
    rw [perform, run]
    exact Or.inr (Or.inl after)
  · rw [perform, close_unmapped faults store idle.opened idle.unmapped]
    exact Or.inr (Or.inl idle)
  · rw [perform, close_unmapped faults store blocked.opened blocked.unmapped]
    exact Or.inr (Or.inr blocked)

theorem append_closed_steps (faults : Faults) (payload : Bytes) (now : Int) (closed : store.log.opened = false)
    (standing : Standing segmentSize store contents) :
    Steps segmentSize faults (.append payload now) store contents contents := by
  obtain ⟨error, run⟩ := append_closed faults payload now store closed
  apply Steps.idle
  · simp only [written, run]
  · simp only [Invariant.sealing, checkAppend, closed, ↓reduceIte]
  · rw [perform, run]
    exact standing

theorem sealedFull_single {front : List (List Message)} {current : List Message} (live : Live segmentSize store front current)
    (payload : Bytes) (nonempty : current ≠ [])
    (overflow : segmentSize < segmentHeaderSize + totalSize current + (recordHeaderSize + payload.length))
    (more : List (List Message)) :
    SealedFull segmentSize (front ++ [current] ++ more)
      [(store.log.active.segmentId, recordHeaderSize + payload.length)] := by
  intro roll member
  rw [List.mem_singleton] at member
  have id : store.log.active.segmentId = front.length + 1 := by rw [live.active]; rfl
  rw [member, id]
  exact ⟨by simp, current, by simp, nonempty, overflow⟩

theorem append_live_steps (faults : Faults) (payload : Bytes) (now : Int) {front : List (List Message)}
    {current : List Message} (live : Live segmentSize store front current) :
    ∃ after, Steps segmentSize faults (.append payload now) store (front ++ [current]) after := by
  rcases append_cases live faults payload now with ⟨error, run, check⟩ |
    ⟨check, fits, run, after⟩ | ⟨check, full, nonempty, overflow, rolled | thrown⟩
  · refine ⟨front ++ [current], Steps.idle ?_ ?_ ?_⟩
    · simp only [written, run]
    · simp only [Invariant.sealing, check]
    · rw [perform, run]
      exact Or.inl ⟨front, current, rfl, live⟩
  · refine ⟨front ++ [current ++ [nextMessage payload now store.log]], ?_, ?_, extends_last _ _ _, ?_⟩
    · rw [perform, run]
      exact Or.inl ⟨_, _, rfl, after⟩
    · simp only [written, run, List.flatten_append, List.flatten_singleton, List.append_assoc]
      rfl
    · simp only [Invariant.sealing, check, if_neg fits]
      intro roll member
      cases member
  · obtain ⟨run, _, after⟩ := rolled
    refine ⟨front ++ [current] ++ [[nextMessage payload now store.log]], ?_, ?_, extends_append _ _, ?_⟩
    · rw [perform, run]
      exact Or.inl ⟨_, _, rfl, after⟩
    · simp only [written, run, List.flatten_append, List.flatten_singleton]
      rfl
    · simp only [Invariant.sealing, check, if_pos full]
      exact sealedFull_single live payload nonempty overflow _
  · obtain ⟨error, left, run, _, _, states⟩ := thrown
    have quiet : written faults (.append payload now) store = [] := by simp only [written, run]
    have record : Invariant.sealing (.append payload now) store =
        [(store.log.active.segmentId, recordHeaderSize + payload.length)] := by
      simp only [Invariant.sealing, check, if_pos full]
    have same : ∀ more, Standing segmentSize left (front ++ [current] ++ more) →
        (front ++ [current] ++ more).flatten = (front ++ [current]).flatten →
        Steps segmentSize faults (.append payload now) store (front ++ [current]) (front ++ [current] ++ more) := by
      intro more standing flat
      refine ⟨?_, ?_, extends_append _ _, ?_⟩
      · rw [perform, run]
        exact standing
      · rw [quiet, flat, List.append_nil]
      · rw [record]
        exact sealedFull_single live payload nonempty overflow more
    rcases states with ⟨idle, _⟩ | ⟨_, idle | ⟨_, blocked⟩⟩
    · rw [← List.append_nil (front ++ [current])] at idle
      exact ⟨_, same [] (Or.inr (Or.inl idle)) (by simp)⟩
    · exact ⟨_, same [[]] (Or.inr (Or.inl idle)) (by simp)⟩
    · rw [← List.append_nil (front ++ [current])] at blocked
      exact ⟨_, same [] (Or.inr (Or.inr blocked)) (by simp)⟩

theorem perform_steps (faults : Faults) (operation : Operation) (standing : Standing segmentSize store contents) :
    ∃ after, Steps segmentSize faults operation store contents after := by
  cases operation with
  | openLog size capacity => exact ⟨contents, openLog_steps faults size capacity standing⟩
  | flush => exact ⟨contents, flush_steps faults standing⟩
  | close => exact ⟨contents, close_steps faults standing⟩
  | append payload now =>
    rcases standing with ⟨front, current, rfl, live⟩ | idle | blocked
    · exact append_live_steps faults payload now live
    · exact ⟨contents, append_closed_steps faults payload now idle.opened (Or.inr (Or.inl idle))⟩
    · exact ⟨contents, append_closed_steps faults payload now blocked.opened (Or.inr (Or.inr blocked))⟩

end Step

theorem advance_sound {segmentSize : Nat} {recovered : List Message} (history : History)
    (step : Faults × Operation) (sound : Sound segmentSize recovered history) :
    Sound segmentSize recovered (advance history step) := by
  obtain ⟨contents, standing, flatten, full⟩ := sound
  obtain ⟨after, steps⟩ := perform_steps step.1 step.2 standing
  refine ⟨after, steps.standing, ?_, ?_⟩
  · rw [steps.flatten, flatten, advance, List.append_assoc]
  · intro roll member
    rcases List.mem_append.mp member with earlier | now
    · exact (full.mono steps.extended) roll earlier
    · exact steps.sealing roll now

/-- The index, the mapping, the offset counter and the files say the same. -/
structure Representation (segmentSize : Nat) (store : Store) (contents : List (List Message))
    (rollovers : List (Nat × Nat)) : Prop where
  ids : ∀ (index : Nat) info, store.log.segmentIndex[index]? = some info → info.segmentId = index + 1
  first : ∀ info, store.log.segmentIndex[0]? = some info → info.firstOffset = 0
  chained : ∀ (index : Nat) info next, store.log.segmentIndex[index]? = some info →
    store.log.segmentIndex[index + 1]? = some next → next.firstOffset = info.endOffset
  validBytes : ∀ info ∈ store.log.segmentIndex, info.firstOffset ≤ info.endOffset ∧
    info.validBytes = segmentHeaderSize + (info.endOffset - info.firstOffset) ∧ info.validBytes ≤ segmentSize
  last : ∃ last, store.log.segmentIndex.getLast? = some last ∧
    store.log.active.segmentId = last.segmentId ∧ store.log.active.baseOffset = last.firstOffset ∧
    store.log.active.writePosition = last.validBytes ∧ store.log.active.size = segmentSize ∧
    last.endOffset = store.log.nextMessageOffset
  records : contents.length = store.log.segmentIndex.length ∧ ∀ (index : Nat) info messages,
    store.log.segmentIndex[index]? = some info → contents[index]? = some messages →
    ∃ file, fileAt store.disk info.path = some file ∧
      slice file.bytes segmentHeaderSize (info.validBytes - segmentHeaderSize) = encodeRecords messages ∧
      Chain info.firstOffset messages
  zeroTail : ∃ file, fileAt store.disk store.log.active.path = some file ∧
    file.bytes.length = store.log.active.size ∧ isZero (file.bytes.drop store.log.active.writePosition) = true
  sealedFull : ∀ roll ∈ rollovers, ∃ info messages, store.log.segmentIndex[roll.1 - 1]? = some info ∧
    info.segmentId = roll.1 ∧ contents[roll.1 - 1]? = some messages ∧ messages ≠ [] ∧
    segmentSize < info.validBytes + roll.2

theorem live_representation {segmentSize : Nat} {store : Store} {front : List (List Message)}
    {current : List Message} {rollovers : List (Nat × Nat)} (live : Live segmentSize store front current)
    (full : SealedFull segmentSize (front ++ [current]) rollovers) :
    Representation segmentSize store (front ++ [current]) rollovers := by
  have entry : ∀ (index : Nat) info, store.log.segmentIndex[index]? = some info →
      ∃ messages, (front ++ [current])[index]? = some messages ∧
        info = segmentInfo (index + 1) (totalSize ((front ++ [current]).take index).flatten) messages := by
    intro index info found
    rw [live.index, getElem?_indexFrom, Option.map_eq_some_iff] at found
    obtain ⟨messages, present, rfl⟩ := found
    exact ⟨messages, present, by rw [Nat.zero_add, Nat.zero_add]⟩
  have file : ∀ (index : Nat) messages, (front ++ [current])[index]? = some messages →
      ∃ file, fileAt store.disk (segmentPath (index + 1)) = some file ∧ SegmentFile segmentSize (index + 1)
        (totalSize ((front ++ [current]).take index).flatten) messages file.bytes := by
    intro index messages present
    have found := holdsFrom_getElem? segmentSize store.disk 0 0 _ index messages live.holds.files present
    rwa [Nat.zero_add, Nat.zero_add] at found
  refine ⟨?_, ?_, ?_, ?_, ?_, ⟨?_, ?_⟩, ?_, ?_⟩
  · intro index info found
    obtain ⟨messages, _, rfl⟩ := entry index info found
    rfl
  · intro info found
    obtain ⟨messages, _, rfl⟩ := entry 0 info found
    rfl
  · intro index info next found after
    obtain ⟨messages, present, rfl⟩ := entry index info found
    obtain ⟨others, _, rfl⟩ := entry (index + 1) next after
    simp only [segmentInfo, List.take_add_one, present, Option.toList_some, List.flatten_append, totalSize_append,
      List.flatten_singleton]
  · intro info member
    obtain ⟨index, found⟩ := List.getElem?_of_mem member
    obtain ⟨messages, present, rfl⟩ := entry index info found
    obtain ⟨file, _, whole⟩ := file index messages present
    have room := whole.room
    have limit := whole.limit
    simp only [segmentInfo]
    omega
  · have known := getLast?_indexFrom 0 0 front current
    rw [← live.index, Nat.zero_add, Nat.zero_add] at known
    refine ⟨_, known, ?_⟩
    rw [live.active, live.flatten_next]
    exact ⟨rfl, rfl, rfl, rfl, rfl⟩
  · rw [live.index, length_indexFrom]
  · intro index info messages found present
    obtain ⟨same, there, rfl⟩ := entry index info found
    obtain rfl : same = messages := Option.some.inj (there.symm.trans present)
    obtain ⟨file, here, whole⟩ := file index same present
    refine ⟨file, here, ?_, whole.chain⟩
    rw [segmentInfo, slice, whole.records, Nat.add_sub_cancel_left, List.take_left' (length_encodeRecords same)]
  · obtain ⟨file, found, whole⟩ := live.holds.last
    refine ⟨file, ?_, ?_, ?_⟩
    · rw [live.active]
      exact found
    · rw [live.active]
      exact live.extended file found
    · rw [live.active]
      simp only [mappingOf]
      rw [whole.tail, isZero_zeros]
  · intro roll member
    obtain ⟨positive, messages, present, nonempty, overflow⟩ := full roll member
    have found := getElem?_indexFrom 0 0 (front ++ [current]) (roll.1 - 1)
    rw [← live.index, present, Option.map_some] at found
    refine ⟨_, messages, found, ?_, present, nonempty, overflow⟩
    simp only [segmentInfo]
    omega

theorem run_sound (faults : Faults) (segmentSize capacity : Nat) (start : Store)
    (opens : (openLog faults segmentSize capacity start).result = .ok ())
    (steps : List (Faults × Operation)) :
    Sound segmentSize (acceptedMessages segmentSize start.disk (segmentFiles start.disk) 0)
      (run advance ⟨(openLog faults segmentSize capacity start).store, [], []⟩ steps) := by
  obtain ⟨front, current, first, _, accepted⟩ := openLog_sound faults capacity start
    (openLog faults segmentSize capacity start).store (by rw [← opens])
  apply run_invariant advance _ (fun _ => True) (fun history step _ => advance_sound history step)
  · exact fun _ _ => trivial
  · refine ⟨front ++ [current], Or.inl ⟨front, current, rfl, first⟩, ?_, ?_⟩
    · rw [accepted, List.append_nil]
    · intro roll member
      cases member

/-- In every run that starts with a successful open, whatever the directory held and
whichever calls fail, the open log is represented consistently, and an append
returns the total size of the records before it. -/
theorem representation_invariant (faults : Faults) (segmentSize capacity : Nat) (start : Store)
    (opens : (openLog faults segmentSize capacity start).result = .ok ())
    (steps : List (Faults × Operation)) :
    let history := run advance ⟨(openLog faults segmentSize capacity start).store, [], []⟩ steps
    history.store.log.opened = true →
    ∃ contents, Representation segmentSize history.store contents history.rollovers ∧
      contents.flatten =
        acceptedMessages segmentSize start.disk (segmentFiles start.disk) 0 ++ history.appended ∧
      ∀ faults payload now offset, (append faults payload now history.store).result = .ok offset →
        offset = totalSize contents.flatten := by
  intro history isOpen
  obtain ⟨contents, ⟨front, current, rfl, live⟩ | idle | blocked, flatten, full⟩ :=
    run_sound faults segmentSize capacity start opens steps
  · refine ⟨front ++ [current], live_representation live full, flatten, ?_⟩
    intro faults payload now offset returned
    rw [← live.next]
    rcases append_cases live faults payload now with ⟨error, run, _⟩ | ⟨_, _, run, _⟩ |
      ⟨_, _, _, _, ⟨run, _⟩ | ⟨error, left, run, _⟩⟩
    · rw [run] at returned
      cases returned
    · rw [run] at returned
      exact (Except.ok.inj returned).symm
    · rw [run] at returned
      exact (Except.ok.inj returned).symm
    · rw [run] at returned
      cases returned
  · rw [idle.opened] at isOpen
    cases isOpen
  · rw [blocked.opened] at isOpen
    cases isOpen

/-- Two appends into segments of 100 bytes: the second one rolls over. -/
theorem representation_invariant_two_appends :
    let steps : List (Faults × Operation) :=
      [(noFaults, .append [1, 2, 3] 5), (noFaults, .append [4, 5, 6, 7] 6)]
    let history := run advance ⟨(openLog noFaults 100 3 {}).store, [], []⟩ steps
    history.rollovers = [(1, 36)] ∧ ∃ contents, Representation 100 history.store contents history.rollovers ∧
      contents.flatten = acceptedMessages 100 ∅ (segmentFiles ∅) 0 ++ history.appended ∧
      ∀ faults payload now offset, (append faults payload now history.store).result = .ok offset →
        offset = totalSize contents.flatten :=
  ⟨by decide +kernel, representation_invariant noFaults 100 3 {} (by decide +kernel) _ (by decide +kernel)⟩

end FleetGateway.Storage.Invariant
