import FleetGateway.Storage.Invariant

/-! The recent cache along a run. It was filled in order by the scan and takes every message
that an append returns, so it lists the end of the log wherever that came from. -/

namespace FleetGateway.Storage.Cache
open Library Library.ByteStore Library.Run Format Record Disk Scan Segment Log RingBuffer Contents Recovery
  Operations Writing Invariant

theorem holdsFrom_chain {segmentSize : Nat} {disk : Directory} (contents : List (List Message)) (before base : Nat)
    (holds : HoldsFrom segmentSize disk before base contents) : Chain base contents.flatten := by
  induction contents generalizing before base with
  | nil => trivial
  | cons messages rest ih =>
    obtain ⟨⟨file, _, whole⟩, behind⟩ := holds
    rw [List.flatten_cons, chain_append]
    exact ⟨whole.chain, ih _ _ behind⟩

theorem standing_chain {segmentSize : Nat} {store : Store} {contents : List (List Message)}
    (standing : Standing segmentSize store contents) : Chain 0 contents.flatten := by
  rcases standing with ⟨front, current, rfl, live⟩ | idle | blocked
  · exact holdsFrom_chain _ _ _ live.holds.files
  · exact holdsFrom_chain _ _ _ idle.holds.files
  · exact holdsFrom_chain _ _ _ blocked.files

theorem chain_offset_le {base : Nat} {messages : List Message} (chain : Chain base messages) :
    ∀ message ∈ messages, base ≤ message.offset := by
  induction messages generalizing base with
  | nil => exact fun _ member => absurd member List.not_mem_nil
  | cons message rest ih =>
    obtain ⟨offset, _, behind⟩ := chain
    refine List.forall_mem_cons.mpr ⟨offset.ge, fun later member => ?_⟩
    exact Nat.le_trans (Nat.le_add_right _ _) (ih behind later member)

/-- Every record takes room, so the offsets grow. -/
theorem chain_increasing {base : Nat} {messages : List Message} (chain : Chain base messages) :
    messages.Pairwise fun first second => first.offset < second.offset := by
  induction messages generalizing base with
  | nil => exact List.Pairwise.nil
  | cons message rest ih =>
    obtain ⟨offset, _, behind⟩ := chain
    refine List.pairwise_cons.mpr ⟨fun later member => ?_, ih behind⟩
    have bound := chain_offset_le behind later member
    simp only [size, recordHeaderSize] at bound
    omega

theorem append_cache {segmentSize : Nat} {store : Store} {contents : List (List Message)}
    (standing : Standing segmentSize store contents) (faults : Faults) (payload : Bytes) (now : Int) :
    (append faults payload now store).store.log.recentCache =
      pushAll store.log.recentCache (written faults (.append payload now) store) := by
  have closed (opened : store.log.opened = false) : (append faults payload now store).store.log.recentCache =
      pushAll store.log.recentCache (written faults (.append payload now) store) := by
    obtain ⟨error, run⟩ := append_closed faults payload now store opened
    simp only [written, run]
    rfl
  rcases standing with ⟨front, current, rfl, live⟩ | idle | blocked
  · rcases append_cases live faults payload now with ⟨error, run, _⟩ | ⟨_, _, run, _⟩ |
      ⟨_, _, _, _, ⟨run, _⟩ | ⟨error, left, run, retains, _⟩⟩
    · simp only [written, run]
      rfl
    · simp only [written, run, writeMessage_log]
      rfl
    · simp only [written, run, writeMessage_log]
      rfl
    · simp only [written, run]
      exact retains.recent
  · exact closed idle.opened
  · exact closed blocked.opened

abbrev Appending := Faults × Bytes × Int

def Appending.step (call : Appending) : Faults × Operation := (call.1, .append call.2.1 call.2.2)

def after (faults : Faults) (segmentSize capacity : Nat) (start : Store) (appends : List Appending) : History :=
  run advance ⟨(openLog faults segmentSize capacity start).store, [], []⟩ (appends.map Appending.step)

def messagesAfter (faults : Faults) (segmentSize capacity : Nat) (start : Store) (appends : List Appending) :
    List Message :=
  acceptedMessages segmentSize start.disk (segmentFiles start.disk) 0 ++
    (after faults segmentSize capacity start appends).appended

section Run

variable {faults : Faults} {segmentSize capacity : Nat} {start : Store}

/-- The cache keeps the log's messages, and the log stands with them. -/
def Cached (segmentSize capacity : Nat) (recovered : List Message) (history : History) : Prop :=
  Sound segmentSize recovered history ∧
    Keeps history.store.log.recentCache capacity (recovered ++ history.appended)

theorem advance_cached {recovered : List Message} (history : History) (call : Appending)
    (cached : Cached segmentSize capacity recovered history) :
    Cached segmentSize capacity recovered (advance history call.step) := by
  obtain ⟨sound, keeps⟩ := cached
  refine ⟨advance_sound history call.step sound, ?_⟩
  obtain ⟨contents, standing, _⟩ := sound
  have pushed := keeps.pushAll (written call.1 (.append call.2.1 call.2.2) history.store)
  rw [← append_cache standing, List.append_assoc] at pushed
  exact pushed

theorem after_cached (opens : (openLog faults segmentSize capacity start).result = .ok ()) (appends : List Appending) :
    Cached segmentSize capacity (acceptedMessages segmentSize start.disk (segmentFiles start.disk) 0)
      (after faults segmentSize capacity start appends) := by
  obtain ⟨front, current, _, cache, accepted⟩ := openLog_sound faults capacity start
    (openLog faults segmentSize capacity start).store (by rw [← opens])
  apply run_invariant advance (Cached segmentSize capacity _) (fun step => ∃ call : Appending, step = call.step)
  · rintro history step ⟨call, rfl⟩ cached
    exact advance_cached history call cached
  · intro step member
    obtain ⟨call, _, rfl⟩ := List.mem_map.mp member
    exact ⟨call, rfl⟩
  · refine ⟨run_sound faults segmentSize capacity start opens [], ?_⟩
    rw [List.append_nil, ← accepted]
    exact cache

theorem getRecent_after (opens : (openLog faults segmentSize capacity start).result = .ok ())
    (appends : List Appending) (count : Nat) :
    let messages := messagesAfter faults segmentSize capacity start appends
    Log.getRecent (after faults segmentSize capacity start appends).store count =
      messages.drop (messages.length - min (min count capacity) messages.length) := by
  intro messages
  have recent := (after_cached opens appends).2.getRecent count
  have sizes : messages.length - min (min count capacity) messages.length =
      messages.length - min count capacity := by omega
  rw [Log.getRecent, recent, sizes]
  rfl

theorem messagesAfter_increasing (opens : (openLog faults segmentSize capacity start).result = .ok ())
    (appends : List Appending) :
    (messagesAfter faults segmentSize capacity start appends).Pairwise
      fun first second => first.offset < second.offset := by
  obtain ⟨⟨contents, standing, flatten, _⟩, _⟩ := after_cached opens appends
  have chain := standing_chain standing
  rw [flatten] at chain
  exact chain_increasing chain

end Run

end FleetGateway.Storage.Cache
