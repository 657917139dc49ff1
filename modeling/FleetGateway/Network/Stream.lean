import FleetGateway.Network.Outbound

/-! What a client receives. Between appends and calls of `flush_client` the bytes that the
socket took, followed by those behind the offset, are all that was ever appended. -/

namespace FleetGateway.Network.Stream
open Library Library.ByteStore Library.Run Http.Response EventLoop Actions Transitions Identity Outbound

/-- What the socket takes at each `send`: the first of the bytes from the offset on. -/
def chunks : List SendOutcome → Connection → List Bytes
  | [], _ => []
  | outcome :: rest, connection =>
    if connection.pendingBytes = 0 then []
    else match outcome with
      | .sent count =>
        let taken := min count connection.pendingBytes
        if taken = 0 then []
        else (connection.outbound.drop connection.outboundOffset).take taken ::
          chunks rest { connection with outboundOffset := connection.outboundOffset + taken }
      | .interrupted => chunks rest connection
      | .again | .failed => []

def unsent (connection : Connection) : Bytes := connection.outbound.drop connection.outboundOffset

/-- Nothing is lost, repeated or reordered by the sends of one call. -/
theorem chunks_unsent (sends : List SendOutcome) (connection : Connection) :
    (chunks sends connection).flatten ++ unsent (sendLoop sends connection).2.2 = unsent connection := by
  induction sends generalizing connection with
  | nil => rfl
  | cons outcome rest ih =>
    unfold chunks sendLoop
    split
    · rfl
    cases outcome with
    | sent count =>
      dsimp only
      split
      · rfl
      · rw [List.flatten_cons, List.append_assoc, ih]
        simp only [unsent]
        rw [← List.drop_drop, List.take_append_drop]
    | interrupted => exact ih connection
    | again => rfl
    | failed => rfl

theorem slice_append_drop (bytes : Bytes) {first second : Nat} (order : first ≤ second) :
    slice bytes first (second - first) ++ bytes.drop second = bytes.drop first := by
  have rest : bytes.drop second = (bytes.drop first).drop (second - first) := by
    rw [List.drop_drop, Nat.add_sub_cancel' order]
  rw [rest, slice, List.take_append_drop]

def Hard (outcome : SendOutcome) : Prop := outcome = .failed ∨ outcome = .sent 0

inductive Ends (sends : List SendOutcome) : SendEnd × List SendOutcome × Connection → Prop
  | drained (rest : List SendOutcome) (left : Connection) (done : left.pendingBytes = 0) :
      Ends sends (.drained, rest, left)
  | blocked (rest : List SendOutcome) (left : Connection) (pending : left.pendingBytes ≠ 0) :
      Ends sends (.blocked, rest, left)
  | failed (front : List SendOutcome) (outcome : SendOutcome) (rest : List SendOutcome) (left : Connection)
      (hard : Hard outcome) (last : sends = front ++ outcome :: rest) : Ends sends (.failed, rest, left)

theorem Ends.cons {sends : List SendOutcome} {ended : SendEnd × List SendOutcome × Connection}
    (ends : Ends sends ended) (outcome : SendOutcome) : Ends (outcome :: sends) ended := by
  cases ends with
  | drained rest left done => exact .drained rest left done
  | blocked rest left pending => exact .blocked rest left pending
  | failed front last rest left hard split =>
    exact .failed (outcome :: front) last rest left hard (congrArg (outcome :: ·) split)

theorem sendLoop_ends (sends : List SendOutcome) (connection : Connection) :
    Ends sends (sendLoop sends connection) := by
  induction sends generalizing connection with
  | nil =>
    unfold sendLoop
    split
    next done => exact .drained _ _ done
    next pending => exact .blocked _ _ pending
  | cons outcome rest ih =>
    unfold sendLoop
    split
    next done => exact .drained _ _ done
    next pending =>
      cases outcome with
      | sent count =>
        dsimp only
        split
        next none =>
          have zero : count = 0 := by omega
          exact .failed [] _ rest connection (.inr (congrArg SendOutcome.sent zero)) rfl
        next => exact (ih _).cons _
      | interrupted => exact (ih _).cons _
      | again => exact .blocked _ _ pending
      | failed => exact .failed [] _ rest connection (.inl rfl) rfl

section Flushing

variable (fd : Nat) (machine : Machine) (connection : Connection)

def afterSends : Connection := (sendLoop machine.script.sends connection).2.2

/-- Why the call may close the connection: the last `send`, an `epoll_ctl` that fails, or
nothing is left for a peer that is gone. -/
inductive Closes : Prop
  | send (front : List SendOutcome) (outcome : SendOutcome) (hard : Hard outcome)
      (last : machine.script.sends = front ++ outcome :: (sendLoop machine.script.sends connection).2.1)
  | control (refused : watchable fd machine = false)
  | finished (done : (afterSends machine connection).pendingBytes = 0) (gone : connection.peerClosed = true)

inductive Flushed : Bool × Machine → Prop
  | closed (after : Machine) (reason : Closes fd machine connection)
      (erased : after.worker.connections.lookup fd = none) : Flushed (false, after)
  | waiting (after : Machine) (kept : Connection) (live : after.worker.connections.lookup fd = some kept)
      (inside : connection.outboundOffset ≤ connection.outbound.length → kept.outboundOffset ≤ kept.outbound.length)
      (same : unsent kept = unsent (afterSends machine connection))
      (watched : kept.pendingBytes ≠ 0 → ∃ events, after.worker.interest.lookup fd = some events ∧
        events.output = true) : Flushed (true, after)

variable {fd machine connection}

theorem watchOrClose_flushed (events : Events) (worker : Worker) (rest : List SendOutcome) (kept : Connection)
    (interest : worker.interest = machine.worker.interest) (live : worker.connections.lookup fd = some kept)
    (inside : connection.outboundOffset ≤ connection.outbound.length → kept.outboundOffset ≤ kept.outbound.length)
    (same : unsent kept = unsent (afterSends machine connection))
    (output : kept.pendingBytes ≠ 0 → events.output = true) :
    Flushed fd machine connection (watchOrClose fd events ⟨worker, { machine.script with sends := rest }⟩) := by
  unfold watchOrClose
  split
  next watched call =>
    have changed := (modifyFd_spec _ _ _ _ _ call).1
    rw [if_pos rfl] at changed
    refine .waiting watched kept ?_ inside same (fun pending => ⟨events, ?_, output pending⟩)
    · rw [changed]
      exact live
    · rw [changed]
      exact AList.lookup_insert _
  next unwatched call =>
    have refused := (modifyFd_spec _ _ _ _ _ call).2.2
    unfold watchable at refused
    rw [interest] at refused
    exact .closed _ (.control refused.symm) (lookup_closeClient _ _)

theorem flushClient_flushed (live : machine.worker.connections.lookup fd = some connection) :
    Flushed fd machine connection (flushClient fd machine) := by
  have ends := sendLoop_ends machine.script.sends connection
  generalize loop : sendLoop machine.script.sends connection = result at ends
  obtain ⟨ended, rest, left⟩ := result
  have same : afterSends machine connection = left := by rw [afterSends, loop]
  obtain ⟨frame, onward, within, _⟩ := sendLoop_spec _ _ _ _ _ loop
  have inside (before : connection.outboundOffset ≤ connection.outbound.length) :
      left.outboundOffset ≤ left.outbound.length := by
    rw [frame]
    simp only [Connection.pendingBytes] at within ⊢
    omega
  have still : (machine.worker.advance fd connection left.outboundOffset).connections.lookup fd = some left := by
    rw [frame]
    exact lookup_put _ _ _
  simp only [flushClient, live, loop]
  cases ends with
  | failed front outcome rest left hard last =>
    refine .closed _ (.send front outcome hard ?_) (lookup_closeClient _ _)
    rw [loop]
    exact last
  | blocked rest left pending =>
    exact watchOrClose_flushed _ _ rest left rfl still inside (congrArg unsent same.symm) (fun _ => rfl)
  | drained rest left done =>
    have nothing : unsent left = [] := List.length_eq_zero_iff.mp (List.length_drop.trans done)
    dsimp only
    split
    next gone =>
      refine .closed _ (.finished (same ▸ done) ?_) (lookup_closeClient _ _)
      rw [frame] at gone
      exact gone
    next =>
      refine watchOrClose_flushed _ _ rest _ rfl (lookup_put _ _ _) (fun _ => le_refl _) ?_ (fun pending => absurd rfl pending)
      rw [same, nothing]
      rfl

end Flushing

inductive Operation where
  | append (bytes : Bytes)
  | hangUp
  | flush (script : Script)

/-- A worker, with all that was appended for one of its descriptors and all that its socket took. -/
structure Session where
  worker : Worker
  appended : Bytes := []
  accepted : Bytes := []

def perform (fd : Nat) (session : Session) (operation : Operation) : Session :=
  match session.worker.connections.lookup fd with
  | none => session
  | some connection =>
    match operation with
    | .append bytes =>
      { session with
        worker := session.worker.put fd { connection with outbound := connection.outbound ++ bytes }
        appended := session.appended ++ bytes }
    | .hangUp => { session with worker := session.worker.put fd { connection with peerClosed := true } }
    | .flush script =>
      { session with
        worker := (flushClient fd ⟨session.worker, script⟩).2.worker
        accepted := session.accepted ++ (chunks script.sends connection).flatten }

def Whole (fd : Nat) (session : Session) : Prop :=
  ∀ connection, session.worker.connections.lookup fd = some connection →
    connection.outboundOffset ≤ connection.outbound.length ∧
      session.accepted ++ unsent connection = session.appended

theorem perform_whole (fd : Nat) (session : Session) (operation : Operation) (whole : Whole fd session) :
    Whole fd (perform fd session operation) := by
  unfold perform
  split
  · exact whole
  next connection live =>
    obtain ⟨inside, equal⟩ := whole connection live
    cases operation with
    | append bytes =>
      intro current found
      cases (lookup_put _ _ _).symm.trans found
      refine ⟨?_, ?_⟩
      · rw [List.length_append]
        exact Nat.le_trans inside (Nat.le_add_right _ _)
      · simp only [unsent]
        rw [List.drop_append_of_le_length inside, ← List.append_assoc]
        exact congrArg (· ++ bytes) equal
    | hangUp =>
      intro current found
      cases (lookup_put _ _ _).symm.trans found
      exact ⟨inside, equal⟩
    | flush script =>
      intro current found
      dsimp only at found ⊢
      have flushed := @flushClient_flushed fd ⟨session.worker, script⟩ connection live
      generalize flushClient fd ⟨session.worker, script⟩ = result at flushed found
      cases flushed with
      | closed after reason erased => cases erased.symm.trans found
      | waiting after kept live inside' same watched =>
        cases live.symm.trans found
        refine ⟨inside' inside, ?_⟩
        rw [same, List.append_assoc, afterSends, chunks_unsent]
        exact equal

/-- Whatever is appended to a connection and however its socket takes it: at every moment of
every call, what was taken and what is unsent is what was appended; the descriptor waits for
output when a call leaves something; and a call closes the connection only for its reasons. -/
theorem stream_integrity (worker : Worker) (fd : Nat) (connection : Connection)
    (live : worker.connections.lookup fd = some connection) (empty : connection.outbound = [])
    (offset : connection.outboundOffset = 0) (operations : List Operation) :
    let session := run (perform fd) { worker := worker } operations
    ∀ current, session.worker.connections.lookup fd = some current →
      session.accepted ++ unsent current = session.appended ∧
      ∀ script, let machine : Machine := ⟨session.worker, script⟩
        session.accepted ++ (chunks script.sends current).flatten ++ unsent (afterSends machine current) =
          session.appended ∧
        ((flushClient fd machine).1 = true →
          ∃ kept, (flushClient fd machine).2.worker.connections.lookup fd = some kept ∧
            (kept.pendingBytes ≠ 0 → ∃ events, (flushClient fd machine).2.worker.interest.lookup fd = some events ∧
              events.output = true)) ∧
        ((flushClient fd machine).2.worker.connections.lookup fd = none → Closes fd machine current) := by
  intro session current found
  have initially : Whole fd { worker := worker } := by
    intro other same
    cases live.symm.trans same
    rw [unsent, empty, offset]
    exact ⟨le_refl _, rfl⟩
  have whole : Whole fd session :=
    run_invariant (perform fd) (Whole fd) (fun _ => True) (fun _ _ _ => perform_whole fd _ _) _ operations
      (fun _ _ => trivial) initially
  have equal := (whole current found).2
  refine ⟨equal, fun script => ?_⟩
  intro machine
  have flushed : Flushed fd machine current (flushClient fd machine) := flushClient_flushed found
  generalize flushClient fd machine = result at flushed
  refine ⟨?_, ?_, ?_⟩
  · rw [List.append_assoc, afterSends, chunks_unsent]
    exact equal
  · intro returned
    cases flushed with
    | closed after reason erased => cases returned
    | waiting after kept live inside same watched => exact ⟨kept, live, watched⟩
  · intro erased
    cases flushed with
    | closed after reason _ => exact reason
    | waiting after kept live inside same watched => cases live.symm.trans erased

def halfTaken : List Operation :=
  [.append (text "hello"), .flush { sends := [.sent 2, .interrupted, .sent 1] }, .append (text "!"), .hangUp]

/-- A client that takes three bytes of five, and then there is one more. -/
theorem stream_integrity_slow_reader :
    let worker := (start 0 5 6).connect 7 (text "10.0.0.1")
    let session := run (perform 7) { worker := worker } halfTaken
    session.accepted = text "hel" ∧
    ((session.worker.connections.lookup 7).map unsent = some (text "lo!") ∧
      (flushClient 7 ⟨session.worker, { sends := [.sent 9] }⟩).1 = false) ∧
    ∀ current, session.worker.connections.lookup 7 = some current →
      session.accepted ++ unsent current = session.appended ∧
      ∀ script, let machine : Machine := ⟨session.worker, script⟩
        session.accepted ++ (chunks script.sends current).flatten ++ unsent (afterSends machine current) =
          session.appended ∧
        ((flushClient 7 machine).1 = true →
          ∃ kept, (flushClient 7 machine).2.worker.connections.lookup 7 = some kept ∧
            (kept.pendingBytes ≠ 0 → ∃ events, (flushClient 7 machine).2.worker.interest.lookup 7 = some events ∧
              events.output = true)) ∧
        ((flushClient 7 machine).2.worker.connections.lookup 7 = none → Closes 7 machine current) :=
  ⟨by decide +kernel, by decide +kernel, stream_integrity ((start 0 5 6).connect 7 (text "10.0.0.1")) 7
    { fd := 7, clientIp := text "10.0.0.1", generation := 1, serial := 0 } rfl rfl rfl halfTaken⟩

def Effect.takes (serial : Nat) : Effect → Bytes
  | .sent other bytes => if other = serial then bytes else []
  | _ => []

def Effect.adds (serial : Nat) : Effect → Bytes
  | .appended other _ bytes => if other = serial then bytes else []
  | _ => []

def takenBy (serial : Nat) (trace : List Effect) : Bytes := trace.flatMap (Effect.takes serial)

def appendedTo (serial : Nat) (trace : List Effect) : Bytes := trace.flatMap (Effect.adds serial)

@[simp] theorem takenBy_snoc (serial : Nat) (trace : List Effect) (effect : Effect) :
    takenBy serial (trace ++ [effect]) = takenBy serial trace ++ Effect.takes serial effect := by
  simp only [takenBy, List.flatMap_append, List.flatMap_singleton]

@[simp] theorem appendedTo_snoc (serial : Nat) (trace : List Effect) (effect : Effect) :
    appendedTo serial (trace ++ [effect]) = appendedTo serial trace ++ Effect.adds serial effect := by
  simp only [appendedTo, List.flatMap_append, List.flatMap_singleton]

def Even (serial : Nat) (before after : List Effect) : Prop :=
  takenBy serial after = takenBy serial before ∧ appendedTo serial after = appendedTo serial before

theorem even_refl (serial : Nat) (trace : List Effect) : Even serial trace trace := ⟨rfl, rfl⟩

theorem even_emit (serial : Nat) (trace : List Effect) (effect : Effect) (takes : Effect.takes serial effect = [])
    (adds : Effect.adds serial effect = []) : Even serial trace (trace ++ [effect]) := by
  constructor
  · rw [takenBy_snoc, takes, List.append_nil]
  · rw [appendedTo_snoc, adds, List.append_nil]

theorem even_quiet {before after : Worker} (quiet : Quiet before after) (serial : Nat) :
    Even serial before.trace after.trace := by
  obtain ⟨more, trace, silent⟩ := quiet.trace
  rw [List.all_eq_true] at silent
  have nothing : takenBy serial more = [] ∧ appendedTo serial more = [] := by
    simp only [takenBy, appendedTo, List.flatMap_eq_nil_iff]
    constructor
    · intro effect member
      have := silent effect member
      cases effect <;> first | rfl | cases this
    · intro effect member
      have := silent effect member
      cases effect <;> first | rfl | cases this
  rw [trace, Even, takenBy, appendedTo, List.flatMap_append, List.flatMap_append]
  exact ⟨by rw [← takenBy, ← takenBy, nothing.1, List.append_nil],
    by rw [← appendedTo, ← appendedTo, nothing.2, List.append_nil]⟩

/-- What a live connection was sent and has to send is what was appended to it. -/
structure Balanced (trace : List Effect) (connection : Connection) : Prop where
  inside : connection.outboundOffset ≤ connection.outbound.length
  equal : takenBy connection.serial trace ++ unsent connection = appendedTo connection.serial trace

section Balanced

variable {trace : List Effect} {connection : Connection}

theorem Balanced.same {after : List Effect} {next : Connection} (balanced : Balanced trace connection)
    (serial : next.serial = connection.serial) (outbound : next.outbound = connection.outbound)
    (offset : next.outboundOffset = connection.outboundOffset) (even : Even connection.serial trace after) :
    Balanced after next := by
  obtain ⟨inside, equal⟩ := balanced
  constructor
  · rw [outbound, offset]
    exact inside
  · rw [unsent, outbound, offset, serial, even.1, even.2]
    exact equal

theorem Balanced.answered (balanced : Balanced trace connection) (origin : Origin) (response : Bytes) :
    Balanced (trace ++ [.appended connection.serial origin response]) (connection.answered response) := by
  obtain ⟨inside, equal⟩ := balanced
  constructor
  · simp only [Connection.answered, List.length_append]
    omega
  · simp only [Connection.answered, unsent, takenBy_snoc, appendedTo_snoc, Effect.takes, Effect.adds,
      if_true, List.append_nil]
    rw [List.drop_append_of_le_length inside, ← List.append_assoc]
    exact congrArg (· ++ response) equal

theorem Balanced.advance (balanced : Balanced trace connection) (offset : Nat)
    (onward : connection.outboundOffset ≤ offset) (within : offset - connection.outboundOffset ≤ connection.pendingBytes) :
    Balanced (trace ++ [.sent connection.serial
      (slice connection.outbound connection.outboundOffset (offset - connection.outboundOffset))])
      { connection with outboundOffset := offset } := by
  obtain ⟨inside, equal⟩ := balanced
  constructor
  · simp only [Connection.pendingBytes] at within ⊢
    omega
  · simp only [unsent, takenBy_snoc, appendedTo_snoc, Effect.takes, Effect.adds, if_true, List.append_nil]
    rw [List.append_assoc, slice_append_drop connection.outbound onward]
    exact equal

end Balanced

structure Streams (worker : Worker) : Prop where
  identified : Identified worker
  balanced : ∀ fd connection, worker.connections.lookup fd = some connection → Balanced worker.trace connection
  upcoming : ∀ serial, worker.accepted ≤ serial →
    takenBy serial worker.trace = [] ∧ appendedTo serial worker.trace = []

section Streams

variable {before after : Worker}

theorem Streams.keep (streams : Streams before) (identified : Identified after)
    (accepted : after.accepted = before.accepted)
    (same : ∀ fd connection, after.connections.lookup fd = some connection →
      before.connections.lookup fd = some connection)
    (even : ∀ serial, Even serial before.trace after.trace) : Streams after where
  identified := identified
  balanced := fun fd connection found =>
    (streams.balanced fd connection (same fd connection found)).same rfl rfl rfl (even _)
  upcoming := by
    intro serial future
    rw [(even serial).1, (even serial).2]
    exact streams.upcoming serial (accepted ▸ future)

theorem Streams.replace (streams : Streams before) (identified : Identified after)
    (accepted : after.accepted = before.accepted) (fd : Nat) (earlier connection : Connection)
    (live : before.connections.lookup fd = some earlier)
    (inserted : after.connections = before.connections.insert fd connection)
    (others : ∀ other, other ≠ earlier.serial → Even other before.trace after.trace)
    (balanced : Balanced before.trace earlier → Balanced after.trace connection) : Streams after where
  identified := identified
  balanced := by
    intro other found present
    rw [inserted] at present
    rcases lookup_insert_cases present with ⟨rfl, rfl⟩ | ⟨here, present⟩
    · exact balanced (streams.balanced _ earlier live)
    · have different : found.serial ≠ earlier.serial := fun same =>
        here (streams.identified.distinct other fd found earlier present live same)
      exact (streams.balanced other found present).same rfl rfl rfl (others _ different)
  upcoming := by
    intro serial future
    have known := streams.identified.known fd earlier live
    obtain ⟨taken, appended⟩ := others serial (by omega)
    rw [taken, appended]
    exact streams.upcoming serial (accepted ▸ future)

theorem Streams.retain (streams : Streams before) (identified : Identified after)
    (accepted : after.accepted = before.accepted) (fd : Nat) (earlier connection : Connection)
    (live : before.connections.lookup fd = some earlier)
    (inserted : after.connections = before.connections.insert fd connection)
    (serial : connection.serial = earlier.serial) (outbound : connection.outbound = earlier.outbound)
    (offset : connection.outboundOffset = earlier.outboundOffset)
    (even : ∀ other, Even other before.trace after.trace) : Streams after :=
  streams.replace identified accepted fd earlier connection live inserted (fun other _ => even other)
    fun balanced => balanced.same serial outbound offset (even _)

theorem Streams.append (streams : Streams before) (identified : Identified after)
    (accepted : after.accepted = before.accepted) (fd : Nat) (earlier connection : Connection)
    (live : before.connections.lookup fd = some earlier) (serial : connection.serial = earlier.serial)
    (outbound : connection.outbound = earlier.outbound) (offset : connection.outboundOffset = earlier.outboundOffset)
    (origin : Origin) (response : Bytes)
    (inserted : after.connections = before.connections.insert fd (connection.answered response))
    (trace : after.trace = before.trace ++ [.appended connection.serial origin response]) : Streams after := by
  refine streams.replace identified accepted fd earlier _ live inserted (fun other different => ?_) fun balanced => ?_
  · have foreign : connection.serial ≠ other := fun same => different (same.symm.trans serial)
    rw [trace]
    exact even_emit other _ _ rfl (if_neg foreign)
  · rw [trace]
    exact (balanced.same serial outbound offset (even_refl _ _)).answered origin response

theorem Streams.connect {worker : Worker} (streams : Streams worker) (fd : Nat) (clientIp : Bytes) :
    Streams (worker.connect fd clientIp) where
  identified := streams.identified.connect fd clientIp
  balanced := by
    intro other connection found
    have even := even_emit connection.serial worker.trace (.accepted fd (some worker.accepted)) rfl rfl
    rcases lookup_connect worker fd other clientIp connection found with ⟨_, fresh, serial, _⟩ | ⟨_, old⟩
    · obtain ⟨taken, appended⟩ := streams.upcoming connection.serial serial.ge
      have outbound : connection.outbound = [] := congrArg Connection.outbound fresh
      have offset : connection.outboundOffset = 0 := congrArg Connection.outboundOffset fresh
      refine ⟨by rw [offset]; exact Nat.zero_le _, ?_⟩
      have start : takenBy connection.serial (worker.connect fd clientIp).trace = [] := even.1.trans taken
      have also : appendedTo connection.serial (worker.connect fd clientIp).trace = [] := even.2.trans appended
      rw [start, also, unsent, outbound, List.drop_nil]
      rfl
    · exact (streams.balanced other connection old).same rfl rfl rfl even
  upcoming := by
    intro serial future
    have even := even_emit serial worker.trace (.accepted fd (some worker.accepted)) rfl rfl
    obtain ⟨taken, appended⟩ := streams.upcoming serial (Nat.le_of_succ_le future)
    exact ⟨even.1.trans taken, even.2.trans appended⟩

theorem Streams.drain {worker : Worker} (streams : Streams worker)
    (identified : Identified (Worker.retire worker.listenerFd { worker with draining := true, poolStopping := true })) :
    Streams (Worker.retire worker.listenerFd { worker with draining := true, poolStopping := true }) := by
  revert identified
  cases worker.listenerFd with
  | none =>
    intro identified
    exact streams.keep identified rfl (fun _ _ same => same) (even_refl · _)
  | some fd =>
    intro identified
    exact streams.keep identified rfl (fun _ _ same => same) fun serial => even_emit serial _ _ rfl rfl

end Streams

theorem action_streams {context : Context} {before after : Worker} (action : Action context before after)
    (streams : Streams before) : Streams after := by
  have identified := action_identified action streams.identified
  cases action with
  | connect fd clientIp unused running => exact streams.connect fd clientIp
  | close fd connection live =>
    apply streams.keep identified rfl
    · exact fun other found present => lookup_erase_some present
    · exact fun serial => even_emit serial _ _ rfl rfl
  | advance fd connection offset reaches onward within =>
    apply streams.replace identified rfl fd connection _ reaches.live rfl
    · exact fun other different => even_emit other _ _ (if_neg different.symm) rfl
    · exact fun balanced => balanced.advance offset onward within
  | rewind fd connection reaches done =>
    apply streams.replace identified rfl fd connection _ reaches.live rfl (fun other _ => even_refl other _)
    rintro ⟨inside, equal⟩
    have nothing : unsent connection = [] := List.length_eq_zero_iff.mp (List.length_drop.trans done)
    rw [nothing] at equal
    exact ⟨le_refl _, equal⟩
  | hangUp fd connection reaches =>
    exact streams.retain identified rfl fd connection _ reaches.live rfl rfl rfl rfl (even_refl · _)
  | read fd connection read ended hears =>
    obtain ⟨outbound, offset⟩ := hears_buffer hears
    exact streams.retain identified rfl fd connection read hears.reaches.live rfl (hears_identity hears).serial
      outbound offset (even_refl · _)
  | refuse fd connection read hears fits =>
    obtain ⟨outbound, offset⟩ := hears_buffer hears
    exact streams.append identified rfl fd connection read hears.reaches.live (hears_identity hears).serial
      outbound offset _ _ (AList.insert_insert _) rfl
  | request fd connection read hears lost =>
    obtain ⟨outbound, offset⟩ := hears_buffer hears
    exact streams.retain identified rfl fd connection _ hears.reaches.live (connections_requested _ _ _)
      (hears_identity hears).serial outbound offset (even_refl · _)
  | dispatch fd connection read hears running =>
    obtain ⟨outbound, offset⟩ := hears_buffer hears
    exact streams.retain identified rfl fd connection _ hears.reaches.live (connections_requested _ _ _)
      (hears_identity hears).serial outbound offset (fun serial => even_emit serial _ _ rfl rfl)
  | overload fd connection read hears fits =>
    obtain ⟨outbound, offset⟩ := hears_buffer hears
    exact streams.append identified rfl fd connection { read with requestInFlight := false } hears.reaches.live
      (hears_identity hears).serial outbound offset _ _ (connections_overload _ _ _) rfl
  | release fd connection live inFlight =>
    exact streams.retain identified rfl fd connection _ live rfl rfl rfl rfl (even_refl · _)
  | answer completion connection popped live same inFlight fits =>
    exact streams.append identified rfl _ connection { connection with requestInFlight := false } live rfl rfl rfl
      _ _ rfl rfl
  | turnAway fd unused running =>
    apply streams.keep identified rfl (fun _ _ same => same)
    intro serial
    have accepted := even_emit serial before.trace (.accepted fd none) rfl rfl
    have closed := even_emit serial (before.trace ++ [.accepted fd none]) (.closed fd) rfl rfl
    exact ⟨closed.1.trans accepted.1, closed.2.trans accepted.2⟩
  | drain noticed asked running => exact streams.drain identified
  | watch | countError | forget | fail =>
    exact streams.keep identified rfl (fun _ _ same => same) (even_refl · _)

theorem transition_streams {label : Label} {before after : Worker} (transition : Transition {} label before after)
    (streams : Streams before) : Streams after := by
  obtain ⟨first, last, quiet, moves, quiet'⟩ := transition.loop
  have still {first last : Worker} (quiet : Quiet first last) (streams : Streams first) : Streams last :=
    streams.keep (streams.identified.quiet quiet) quiet.accepted
      (fun fd _ found => by rwa [quiet.connections] at found) (even_quiet quiet)
  exact still quiet' (moves.preserves Streams (fun _ _ _ _ => action_streams) (still quiet streams))

/-- In every run of a worker, what the socket of a live connection took and what is unsent is
what was appended to it. -/
theorem run_stream (workerId listenerFd completionFd : Nat) (labels : List Label) (fd : Nat)
    (connection : Connection)
    (live : (run step (start workerId listenerFd completionFd) labels).connections.lookup fd = some connection) :
    let trace := (run step (start workerId listenerFd completionFd) labels).trace
    takenBy connection.serial trace ++ unsent connection = appendedTo connection.serial trace := by
  intro trace
  have initially : Streams (start workerId listenerFd completionFd) :=
    ⟨start_identified workerId listenerFd completionFd, (fun _ _ found => by cases found), fun _ _ => ⟨rfl, rfl⟩⟩
  have streams := run_invariant step Streams (fun _ => True)
    (fun worker label _ => transition_streams (any_transition worker label))
    (start workerId listenerFd completionFd) labels (fun _ _ => trivial) initially
  exact (streams.balanced fd connection live).equal

end FleetGateway.Network.Stream
