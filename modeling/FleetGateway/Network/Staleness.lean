import FleetGateway.Network.Descriptors

/-! Events that come too late. A batch names descriptors, and a descriptor may have changed hands
before its event is handled: the new connection is then as it was accepted, and it depends on the
event what becomes of it. -/

namespace FleetGateway.Network.Staleness
open Library Library.ByteStore Library.Run Http.Parser Http.Response EventLoop Actions Transitions Identity Lifetime
open Dispatch Descriptors

def Matched (worker : Worker) (ready : Ready) : Prop :=
  ∀ connection, worker.connections.lookup ready.fd = some connection →
    ready.owner = some connection.serial ∨ Fresh connection

def remaining : Phase → List Ready
  | .handling batch | .collecting (.event batch) | .applying (.event batch) => batch
  | _ => []

/-- The events that are left name each descriptor once, and no connection but the one they were
reported for has been touched. -/
structure Current (worker : Worker) : Prop where
  distinct : ((remaining worker.phase).map Ready.fd).Nodup
  matched : ∀ ready ∈ remaining worker.phase, Matched worker ready

theorem action_matched {context : Context} {before after : Worker} (action : Action context before after)
    (ready : Ready) (elsewhere : context.target ≠ some ready.fd) (matched : Matched before ready) :
    Matched after ready := by
  intro connection live
  rcases action_continues action with ⟨fd, clientIp, _, rfl⟩ | ⟨continues, _, _⟩
  · rcases lookup_connect before fd ready.fd clientIp connection live with ⟨_, fresh, _⟩ | ⟨_, old⟩
    · exact .inr fresh
    · exact matched connection old
  · obtain ⟨earlier, old, identity, same | target | stale⟩ := continues ready.fd connection live
    · rw [same]
      exact matched earlier old
    · exact absurd target elsewhere
    · rw [identity.serial]
      exact .inl ((matched earlier old).resolve_right stale)

theorem chain_matched {context : Context} {before after : Worker} (chain : Chain context before after)
    (ready : Ready) (elsewhere : context.target ≠ some ready.fd) (matched : Matched before ready) :
    Matched after ready :=
  chain.preserves (fun worker => Matched worker ready) (fun _ _ action => action_matched action ready elsewhere) matched

theorem chain_current {context : Context} {before last : Worker} (after : Worker) (ready : Ready) (rest : List Ready)
    (handled : before.phase = .handling (ready :: rest)) (target : context.target = some ready.fd)
    (chain : Chain context before last) (left : remaining after.phase = rest)
    (connections : after.connections = last.connections) (current : Current before) : Current after := by
  obtain ⟨distinct, matched⟩ := current
  simp only [handled, remaining, List.map_cons, List.nodup_cons] at distinct
  refine ⟨by rw [left]; exact distinct.2, ?_⟩
  rw [left]
  intro other member
  have apart : context.target ≠ some other.fd := by
    rw [target]
    intro same
    exact distinct.1 (Option.some.inj same ▸ List.mem_map_of_mem member)
  have later := chain_matched chain other apart (matched other (by rw [handled]; exact List.mem_cons_of_mem _ member))
  unfold Matched
  rw [connections]
  exact later

theorem Current.frame {before after : Worker} (current : Current before)
    (left : remaining after.phase = remaining before.phase ∨ remaining after.phase = [])
    (connections : after.connections = before.connections) : Current after := by
  rcases left with same | none
  · refine ⟨by rw [same]; exact current.distinct, ?_⟩
    rw [same]
    unfold Matched
    rw [connections]
    exact current.matched
  · refine ⟨by rw [none]; exact List.nodup_nil, ?_⟩
    rw [none]
    exact nofun

theorem apply_matched {permits : Permits} {before landed after : Worker} (completion : Completion)
    (rest : List Completion) (ready : Ready)
    (lands : landed = before.pop completion rest ∨
      Action { completion := some completion, permits := permits } (before.pop completion rest) landed)
    (chain : Chain { permits := permits } landed after) (matched : Matched before ready) : Matched after ready := by
  have popped : Matched (before.pop completion rest) ready := matched
  rcases lands with rfl | action
  · exact chain_matched chain ready nofun popped
  · exact chain_matched chain ready nofun (action_matched action ready nofun popped)

theorem transition_current {permits : Permits} {label : Label} {before after : Worker}
    (transition : Transition permits label before after) (current : Current before) : Current after := by
  cases transition with
  | wake batch waited reported =>
    simp only [Worker.reports, Bool.and_eq_true, decide_eq_true_eq] at reported
    constructor
    · simpa [remaining, Function.comp_def, Worker.attribute] using reported.1.2
    · intro ready member connection live
      obtain ⟨entry, _, rfl⟩ := List.mem_map.mp member
      left
      have found : before.connections.lookup entry.1 = some connection := live
      simp [Worker.attribute, found]
  | handle called ready rest last handled chain drained =>
    exact chain_current _ ready rest handled rfl chain rfl rfl current
  | notice called ready rest last handled chain drained =>
    exact chain_current _ ready rest handled rfl chain rfl rfl current
  | apply caller completion rest landed last applied queued lands chain =>
    have phase := apply_phase completion rest lands chain
    refine ⟨by rw [phase]; exact current.distinct, fun ready member => ?_⟩
    rw [phase] at member
    have later := apply_matched completion rest ready lands chain (current.matched ready member)
    exact later
  | stop test tested stops =>
    exact current.frame (.inr (by rw [(exit_frame true before).2.2.2.2]; rfl)) (quiet_exit true before).connections
  | fail waited =>
    exact current.frame (.inr (by rw [(exit_frame false before).2.2.2.2]; rfl)) (quiet_exit false before).connections
  | iterate handled => exact current.frame (.inr rfl) rfl
  | proceed tested => exact current.frame (.inr rfl) rfl
  | retry waited => exact current.frame (.inr rfl) rfl
  | finish last finished chain drained forgotten => exact ⟨List.nodup_nil, nofun⟩
  | collect caller collected =>
    refine current.frame ?_ rfl
    rw [collected]
    cases caller with
    | event rest => exact .inl rfl
    | iteration => exact .inr rfl
  | resume caller applied done =>
    refine current.frame ?_ rfl
    rw [applied]
    cases caller with
    | event rest => exact .inl rfl
    | iteration => exact .inr rfl
  | _ => exact current.frame (.inl rfl) rfl

theorem run_current (workerId listenerFd completionFd : Nat) (labels : List Label) :
    Current (run step (start workerId listenerFd completionFd) labels) :=
  run_invariant step Current (fun _ => True) (fun worker label _ => transition_current (any_transition worker label))
    (start workerId listenerFd completionFd) labels (fun _ _ => trivial) ⟨List.nodup_nil, nofun⟩

/-- The connection is open, and nothing says that its peer has stopped writing. -/
def Spared (fd serial : Nat) (worker : Worker) : Prop :=
  ∃ connection, worker.connections.lookup fd = some connection ∧ connection.serial = serial ∧
    connection.peerClosed = false

def Lost (fd : Nat) (worker : Worker) : Prop :=
  ∀ connection, worker.connections.lookup fd = some connection → connection.peerClosed = true

def Waits (fd serial : Nat) (worker : Worker) : Prop :=
  ∃ connection, worker.connections.lookup fd = some connection ∧ connection.serial = serial ∧
    connection.peerClosed = false ∧ connection.pendingBytes = 0

theorem Waits.spared {fd serial : Nat} {worker : Worker} (waits : Waits fd serial worker) : Spared fd serial worker := by
  obtain ⟨connection, live, serial, open', _⟩ := waits
  exact ⟨connection, live, serial, open'⟩

theorem Lost.not_spared {fd serial : Nat} {worker : Worker} (lost : Lost fd worker) : ¬Spared fd serial worker := by
  rintro ⟨connection, live, _, open'⟩
  cases open'.symm.trans (lost connection live)

theorem lost_of_none {fd : Nat} {worker : Worker} (none : worker.connections.lookup fd = none) : Lost fd worker := by
  intro connection live
  cases none.symm.trans live

theorem lost_put (fd : Nat) (worker : Worker) (connection : Connection) (closed : connection.peerClosed = true) :
    Lost fd (worker.put fd connection) := by
  intro found live
  cases (lookup_put _ _ _).symm.trans live
  exact closed

theorem watchOrClose_kept (fd : Nat) (events : Events) (machine : Machine) (watched : watchable fd machine = true) :
    (watchOrClose fd events machine).2.worker = machine.worker.watch fd events ∧
      (watchOrClose fd events machine).2.script.controls = machine.script.controls.tail := by
  unfold watchable at watched
  simp only [watchOrClose, modifyFd, watched, if_true]
  trivial

theorem watchOrClose_closed (fd : Nat) (events : Events) (machine : Machine) (unwatched : watchable fd machine = false) :
    (watchOrClose fd events machine).2.worker.connections.lookup fd = none := by
  unfold watchable at unwatched
  simp only [watchOrClose, modifyFd, unwatched, Bool.false_eq_true, if_false]
  exact lookup_closeClient _ _

/-- Once the interest was changed, the next change is up to the kernel alone. -/
theorem watchable_of_watched {fd : Nat} {events : Events} {worker : Worker} {controls : List Bool} {after : Machine}
    (watched : after.worker = worker.watch fd events) (left : after.script.controls = controls) :
    watchable fd after = controls.headD true := by
  have registered : (after.worker.interest.lookup fd).isSome = true := by
    rw [watched]
    exact congrArg Option.isSome (AList.lookup_insert _)
  unfold watchable
  rw [left, registered, Bool.and_true]

theorem watchOrClose_lost (fd : Nat) (events : Events) (machine : Machine) (lost : Lost fd machine.worker) :
    Lost fd (watchOrClose fd events machine).2.worker := by
  cases watched : watchable fd machine with
  | true =>
    rw [(watchOrClose_kept fd events machine watched).1]
    exact lost
  | false => exact lost_of_none (watchOrClose_closed fd events machine watched)

theorem flushClient_lost (fd : Nat) (machine : Machine) (lost : Lost fd machine.worker) :
    Lost fd (flushClient fd machine).2.worker := by
  unfold flushClient
  split
  · exact lost
  next connection live =>
    have closed := lost connection live
    split
    next ended sends left loop =>
      have same : left.peerClosed = true := by
        rw [(sendLoop_spec _ _ _ _ _ loop).1]
        exact closed
      have advanced : Lost fd (machine.worker.advance fd connection left.outboundOffset) := lost_put _ _ _ closed
      cases ended with
      | failed => exact lost_of_none (lookup_closeClient _ _)
      | blocked => exact watchOrClose_lost fd _ ⟨_, _⟩ advanced
      | drained =>
        dsimp only
        rw [if_pos same]
        exact lost_of_none (lookup_closeClient _ _)

theorem flushClient_idle (fd : Nat) (machine : Machine) (connection : Connection)
    (live : machine.worker.connections.lookup fd = some connection) (open' : connection.peerClosed = false)
    (idle : connection.pendingBytes = 0) :
    (watchable fd machine = true → Waits fd connection.serial (flushClient fd machine).2.worker ∧
        watchable fd (flushClient fd machine).2 = machine.script.controls.tail.headD true) ∧
      (watchable fd machine = false → Lost fd (flushClient fd machine).2.worker) := by
  have loop : sendLoop machine.script.sends connection = (.drained, machine.script.sends, connection) := by
    cases machine.script.sends with
    | nil => simp [sendLoop, idle]
    | cons outcome rest => simp [sendLoop, idle]
  have flushed : flushClient fd machine = watchOrClose fd { input := true, readHangup := true }
      ⟨(machine.worker.advance fd connection connection.outboundOffset).put fd
        { connection with outbound := [], outboundOffset := 0 }, machine.script⟩ := by
    simp [flushClient, live, loop, open']
  rw [flushed]
  constructor
  · intro watched
    obtain ⟨worker, controls⟩ := watchOrClose_kept fd { input := true, readHangup := true }
      ⟨(machine.worker.advance fd connection connection.outboundOffset).put fd
        { connection with outbound := [], outboundOffset := 0 }, machine.script⟩ watched
    refine ⟨?_, watchable_of_watched worker controls⟩
    rw [worker]
    exact ⟨_, lookup_put _ _ _, rfl, open', rfl⟩
  · intro unwatched
    exact lost_of_none (watchOrClose_closed fd _ ⟨_, _⟩ unwatched)

theorem flushIdle_lost (fd : Nat) (machine : Machine) (lost : Lost fd machine.worker) :
    Lost fd (flushIdle fd machine).worker := by
  unfold flushIdle
  split
  · exact lost
  · split
    · exact lost
    · exact flushClient_lost fd machine lost

theorem modifyFd_controls (fd : Nat) (events : Events) (machine after : Machine) (modified : Bool)
    (call : modifyFd fd events machine = (modified, after)) :
    after.script.controls = machine.script.controls.tail := by
  unfold modifyFd at call
  dsimp only at call
  split at call
  · cases call
    rfl
  · cases call
    rfl

theorem readLoop_closed (reads rest : List ReadOutcome) (connection read : Connection) (ended : ReadEnd)
    (loop : readLoop reads connection = (ended, rest, read)) (opened : connection.peerClosed = false) :
    read.peerClosed = true ↔ ended = .peerClosed := by
  induction reads generalizing connection with
  | nil =>
    cases loop
    simp [opened]
  | cons outcome reads ih =>
    cases outcome with
    | again =>
      cases loop
      simp [opened]
    | interrupted => exact ih connection loop opened
    | failed =>
      cases loop
      simp [opened]
    | bytes data =>
      unfold readLoop at loop
      split at loop
      · cases loop
        simp
      dsimp only at loop
      generalize feed _ _ = result at loop
      obtain ⟨status, parser⟩ := result
      cases status with
      | error =>
        cases loop
        simp [opened]
      | complete =>
        cases loop
        simp [opened]
      | incomplete =>
        dsimp only at loop
        split at loop
        · cases loop
          simp [opened]
        · exact ih _ loop opened

/-- What the client has sent is no reason to close: nothing yet, a part of a request, or a whole
one that the pool accepts. -/
def Peaceful (connection : Connection) (machine : Machine) : Prop :=
  (readLoop machine.script.reads connection).1 = .blocked ∨
    ((readLoop machine.script.reads connection).1 = .complete ∧ submittable machine = true)

theorem refuse_lost (fd : Nat) (connection : Connection) (machine : Machine) :
    Lost fd (refuse fd connection machine).worker := by
  unfold refuse
  dsimp only
  split
  · exact lost_of_none (lookup_closeClient _ _)
  · exact flushIdle_lost fd ⟨_, _⟩ (lost_put _ _ _ rfl)

theorem dispatch_fresh (fd : Nat) (read : Connection) (machine : Machine) (open' : read.peerClosed = false)
    (idle : read.pendingBytes = 0) :
    (watchable fd machine = true → submittable machine = true →
        Waits fd read.serial (dispatch fd read machine).worker ∧
          watchable fd (dispatch fd read machine) = machine.script.controls.tail.headD true) ∧
      (watchable fd machine = false ∨ submittable machine = false → Lost fd (dispatch fd read machine).worker) := by
  have started (worker : Worker) (same : worker.interest = machine.worker.interest) :
      watchable fd ⟨worker, machine.script⟩ = watchable fd machine := by
    unfold watchable
    rw [same]
  unfold dispatch
  dsimp only
  split
  next unwatched call =>
    have refused := (modifyFd_spec _ _ _ _ _ call).2.2.trans (started _ rfl)
    constructor
    · intro watched
      cases watched.symm.trans refused.symm
    · intro _
      exact lost_of_none (lookup_closeClient _ _)
  next watched call =>
    obtain ⟨changed, rooms, succeeded⟩ := modifyFd_spec _ _ _ _ _ call
    have controls := modifyFd_controls _ _ _ _ _ call
    rw [if_pos rfl] at changed
    have room : (!watched.worker.poolStopping && watched.script.rooms.headD true) = submittable machine := by
      rw [changed, rooms]
      rfl
    rw [room]
    cases accepted : submittable machine with
    | true =>
      have live : (watched.worker.submit fd { read with requestInFlight := true }).connections.lookup fd =
          some { read with requestInFlight := true } := by
        rw [changed]
        exact lookup_put _ _ _
      have renewed : watchable fd watched = machine.script.controls.tail.headD true :=
        watchable_of_watched changed controls
      simp only [if_true, flushIdle, live]
      refine ⟨fun _ _ => ⟨⟨_, live, rfl, open', idle⟩, renewed⟩, ?_⟩
      rintro (unwatched | full)
      · cases (succeeded.trans (started _ rfl)).trans unwatched
      · cases full
    | false =>
      refine ⟨nofun, fun _ => ?_⟩
      simp only [Bool.false_eq_true, if_false]
      exact flushIdle_lost fd _ (flushClient_lost fd ⟨_, _⟩ (lost_put _ _ _ rfl))

/-- Whether a fresh connection is spared depends on what the client has sent, on the pool and on the
kernel. -/
theorem handleClient_fresh (fd : Nat) (machine : Machine) (connection : Connection)
    (live : machine.worker.connections.lookup fd = some connection) (fresh : Fresh connection) :
    (Peaceful connection machine ∧ watchable fd machine = true →
        Waits fd connection.serial (handleClient fd machine).worker ∧
          watchable fd (handleClient fd machine) = machine.script.controls.tail.headD true) ∧
      (¬(Peaceful connection machine ∧ watchable fd machine = true) → Lost fd (handleClient fd machine).worker) := by
  have empty : connection.outbound = [] := congrArg Connection.outbound fresh
  have idle' : connection.requestInFlight = false := congrArg Connection.requestInFlight fresh
  have opened : connection.peerClosed = false := congrArg Connection.peerClosed fresh
  unfold handleClient Peaceful
  rw [live]
  dsimp only
  generalize loopEq : readLoop machine.script.reads connection = loop
  obtain ⟨ended, reads, read⟩ := loop
  have frame := (readLoop_spec _ _ _ _ _ loopEq).1
  have serial : read.serial = connection.serial := by rw [frame]
  have quiet : read.requestInFlight = false := by rw [frame]; exact idle'
  have nothing : read.pendingBytes = 0 := by rw [frame]; simp [Connection.pendingBytes, empty]
  have closed := readLoop_closed _ _ _ _ _ loopEq opened
  have watched : watchable fd ⟨machine.worker.put fd read, { machine.script with reads := reads }⟩ =
      watchable fd machine := rfl
  cases ended with
  | failed => exact ⟨by simp, fun _ => lost_of_none (lookup_closeClient _ _)⟩
  | complained => exact ⟨by simp, fun _ => lost_of_none (lookup_closeClient _ _)⟩
  | refused => exact ⟨by simp, fun _ => refuse_lost fd read _⟩
  | peerClosed => exact ⟨by simp, fun _ => flushIdle_lost fd ⟨_, _⟩ (lost_put _ _ _ (closed.mpr rfl))⟩
  | complete =>
    have open' : read.peerClosed = false := by simpa using closed
    obtain ⟨spares, loses⟩ := dispatch_fresh fd read
      ⟨machine.worker.put fd read, { machine.script with reads := reads }⟩ open' nothing
    have accepted : submittable ⟨machine.worker.put fd read, { machine.script with reads := reads }⟩ =
        submittable machine := rfl
    rw [watched, accepted, serial] at spares
    rw [watched, accepted] at loses
    constructor
    · rintro ⟨peaceful, kept⟩
      exact spares kept (by simpa using peaceful)
    · intro unpeaceful
      apply loses
      cases kept : watchable fd machine with
      | false => exact .inl rfl
      | true => exact .inr (by simpa [kept] using unpeaceful)
  | blocked =>
    have open' : read.peerClosed = false := by simpa using closed
    obtain ⟨spares, loses⟩ := flushClient_idle fd
      ⟨machine.worker.put fd read, { machine.script with reads := reads }⟩ read (lookup_put _ _ _) open' nothing
    have flushed : flushIdle fd ⟨machine.worker.put fd read, { machine.script with reads := reads }⟩ =
        (flushClient fd ⟨machine.worker.put fd read, { machine.script with reads := reads }⟩).2 := by
      simp [flushIdle, quiet]
    rw [watched, serial] at spares
    rw [watched] at loses
    dsimp only
    rw [flushed]
    constructor
    · rintro ⟨_, kept⟩
      exact spares kept
    · intro unpeaceful
      apply loses
      simpa using unpeaceful

/-- A late event spares a fresh connection. The event says nothing of errors and hang-ups; a read
finds no reason to close; and the kernel lets the interest be renewed, twice if the event asks for a
read and a write. -/
structure Harmless (ready : Ready) (connection : Connection) (machine : Machine) : Prop where
  unnoticed : eventNotice machine.worker = .never
  mask : ready.events.error = false ∧ ready.events.hangup = false ∧ ready.events.readHangup = false
  input : ready.events.input = true → Peaceful connection machine ∧ watchable ready.fd machine = true
  output : ready.events.output = true →
    (if ready.events.input then machine.script.controls.tail.headD true else watchable ready.fd machine) = true

theorem handleReady_end {fd serial : Nat} {machine : Machine} (spared : Spared fd serial machine.worker) :
    Spared fd serial (match machine.worker.connections.lookup fd with
      | none => machine
      | some connection =>
        if !connection.requestInFlight && connection.peerClosed && connection.pendingBytes = 0 then
          closeClient fd machine
        else machine).worker := by
  obtain ⟨connection, live, serial', open'⟩ := spared
  rw [live]
  dsimp only
  rw [open', Bool.and_false, Bool.false_and, if_neg Bool.false_ne_true]
  exact ⟨connection, live, serial', open'⟩

theorem handleReady_end_lost {fd : Nat} {machine : Machine} (lost : Lost fd machine.worker) :
    Lost fd (match machine.worker.connections.lookup fd with
      | none => machine
      | some connection =>
        if !connection.requestInFlight && connection.peerClosed && connection.pendingBytes = 0 then
          closeClient fd machine
        else machine).worker := by
  split
  · exact lost
  · split
    · exact lost_of_none (lookup_closeClient _ _)
    · exact lost

theorem handleReady_rest (ready : Ready) (machine read : Machine) (serial : Nat)
    (healthy : (ready.events.error || ready.events.hangup) = false)
    (reads : (if ready.events.input then handleClient ready.fd machine else machine) = read) :
    (Lost ready.fd read.worker → Lost ready.fd (handleReady ready.fd ready.events machine).worker) ∧
      (Waits ready.fd serial read.worker →
        (Spared ready.fd serial (handleReady ready.fd ready.events machine).worker ↔
          ready.events.readHangup = false ∧ (ready.events.output = true → watchable ready.fd read = true))) := by
  unfold handleReady
  rw [healthy, if_neg Bool.false_ne_true]
  dsimp only
  rw [reads]
  constructor
  · intro lost
    split
    · exact lost
    next connection live =>
      apply handleReady_end_lost
      have hung : Lost ready.fd (if ready.events.readHangup = true then
          { read with worker := read.worker.put ready.fd { connection with peerClosed := true } } else read).worker := by
        split
        · exact lost_put _ _ _ rfl
        · exact lost
      split
      · exact flushClient_lost _ _ hung
      · exact hung
  · intro waits
    obtain ⟨connection, live, serial', open', idle⟩ := id waits
    rw [live]
    dsimp only
    cases hangs : ready.events.readHangup with
    | true =>
      simp only [if_true, Bool.true_eq_false, false_and, iff_false]
      apply Lost.not_spared
      apply handleReady_end_lost
      split
      · exact flushClient_lost _ ⟨_, _⟩ (lost_put _ _ _ rfl)
      · exact lost_put _ _ _ rfl
    | false =>
      simp only [Bool.false_eq_true, if_false, true_and]
      cases writes : ready.events.output with
      | false =>
        simp only [Bool.false_eq_true, if_false, false_implies, iff_true]
        exact handleReady_end waits.spared
      | true =>
        simp only [if_true, true_implies]
        obtain ⟨spares, loses⟩ := flushClient_idle ready.fd read connection live open' idle
        rw [serial'] at spares
        cases watched : watchable ready.fd read with
        | true => exact iff_of_true (handleReady_end (spares watched).1.spared) rfl
        | false => exact iff_of_false (handleReady_end_lost (loses watched)).not_spared nofun

theorem handleReady_fresh (ready : Ready) (machine : Machine) (connection : Connection)
    (live : machine.worker.connections.lookup ready.fd = some connection) (fresh : Fresh connection)
    (unnoticed : eventNotice machine.worker = .never) :
    Spared ready.fd connection.serial (handleReady ready.fd ready.events machine).worker ↔
      Harmless ready connection machine := by
  have open' : connection.peerClosed = false := congrArg Connection.peerClosed fresh
  have idle : connection.pendingBytes = 0 := by
    have empty : connection.outbound = [] := congrArg Connection.outbound fresh
    simp [Connection.pendingBytes, empty]
  cases ill : (ready.events.error || ready.events.hangup) with
  | true =>
    apply iff_of_false
    · apply Lost.not_spared
      unfold handleReady
      rw [ill, if_pos rfl]
      exact lost_of_none (lookup_closeClient _ _)
    · intro harmless
      rw [harmless.mask.1, harmless.mask.2.1] at ill
      cases ill
  | false =>
    have healthy := Bool.or_eq_false_iff.mp ill
    cases reads : ready.events.input with
    | false =>
      have rest := (handleReady_rest ready machine machine connection.serial ill (by rw [reads]; rfl)).2
        ⟨connection, live, rfl, open', idle⟩
      rw [rest]
      constructor
      · rintro ⟨stays, writes⟩
        exact ⟨unnoticed, ⟨healthy.1, healthy.2, stays⟩, by simp [reads], by simpa [reads] using writes⟩
      · intro harmless
        exact ⟨harmless.mask.2.2, by simpa [reads] using harmless.output⟩
    | true =>
      obtain ⟨spares, loses⟩ := handleClient_fresh ready.fd machine connection live fresh
      obtain ⟨lost, waits⟩ := handleReady_rest ready machine (handleClient ready.fd machine) connection.serial ill
        (by rw [reads]; rfl)
      by_cases peaceful : Peaceful connection machine ∧ watchable ready.fd machine = true
      · obtain ⟨waiting, renewed⟩ := spares peaceful
        rw [waits waiting, renewed]
        constructor
        · rintro ⟨stays, writes⟩
          exact ⟨unnoticed, ⟨healthy.1, healthy.2, stays⟩, fun _ => peaceful, by rw [reads]; exact writes⟩
        · intro harmless
          have output := harmless.output
          rw [reads] at output
          exact ⟨harmless.mask.2.2, output⟩
      · exact iff_of_false (lost (loses peaceful)).not_spared fun harmless => peaceful (harmless.input reads)

theorem action_asked {context : Context} {before after : Worker} (action : Action context before after)
    (asked : before.shutdownRequested = true) : after.shutdownRequested = true := by
  cases action with
  | drain noticed asked' running =>
    cases before.listenerFd with
    | none => exact asked
    | some fd => exact asked
  | fail => rfl
  | _ => exact asked

structure Leaving (fd : Nat) (connection : Connection) (worker : Worker) : Prop where
  asked : worker.shutdownRequested = true
  same : ∀ found, worker.connections.lookup fd = some found → found = connection

structure Departed (fd : Nat) (worker : Worker) : Prop where
  asked : worker.shutdownRequested = true
  gone : worker.connections.lookup fd = none

section Leaving

variable {context : Context} {fd : Nat} {connection : Connection} {before after : Worker}

theorem action_earlier (action : Action context before after) (asked : before.shutdownRequested = true)
    (found : Connection) (live : after.connections.lookup fd = some found) :
    ∃ earlier, before.connections.lookup fd = some earlier ∧
      (found = earlier ∨ context.target = some fd ∨ ¬Fresh earlier) := by
  rcases action_continues action with ⟨_, _, ⟨_, unasked⟩, _⟩ | ⟨continues, _, _⟩
  · cases asked.symm.trans unasked
  · obtain ⟨earlier, old, _, kept⟩ := continues fd found live
    exact ⟨earlier, old, kept⟩

theorem chain_leaving (chain : Chain context before after) (elsewhere : context.target = none)
    (fresh : Fresh connection) (leaving : Leaving fd connection before) : Leaving fd connection after := by
  refine chain.preserves (Leaving fd connection) ?_ leaving
  intro worker next action leaving
  refine ⟨action_asked action leaving.asked, fun found live => ?_⟩
  obtain ⟨earlier, old, same | target | stale⟩ := action_earlier action leaving.asked found live
  · exact same.trans (leaving.same earlier old)
  · cases elsewhere.symm.trans target
  · rw [leaving.same earlier old] at stale
    exact absurd fresh stale

theorem chain_departed (chain : Chain context before after) (departed : Departed fd before) : Departed fd after := by
  refine chain.preserves (Departed fd) ?_ departed
  intro worker next action departed
  refine ⟨action_asked action departed.asked, ?_⟩
  cases found : next.connections.lookup fd with
  | none => rfl
  | some connection =>
    obtain ⟨earlier, old, _⟩ := action_earlier action departed.asked connection found
    cases departed.gone.symm.trans old

end Leaving

theorem settle_departed (fd : Nat) (machine : Machine) (connection : Connection) (fresh : Fresh connection)
    (leaving : Leaving fd connection machine.worker) : Departed fd (settle machine fd).worker := by
  unfold settle
  split
  next none => exact ⟨leaving.asked, none⟩
  next found live =>
    cases leaving.same found live
    have flight : connection.requestInFlight = false := congrArg Connection.requestInFlight fresh
    have empty : connection.outbound = [] := congrArg Connection.outbound fresh
    have idle : connection.pendingBytes = 0 := by simp [Connection.pendingBytes, empty]
    rw [flight, if_neg Bool.false_ne_true, if_neg (not_not_intro idle)]
    exact ⟨leaving.asked, lookup_closeClient _ _⟩

theorem foldl_departed (descriptors : List Nat) (fd : Nat) (machine : Machine) (departed : Departed fd machine.worker) :
    Departed fd (descriptors.foldl settle machine).worker := by
  induction descriptors generalizing machine with
  | nil => exact departed
  | cons other rest ih => exact ih _ (chain_departed (settle_chain {} machine other) departed)

theorem foldl_leaving (descriptors : List Nat) (fd : Nat) (machine : Machine) (connection : Connection)
    (fresh : Fresh connection) (listed : fd ∈ descriptors) (leaving : Leaving fd connection machine.worker) :
    Departed fd (descriptors.foldl settle machine).worker := by
  induction descriptors generalizing machine with
  | nil => cases listed
  | cons other rest ih =>
    rw [List.foldl_cons]
    by_cases here : fd = other
    · subst here
      exact foldl_departed rest fd _ (settle_departed fd machine connection fresh leaving)
    · exact ih _ ((List.mem_cons.mp listed).resolve_left here)
        (chain_leaving (settle_chain {} machine other) rfl fresh leaving)

theorem mem_fileDescriptors (order : List Nat) (worker : Worker) (fd : Nat) (present : fd ∈ worker.connections) :
    fd ∈ fileDescriptors order worker := by
  have key := AList.mem_keys.mp present
  simp only [fileDescriptors, List.mem_append, List.mem_filter, decide_eq_true_eq]
  by_cases named : fd ∈ order.dedup
  · exact .inl ⟨named, key⟩
  · exact .inr ⟨key, fun both => named both.1⟩

/-- A worker that begins to drain closes a fresh connection, and the rest of the event finds it gone. -/
theorem handleEvent_draining (ready : Ready) (rest : List Ready) (machine : Machine)
    (connection : Connection) (live : machine.worker.connections.lookup ready.fd = some connection)
    (fresh : Fresh connection)
    (noticed : machine.worker.shutdownRequested = true ∧ machine.worker.draining = false) :
    Lost ready.fd (handleEvent ready rest machine) := by
  generalize begunEq : Worker.retire machine.worker.listenerFd
    { machine.worker with draining := true, poolStopping := true } = begun
  have connections : begun.connections = machine.worker.connections := by
    rw [← begunEq]
    exact connections_retire _ _
  have asked : begun.shutdownRequested = true := by
    rw [← begunEq]
    cases machine.worker.listenerFd with
    | none => exact noticed.1
    | some fd => exact noticed.1
  have notices : (machine.worker.shutdownRequested && !machine.worker.draining) = true := by simp [noticed]
  have running : ¬machine.worker.draining = true := by simp [noticed]
  have drained : noticeShutdown machine = (none, sweep ⟨begun, machine.script⟩) := by
    simp only [noticeShutdown, if_pos notices, beginDrain, if_neg running, begunEq]
  have leaving : Leaving ready.fd connection begun := by
    refine ⟨asked, fun found present => ?_⟩
    rw [connections, live] at present
    exact (Option.some.inj present).symm
  have present : ready.fd ∈ begun.connections := by
    rw [connections]
    exact AList.lookup_isSome.mp (by rw [live]; rfl)
  have departed : Departed ready.fd (sweep ⟨begun, machine.script⟩).worker :=
    foldl_leaving _ ready.fd ⟨begun, _⟩ connection fresh (mem_fileDescriptors _ begun ready.fd present) leaving
  unfold handleEvent
  rw [drained]
  dsimp only
  split
  · exact lost_of_none departed.gone
  · rw [if_neg (Option.some_ne_none ready.fd).symm]
    split
    next found =>
      rw [departed.gone] at found
      cases found
    next => exact lost_of_none departed.gone

/-- In every run: an event whose descriptor has passed from the connection it was reported for to
another one spares that one if and only if it is harmless. -/
theorem stale_event_harmless (workerId listenerFd completionFd : Nat) (labels : List Label) (script : Script)
    (ready : Ready) (rest : List Ready) (connection : Connection) (old : Nat)
    (handled : (run step (start workerId listenerFd completionFd) labels).phase = .handling (ready :: rest))
    (live : (run step (start workerId listenerFd completionFd) labels).connections.lookup ready.fd = some connection)
    (reported : ready.owner = some old) (stale : old ≠ connection.serial) :
    Spared ready.fd connection.serial (step (run step (start workerId listenerFd completionFd) labels) (.handle script)) ↔
      Harmless ready connection ⟨run step (start workerId listenerFd completionFd) labels, script⟩ := by
  have current := run_current workerId listenerFd completionFd labels
  have attended := run_attended workerId listenerFd completionFd labels
  generalize run step (start workerId listenerFd completionFd) labels = worker at *
  have fresh : Fresh connection := by
    have matched := current.matched ready (by rw [handled]; exact List.mem_cons_self) connection live
    apply matched.resolve_left
    rw [reported]
    exact fun same => stale (Option.some.inj same)
  have stepped : step worker (.handle script) = handleEvent ready rest ⟨worker, script⟩ := by
    simp only [step, handled]
  rw [stepped]
  by_cases noticed : worker.shutdownRequested = true ∧ worker.draining = false
  · apply iff_of_false
    · exact (handleEvent_draining ready rest ⟨worker, script⟩ connection live fresh noticed).not_spared
    · intro harmless
      have event : eventNotice worker = .event := by simp [eventNotice, noticed]
      cases event.symm.trans harmless.unnoticed
  · have unnoticed : eventNotice worker = .never := by simpa [eventNotice] using noticed
    obtain ⟨_, apart, apart'⟩ := attended.clients ready.fd (AList.lookup_isSome.mp (by rw [live]; rfl))
    have client : handleEvent ready rest ⟨worker, script⟩ =
        { (handleReady ready.fd ready.events ⟨worker, script⟩).worker with phase := .handling rest } := by
      have notices : ¬(worker.shutdownRequested && !worker.draining) = true := by simpa using noticed
      have own : ready.fd ≠ worker.completionFd := by rw [attended.completionFd]; exact apart'
      have other : worker.listenerFd ≠ some ready.fd := by
        rcases attended.listenerFd with none | some
        · rw [none]
          exact fun impossible => by cases impossible
        · rw [some]
          exact fun same => apart (Option.some.inj same).symm
      have found : (worker.connections.lookup ready.fd).isSome = true := by rw [live]; rfl
      simp only [handleEvent, noticeShutdown, if_neg notices, if_neg own, if_neg other, if_pos found]
    rw [client]
    exact handleReady_fresh ready ⟨worker, script⟩ connection live fresh unnoticed

/-- The completion is popped and its client closed, and the next client gets the same descriptor. -/
def exchange : List Label :=
  [.handle {}, .collect, .apply { sends := [.sent 1000] }, .apply {},
    .handle { accepts := [.client 7 (some (text "10.0.0.2")) true true] }]

/-- The first client stops writing while its response is on the way. -/
def hungUp : List Label :=
  handled ++ iteration {} ++ [.push 0, .notify 0,
    .wait (.ready [(6, { input := true }), (5, { input := true }), (7, { readHangup := true })])] ++ exchange

/-- The first client has two requests in flight, and its socket takes bytes again. -/
def writable : List Label :=
  slowReader ++ [.wait (.ready [(7, { input := true, output := true })]), .handle { reads := [.bytes (text "x")] }] ++
    iteration {} ++ [.runHandler 1 (some {}), .push 1, .notify 1,
    .wait (.ready [(6, { input := true }), (5, { input := true }), (7, { output := true })])] ++ exchange

theorem stale_event_harmless_writable :
    ∃ connection, (run step (start 0 5 6) writable).connections.lookup 7 = some connection ∧ connection.serial = 1 ∧
      Spared 7 connection.serial (step (run step (start 0 5 6) writable) (.handle {})) := by
  have phase : (run step (start 0 5 6) writable).phase = .handling [⟨7, { output := true }, some 0⟩] := by
    decide +kernel
  have second : ((run step (start 0 5 6) writable).connections.lookup 7).map Connection.serial = some 1 := by
    decide +kernel
  have unnoticed : eventNotice (run step (start 0 5 6) writable) = .never := by decide +kernel
  have watched : watchable 7 ⟨run step (start 0 5 6) writable, {}⟩ = true := by decide +kernel
  obtain ⟨connection, live, serial⟩ := Option.map_eq_some_iff.mp second
  refine ⟨connection, live, serial, ?_⟩
  exact (stale_event_harmless 0 5 6 writable {} ⟨7, { output := true }, some 0⟩ [] connection 0 phase live rfl
    (by rw [serial]; decide)).mpr ⟨unnoticed, ⟨rfl, rfl, rfl⟩, (fun impossible => by cases impossible), fun _ => watched⟩

/-- The end of the first client's stream closes the connection of the second. -/
theorem stale_event_closes :
    (run step (start 0 5 6) hungUp).phase = .handling [⟨7, { readHangup := true }, some 0⟩] ∧
      ((run step (start 0 5 6) hungUp).connections.lookup 7).map Connection.serial = some 1 ∧
      (step (run step (start 0 5 6) hungUp) (.handle {})).connections.lookup 7 = none := by
  decide +kernel

end FleetGateway.Network.Staleness
