import FleetGateway.Http.State
import FleetGateway.Network.Dispatch
import FleetGateway.Network.Submission

/-! What a worker makes of the bytes it reads. However the reads of a connection are cut and mixed
with everything else the loop does, its tasks carry the request that its bytes begin with, and only
bytes that are no request are answered as a bad one. -/

namespace FleetGateway.Network.Hearing
open Library Library.ByteStore Library.Run Http.Parser Http.Fragmentation EventLoop Actions Transitions Identity

/-- The pieces that the loop of `handle_client` gives to the parser. -/
def pieces : List ReadOutcome → Connection → List Bytes
  | .interrupted :: rest, connection => pieces rest connection
  | .bytes data :: rest, connection =>
    if data.take 1024 = [] then []
    else
      let fed := feed (connection.inbound ++ data.take 1024) connection.parser
      data.take 1024 :: match fed.1 with
        | .incomplete =>
          if fed.2.parseError ≠ "" then [] else pieces rest { connection with inbound := [], parser := fed.2 }
        | .complete | .error => []
  | _, _ => []

def hearsClient (fd : Nat) (machine : Machine) : List (Nat × Bytes) :=
  match machine.worker.connections.lookup fd with
  | none => []
  | some connection => (pieces machine.script.reads connection).map (connection.serial, ·)

def hearsReady (fd : Nat) (events : Events) (machine : Machine) : List (Nat × Bytes) :=
  if events.error || events.hangup then [] else if events.input then hearsClient fd machine else []

def hearsEvent (ready : Ready) (machine : Machine) : List (Nat × Bytes) :=
  match noticeShutdown machine with
  | (listener, noticed) =>
    if ready.fd = noticed.worker.completionFd then []
    else if listener = some ready.fd then []
    else if (noticed.worker.connections.lookup ready.fd).isSome then hearsReady ready.fd ready.events noticed
    else []

def hears (worker : Worker) : Label → List (Nat × Bytes)
  | .handle script =>
    match worker.phase with
    | .handling (ready :: _) => hearsEvent ready ⟨worker, script⟩
    | _ => []
  | _ => []

def heard : Worker → List Label → List (Nat × Bytes)
  | _, [] => []
  | worker, label :: rest => hears worker label ++ heard (step worker label) rest

def stream (serial : Nat) (record : List (Nat × Bytes)) : Bytes :=
  ((record.filter fun piece => piece.1 = serial).map Prod.snd).flatten

theorem stream_append (serial : Nat) (first second : List (Nat × Bytes)) :
    stream serial (first ++ second) = stream serial first ++ stream serial second := by
  simp only [stream, List.filter_append, List.map_append, List.flatten_append]

theorem stream_own (serial : Nat) (read : List Bytes) : stream serial (read.map (serial, ·)) = read.flatten := by
  induction read with
  | nil => rfl
  | cons piece rest ih =>
    have own : stream serial ((serial, piece) :: rest.map (serial, ·)) = piece ++ stream serial (rest.map (serial, ·)) := by
      simp [stream]
    rw [List.map_cons, own, ih, List.flatten_cons]

theorem stream_other {serial other : Nat} (different : other ≠ serial) (read : List Bytes) :
    stream other (read.map (serial, ·)) = [] := by
  have none : (read.map (serial, ·)).filter (fun piece => piece.1 = other) = [] := by
    rw [List.filter_eq_nil_iff]
    intro piece member
    obtain ⟨bytes, _, rfl⟩ := List.mem_map.mp member
    simpa using different.symm
  rw [stream, none]
  rfl

/-- What the bytes of a connection begin with, under the limits of its parser. -/
def meant (serial : Nat) (record : List (Nat × Bytes)) : Meaning :=
  meaning (16 * 1024) (1024 * 1024) (stream serial record)

theorem meant_append (serial : Nat) (record more : List (Nat × Bytes)) (final : meant serial record ≠ .incomplete) :
    meant serial (record ++ more) = meant serial record := by
  unfold meant at final ⊢
  rw [stream_append]
  cases known : meaning (16 * 1024) (1024 * 1024) (stream serial record) with
  | incomplete => exact absurd known final
  | rejected => exact meaning_append_rejected _ known
  | request request => exact meaning_append_request _ request known

structure Follows (bytes : Bytes) (connection : Connection) : Prop where
  inbound : connection.inbound = []
  reads : Reads (16 * 1024) (1024 * 1024) bytes connection.parser

/-- A final status says what the bytes are, and any other that they are not complete. -/
theorem status_meaning {bytes : Bytes} {fed : ParseStatus × HTTPParser}
    (agrees : Agrees (16 * 1024) (1024 * 1024) bytes fed) :
    (fed.1 = .error → meaning (16 * 1024) (1024 * 1024) bytes = .rejected) ∧
      (fed.1 = .incomplete → meaning (16 * 1024) (1024 * 1024) bytes = .incomplete) := by
  have status := agrees.2
  cases known : meaning (16 * 1024) (1024 * 1024) bytes with
  | incomplete =>
    rw [known] at status
    exact ⟨fun error => absurd (status.symm.trans error) ParseStatus.noConfusion, fun _ => rfl⟩
  | rejected =>
    rw [known] at status
    exact ⟨fun _ => rfl, fun incomplete => absurd (status.symm.trans incomplete) ParseStatus.noConfusion⟩
  | request request =>
    rw [known] at status
    exact ⟨fun error => absurd (status.symm.trans error) ParseStatus.noConfusion,
      fun incomplete => absurd (status.symm.trans incomplete) ParseStatus.noConfusion⟩

/-- How the read loop ends behind some pieces, by what the parser has read until then. -/
structure Concludes (bytes : Bytes) (fed : List Bytes) (ended : ReadEnd) (read : Connection) : Prop where
  follows : Follows (bytes ++ fed.flatten) read
  complete : ended = .complete →
    meaning (16 * 1024) (1024 * 1024) (bytes ++ fed.flatten) = .request read.parser.parsedRequest
  refused : ended = .refused → meaning (16 * 1024) (1024 * 1024) (bytes ++ fed.flatten) = .rejected
  waiting : ended ≠ .complete → ended ≠ .refused →
    fed = [] ∨ meaning (16 * 1024) (1024 * 1024) (bytes ++ fed.flatten) = .incomplete

theorem Concludes.silent {bytes : Bytes} {connection read : Connection} {ended : ReadEnd}
    (follows : Follows bytes connection) (inbound : read.inbound = connection.inbound)
    (parser : read.parser = connection.parser) (unread : ended ≠ .complete ∧ ended ≠ .refused) :
    Concludes bytes [] ended read where
  follows := by
    rw [List.flatten_nil, List.append_nil]
    exact ⟨inbound.trans follows.inbound, parser ▸ follows.reads⟩
  complete final := absurd final unread.1
  refused final := absurd final unread.2
  waiting _ _ := .inl rfl

theorem Concludes.cons {bytes piece : Bytes} {fed : List Bytes} {ended : ReadEnd} {read : Connection}
    (concludes : Concludes (bytes ++ piece) fed ended read)
    (unfinished : fed = [] → ended ≠ .complete → ended ≠ .refused →
      meaning (16 * 1024) (1024 * 1024) (bytes ++ piece) = .incomplete) :
    Concludes bytes (piece :: fed) ended read := by
  have whole : bytes ++ (piece :: fed).flatten = bytes ++ piece ++ fed.flatten := by
    rw [List.flatten_cons, List.append_assoc]
  constructor
  · rw [whole]
    exact concludes.follows
  · rw [whole]
    exact concludes.complete
  · rw [whole]
    exact concludes.refused
  · intro running accepted
    right
    rw [whole]
    rcases concludes.waiting running accepted with none | incomplete
    · rw [none, List.flatten_nil, List.append_nil]
      exact unfinished none running accepted
    · exact incomplete

theorem readLoop_concludes (reads : List ReadOutcome) (bytes : Bytes) (connection : Connection)
    (follows : Follows bytes connection) :
    Concludes bytes (pieces reads connection) (readLoop reads connection).1 (readLoop reads connection).2.2 := by
  induction reads generalizing bytes connection with
  | nil => exact .silent follows rfl rfl ⟨ReadEnd.noConfusion, ReadEnd.noConfusion⟩
  | cons outcome rest ih =>
    cases outcome with
    | again => exact .silent follows rfl rfl ⟨ReadEnd.noConfusion, ReadEnd.noConfusion⟩
    | interrupted => exact ih bytes connection follows
    | failed => exact .silent follows rfl rfl ⟨ReadEnd.noConfusion, ReadEnd.noConfusion⟩
    | bytes data =>
      unfold pieces readLoop
      split
      · exact .silent follows rfl rfl ⟨ReadEnd.noConfusion, ReadEnd.noConfusion⟩
      have short : (data.take 1024).length ≤ 1024 := by
        rw [List.length_take]
        exact Nat.min_le_left _ _
      have agrees := feed_agrees connection.parser (data.take 1024) (by decide) (by omega) (by omega) follows.reads
      rw [follows.inbound, List.nil_append]
      cases fed : feed (data.take 1024) connection.parser with
      | mk status parser =>
      rw [fed] at agrees
      have follows' : Follows (bytes ++ data.take 1024) { connection with inbound := [], parser := parser } :=
        ⟨rfl, agrees.1⟩
      have whole : bytes ++ data.take 1024 ++ [].flatten = bytes ++ data.take 1024 := List.append_nil _
      cases status with
      | complete =>
        refine Concludes.cons ⟨?_, fun _ => ?_, ReadEnd.noConfusion, fun running => absurd rfl running⟩
          fun _ running => absurd rfl running
        · rw [whole]
          exact follows'
        · rw [whole]
          exact agrees.request rfl
      | error =>
        refine Concludes.cons ⟨?_, ReadEnd.noConfusion, fun _ => ?_, fun _ accepted => absurd rfl accepted⟩
          fun _ _ accepted => absurd rfl accepted
        · rw [whole]
          exact follows'
        · rw [whole]
          exact (status_meaning agrees).1 rfl
      | incomplete =>
        have quiet : parser.parseError = "" := Http.State.feed_quiet _ fed
        dsimp only
        rw [if_neg (not_not.mpr quiet), if_neg (not_not.mpr quiet)]
        apply Concludes.cons
        · exact ih _ _ follows'
        · exact fun _ _ _ => (status_meaning agrees).2 rfl

def said (task : Task) : Nat × HttpRequest := (task.serial, task.request)

def Effect.isOwn : Effect → Bool
  | .appended _ .badRequest _ | .appended _ .overloaded _ => true
  | _ => false

/-- Nothing was read: the parsers and the tasks are as before, and the loop has answered nothing on its own. -/
structure Deaf (before after : Worker) : Prop where
  connections : ∀ fd connection, after.connections.lookup fd = some connection → ∃ earlier,
    before.connections.lookup fd = some earlier ∧ connection.serial = earlier.serial ∧
      connection.parser = earlier.parser ∧ connection.inbound = earlier.inbound
  accepted : after.accepted = before.accepted
  tasks : after.tasks.map said = before.tasks.map said
  trace : ∃ more, after.trace = before.trace ++ more ∧ ∀ effect ∈ more, Effect.isOwn effect = false

section Deaf

variable {before between after : Worker}

theorem Deaf.trans (first : Deaf before between) (second : Deaf between after) : Deaf before after where
  connections fd connection live := by
    obtain ⟨middle, there, serial, parser, inbound⟩ := second.connections fd connection live
    obtain ⟨earlier, begun, serial', parser', inbound'⟩ := first.connections fd middle there
    exact ⟨earlier, begun, serial.trans serial', parser.trans parser', inbound.trans inbound'⟩
  accepted := second.accepted.trans first.accepted
  tasks := second.tasks.trans first.tasks
  trace := by
    obtain ⟨more, trace, others⟩ := first.trace
    obtain ⟨further, trace', others'⟩ := second.trace
    refine ⟨more ++ further, by rw [trace', trace, List.append_assoc], fun effect member => ?_⟩
    exact (List.mem_append.mp member).elim (others effect) (others' effect)

theorem Deaf.of_same (connections : after.connections = before.connections) (accepted : after.accepted = before.accepted)
    (tasks : after.tasks.map said = before.tasks.map said)
    (trace : after.trace = before.trace ∨ ∃ effect, after.trace = before.trace ++ [effect] ∧ Effect.isOwn effect = false) :
    Deaf before after where
  connections fd connection live := by
    rw [connections] at live
    exact ⟨connection, live, rfl, rfl, rfl⟩
  accepted := accepted
  tasks := tasks
  trace := by
    rcases trace with same | ⟨effect, noted, other⟩
    · exact ⟨[], by rw [same, List.append_nil], fun effect none => absurd none List.not_mem_nil⟩
    · exact ⟨[effect], noted, fun found member => by rw [List.mem_singleton.mp member]; exact other⟩

theorem Deaf.refl (worker : Worker) : Deaf worker worker := .of_same rfl rfl rfl (.inl rfl)

theorem deaf_put {fd : Nat} {earlier : Connection} (connection : Connection)
    (live : before.connections.lookup fd = some earlier)
    (same : connection.serial = earlier.serial ∧ connection.parser = earlier.parser ∧
      connection.inbound = earlier.inbound) : Deaf before (before.put fd connection) where
  connections other found there := by
    rcases lookup_insert_cases there with ⟨rfl, rfl⟩ | ⟨_, there⟩
    · exact ⟨earlier, live, same⟩
    · exact ⟨found, there, rfl, rfl, rfl⟩
  accepted := rfl
  tasks := rfl
  trace := ⟨[], (List.append_nil _).symm, fun _ none => absurd none List.not_mem_nil⟩

theorem deaf_emit (worker : Worker) (effect : Effect) (other : Effect.isOwn effect = false) :
    Deaf worker (worker.emit effect) :=
  .of_same rfl rfl rfl (.inr ⟨effect, rfl, other⟩)

theorem deaf_closeClient (worker : Worker) (fd : Nat) : Deaf worker (worker.closeClient fd) where
  connections other found there := ⟨found, lookup_erase_some there, rfl, rfl, rfl⟩
  accepted := rfl
  tasks := rfl
  trace := ⟨[.closed fd], rfl, fun effect member => by rw [List.mem_singleton.mp member]; rfl⟩

end Deaf

theorem watchOrClose_deaf (fd : Nat) (events : Events) (machine : Machine) :
    Deaf machine.worker (watchOrClose fd events machine).2.worker := by
  unfold watchOrClose
  split
  next watched call =>
    have same := (modifyFd_spec _ _ _ _ _ call).1
    rw [if_pos rfl] at same
    dsimp only
    rw [same]
    exact .of_same rfl rfl rfl (.inl rfl)
  next unwatched call =>
    have same := (modifyFd_spec _ _ _ _ _ call).1
    rw [if_neg Bool.false_ne_true] at same
    rw [← same]
    exact deaf_closeClient _ fd

theorem flushClient_deaf (fd : Nat) (machine : Machine) : Deaf machine.worker (flushClient fd machine).2.worker := by
  unfold flushClient
  split
  · exact .refl _
  next connection live =>
  split
  next ended sends left loop =>
  have frame := (sendLoop_spec _ _ _ _ _ loop).1
  have advanced : Deaf machine.worker (machine.worker.advance fd connection left.outboundOffset) := by
    apply (deaf_put { connection with outboundOffset := left.outboundOffset } live ⟨rfl, rfl, rfl⟩).trans
    exact deaf_emit _ _ rfl
  have live' : (machine.worker.advance fd connection left.outboundOffset).connections.lookup fd =
      some { connection with outboundOffset := left.outboundOffset } := lookup_put _ _ _
  cases ended with
  | failed => exact advanced.trans (deaf_closeClient _ fd)
  | blocked =>
    apply advanced.trans
    exact watchOrClose_deaf fd _ ⟨_, _⟩
  | drained =>
    have emptied : Deaf machine.worker ((machine.worker.advance fd connection left.outboundOffset).put fd
        { left with outbound := [], outboundOffset := 0 }) := by
      apply advanced.trans
      apply deaf_put _ live'
      rw [frame]
      exact ⟨rfl, rfl, rfl⟩
    dsimp only
    split
    · exact emptied.trans (deaf_closeClient _ fd)
    · apply emptied.trans
      exact watchOrClose_deaf fd _ ⟨_, _⟩

theorem flushIdle_deaf (fd : Nat) (machine : Machine) : Deaf machine.worker (flushIdle fd machine).worker := by
  unfold flushIdle
  split
  · exact .refl _
  · split
    · exact .refl _
    · exact flushClient_deaf fd machine

theorem settle_deaf (machine : Machine) (fd : Nat) : Deaf machine.worker (settle machine fd).worker := by
  unfold settle
  split
  · exact .refl _
  · split
    · exact .refl _
    · split
      · exact flushClient_deaf fd machine
      · exact deaf_closeClient _ fd

theorem foldl_deaf (fds : List Nat) (machine : Machine) : Deaf machine.worker (fds.foldl settle machine).worker := by
  induction fds generalizing machine with
  | nil => exact .refl _
  | cons fd rest ih => exact (settle_deaf machine fd).trans (ih (settle machine fd))

theorem sweep_deaf (machine : Machine) : Deaf machine.worker (sweep machine).worker := by
  let script := { machine.script with orders := machine.script.orders.tail }
  exact foldl_deaf (fileDescriptors (machine.script.orders.headD []) machine.worker) { machine with script := script }

theorem retire_deaf (listener : Option Nat) (worker : Worker) : Deaf worker (worker.retire listener) := by
  cases listener with
  | none => exact .refl _
  | some fd => exact .of_same rfl rfl rfl (.inr ⟨.closed fd, rfl, rfl⟩)

theorem beginDrain_deaf (listener : Option Nat) (machine : Machine) :
    Deaf machine.worker (beginDrain listener machine).2.worker := by
  unfold beginDrain
  split
  · exact .refl _
  · have flagged : Deaf machine.worker { machine.worker with draining := true, poolStopping := true } :=
      .of_same rfl rfl rfl (.inl rfl)
    apply (flagged.trans (retire_deaf listener _)).trans
    exact sweep_deaf ⟨_, _⟩

theorem noticeShutdown_deaf (machine : Machine) : Deaf machine.worker (noticeShutdown machine).2.worker := by
  unfold noticeShutdown
  split
  · exact beginDrain_deaf _ machine
  · exact .refl _

theorem deliver_deaf (completion : Completion) (machine : Machine) :
    Deaf machine.worker (deliver completion machine).worker := by
  unfold deliver
  split
  · exact .refl _
  next connection live =>
    split
    · dsimp only
      split
      · have appended : Deaf machine.worker (machine.worker.append completion.clientFd (.completion completion.task)
            completion.serializedResponse { connection with requestInFlight := false }) := by
          apply (deaf_put _ live _).trans (deaf_emit _ _ rfl)
          exact ⟨rfl, rfl, rfl⟩
        exact appended.trans (flushClient_deaf _ ⟨_, _⟩)
      · apply (deaf_put { connection with requestInFlight := false } live ⟨rfl, rfl, rfl⟩).trans
        exact deaf_closeClient _ _
    · exact .refl _

theorem applyCompletion_deaf (completion : Completion) (rest : List Completion) (machine : Machine) :
    Deaf machine.worker (applyCompletion completion rest machine).worker := by
  have popped : Deaf machine.worker (machine.worker.pop completion rest) :=
    .of_same rfl rfl rfl (.inr ⟨.processed completion.task, rfl, rfl⟩)
  apply (popped.trans (deliver_deaf completion ⟨_, _⟩)).trans
  exact .of_same rfl rfl rfl (.inl rfl)

theorem finishIteration_deaf (machine : Machine) : Deaf machine.worker (finishIteration machine) := by
  let begun := beginDrain machine.worker.listenerFd machine
  have drained : Deaf machine.worker (if machine.worker.shutdownRequested then
      { begun.2 with worker := { begun.2.worker with listenerFd := begun.1 } } else machine).worker := by
    split
    · exact (beginDrain_deaf _ machine).trans (.of_same rfl rfl rfl (.inl rfl))
    · exact .refl _
  have swept (left : Machine) :
      Deaf left.worker { (if left.worker.draining then sweep left else left).worker with phase := .testing } := by
    split
    · exact (sweep_deaf left).trans (.of_same rfl rfl rfl (.inl rfl))
    · exact .of_same rfl rfl rfl (.inl rfl)
  exact drained.trans (swept _)

theorem exit_deaf (completed : Bool) (worker : Worker) : Deaf worker (worker.exit completed) := by
  have flagged (failed : Bool) : Deaf worker { worker with
      workerFailed := worker.workerFailed || failed
      shutdownRequested := worker.shutdownRequested || failed } := .of_same rfl rfl rfl (.inl rfl)
  have closes (fd : Nat) (open' : Worker) : Deaf open' (open'.close fd) :=
    .of_same rfl rfl rfl (.inr ⟨.closed fd, rfl, rfl⟩)
  unfold Worker.exit
  dsimp only
  split
  · exact ((flagged _).trans (closes _ _)).trans (.of_same rfl rfl rfl (.inl rfl))
  · exact (((flagged _).trans (closes _ _)).trans (closes _ _)).trans (.of_same rfl rfl rfl (.inl rfl))

theorem setTask_deaf {index : Nat} {task : Task} (worker : Worker) (progress : Progress)
    (found : worker.tasks[index]? = some task) : Deaf worker (worker.setTask index task progress) := by
  have same : (worker.tasks.set index { task with progress := progress }).map said = worker.tasks.map said := by
    rw [List.map_set]
    apply List.ext_getElem?
    intro other
    by_cases here : index = other
    · subst here
      rw [List.getElem?_set_self (by simpa using (List.getElem?_eq_some_iff.mp found).1), List.getElem?_map, found]
      rfl
    · rw [List.getElem?_set_ne here]
  exact .of_same rfl rfl same (.inl rfl)

structure Settled (worker : Worker) (serial : Nat) (meaning : Meaning) : Prop where
  rejected : meaning = .rejected → ∃ bytes, .appended serial .badRequest bytes ∈ worker.trace
  request : ∀ request, meaning = .request request →
    serial ∈ (worker.tasks.map said).map Prod.fst ∨ ∃ bytes, .appended serial .overloaded bytes ∈ worker.trace

structure Faithful (record : List (Nat × Bytes)) (worker : Worker) : Prop where
  follows : ∀ fd connection, worker.connections.lookup fd = some connection →
    Follows (stream connection.serial record) connection
  settled : ∀ fd connection, worker.connections.lookup fd = some connection →
    Settled worker connection.serial (meant connection.serial record)
  upcoming : ∀ serial, worker.accepted ≤ serial → stream serial record = []
  submitted : ∀ task ∈ worker.tasks.map said, meant task.1 record = .request task.2
  refused : ∀ serial bytes, .appended serial .badRequest bytes ∈ worker.trace →
    bytes = badRequest.toString ∧ meant serial record = .rejected
  overloaded : ∀ serial bytes, .appended serial .overloaded bytes ∈ worker.trace →
    bytes = EventLoop.overloaded.toString ∧ ∃ request, meant serial record = .request request

theorem Settled.mono {before after : Worker} {serial : Nat} {meaning : Meaning} (settled : Settled before serial meaning)
    (tasks : ∃ more, after.tasks.map said = before.tasks.map said ++ more)
    (trace : ∃ more, after.trace = before.trace ++ more) : Settled after serial meaning := by
  obtain ⟨new, tasks⟩ := tasks
  obtain ⟨more, trace⟩ := trace
  constructor
  · intro rejected
    obtain ⟨bytes, noted⟩ := settled.rejected rejected
    exact ⟨bytes, trace ▸ List.mem_append_left _ noted⟩
  · intro request requested
    rw [tasks, trace, List.map_append]
    rcases settled.request request requested with submitted | ⟨bytes, noted⟩
    · exact .inl (List.mem_append_left _ submitted)
    · exact .inr ⟨bytes, List.mem_append_left _ noted⟩

theorem Faithful.deaf {record : List (Nat × Bytes)} {before after : Worker} (faithful : Faithful record before)
    (deaf : Deaf before after) : Faithful record after := by
  obtain ⟨more, trace, others⟩ := deaf.trace
  -- an answer of the loop's own was there before
  have earlier (effect : Effect) (own : Effect.isOwn effect = true) (noted : effect ∈ after.trace) :
      effect ∈ before.trace := by
    rw [trace] at noted
    rcases List.mem_append.mp noted with old | new
    · exact old
    · exact absurd own (by rw [others effect new]; exact Bool.false_ne_true)
  constructor
  · intro fd connection live
    obtain ⟨before, there, serial, parser, inbound⟩ := deaf.connections fd connection live
    obtain ⟨empty, reads⟩ := faithful.follows fd before there
    rw [serial]
    exact ⟨inbound.trans empty, parser ▸ reads⟩
  · intro fd connection live
    obtain ⟨before, there, serial, _⟩ := deaf.connections fd connection live
    rw [serial]
    exact (faithful.settled fd before there).mono ⟨[], by rw [deaf.tasks, List.append_nil]⟩ ⟨more, trace⟩
  · rw [deaf.accepted]
    exact faithful.upcoming
  · rw [deaf.tasks]
    exact faithful.submitted
  · exact fun serial bytes noted => faithful.refused serial bytes (earlier _ rfl noted)
  · exact fun serial bytes noted => faithful.overloaded serial bytes (earlier _ rfl noted)

def Effect.Fits (serial : Nat) (meaning : Meaning) : Effect → Prop
  | .appended other .badRequest bytes => other = serial ∧ bytes = badRequest.toString ∧ meaning = .rejected
  | .appended other .overloaded bytes =>
    other = serial ∧ bytes = overloaded.toString ∧ ∃ request, meaning = .request request
  | _ => True

/-- A connection is read: it goes on as its bytes say or is gone, and nothing happens to the others. -/
theorem Faithful.hear {record : List (Nat × Bytes)} {before after : Worker} {fd : Nat} {connection : Connection}
    (read : List Bytes) (new : List (Nat × HttpRequest)) (more : List Effect) (faithful : Faithful record before)
    (identified : Identified before) (live : before.connections.lookup fd = some connection)
    (others : ∀ other, other ≠ fd → after.connections.lookup other = before.connections.lookup other)
    (own : ∀ found, after.connections.lookup fd = some found → found.serial = connection.serial ∧
      Follows (stream connection.serial record ++ read.flatten) found ∧
      Settled after connection.serial (meant connection.serial (record ++ read.map (connection.serial, ·))))
    (accepted : after.accepted = before.accepted) (tasks : after.tasks.map said = before.tasks.map said ++ new)
    (trace : after.trace = before.trace ++ more)
    (submitted : ∀ task ∈ new, meant task.1 (record ++ read.map (connection.serial, ·)) = .request task.2)
    (fits : ∀ effect ∈ more, Effect.Fits connection.serial
      (meant connection.serial (record ++ read.map (connection.serial, ·))) effect) :
    Faithful (record ++ read.map (connection.serial, ·)) after := by
  have same (serial : Nat) (different : serial ≠ connection.serial) :
      stream serial (record ++ read.map (connection.serial, ·)) = stream serial record := by
    rw [stream_append, stream_other different, List.append_nil]
  have unmoved (serial : Nat) (different : serial ≠ connection.serial) :
      meant serial (record ++ read.map (connection.serial, ·)) = meant serial record := by
    rw [meant, same serial different]
    rfl
  have final (serial : Nat) (decided : meant serial record ≠ .incomplete) :
      meant serial (record ++ read.map (connection.serial, ·)) = meant serial record := meant_append serial _ _ decided
  have elsewhere (other : Nat) (found : Connection) (different : other ≠ fd)
      (there : before.connections.lookup other = some found) : found.serial ≠ connection.serial := fun twin =>
    different (identified.distinct other fd found connection there live twin)
  constructor
  · intro other found there
    by_cases here : other = fd
    · rw [here] at there
      obtain ⟨serial, follows, _⟩ := own found there
      rw [serial, stream_append, stream_own]
      exact follows
    · rw [others other here] at there
      rw [same _ (elsewhere other found here there)]
      exact faithful.follows other found there
  · intro other found there
    by_cases here : other = fd
    · rw [here] at there
      obtain ⟨serial, _, settled⟩ := own found there
      rw [serial]
      exact settled
    · rw [others other here] at there
      rw [unmoved _ (elsewhere other found here there)]
      exact (faithful.settled other found there).mono ⟨new, tasks⟩ ⟨more, trace⟩
  · intro serial future
    rw [accepted] at future
    have known := identified.known fd connection live
    rw [same serial (by omega)]
    exact faithful.upcoming serial future
  · rw [tasks]
    intro task member
    rcases List.mem_append.mp member with old | late
    · have known := faithful.submitted task old
      rw [final task.1 (by rw [known]; exact Meaning.noConfusion), known]
    · exact submitted task late
  · intro serial bytes noted
    rw [trace] at noted
    rcases List.mem_append.mp noted with old | late
    · obtain ⟨same, known⟩ := faithful.refused serial bytes old
      exact ⟨same, (final serial (by rw [known]; exact Meaning.noConfusion)).trans known⟩
    · obtain ⟨rfl, rejected⟩ := fits _ late
      exact rejected
  · intro serial bytes noted
    rw [trace] at noted
    rcases List.mem_append.mp noted with old | late
    · obtain ⟨same, request, known⟩ := faithful.overloaded serial bytes old
      exact ⟨same, request, (final serial (by rw [known]; exact Meaning.noConfusion)).trans known⟩
    · obtain ⟨rfl, requested⟩ := fits _ late
      exact requested

section Reading

variable {record : List (Nat × Bytes)} {worker : Worker} {fd : Nat} {connection got : Connection} {fed : List Bytes}

theorem meant_heard (serial : Nat) (record : List (Nat × Bytes)) (fed : List Bytes) :
    meant serial (record ++ fed.map (serial, ·)) =
      meaning (16 * 1024) (1024 * 1024) (stream serial record ++ fed.flatten) := by
  rw [meant, stream_append, stream_own]

theorem Faithful.lose {between : Worker} (faithful : Faithful record worker) (identified : Identified worker)
    (live : worker.connections.lookup fd = some connection)
    (connections : between.connections = worker.connections.insert fd got)
    (accepted : between.accepted = worker.accepted) (tasks : between.tasks = worker.tasks)
    (trace : between.trace = worker.trace) :
    Faithful (record ++ fed.map (connection.serial, ·)) (between.closeClient fd) := by
  apply faithful.hear fed [] [.closed fd] identified live
  · intro other different
    calc
      (between.closeClient fd).connections.lookup other = between.connections.lookup other :=
        AList.lookup_erase_ne different
      _ = worker.connections.lookup other := by rw [connections, AList.lookup_insert_ne different]
  · intro found there
    rw [lookup_closeClient] at there
    exact absurd there (Option.some_ne_none found).symm
  · exact accepted
  · rw [List.append_nil]
    exact congrArg (List.map said) tasks
  · exact congrArg (· ++ [Effect.closed fd]) trace
  · exact fun task none => absurd none List.not_mem_nil
  · intro effect member
    rw [List.mem_singleton.mp member]
    trivial

theorem refuse_faithful (faithful : Faithful record worker) (identified : Identified worker)
    (live : worker.connections.lookup fd = some connection) (serial : got.serial = connection.serial)
    (concludes : Concludes (stream connection.serial record) fed .refused got) (script : Script) :
    Faithful (record ++ fed.map (connection.serial, ·)) (refuse fd got ⟨worker.put fd got, script⟩).worker := by
  have rejected : meant connection.serial (record ++ fed.map (connection.serial, ·)) = .rejected :=
    (meant_heard _ _ _).trans (concludes.refused rfl)
  unfold refuse
  dsimp only
  split
  · exact faithful.lose identified live rfl rfl rfl rfl
  · apply Faithful.deaf _ (flushIdle_deaf fd ⟨_, _⟩)
    apply faithful.hear fed [] [.appended got.serial .badRequest badRequest.toString] identified live
    · intro other different
      exact (AList.lookup_insert_ne different).trans (AList.lookup_insert_ne different)
    · intro found there
      rw [← Option.some.inj ((lookup_put _ _ _).symm.trans there), rejected]
      refine ⟨serial, ⟨concludes.follows.inbound, concludes.follows.reads⟩, fun _ => ⟨badRequest.toString, ?_⟩,
        fun request => Meaning.noConfusion⟩
      rw [← serial]
      exact List.mem_append_right _ List.mem_cons_self
    · rfl
    · exact (List.append_nil _).symm
    · rfl
    · exact fun task none => absurd none List.not_mem_nil
    · intro effect member
      rw [List.mem_singleton.mp member]
      exact ⟨serial, rfl, rejected⟩

theorem dispatch_faithful (faithful : Faithful record worker) (identified : Identified worker)
    (live : worker.connections.lookup fd = some connection) (serial : got.serial = connection.serial)
    (concludes : Concludes (stream connection.serial record) fed .complete got) (script : Script) :
    Faithful (record ++ fed.map (connection.serial, ·)) (dispatch fd got ⟨worker.put fd got, script⟩).worker := by
  have known : meant connection.serial (record ++ fed.map (connection.serial, ·)) =
      .request got.parser.parsedRequest := (meant_heard _ _ _).trans (concludes.complete rfl)
  have follows (found : Connection) (inbound : found.inbound = got.inbound) (parser : found.parser = got.parser) :
      Follows (stream connection.serial record ++ fed.flatten) found :=
    ⟨inbound.trans concludes.follows.inbound, parser ▸ concludes.follows.reads⟩
  unfold dispatch
  dsimp only
  split
  next unwatched call =>
    have same : unwatched.worker = requested fd got worker := (modifyFd_spec _ _ _ _ _ call).1
    have lost : Faithful (record ++ fed.map (connection.serial, ·)) ((requested fd got worker).closeClient fd) :=
      faithful.lose identified live (connections_requested fd got worker) rfl rfl rfl
    rw [← same] at lost
    exact lost
  next watched call =>
    have same : watched.worker = (requested fd got worker).watch fd { readHangup := true } :=
      (modifyFd_spec _ _ _ _ _ call).1
    rw [same]
    split
    · apply Faithful.deaf _ (flushIdle_deaf fd ⟨_, _⟩)
      have tasks : ((((requested fd got worker).watch fd { readHangup := true }).submit fd
          { got with requestInFlight := true }).tasks).map said =
            worker.tasks.map said ++ [(got.serial, got.parser.parsedRequest)] := List.map_append
      apply faithful.hear fed [(got.serial, got.parser.parsedRequest)] [.submitted got.serial worker.tasks.length]
        identified live
      · intro other different
        exact (AList.lookup_insert_ne different).trans (AList.lookup_insert_ne different)
      · intro found there
        rw [← Option.some.inj ((lookup_put _ _ _).symm.trans there), known]
        refine ⟨serial, follows _ rfl rfl, Meaning.noConfusion, fun _ _ => .inl ?_⟩
        rw [tasks, List.map_append, ← serial]
        exact List.mem_append_right _ List.mem_cons_self
      · rfl
      · exact tasks
      · rfl
      · intro task member
        rw [List.mem_singleton.mp member, serial]
        exact known
      · intro effect member
        rw [List.mem_singleton.mp member]
        trivial
    · apply Faithful.deaf _ ((flushClient_deaf fd ⟨_, _⟩).trans (flushIdle_deaf fd _))
      apply faithful.hear fed [] [.appended got.serial .overloaded overloaded.toString] identified live
      · intro other different
        exact (congrArg (AList.lookup other) (connections_overload fd got worker)).trans
          (AList.lookup_insert_ne different)
      · intro found there
        rw [← Option.some.inj ((AList.lookup_insert _).symm.trans there), known]
        refine ⟨serial, follows _ rfl rfl, Meaning.noConfusion, fun _ _ => .inr ⟨overloaded.toString, ?_⟩⟩
        rw [← serial]
        exact List.mem_append_right _ List.mem_cons_self
      · rfl
      · exact (List.append_nil _).symm
      · rfl
      · exact fun task none => absurd none List.not_mem_nil
      · intro effect member
        rw [List.mem_singleton.mp member]
        exact ⟨serial, rfl, _, known⟩

/-- However a connection is read, what is done with it is what its bytes say. -/
theorem handleClient_faithful {machine : Machine} (faithful : Faithful record machine.worker)
    (identified : Identified machine.worker) :
    Faithful (record ++ hearsClient fd machine) (handleClient fd machine).worker := by
  unfold hearsClient handleClient
  cases live : machine.worker.connections.lookup fd with
  | none =>
    rw [List.append_nil]
    exact faithful
  | some connection =>
  have concludes := readLoop_concludes machine.script.reads _ connection (faithful.follows fd connection live)
  cases loop : readLoop machine.script.reads connection with
  | mk ended others =>
  obtain ⟨reads, got⟩ := others
  have serial : got.serial = connection.serial := by
    rw [(readLoop_spec _ _ _ _ _ loop).1]
  rw [loop] at concludes
  dsimp only
  rw [loop]
  have idle (running : ended ≠ .complete) (accepted : ended ≠ .refused) :
      Faithful (record ++ (pieces machine.script.reads connection).map (connection.serial, ·)) (machine.worker.put fd got) := by
    apply faithful.hear _ [] [] identified live
    · exact fun other different => AList.lookup_insert_ne different
    · intro found there
      rw [← Option.some.inj ((lookup_put _ _ _).symm.trans there)]
      refine ⟨serial, concludes.follows, ?_⟩
      rcases concludes.waiting running accepted with none | incomplete
      · rw [none, List.map_nil, List.append_nil]
        exact (faithful.settled fd connection live).mono ⟨[], (List.append_nil _).symm⟩ ⟨[], (List.append_nil _).symm⟩
      · rw [meant_heard, incomplete]
        exact ⟨Meaning.noConfusion, fun _ => Meaning.noConfusion⟩
    · rfl
    · exact (List.append_nil _).symm
    · exact (List.append_nil _).symm
    · exact fun task none => absurd none List.not_mem_nil
    · exact fun effect none => absurd none List.not_mem_nil
  have lost : Faithful (record ++ (pieces machine.script.reads connection).map (connection.serial, ·))
      ((machine.worker.put fd got).closeClient fd) := faithful.lose identified live rfl rfl rfl rfl
  cases ended with
  | failed => exact lost
  | complained => exact lost
  | refused => exact refuse_faithful faithful identified live serial concludes _
  | complete => exact dispatch_faithful faithful identified live serial concludes _
  | blocked => exact (idle ReadEnd.noConfusion ReadEnd.noConfusion).deaf (flushIdle_deaf fd ⟨_, _⟩)
  | peerClosed => exact (idle ReadEnd.noConfusion ReadEnd.noConfusion).deaf (flushIdle_deaf fd ⟨_, _⟩)

end Reading

theorem meant_empty {serial : Nat} {record : List (Nat × Bytes)} (silent : stream serial record = []) :
    meant serial record = .incomplete := by
  unfold meant
  rw [silent]
  exact (status_meaning (fresh_agrees (16 * 1024) (1024 * 1024))).2 rfl

theorem Faithful.connect {record : List (Nat × Bytes)} {worker : Worker} (faithful : Faithful record worker) (fd : Nat)
    (clientIp : Bytes) : Faithful record (worker.connect fd clientIp) := by
  have old (serial : Nat) (origin : Origin) (bytes : Bytes)
      (noted : .appended serial origin bytes ∈ (worker.connect fd clientIp).trace) :
      .appended serial origin bytes ∈ worker.trace := by
    rcases List.mem_append.mp noted with old | new
    · exact old
    · exact absurd (List.mem_singleton.mp new) Effect.noConfusion
  constructor
  · intro other connection found
    rcases lookup_connect worker fd other clientIp connection found with ⟨_, fresh, serial, _⟩ | ⟨_, there⟩
    · rw [faithful.upcoming connection.serial serial.ge]
      exact ⟨congrArg Connection.inbound fresh, congrArg Connection.parser fresh ▸ (fresh_agrees _ _).1⟩
    · exact faithful.follows other connection there
  · intro other connection found
    rcases lookup_connect worker fd other clientIp connection found with ⟨_, _, serial, _⟩ | ⟨_, there⟩
    · rw [meant_empty (faithful.upcoming connection.serial serial.ge)]
      exact ⟨Meaning.noConfusion, fun _ => Meaning.noConfusion⟩
    · exact (faithful.settled other connection there).mono ⟨[], (List.append_nil _).symm⟩ ⟨_, rfl⟩
  · exact fun serial future => faithful.upcoming serial (Nat.le_of_succ_le future)
  · exact faithful.submitted
  · exact fun serial bytes noted => faithful.refused serial bytes (old serial _ bytes noted)
  · exact fun serial bytes noted => faithful.overloaded serial bytes (old serial _ bytes noted)

theorem acceptClients_faithful {record : List (Nat × Bytes)} (outcomes : List AcceptOutcome) {worker : Worker}
    (faithful : Faithful record worker) : Faithful record (acceptClients outcomes worker).2 := by
  induction outcomes generalizing worker with
  | nil => exact faithful
  | cons outcome rest ih =>
    have away (fd : Nat) : Faithful record (worker.turnAway fd) := by
      have opened : Deaf worker (Worker.emit (.accepted fd none) { worker with opened := fd :: worker.opened }) :=
        .of_same rfl rfl rfl (.inr ⟨_, rfl, rfl⟩)
      exact faithful.deaf (opened.trans (.of_same rfl rfl rfl (.inr ⟨.closed fd, rfl, rfl⟩)))
    unfold acceptClients
    split
    · exact faithful
    cases outcome with
    | again => exact faithful
    | failed => exact faithful
    | interrupted => exact ih faithful
    | client fd address nonblocking registered =>
      dsimp only
      split
      · exact faithful
      cases address with
      | none => exact ih (away fd)
      | some clientIp =>
        dsimp only
        split
        · exact ih (faithful.connect fd clientIp)
        · exact ih (away fd)

theorem handleListener_faithful {record : List (Nat × Bytes)} {machine : Machine} (events : Events)
    (faithful : Faithful record machine.worker) : Faithful record (handleListener events machine).worker := by
  unfold handleListener
  split
  · exact faithful
  · split
    · exact faithful.deaf (.of_same rfl rfl rfl (.inl rfl))
    · split
      · exact acceptClients_faithful _ faithful
      · exact faithful

theorem handleReady_faithful {record : List (Nat × Bytes)} {fd : Nat} {machine : Machine} (events : Events)
    (faithful : Faithful record machine.worker) (identified : Identified machine.worker) :
    Faithful (record ++ hearsReady fd events machine) (handleReady fd events machine).worker := by
  unfold hearsReady handleReady
  split
  · rw [List.append_nil]
    exact faithful.deaf (deaf_closeClient _ fd)
  have heard : Faithful (record ++ if events.input then hearsClient fd machine else [])
      (if events.input then handleClient fd machine else machine).worker := by
    split
    · exact handleClient_faithful faithful identified
    · rw [List.append_nil]
      exact faithful
  generalize (if events.input then handleClient fd machine else machine) = read at heard ⊢
  apply heard.deaf
  dsimp only
  split
  · exact .refl _
  next connection live =>
    have hung : Deaf read.worker (if events.readHangup then
        { read with worker := read.worker.put fd { connection with peerClosed := true } } else read).worker := by
      split
      · exact deaf_put _ live ⟨rfl, rfl, rfl⟩
      · exact .refl _
    generalize (if events.readHangup then
      { read with worker := read.worker.put fd { connection with peerClosed := true } } else read) = hung' at hung ⊢
    have flushed : Deaf hung'.worker (if events.output then (flushClient fd hung').2 else hung').worker := by
      split
      · exact flushClient_deaf fd hung'
      · exact .refl _
    apply (hung.trans flushed).trans
    generalize (if events.output then (flushClient fd hung').2 else hung') = left
    split
    · exact .refl _
    · split
      · exact deaf_closeClient _ fd
      · exact .refl _

theorem handleEvent_faithful {record : List (Nat × Bytes)} (ready : Ready) (rest : List Ready) (machine : Machine)
    (faithful : Faithful record machine.worker) (identified : Identified machine.worker) :
    Faithful (record ++ hearsEvent ready machine) (handleEvent ready rest machine) := by
  have noticed := faithful.deaf (noticeShutdown_deaf machine)
  have known : Identified (noticeShutdown machine).2.worker := by
    have chain := (noticeShutdown_chain { notice := .event } machine fun _ _ => by decide).1
    exact chain.preserves Identified (fun _ _ => action_identified) identified
  unfold hearsEvent handleEvent
  cases call : noticeShutdown machine with
  | mk listener found =>
  rw [call] at noticed known
  dsimp only at noticed known ⊢
  by_cases completed : ready.fd = found.worker.completionFd
  · rw [if_pos completed, if_pos completed, List.append_nil]
    exact noticed.deaf (.of_same rfl rfl rfl (.inl rfl))
  rw [if_neg completed, if_neg completed]
  by_cases listening : listener = some ready.fd
  · rw [if_pos listening, if_pos listening, List.append_nil]
    exact (handleListener_faithful ready.events noticed).deaf (.of_same rfl rfl rfl (.inl rfl))
  rw [if_neg listening, if_neg listening]
  by_cases present : (found.worker.connections.lookup ready.fd).isSome = true
  · rw [if_pos present, if_pos present]
    exact (handleReady_faithful ready.events noticed known).deaf (.of_same rfl rfl rfl (.inl rfl))
  · rw [if_neg present, if_neg present, List.append_nil]
    exact noticed.deaf (.of_same rfl rfl rfl (.inl rfl))

/-- What a step other than `handle` does is deaf. -/
theorem step_faithful {record : List (Nat × Bytes)} {worker : Worker} (label : Label)
    (faithful : Faithful record worker) (identified : Identified worker) :
    Faithful (record ++ hears worker label) (step worker label) := by
  have silent {after : Worker} (deaf : Deaf worker after) : Faithful (record ++ []) after := by
    rw [List.append_nil]
    exact faithful.deaf deaf
  cases label with
  | requestShutdown => exact silent (.of_same rfl rfl rfl (.inl rfl))
  | test =>
    apply silent
    simp only [step]
    split
    · split
      · exact exit_deaf true worker
      · exact .of_same rfl rfl rfl (.inl rfl)
    · exact .refl _
  | wait outcome =>
    apply silent
    simp only [step]
    split
    · cases outcome with
      | ready batch =>
        dsimp only
        split
        · exact .of_same rfl rfl rfl (.inl rfl)
        · exact .refl _
      | interrupted => exact .of_same rfl rfl rfl (.inl rfl)
      | failed => exact exit_deaf false worker
    · exact .refl _
  | handle script =>
    cases handled : worker.phase with
    | handling batch =>
      cases batch with
      | nil =>
        simp only [hears, step, handled]
        exact silent (.refl _)
      | cons ready rest =>
        simp only [hears, step, handled]
        exact handleEvent_faithful ready rest ⟨worker, script⟩ faithful identified
    | _ =>
      simp only [hears, step, handled]
      exact silent (.refl _)
  | iterate =>
    apply silent
    simp only [step]
    split
    · exact .of_same rfl rfl rfl (.inl rfl)
    · exact .refl _
  | collect =>
    apply silent
    simp only [step]
    split
    · exact .of_same rfl rfl rfl (.inl rfl)
    · exact .refl _
  | apply script =>
    apply silent
    simp only [step]
    split
    · split
      · exact .of_same rfl rfl rfl (.inl rfl)
      · exact applyCompletion_deaf _ _ ⟨worker, script⟩
    · exact .refl _
  | finish script =>
    apply silent
    simp only [step]
    split
    · exact finishIteration_deaf ⟨worker, script⟩
    · exact .refl _
  | runHandler index outcome =>
    apply silent
    simp only [step, Worker.runHandler]
    split
    next task found =>
      split
      · exact setTask_deaf worker _ found
      · exact .refl _
    next => exact .refl _
  | push index =>
    apply silent
    simp only [step, Worker.pushCompletion]
    split
    next task found =>
      split
      · exact (setTask_deaf worker _ found).trans (.of_same rfl rfl rfl (.inl rfl))
      · exact .refl _
    next => exact .refl _
  | notify index =>
    apply silent
    simp only [step, Worker.notify]
    split
    next task found =>
      split
      · exact (setTask_deaf worker _ found).trans (.of_same rfl rfl rfl (.inl rfl))
      · exact .refl _
    next => exact .refl _

theorem run_faithful (labels : List Label) {record : List (Nat × Bytes)} {worker : Worker}
    (faithful : Faithful record worker) (identified : Identified worker) :
    Faithful (record ++ heard worker labels) (run step worker labels) := by
  induction labels generalizing record worker with
  | nil =>
    rw [heard, List.append_nil]
    exact faithful
  | cons label rest ih =>
    rw [heard, ← List.append_assoc, run_cons]
    apply ih (step_faithful label faithful identified)
    exact transition_identified (any_transition worker label) identified

theorem start_faithful (workerId listenerFd completionFd : Nat) : Faithful [] (start workerId listenerFd completionFd) where
  follows _ _ live := absurd live (Option.some_ne_none _).symm
  settled _ _ live := absurd live (Option.some_ne_none _).symm
  upcoming _ _ := rfl
  submitted _ none := absurd none List.not_mem_nil
  refused _ _ none := absurd none List.not_mem_nil
  overloaded _ _ none := absurd none List.not_mem_nil

/-- In every run each task carries the request that the bytes read from its connection begin with, and the
loop answers on its own only what is no request (400) or what is one (503). A connection that is still
there was dealt with as soon as its bytes were complete. -/
theorem requests_heard (workerId listenerFd completionFd : Nat) (labels : List Label) :
    let begun := start workerId listenerFd completionFd
    let worker := run step begun labels
    let record := heard begun labels
    (∀ task ∈ worker.tasks, meant task.serial record = .request task.request) ∧
      (∀ serial bytes, .appended serial .badRequest bytes ∈ worker.trace →
        bytes = badRequest.toString ∧ meant serial record = .rejected) ∧
      (∀ serial bytes, .appended serial .overloaded bytes ∈ worker.trace →
        bytes = overloaded.toString ∧ ∃ request, meant serial record = .request request) ∧
      ∀ fd connection, worker.connections.lookup fd = some connection →
        (meant connection.serial record = .rejected →
          ∃ bytes, .appended connection.serial .badRequest bytes ∈ worker.trace) ∧
        ∀ request, meant connection.serial record = .request request →
          (∃ task ∈ worker.tasks, task.serial = connection.serial) ∨
            ∃ bytes, .appended connection.serial .overloaded bytes ∈ worker.trace := by
  intro begun worker record
  have faithful : Faithful record worker := run_faithful labels
    (start_faithful workerId listenerFd completionFd) (start_identified workerId listenerFd completionFd)
  refine ⟨?_, faithful.refused, faithful.overloaded, ?_⟩
  · exact fun task member => faithful.submitted (said task) (List.mem_map_of_mem member)
  · intro fd connection live
    refine ⟨(faithful.settled fd connection live).rejected, fun request requested => ?_⟩
    rcases (faithful.settled fd connection live).request request requested with submitted | overloaded
    · left
      rw [List.map_map] at submitted
      exact List.mem_map.mp submitted
    · exact .inr overloaded

/-- The byte behind the request is read too. -/
example : stream 0 (heard (start 0 5 6) (Dispatch.slowReader ++ Dispatch.lateByte)) = Dispatch.request ++ text "x" := by
  decide +kernel

end FleetGateway.Network.Hearing
