import FleetGateway.Network.Lifetime

/-! The outbound buffers. A response is appended only if it fits under the limit with what is
still to be sent, but for the one that says that the pool is full. -/

namespace FleetGateway.Network.Outbound
open Library Library.ByteStore Library.Run Http.Parser Http.Response Monitoring.Counters EventLoop Actions Transitions
open Identity Dispatch Lifetime

structure Within (connection : Connection) : Prop where
  offset : connection.outboundOffset ≤ connection.outbound.length
  pending : connection.pendingBytes ≤ maxOutboundBytes

def Bounded (worker : Worker) : Prop :=
  ∀ fd connection, worker.connections.lookup fd = some connection → Within connection

section Bounded

variable {before after : Worker}

theorem Bounded.same (bounded : Bounded before) (same : after.connections = before.connections) : Bounded after := by
  unfold Bounded
  rw [same]
  exact bounded

theorem Bounded.insert (bounded : Bounded before) (fd : Nat) (connection : Connection)
    (inserted : after.connections = before.connections.insert fd connection) (within : Within connection) :
    Bounded after := by
  intro other found present
  rw [inserted] at present
  rcases lookup_insert_cases present with ⟨rfl, rfl⟩ | ⟨here, present⟩
  · exact within
  · exact bounded other found present

theorem Bounded.erase (bounded : Bounded before) (fd : Nat)
    (erased : after.connections = before.connections.erase fd) : Bounded after := by
  intro other found present
  rw [erased] at present
  exact bounded other found (lookup_erase_some present)

end Bounded

theorem hears_buffer {context : Context} {worker : Worker} {fd : Nat} {connection read : Connection} {ended : ReadEnd}
    (hears : context.Hears worker fd connection read ended) :
    read.outbound = connection.outbound ∧ read.outboundOffset = connection.outboundOffset := by
  obtain ⟨reads, rest, loop, _⟩ := hears.heard
  have frame := (readLoop_spec reads rest connection read ended loop).1
  have outbound := congrArg Connection.outbound frame
  have offset := congrArg Connection.outboundOffset frame
  exact ⟨outbound, offset⟩

theorem Within.read {context : Context} {worker : Worker} {fd : Nat} {connection read : Connection} {ended : ReadEnd}
    (within : Within connection) (hears : context.Hears worker fd connection read ended) : Within read := by
  obtain ⟨outbound, offset⟩ := hears_buffer hears
  obtain ⟨inside, pending⟩ := within
  unfold Connection.pendingBytes at pending
  exact ⟨by rw [outbound, offset]; exact inside, by unfold Connection.pendingBytes; rw [outbound, offset]; exact pending⟩

theorem Within.answered {connection : Connection} (within : Within connection) (response : Bytes)
    (fits : connection.pendingBytes + response.length ≤ maxOutboundBytes) : Within (connection.answered response) := by
  obtain ⟨offset, _⟩ := within
  unfold Connection.pendingBytes at fits
  constructor
  · simp only [Connection.answered, List.length_append]
    omega
  · simp only [Connection.pendingBytes, Connection.answered, List.length_append]
    omega

theorem Within.advance {connection : Connection} (within : Within connection) (offset : Nat)
    (onward : connection.outboundOffset ≤ offset)
    (sent : offset - connection.outboundOffset ≤ connection.pendingBytes) :
    Within { connection with outboundOffset := offset } := by
  obtain ⟨inside, pending⟩ := within
  unfold Connection.pendingBytes at sent pending
  constructor
  · dsimp only
    omega
  · simp only [Connection.pendingBytes]
    omega

theorem action_bounded {context : Context} {before after : Worker} (action : Action context before after)
    (roomy : context.permits.crowded = false) (bounded : Bounded before) : Bounded after := by
  cases action with
  | close fd connection live => exact bounded.erase fd rfl
  | connect fd clientIp unused running => exact bounded.insert fd _ rfl ⟨Nat.zero_le _, Nat.zero_le _⟩
  | advance fd connection offset reaches onward within =>
    exact bounded.insert fd _ rfl ((bounded fd connection reaches.live).advance offset onward within)
  | rewind fd connection reaches done => exact bounded.insert fd _ rfl ⟨Nat.zero_le _, Nat.zero_le _⟩
  | hangUp fd connection reaches =>
    obtain ⟨offset, pending⟩ := bounded fd connection reaches.live
    exact bounded.insert fd _ rfl ⟨offset, pending⟩
  | read fd connection read ended hears =>
    exact bounded.insert fd _ rfl ((bounded fd connection hears.reaches.live).read hears)
  | refuse fd connection read hears fits =>
    have within := (bounded fd connection hears.reaches.live).read hears
    exact bounded.insert fd _ (AList.insert_insert _) (within.answered _ fits)
  | request fd connection read hears lost =>
    obtain ⟨offset, pending⟩ := (bounded fd connection hears.reaches.live).read hears
    exact bounded.insert fd _ (connections_requested _ _ _) ⟨offset, pending⟩
  | dispatch fd connection read hears running =>
    obtain ⟨offset, pending⟩ := (bounded fd connection hears.reaches.live).read hears
    exact bounded.insert fd _ (connections_requested _ _ _) ⟨offset, pending⟩
  | overload fd connection read hears fits =>
    obtain ⟨offset, pending⟩ := (bounded fd connection hears.reaches.live).read hears
    have released : Within { read with requestInFlight := false } := ⟨offset, pending⟩
    rcases fits with crowded | fits
    · cases roomy.symm.trans crowded
    · exact bounded.insert fd _ (connections_overload _ _ _) (released.answered _ fits)
  | release fd connection live inFlight =>
    obtain ⟨offset, pending⟩ := bounded fd connection live
    exact bounded.insert fd _ rfl ⟨offset, pending⟩
  | answer completion connection popped live same inFlight fits =>
    obtain ⟨offset, pending⟩ := bounded _ connection live
    have landed : Within { connection with requestInFlight := false } := ⟨offset, pending⟩
    exact bounded.insert _ _ rfl (landed.answered _ fits)
  | drain noticed asked running => exact bounded.same (connections_retire _ _)
  | _ => exact bounded.same rfl

theorem transition_bounded {label : Label} {before after : Worker}
    (transition : Transition { crowded := false } label before after) (bounded : Bounded before) : Bounded after := by
  obtain ⟨first, last, quiet, moves, quiet'⟩ := transition.loop
  have ended := moves.preserves Bounded (fun _ _ _ permits action => action_bounded action (by rw [permits]))
    (bounded.same quiet.connections)
  exact ended.same quiet'.connections

/-- As long as every request that the pool turns away finds room for the response that says so,
no connection has more than the limit to send. -/
theorem outbound_bounded (workerId listenerFd completionFd : Nat) (labels : List Label)
    (roomy : Along step (OnHandle Roomy) (start workerId listenerFd completionFd) labels) (fd : Nat)
    (connection : Connection)
    (live : (run step (start workerId listenerFd completionFd) labels).connections.lookup fd = some connection) :
    connection.outboundOffset ≤ connection.outbound.length ∧ connection.pendingBytes ≤ maxOutboundBytes := by
  have bounded := along_invariant step Bounded (OnHandle Roomy)
    (fun worker label roomy => transition_bounded (step_transition { crowded := false } worker label
      (roomy.imp fun _ _ roomy => ⟨.inl rfl, .inl rfl, .inr roomy⟩)))
    (start workerId listenerFd completionFd) labels roomy nofun
  exact ⟨(bounded fd connection live).offset, (bounded fd connection live).pending⟩

/-! A run in which the limit is passed. Its response is too long to be evaluated, so the run is followed
step by step for a response of any length. -/

def stalled (fd : Nat) (connection : Connection) (worker : Worker) : Worker :=
  (worker.advance fd connection connection.outboundOffset).watch fd { input := true, output := true, readHangup := true }

theorem lookup_stalled (fd : Nat) (connection : Connection) (worker : Worker) :
    (stalled fd connection worker).connections.lookup fd = some connection :=
  lookup_put _ _ _

theorem interest_stalled (fd : Nat) (connection : Connection) (worker : Worker) :
    (stalled fd connection worker).interest.lookup fd = some { input := true, output := true, readHangup := true } :=
  AList.lookup_insert _

section Stalled

variable (fd : Nat) (worker : Worker) (script : Script) (connection : Connection)

theorem flushClient_stalled (live : worker.connections.lookup fd = some connection)
    (pending : connection.pendingBytes ≠ 0) (registered : (worker.interest.lookup fd).isSome = true)
    (sends : script.sends = []) (controls : script.controls = []) :
    (flushClient fd ⟨worker, script⟩).2 = ⟨stalled fd connection worker, script⟩ := by
  have watched : ((worker.advance fd connection connection.outboundOffset).interest.lookup fd).isSome = true :=
    registered
  obtain ⟨reads, _, _, accepts, rooms, orders⟩ := script
  cases sends
  cases controls
  simp [flushClient, live, sendLoop, pending, watchOrClose, modifyFd, watched, stalled]

theorem flushIdle_stalled (live : worker.connections.lookup fd = some connection)
    (idle : connection.requestInFlight = false) (pending : connection.pendingBytes ≠ 0)
    (registered : (worker.interest.lookup fd).isSome = true)
    (sends : script.sends = []) (controls : script.controls = []) :
    flushIdle fd ⟨worker, script⟩ = ⟨stalled fd connection worker, script⟩ := by
  rw [← flushClient_stalled fd worker script connection live pending registered sends controls]
  simp [flushIdle, live, idle]

end Stalled

theorem deliver_stalled (worker : Worker) (completion : Completion) (connection : Connection)
    (live : worker.connections.lookup completion.clientFd = some connection)
    (same : connection.generation = completion.generation) (inFlight : connection.requestInFlight = true)
    (empty : connection.outbound = []) (offset : connection.outboundOffset = 0)
    (registered : (worker.interest.lookup completion.clientFd).isSome = true)
    (response : completion.serializedResponse ≠ [])
    (fits : completion.serializedResponse.length ≤ maxOutboundBytes) :
    deliver completion ⟨worker, {}⟩ =
      ⟨stalled completion.clientFd
        (Connection.answered completion.serializedResponse { connection with requestInFlight := false })
        (worker.append completion.clientFd (.completion completion.task) completion.serializedResponse
          { connection with requestInFlight := false }), {}⟩ := by
  have pending : (Connection.answered completion.serializedResponse
      { connection with requestInFlight := false }).pendingBytes ≠ 0 := by
    simp [Connection.pendingBytes, Connection.answered, empty, offset, response]
  have matching : (decide (connection.generation = completion.generation) && connection.requestInFlight) = true := by
    simp [same, inFlight]
  have room : connection.pendingBytes + completion.serializedResponse.length ≤ maxOutboundBytes := by
    simpa [Connection.pendingBytes, empty] using fits
  simp only [deliver, live, if_pos matching, if_pos room]
  exact flushClient_stalled completion.clientFd (worker.append completion.clientFd (.completion completion.task)
    completion.serializedResponse { connection with requestInFlight := false }) {} _ (lookup_put _ _ _) pending
    registered rfl rfl

structure Scene (fd : Nat) (connection : Connection) (mask : Events) (worker : Worker) : Prop where
  live : worker.connections.lookup fd = some connection
  interest : worker.interest.lookup fd = some mask
  unasked : worker.shutdownRequested = false
  running : worker.draining = false
  client : worker.completionFd ≠ fd ∧ worker.listenerFd ≠ some fd

section Scene

variable {fd : Nat} {connection read : Connection} {mask : Events} {worker : Worker}

theorem Scene.publish (scene : Scene fd connection mask worker) (task : Task) (response : HttpResponse)
    (handled : worker.phase = .handling []) (tasks : worker.tasks = [task]) (queued : task.progress = .queued)
    (none : worker.completions = []) :
    let after := run step worker [.runHandler 0 (some response), .push 0, .iterate, .collect]
    Scene fd connection mask after ∧ after.phase = .applying .iteration ∧
      after.completed = [completionOf 0 task response] := by
  obtain ⟨live, interest, unasked, running, client⟩ := scene
  intro after
  have shape : after = { worker with
      completed := [completionOf 0 task response]
      completions := []
      metrics := (worker.metrics.completionQueueSize worker.workerId 1).completionQueueSize worker.workerId 0
      notifications := 0
      phase := .applying .iteration
      tasks := [{ task with progress := .posted response }] } := by
    simp [after, run, step, Worker.runHandler, Worker.setTask, Worker.pushCompletion, tasks, queued, handled, none,
      completionOf]
  rw [shape]
  exact ⟨⟨live, interest, unasked, running, client⟩, rfl, rfl⟩

theorem Scene.deliver (scene : Scene fd connection mask worker) (completion : Completion)
    (applied : worker.phase = .applying .iteration) (queued : worker.completed = [completion])
    (own : completion.clientFd = fd) (same : connection.generation = completion.generation)
    (inFlight : connection.requestInFlight = true) (empty : connection.outbound = [])
    (offset : connection.outboundOffset = 0) (response : completion.serializedResponse ≠ [])
    (fits : completion.serializedResponse.length ≤ maxOutboundBytes) :
    let after := step worker (.apply {})
    Scene fd (Connection.answered completion.serializedResponse { connection with requestInFlight := false })
        { input := true, output := true, readHangup := true } after ∧
      after.phase = .applying .iteration ∧ after.completed = [] := by
  obtain ⟨live, interest, unasked, running, client⟩ := scene
  subst own
  have registered : (worker.interest.lookup completion.clientFd).isSome = true := by rw [interest]; rfl
  have delivered := deliver_stalled (worker.pop completion []) completion connection live same inFlight empty offset
    registered response fits
  generalize answered : Connection.answered completion.serializedResponse
    { connection with requestInFlight := false } = waiting at delivered
  generalize appended : (worker.pop completion []).append completion.clientFd _ _ _ = filled at delivered
  have kept : filled.shutdownRequested = false ∧ filled.draining = false ∧
      (filled.completionFd ≠ completion.clientFd ∧ filled.listenerFd ≠ some completion.clientFd) ∧
      filled.phase = .applying .iteration ∧ filled.completed = [] := by
    rw [← appended]
    exact ⟨unasked, running, client, applied, rfl⟩
  obtain ⟨unasked, running, client, applied', done⟩ := kept
  intro after
  have shape : after = (applyCompletion completion [] ⟨worker, {}⟩).worker := by simp only [after, step, applied, queued]
  rw [shape, applyCompletion, delivered]
  exact ⟨⟨lookup_stalled _ _ filled, interest_stalled _ _ filled, unasked, running, client⟩, applied', done⟩

theorem Scene.wait (scene : Scene fd connection mask worker) (reads : mask.input = true)
    (applied : worker.phase = .applying .iteration) (done : worker.completed = []) :
    let after := run step worker [.apply {}, .finish {}, .test, .wait (.ready [(fd, { input := true })])]
    Scene fd connection mask after ∧ after.phase = .handling [⟨fd, { input := true }, some connection.serial⟩] := by
  obtain ⟨live, interest, unasked, running, client⟩ := scene
  intro after
  have shape : after = { worker with phase := .handling [⟨fd, { input := true }, some connection.serial⟩] } := by
    simp [after, run, step, applied, done, Caller.continue, finishIteration, unasked, running, Worker.shouldStop,
      Worker.reports, interest, Events.reportable, reads, client.1.symm, Worker.attribute, live]
  rw [shape]
  exact ⟨⟨live, interest, unasked, running, client⟩, rfl⟩

/-- A request is read whole, the pool turns it away, and the socket takes nothing. -/
theorem Scene.overload (scene : Scene fd connection mask worker) (data : Bytes) (owner : Option Nat)
    (handled : worker.phase = .handling [⟨fd, { input := true }, owner⟩])
    (loop : readLoop [.bytes data] connection = (.complete, [], read)) (pending : read.pendingBytes ≠ 0) :
    (step worker (.handle { reads := [.bytes data], rooms := [false] })).connections.lookup fd =
      some (Connection.answered overloaded.toString { read with requestInFlight := false }) := by
  obtain ⟨live, interest, unasked, running, client⟩ := scene
  generalize answeredEq : Connection.answered overloaded.toString { read with requestInFlight := false } = answered
  have pending' : answered.pendingBytes ≠ 0 := by
    rw [← answeredEq]
    simp only [Connection.pendingBytes, Connection.answered, List.length_append] at pending ⊢
    omega
  have idle : answered.requestInFlight = false := by rw [← answeredEq]; rfl
  generalize crowdedEq : Worker.overload fd { read with requestInFlight := true }
    ((requested fd read worker).watch fd { readHangup := true }) = crowded
  have live' : crowded.connections.lookup fd = some answered := by
    rw [← crowdedEq, ← answeredEq]
    exact lookup_put _ _ _
  have registered : (crowded.interest.lookup fd).isSome = true := by
    rw [← crowdedEq]
    exact congrArg Option.isSome (AList.lookup_insert _)
  have dispatched : handleClient fd ⟨worker, { reads := [.bytes data], rooms := [false] }⟩ =
      flushIdle fd (flushClient fd ⟨crowded, {}⟩).2 := by
    rw [← crowdedEq]
    simp [handleClient, live, loop, dispatch, modifyFd, interest, requested, Worker.put]
  have registered' : ((stalled fd answered crowded).interest.lookup fd).isSome = true := by rw [interest_stalled]; rfl
  rw [flushClient_stalled fd crowded {} answered live' pending' registered rfl rfl,
    flushIdle_stalled fd _ {} answered (lookup_stalled _ _ _) idle pending' registered' rfl rfl] at dispatched
  have handled' : step worker (.handle { reads := [.bytes data], rooms := [false] }) =
      { (handleReady fd { input := true } ⟨worker, { reads := [.bytes data], rooms := [false] }⟩).worker with
        phase := .handling [] } := by
    simp [step, handled, handleEvent, noticeShutdown, unasked, client.1.symm, client.2, live]
  rw [handled']
  simp [handleReady, dispatched, lookup_stalled, pending']

end Scene

def submitted : List Label :=
  [.test, .wait (.ready [(5, { input := true })]),
    .handle { accepts := [.client 7 (some (text "10.0.0.1")) true true] }] ++ iteration {} ++
  [.wait (.ready [(7, { input := true })]), .handle { reads := [.bytes request] }]

/-- Its response waits for the socket when the next byte of the client comes, and the pool is full. -/
def crowded (response : HttpResponse) : List Label :=
  submitted ++ [.runHandler 0 (some response), .push 0, .iterate, .collect] ++ [.apply {}] ++
    [.apply {}, .finish {}, .test, .wait (.ready [(7, { input := true })])] ++
    [.handle { reads := [.bytes (text "x")], rooms := [false] }]

theorem submitted_scene :
    let worker := run step (start 0 5 6) submitted
    (worker.phase = .handling [] ∧ worker.completions = [] ∧
      worker.tasks.map (fun task => (task.clientFd, task.generation, task.progress)) = [(7, 1, .queued)]) ∧
    ∃ connection mask, Scene 7 connection mask worker ∧ connection.generation = 1 ∧
      connection.requestInFlight = true ∧ connection.outbound = [] ∧ connection.outboundOffset = 0 ∧
      (feed (connection.inbound ++ (text "x").take 1024) connection.parser).1 = .complete := by
  intro worker
  -- the request is answered, so that its parser says that it is complete whatever follows
  have facts : (worker.connections.lookup 7).map (fun connection => (connection.generation,
      connection.requestInFlight, connection.outbound, connection.outboundOffset,
      (feed (connection.inbound ++ (text "x").take 1024) connection.parser).1)) = some (1, true, [], 0, .complete) := by
    decide +kernel
  obtain ⟨connection, live, same⟩ := Option.map_eq_some_iff.mp facts
  simp only [Prod.mk.injEq] at same
  refine ⟨by decide +kernel, connection, { readHangup := true }, ⟨live, ?_, ?_, ?_, ?_⟩, same⟩ <;> decide +kernel

theorem crowded_pending (response : HttpResponse) (written : response.toString ≠ [])
    (fits : response.toString.length ≤ maxOutboundBytes) :
    ∃ connection, (run step (start 0 5 6) (crowded response)).connections.lookup 7 = some connection ∧
      connection.pendingBytes = response.toString.length + overloaded.toString.length := by
  obtain ⟨⟨handled, none, tasks⟩, connection, mask, scene, generation, inFlight, empty, offset, complete⟩ :=
    submitted_scene
  simp only [crowded, run_append]
  generalize run step (start 0 5 6) submitted = worker at *
  obtain ⟨task, only, same⟩ := List.map_eq_singleton_iff.mp tasks
  simp only [Prod.mk.injEq] at same
  obtain ⟨published, applied, queued⟩ := scene.publish task response handled only same.2.2 none
  obtain ⟨delivered, applied, done⟩ := published.deliver _ applied queued same.1 (generation.trans same.2.1.symm)
    inFlight empty offset written fits
  obtain ⟨waited, handled⟩ := Scene.wait delivered rfl applied done
  have loop : readLoop [.bytes (text "x")] (Connection.answered response.toString
      { connection with requestInFlight := false }) = (.complete, [], { Connection.answered response.toString
      { connection with requestInFlight := false } with
        inbound := [], parser := (feed (connection.inbound ++ (text "x").take 1024) connection.parser).2 }) := by
    have data : (text "x").take 1024 ≠ [] := by decide
    simp only [readLoop, if_neg data, Connection.answered, complete]
  have turnedAway := waited.overload _ _ handled loop
    (by simp [Connection.pendingBytes, Connection.answered, empty, offset, written])
  refine ⟨_, turnedAway, ?_⟩
  simp [Connection.pendingBytes, Connection.answered, empty, offset]

def longResponse : HttpResponse := { body := List.replicate (2 ^ 20 - 63) 120 }

theorem length_longResponse : longResponse.toString.length = maxOutboundBytes := by
  have size : (decimal ((2 ^ 20 - 63 : Nat) : Int)).length = 7 := by decide +kernel
  have status : (decimal 200).length = 3 := by decide +kernel
  simp only [longResponse, HttpResponse.toString, List.length_append, List.length_replicate, List.flatMap_nil,
    List.any_nil, Bool.false_eq_true, if_false, size, status]
  decide +kernel

theorem outbound_bounded_slow_reader :
    Along step (OnHandle Roomy) (start 0 5 6) slowReader ∧
      ∃ connection, (run step (start 0 5 6) slowReader).connections.lookup 7 = some connection ∧
        connection.outboundOffset = 1 ∧ connection.outboundOffset ≤ connection.outbound.length ∧
        connection.pendingBytes ≤ maxOutboundBytes := by
  have roomy : Along step (OnHandle Roomy) (start 0 5 6) slowReader := by decide +kernel
  have sent : ((run step (start 0 5 6) slowReader).connections.lookup 7).map Connection.outboundOffset = some 1 := by
    decide +kernel
  obtain ⟨connection, live, offset⟩ := Option.map_eq_some_iff.mp sent
  exact ⟨roomy, connection, live, offset, outbound_bounded 0 5 6 slowReader roomy 7 connection live⟩

/-- The socket takes nothing of a response of the greatest length, and the one that says that the
pool is full comes on top of it. -/
theorem outbound_exceeded :
    ∃ connection, (run step (start 0 5 6) (crowded longResponse)).connections.lookup 7 = some connection ∧
      connection.pendingBytes = maxOutboundBytes + overloaded.toString.length ∧
      maxOutboundBytes < connection.pendingBytes := by
  have written : longResponse.toString ≠ [] := by
    intro nothing
    have length := length_longResponse
    rw [nothing] at length
    cases length
  obtain ⟨connection, live, pending⟩ := crowded_pending longResponse written length_longResponse.le
  have more : 0 < overloaded.toString.length := by decide +kernel
  rw [length_longResponse] at pending
  exact ⟨connection, live, pending, by omega⟩

end FleetGateway.Network.Outbound
