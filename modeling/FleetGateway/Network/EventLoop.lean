import FleetGateway.Http.Parser
import FleetGateway.Http.Response
import FleetGateway.Library.Counting
import FleetGateway.Monitoring.Counters

/-! One epoll worker of `TCPServer`: its connections, its `LoopState`, the callbacks of its
event loop, and the pool threads that answer its requests.

The kernel's answers to the system calls of one callback are given by a `Script`, so a
callback is a function of the worker and a script. Pool threads and `stop()` act between the
callbacks, and between the parts of `process_completions` that touch the shared queue. -/

namespace FleetGateway.Network.EventLoop
open Library Library.ByteStore Library.Counting Http.Parser Http.Response Monitoring.Counters

/-- The bits of an epoll mask: `EPOLLIN`, `EPOLLOUT`, `EPOLLRDHUP`, `EPOLLERR`, `EPOLLHUP`. -/
structure Events where
  input : Bool := false
  output : Bool := false
  readHangup : Bool := false
  error : Bool := false
  hangup : Bool := false
  deriving DecidableEq

/-- `serial` is not in the source: the number of connections the worker accepted before
this one, which tells connections apart for ever. -/
structure Connection where
  fd : Nat
  clientIp : Bytes
  parser : HTTPParser := {}
  inbound : Bytes := []
  outbound : Bytes := []
  outboundOffset : Nat := 0
  peerClosed : Bool := false
  requestInFlight : Bool := false
  generation : Nat := 0
  serial : Nat
  deriving DecidableEq

def Connection.pendingBytes (connection : Connection) : Nat :=
  connection.outbound.length - connection.outboundOffset

/-- The measured duration is left out; `task` is the index of the task that posted it. -/
structure Completion where
  clientFd : Nat
  generation : Nat
  serializedResponse : Bytes
  statusCode : Int
  task : Nat
  deriving DecidableEq

/-- How far a pool thread has come with a task: it runs the handler, pushes the completion
and writes to the event descriptor, in this order. -/
inductive Progress where
  | queued
  | handled (response : HttpResponse)
  | posted (response : HttpResponse)
  | notified (response : HttpResponse)
  deriving DecidableEq

structure Task where
  clientFd : Nat
  generation : Nat
  request : HttpRequest
  clientIp : Bytes
  serial : Nat
  progress : Progress := .queued
  deriving DecidableEq

inductive Origin where
  | badRequest
  | overloaded
  | completion (task : Nat)
  deriving DecidableEq

/-- What the worker did, in order. A client that `accept` returned has a serial number unless it
was closed again at once. -/
inductive Effect where
  | accepted (fd : Nat) (serial : Option Nat)
  | submitted (serial task : Nat)
  | appended (serial : Nat) (origin : Origin) (bytes : Bytes)
  | sent (serial : Nat) (bytes : Bytes)
  | processed (task : Nat)
  | closed (fd : Nat)
  deriving DecidableEq

/-- An event of the current batch. `owner` is the connection that had the descriptor when
`epoll_wait` returned; the code does not know it. -/
structure Ready where
  fd : Nat
  events : Events
  owner : Option Nat
  deriving DecidableEq

inductive Caller where
  | event (rest : List Ready)
  | iteration
  deriving DecidableEq

/-- Where the loop stands: before `should_stop`, in `epoll_wait`, in its batch, in
`process_completions` before and after the queues are swapped, in the rest of the iteration
callback, or gone, with what `run` returned. -/
inductive Phase where
  | testing
  | waiting
  | handling (batch : List Ready)
  | collecting (caller : Caller)
  | applying (caller : Caller)
  | finishing
  | exited (completed : Bool)
  deriving DecidableEq

structure Worker where
  workerId : Nat
  listenerFd : Option Nat
  completionFd : Nat
  interest : AList (fun _ : Nat => Events)
  connections : AList (fun _ : Nat => Connection) := ∅
  /-- The worker's descriptors that the kernel holds open. -/
  opened : List Nat
  completions : List Completion := []
  /-- The local queue of `process_completions`. -/
  completed : List Completion := []
  outstandingTasks : Nat := 0
  nextGeneration : Nat := 1
  draining : Bool := false
  shutdownRequested : Bool := false
  workerFailed : Bool := false
  poolStopping : Bool := false
  /-- The counter of the event descriptor. -/
  notifications : Nat := 0
  metrics : Metrics := {}
  phase : Phase := .testing
  /-- Every task the pool accepted from this worker. -/
  tasks : List Task := []
  accepted : Nat := 0
  trace : List Effect := []

/-- `worker_loop` once the listener and the event descriptor are registered. -/
def start (workerId listenerFd completionFd : Nat) : Worker where
  workerId := workerId
  listenerFd := some listenerFd
  completionFd := completionFd
  interest := ((∅ : AList (fun _ : Nat => Events)).insert completionFd { input := true }).insert listenerFd
    { input := true }
  opened := [listenerFd, completionFd]

/-- `read` on a client; no bytes at all means that the peer stopped writing. -/
inductive ReadOutcome where
  | bytes (data : Bytes)
  | again
  | interrupted
  | failed

inductive SendOutcome where
  | sent (count : Nat)
  | again
  | interrupted
  | failed

/-- `accept`, and for a new client what `inet_ntop`, `set_nonblocking` and `EPOLL_CTL_ADD` say. -/
inductive AcceptOutcome where
  | client (fd : Nat) (address : Option Bytes) (nonblocking registered : Bool)
  | again
  | interrupted
  | failed

/-- The answers for one callback. An exhausted list of reads, sends or accepts goes on with
`EAGAIN`; an exhausted list of controls (`EPOLL_CTL_MOD`) or rooms with success. A room says
whether the task queue, which all workers share, has a place left, and an order in which
sequence the connection map is walked. -/
structure Script where
  reads : List ReadOutcome := []
  sends : List SendOutcome := []
  controls : List Bool := []
  accepts : List AcceptOutcome := []
  rooms : List Bool := []
  orders : List (List Nat) := []

structure Machine where
  worker : Worker
  script : Script

def maxOutboundBytes : Nat := 2 ^ 20

def Worker.emit (effect : Effect) (worker : Worker) : Worker :=
  { worker with trace := worker.trace ++ [effect] }

/-- Write through a pointer into the connection map. -/
def Worker.put (fd : Nat) (connection : Connection) (worker : Worker) : Worker :=
  { worker with connections := worker.connections.insert fd connection }

def Worker.watch (fd : Nat) (events : Events) (worker : Worker) : Worker :=
  { worker with interest := worker.interest.insert fd events }

def Worker.close (fd : Nat) (worker : Worker) : Worker :=
  Worker.emit (.closed fd) { worker with opened := worker.opened.erase fd }

def Worker.closeClient (fd : Nat) (worker : Worker) : Worker :=
  Worker.close fd { worker with
    interest := worker.interest.erase fd
    connections := worker.connections.erase fd
    metrics := if (worker.connections.lookup fd).isSome then worker.metrics.connectionClosed else worker.metrics }

def Worker.connect (fd : Nat) (clientIp : Bytes) (worker : Worker) : Worker :=
  Worker.emit (.accepted fd (some worker.accepted)) { worker with
    opened := fd :: worker.opened
    interest := worker.interest.insert fd { input := true, readHangup := true }
    connections := worker.connections.insert fd
      { fd := fd, clientIp := clientIp, generation := worker.nextGeneration, serial := worker.accepted }
    nextGeneration := (worker.nextGeneration + 1) % 2 ^ 64
    accepted := worker.accepted + 1
    metrics := worker.metrics.connectionOpened worker.workerId }

def Worker.turnAway (fd : Nat) (worker : Worker) : Worker :=
  Worker.close fd (Worker.emit (.accepted fd none) { worker with opened := fd :: worker.opened })

def closeClient (fd : Nat) (machine : Machine) : Machine :=
  { machine with worker := machine.worker.closeClient fd }

/-- `EPOLL_CTL_MOD` fails on a descriptor that is not registered. -/
def modifyFd (fd : Nat) (events : Events) (machine : Machine) : Bool × Machine :=
  let machine' : Machine :=
    { machine with script := { machine.script with controls := machine.script.controls.tail } }
  if machine.script.controls.headD true && (machine.worker.interest.lookup fd).isSome then
    (true, { machine' with worker := machine.worker.watch fd events })
  else (false, machine')

/-- A connection whose interest cannot be changed is closed; the result says if it lives. -/
def watchOrClose (fd : Nat) (events : Events) (machine : Machine) : Bool × Machine :=
  match modifyFd fd events machine with
  | (true, watched) => (true, watched)
  | (false, unwatched) => (false, closeClient fd unwatched)

inductive SendEnd where
  | drained
  | blocked
  | failed
  deriving DecidableEq

/-- The loop of `flush_client`; it moves nothing but the offset. -/
def sendLoop : List SendOutcome → Connection → SendEnd × List SendOutcome × Connection
  | [], connection => (if connection.pendingBytes = 0 then .drained else .blocked, [], connection)
  | outcome :: rest, connection =>
    if connection.pendingBytes = 0 then (.drained, outcome :: rest, connection)
    else match outcome with
      | .sent count =>
        -- the socket takes no more than it is offered, and a send of nothing counts as a failure
        let taken := min count connection.pendingBytes
        if taken = 0 then (.failed, rest, connection)
        else sendLoop rest { connection with outboundOffset := connection.outboundOffset + taken }
      | .interrupted => sendLoop rest connection
      | .again => (.blocked, rest, connection)
      | .failed => (.failed, rest, connection)

def Worker.advance (fd : Nat) (connection : Connection) (offset : Nat) (worker : Worker) : Worker :=
  Worker.emit (.sent connection.serial
      (slice connection.outbound connection.outboundOffset (offset - connection.outboundOffset)))
    (worker.put fd { connection with outboundOffset := offset })

def flushClient (fd : Nat) (machine : Machine) : Bool × Machine :=
  match machine.worker.connections.lookup fd with
  | none => (false, machine)
  | some connection =>
    match sendLoop machine.script.sends connection with
    | (ended, sends, left) =>
      let machine' : Machine :=
        { worker := machine.worker.advance fd connection left.outboundOffset
          script := { machine.script with sends := sends } }
      match ended with
      | .failed => (false, closeClient fd machine')
      | .blocked => watchOrClose fd { input := true, output := true, readHangup := true } machine'
      | .drained =>
        let emptied : Machine :=
          { machine' with worker := machine'.worker.put fd { left with outbound := [], outboundOffset := 0 } }
        if left.peerClosed then (false, closeClient fd emptied)
        else watchOrClose fd { input := true, readHangup := true } emptied

/-- How the read loop ends: `EAGAIN`, end of file, an error, a parser status that leaves the
loop, or a complaint of the parser without one. -/
inductive ReadEnd where
  | blocked
  | peerClosed
  | failed
  | refused
  | complete
  | complained
  deriving DecidableEq

/-- The loop of `handle_client` up to the point where it is left. -/
def readLoop : List ReadOutcome → Connection → ReadEnd × List ReadOutcome × Connection
  | [], connection => (.blocked, [], connection)
  | .again :: rest, connection => (.blocked, rest, connection)
  | .interrupted :: rest, connection => readLoop rest connection
  | .failed :: rest, connection => (.failed, rest, connection)
  | .bytes data :: rest, connection =>
    if data.take 1024 = [] then (.peerClosed, rest, { connection with peerClosed := true })
    else
      let fed := feed (connection.inbound ++ data.take 1024) connection.parser
      let connection' := { connection with inbound := [], parser := fed.2 }
      match fed.1 with
      | .error => (.refused, rest, connection')
      | .complete => (.complete, rest, connection')
      | .incomplete =>
        if fed.2.parseError ≠ "" then (.complained, rest, connection') else readLoop rest connection'

def badRequest : HttpResponse :=
  { statusCode := 400, reason := text "Bad Request", body := text "Bad Request" }

def overloaded : HttpResponse :=
  { statusCode := 503, reason := text "Service Unavailable", body := text "Service Unavailable" }

def internalError : HttpResponse :=
  { statusCode := 500, reason := text "Internal Server Error", body := text "Internal Server Error" }

def Connection.answered (response : Bytes) (connection : Connection) : Connection :=
  { connection with outbound := connection.outbound ++ response, peerClosed := true }

def Worker.append (fd : Nat) (origin : Origin) (response : Bytes) (connection : Connection) (worker : Worker) :
    Worker :=
  Worker.emit (.appended connection.serial origin response) (worker.put fd (connection.answered response))

/-- After the read loop: a connection without a request in flight is flushed. -/
def flushIdle (fd : Nat) (machine : Machine) : Machine :=
  match machine.worker.connections.lookup fd with
  | none => machine
  | some connection => if connection.requestInFlight then machine else (flushClient fd machine).2

/-- The branch for `ParseStatus::Error`. -/
def refuse (fd : Nat) (connection : Connection) (machine : Machine) : Machine :=
  let worker := { machine.worker with metrics := machine.worker.metrics.parseError }
  let response := badRequest.toString
  if maxOutboundBytes < connection.pendingBytes + response.length then
    closeClient fd { machine with worker := worker }
  else
    flushIdle fd { machine with worker := worker.append fd .badRequest response connection }

def Worker.submit (fd : Nat) (connection : Connection) (worker : Worker) : Worker :=
  Worker.emit (.submitted connection.serial worker.tasks.length) { worker with
    outstandingTasks := worker.outstandingTasks + 1
    tasks := worker.tasks ++ [{
      clientFd := fd
      generation := connection.generation
      request := connection.parser.parsedRequest
      clientIp := connection.clientIp
      serial := connection.serial }] }

/-- `submit` turned the closure away, so the count that was raised before it is lowered. -/
def Worker.overload (fd : Nat) (connection : Connection) (worker : Worker) : Worker :=
  let lowered := { worker with outstandingTasks := fetchSub (worker.outstandingTasks + 1) }
  let queued := lowered.append fd .overloaded overloaded.toString { connection with requestInFlight := false }
  { queued with metrics := queued.metrics.requestCompleted 503 queued.workerId }

/-- The branch for `ParseStatus::Complete`. -/
def dispatch (fd : Nat) (connection : Connection) (machine : Machine) : Machine :=
  let started := { machine.worker with metrics := machine.worker.metrics.requestStarted machine.worker.workerId }
  let inFlight := { connection with requestInFlight := true }
  match modifyFd fd { readHangup := true } { machine with worker := started.put fd inFlight } with
  | (false, unwatched) => closeClient fd unwatched
  | (true, watched) =>
    let room := watched.script.rooms.headD true
    let script := { watched.script with rooms := watched.script.rooms.tail }
    if !watched.worker.poolStopping && room then
      flushIdle fd { worker := watched.worker.submit fd inFlight, script := script }
    else
      let flushed := (flushClient fd { worker := watched.worker.overload fd inFlight, script := script }).2
      flushIdle fd flushed

def handleClient (fd : Nat) (machine : Machine) : Machine :=
  match machine.worker.connections.lookup fd with
  | none => machine
  | some connection =>
    match readLoop machine.script.reads connection with
    | (ended, reads, read) =>
      let machine' : Machine :=
        { worker := machine.worker.put fd read, script := { machine.script with reads := reads } }
      match ended with
      | .failed | .complained => closeClient fd machine'
      | .refused => refuse fd read machine'
      | .complete => dispatch fd read machine'
      | .blocked | .peerClosed => flushIdle fd machine'

/-- The loop of `accept_clients`. The kernel never returns a descriptor that is open, so
such an outcome ends the loop as `EAGAIN` does. -/
def acceptClients : List AcceptOutcome → Worker → List AcceptOutcome × Worker
  | [], worker => ([], worker)
  | outcome :: rest, worker =>
    if worker.shutdownRequested then (outcome :: rest, worker)
    else match outcome with
      | .again | .failed => (rest, worker)
      | .interrupted => acceptClients rest worker
      | .client fd address nonblocking registered =>
        if fd ∈ worker.opened then (rest, worker)
        else match address with
          | none => acceptClients rest (worker.turnAway fd)
          | some clientIp =>
            if nonblocking && registered then acceptClients rest (worker.connect fd clientIp)
            else acceptClients rest (worker.turnAway fd)

/-- `file_descriptors()`: the keys of the map, in the order asked for as far as it names keys. -/
def fileDescriptors (order : List Nat) (worker : Worker) : List Nat :=
  let named := order.dedup.filter (· ∈ worker.connections.keys)
  named ++ worker.connections.keys.filter (· ∉ named)

/-- One turn of the loop over the descriptors in `begin_drain` and in the iteration callback. -/
def settle (machine : Machine) (fd : Nat) : Machine :=
  match machine.worker.connections.lookup fd with
  | none => machine
  | some connection =>
    if connection.requestInFlight then machine
    else if connection.pendingBytes ≠ 0 then (flushClient fd machine).2
    else closeClient fd machine

def sweep (machine : Machine) : Machine :=
  let script := { machine.script with orders := machine.script.orders.tail }
  (fileDescriptors (machine.script.orders.headD []) machine.worker).foldl settle { machine with script := script }

def Worker.retire (listener : Option Nat) (worker : Worker) : Worker :=
  match listener with
  | none => worker
  | some fd => Worker.close fd { worker with interest := worker.interest.erase fd }

/-- Gives back the value left in the reference to the listener. -/
def beginDrain (listener : Option Nat) (machine : Machine) : Option Nat × Machine :=
  if machine.worker.draining then (listener, machine)
  else
    let worker := { machine.worker with draining := true, poolStopping := true }
    (none, sweep { machine with worker := worker.retire listener })

def Worker.pop (completion : Completion) (rest : List Completion) (worker : Worker) : Worker :=
  Worker.emit (.processed completion.task) { worker with
    completed := rest
    metrics := worker.metrics.requestCompleted completion.statusCode worker.workerId }

/-- What a popped completion does to the connection it finds. -/
def deliver (completion : Completion) (machine : Machine) : Machine :=
  match machine.worker.connections.lookup completion.clientFd with
  | none => machine
  | some connection =>
    if connection.generation = completion.generation && connection.requestInFlight then
      let landed := { connection with requestInFlight := false }
      if connection.pendingBytes + completion.serializedResponse.length ≤ maxOutboundBytes then
        (flushClient completion.clientFd { machine with
          worker := machine.worker.append completion.clientFd (.completion completion.task)
            completion.serializedResponse landed }).2
      else
        closeClient completion.clientFd { machine with
          worker := machine.worker.put completion.clientFd landed }
    else machine

/-- One turn of the loop of `process_completions`. -/
def applyCompletion (completion : Completion) (rest : List Completion) (machine : Machine) : Machine :=
  let delivered := deliver completion { machine with worker := machine.worker.pop completion rest }
  { delivered with
    worker := { delivered.worker with outstandingTasks := fetchSub delivered.worker.outstandingTasks } }

/-- What follows the dispatch on the descriptor in `handle_event`, for a client. -/
def handleReady (fd : Nat) (events : Events) (machine : Machine) : Machine :=
  if events.error || events.hangup then closeClient fd machine
  else
    let read := if events.input then handleClient fd machine else machine
    match read.worker.connections.lookup fd with
    | none => read
    | some connection =>
      let hung : Machine :=
        if events.readHangup then { read with worker := read.worker.put fd { connection with peerClosed := true } }
        else read
      let flushed := if events.output then (flushClient fd hung).2 else hung
      match flushed.worker.connections.lookup fd with
      | none => flushed
      | some connection =>
        if !connection.requestInFlight && connection.peerClosed && connection.pendingBytes = 0 then
          closeClient fd flushed
        else flushed

def handleListener (events : Events) (machine : Machine) : Machine :=
  if machine.worker.draining then machine
  else if events.error || events.hangup then
    { machine with worker := { machine.worker with workerFailed := true, shutdownRequested := true } }
  else if events.input then
    match acceptClients machine.script.accepts machine.worker with
    | (accepts, worker) => { worker := worker, script := { machine.script with accepts := accepts } }
  else machine

/-- The test with which `handle_event` begins. It drops the listener that `begin_drain` gives
back: the callback has only a copy of the loop's variable. -/
def noticeShutdown (machine : Machine) : Option Nat × Machine :=
  if machine.worker.shutdownRequested && !machine.worker.draining then
    beginDrain machine.worker.listenerFd machine
  else (machine.worker.listenerFd, machine)

/-- `handle_event`, but for the completions; `rest` is the batch that is left. -/
def handleEvent (ready : Ready) (rest : List Ready) (machine : Machine) : Worker :=
  match noticeShutdown machine with
  | (listener, noticed) =>
    if ready.fd = noticed.worker.completionFd then
      { noticed.worker with notifications := 0, phase := .collecting (.event rest) }
    else if listener = some ready.fd then
      { (handleListener ready.events noticed).worker with phase := .handling rest }
    else if (noticed.worker.connections.lookup ready.fd).isSome then
      { (handleReady ready.fd ready.events noticed).worker with phase := .handling rest }
    else { noticed.worker with phase := .handling rest }

/-- The iteration callback after its completions. -/
def finishIteration (machine : Machine) : Worker :=
  let drained : Machine :=
    if machine.worker.shutdownRequested then
      match beginDrain machine.worker.listenerFd machine with
      | (listener, drained) => { drained with worker := { drained.worker with listenerFd := listener } }
    else machine
  let swept := if drained.worker.draining then sweep drained else drained
  { swept.worker with phase := .testing }

def Worker.shouldStop (worker : Worker) : Bool :=
  worker.draining && worker.outstandingTasks = 0 && worker.connections.keys.length = 0

/-- `worker_loop` after `run` has returned. -/
def Worker.exit (completed : Bool) (worker : Worker) : Worker :=
  let failed := !completed && !worker.shutdownRequested
  let flagged := { worker with
    workerFailed := worker.workerFailed || failed
    shutdownRequested := worker.shutdownRequested || failed }
  let closed := match worker.listenerFd with
    | none => flagged
    | some fd => flagged.close fd
  { closed.close worker.completionFd with phase := .exited completed }

def Worker.setTask (index : Nat) (task : Task) (progress : Progress) (worker : Worker) : Worker :=
  { worker with tasks := worker.tasks.set index { task with progress := progress } }

def Worker.runHandler (index : Nat) (outcome : Option HttpResponse) (worker : Worker) : Worker :=
  match worker.tasks[index]? with
  | some task =>
    match task.progress with
    | .queued => worker.setTask index task (.handled (outcome.getD internalError))
    | _ => worker
  | none => worker

def completionOf (index : Nat) (task : Task) (response : HttpResponse) : Completion where
  clientFd := task.clientFd
  generation := task.generation
  serializedResponse := response.toString
  statusCode := response.statusCode
  task := index

def Worker.pushCompletion (index : Nat) (worker : Worker) : Worker :=
  match worker.tasks[index]? with
  | some task =>
    match task.progress with
    | .handled response =>
      let completions := worker.completions ++ [completionOf index task response]
      { worker.setTask index task (.posted response) with
        completions := completions
        metrics := worker.metrics.completionQueueSize worker.workerId completions.length }
    | _ => worker
  | none => worker

def Worker.notify (index : Nat) (worker : Worker) : Worker :=
  match worker.tasks[index]? with
  | some task =>
    match task.progress with
    | .posted response =>
      { worker.setTask index task (.notified response) with notifications := worker.notifications + 1 }
    | _ => worker
  | none => worker

inductive WaitOutcome where
  | ready (batch : List (Nat × Events))
  | interrupted
  | failed

inductive Label where
  | requestShutdown
  | test
  | wait (outcome : WaitOutcome)
  | handle (script : Script)
  | iterate
  | collect
  | apply (script : Script)
  | finish (script : Script)
  | runHandler (task : Nat) (outcome : Option HttpResponse)
  | push (task : Nat)
  | notify (task : Nat)

/-- Errors and hang-ups are reported whether they are asked for or not. -/
def Events.reportable (mask events : Events) : Bool :=
  (!events.input || mask.input) && (!events.output || mask.output) &&
    (!events.readHangup || mask.readHangup) && events != {}

/-- What `epoll_wait` can return: at most 64 registered descriptors, each once. -/
def Worker.reports (worker : Worker) (batch : List (Nat × Events)) : Bool :=
  decide (batch.length ≤ 64) && decide (batch.map Prod.fst).Nodup && batch.all fun entry =>
    match worker.interest.lookup entry.1 with
    | none => false
    | some mask =>
      mask.reportable entry.2 && (entry.1 != worker.completionFd || decide (0 < worker.notifications))

def Worker.attribute (worker : Worker) (entry : Nat × Events) : Ready where
  fd := entry.1
  events := entry.2
  owner := (worker.connections.lookup entry.1).map Connection.serial

def Caller.continue : Caller → Phase
  | .event rest => .handling rest
  | .iteration => .finishing

/-- One step of the loop, of a pool thread or of the outside. A label that the worker is not
ready for changes nothing. The test after the iteration callback and the one at the head of
the loop read only what the loop itself changes, so one `test` stands for both. -/
def step (worker : Worker) : Label → Worker
  | .requestShutdown => { worker with shutdownRequested := true }
  | .test =>
    if worker.phase = .testing then
      if worker.shouldStop then worker.exit true else { worker with phase := .waiting }
    else worker
  | .wait outcome =>
    if worker.phase = .waiting then
      match outcome with
      | .ready batch =>
        if worker.reports batch then { worker with phase := .handling (batch.map worker.attribute) } else worker
      | .interrupted => { worker with phase := .testing }
      | .failed => worker.exit false
    else worker
  | .handle script =>
    match worker.phase with
    | .handling (ready :: rest) => handleEvent ready rest ⟨worker, script⟩
    | _ => worker
  | .iterate =>
    match worker.phase with
    | .handling [] => { worker with notifications := 0, phase := .collecting .iteration }
    | _ => worker
  | .collect =>
    match worker.phase with
    | .collecting caller =>
      { worker with
        completed := worker.completions
        completions := []
        metrics := worker.metrics.completionQueueSize worker.workerId 0
        phase := .applying caller }
    | _ => worker
  | .apply script =>
    match worker.phase with
    | .applying caller =>
      match worker.completed with
      | [] => { worker with phase := caller.continue }
      | completion :: rest => (applyCompletion completion rest ⟨worker, script⟩).worker
    | _ => worker
  | .finish script =>
    match worker.phase with
    | .finishing => finishIteration ⟨worker, script⟩
    | _ => worker
  | .runHandler task outcome => worker.runHandler task outcome
  | .push task => worker.pushCompletion task
  | .notify task => worker.notify task

end FleetGateway.Network.EventLoop
