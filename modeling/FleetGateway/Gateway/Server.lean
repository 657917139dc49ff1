import FleetGateway.Gateway.Routes
import FleetGateway.Network.Submission
import FleetGateway.Network.ThreadPool
import FleetGateway.Security.Limiter

/-! The server as a whole: the epoll workers, the request pool they share, the rate limiter, the
routes and the log. A step is one of a worker's loop, of a pool thread under one lock, or of the outside,
in any order.

A pool thread that would write to the `LoopState` of a loop that is gone takes no step: the code has
destroyed it, and nothing can be said of what follows. -/

namespace FleetGateway.Gateway.Server
open Library Library.ByteStore Library.Run Http.Parser Http.Response Http.Routing Storage Storage.Format Storage.Disk
  Storage.Log Network Network.Submission Security Security.Bucket Routes

/-- A task in the pool: the worker it came from, and its place among the tasks of that worker. -/
@[ext]
structure Ticket where
  worker : Nat
  task : Nat
  deriving DecidableEq

/-- How a request was answered, what the limiter had said, and the message that this added to the log.
The number is that of the tasks the pool threads had taken before. -/
structure Answer where
  number : Nat
  ticket : Ticket
  request : HttpRequest
  clientIp : Bytes
  allowed : Bool
  response : HttpResponse
  message : Option Message
  deriving DecidableEq

structure TCPServer where
  workers : List EventLoop.Worker
  pool : ThreadPool.Pool Ticket
  limiter : Limiter.RateLimiter
  router : Router Handler
  store : Store
  shutdownRequested : Bool := false
  /-- The answers in the order in which they were given; the code does not keep them. -/
  answers : List Answer := []

/-- A worker that has registered its listener and its event descriptor. -/
structure Loop where
  workerId : Nat
  listenerFd : Nat
  completionFd : Nat

def Loop.start (loop : Loop) : EventLoop.Worker :=
  EventLoop.start loop.workerId loop.listenerFd loop.completionFd

/-- What `main` and `start` begin with. The log finds its directory; `faults` are the calls that fail
when it is opened. A worker that could not register its descriptors is not among the loops; it has asked
for a shutdown. -/
structure Setup where
  faults : Faults := noFaults
  segmentSize : Nat
  recentCapacity : Nat
  found : Store := {}
  poolThreads : Nat
  queueCapacity : Nat
  rateLimitCapacity : Float
  rateLimitRefillRate : Float
  clock : Time := 0
  testMode : Bool := false
  loops : List Loop

def Setup.opened (setup : Setup) : Outcome Unit :=
  openLog setup.faults setup.segmentSize setup.recentCapacity setup.found

def start (setup : Setup) : TCPServer where
  workers := setup.loops.map Loop.start
  pool := ThreadPool.start setup.poolThreads setup.queueCapacity
  limiter := Limiter.start setup.rateLimitCapacity setup.rateLimitRefillRate setup.clock
  router := routes setup.testMode
  store := setup.opened.store

/-- A loop takes a step. Where it submits a task `submit` has answered before; where it begins to drain
it calls `begin_shutdown`. -/
def TCPServer.loop (index : Nat) (label : EventLoop.Label) (server : TCPServer) : TCPServer :=
  match server.workers[index]? with
  | none => server
  | some worker =>
    if Label.isLoop label then
      let asked := server.pool.submit ⟨index, worker.tasks.length⟩
      let after := EventLoop.step worker (Label.withRoom asked.1 label)
      let pool := if worker.tasks.length < after.tasks.length then asked.2 else server.pool
      { server with
        workers := server.workers.set index after
        pool := if !worker.draining && after.draining then pool.beginShutdown else pool
        shutdownRequested := server.shutdownRequested || after.shutdownRequested }
    else server

def TCPServer.observe (index : Nat) (server : TCPServer) : TCPServer :=
  match server.workers[index]? with
  | none => server
  | some worker =>
    if server.shutdownRequested then
      { server with workers := server.workers.set index (EventLoop.step worker .requestShutdown) }
    else server

def TCPServer.running (thread : Nat) (server : TCPServer) : Option (Nat × Ticket) :=
  match server.pool.workers[thread]? with
  | some (.running number ticket) => some (number, ticket)
  | _ => none

def TCPServer.taskOf (ticket : Ticket) (server : TCPServer) : Option EventLoop.Task :=
  (server.workers[ticket.worker]?).bind fun worker => worker.tasks[ticket.task]?

def TCPServer.check (thread : Nat) (server : TCPServer) : TCPServer :=
  match server.running thread with
  | none => server
  | some (number, ticket) =>
    match server.taskOf ticket, server.limiter.callers number with
    | some task, .outside => { server with limiter := server.limiter.check number task.clientIp }
    | _, _ => server

def TCPServer.limit (thread : Nat) (step : Nat → Limiter.RateLimiter → Limiter.RateLimiter) (server : TCPServer) :
    TCPServer :=
  match server.running thread with
  | none => server
  | some (number, _) => { server with limiter := step number server.limiter }

def TCPServer.activeConnections (server : TCPServer) : Nat :=
  ((server.workers.map fun worker : EventLoop.Worker => worker.metrics.openConnections).sum % 2 ^ 64).toNat

/-- What `route` comes to behind the limiter, and the log it leaves; nothing where it throws. -/
def TCPServer.reply (allowed : Bool) (surroundings : Surroundings) (task : EventLoop.Task) (server : TCPServer) :
    Option HttpResponse × Store :=
  match server.router.route allowed task.request with
  | .inl response => (some response, server.store)
  | .inr handler =>
    handler.serve { surroundings with activeConnections := server.activeConnections } task.request server.store

def published (task : EventLoop.Task) (surroundings : Surroundings) (server : TCPServer) (allowed : Bool) :
    Option Message :=
  match server.router.route allowed task.request with
  | .inr .publish =>
    if task.request.body = [] then none
    else match append surroundings.faults task.request.body surroundings.now server.store with
      | ⟨.ok offset, _⟩ =>
        some ⟨offset, timestampOf surroundings.now, task.request.body.length, task.request.body⟩
      | ⟨.error _, _⟩ => none
  | _ => none

def TCPServer.answer (number : Nat) (ticket : Ticket) (task : EventLoop.Task) (allowed : Bool)
    (surroundings : Surroundings) (server : TCPServer) : Answer where
  number := number
  ticket := ticket
  request := task.request
  clientIp := task.clientIp
  allowed := allowed
  response := (server.reply allowed surroundings task).1.getD EventLoop.internalError
  message := published task surroundings server allowed

/-- The limiter has answered: the rest of `route`, and the `catch` around it. -/
def TCPServer.respond (thread : Nat) (surroundings : Surroundings) (server : TCPServer) : TCPServer :=
  match server.running thread with
  | none => server
  | some (number, ticket) =>
    match server.taskOf ticket, server.workers[ticket.worker]?, server.limiter.callers number with
    | some task, some worker, .returned allowed =>
      if task.progress = .queued then
        let reply := server.reply allowed surroundings task
        { server with
          workers := server.workers.set ticket.worker (EventLoop.step worker (.runHandler ticket.task reply.1))
          store := reply.2
          answers := server.answers ++ [server.answer number ticket task allowed surroundings] }
      else server
    | _, _, _ => server

def hasExited (worker : EventLoop.Worker) : Bool :=
  match worker.phase with
  | .exited _ => true
  | _ => false

/-- The pool thread touches the `LoopState` that the task came from. -/
def TCPServer.touch (thread : Nat) (label : Nat → EventLoop.Label) (server : TCPServer) : TCPServer :=
  match server.running thread with
  | none => server
  | some (_, ticket) =>
    match server.workers[ticket.worker]? with
    | none => server
    | some worker =>
      if hasExited worker then server
      else { server with workers := server.workers.set ticket.worker (EventLoop.step worker (label ticket.task)) }

def TCPServer.finish (thread : Nat) (server : TCPServer) : TCPServer :=
  match server.running thread with
  | none => server
  | some (_, ticket) =>
    match server.taskOf ticket with
    | none => server
    | some task =>
      if Lifetime.Task.finished task then { server with pool := server.pool.execute thread false } else server

/-- `start` goes on once it has joined the loops. -/
def TCPServer.windDown (server : TCPServer) : TCPServer :=
  if server.workers.all hasExited then { server with pool := server.pool.beginShutdown } else server

inductive Label where
  | requestShutdown
  | observe (worker : Nat)
  | loop (worker : Nat) (label : EventLoop.Label)
  | notifyOne (thread : Nat)
  | notifyAll
  | wake (thread : Nat)
  | take (thread : Nat)
  | advance (now : Time)
  | check (thread : Nat)
  | lookup (thread : Nat)
  | insert (thread : Nat)
  | consume (thread : Nat)
  | respond (thread : Nat) (surroundings : Surroundings)
  | push (thread : Nat)
  | notify (thread : Nat)
  | finish (thread : Nat)
  | release (thread : Nat)
  | windDown

def step (server : TCPServer) : Label → TCPServer
  | .requestShutdown => { server with shutdownRequested := true }
  | .observe worker => server.observe worker
  | .loop worker label => server.loop worker label
  | .notifyOne thread => { server with pool := server.pool.notifyOne thread }
  | .notifyAll => { server with pool := server.pool.notifyAll }
  | .wake thread => { server with pool := server.pool.wake thread }
  | .take thread => { server with pool := server.pool.take thread }
  | .advance now => { server with limiter := server.limiter.advance now }
  | .check thread => server.check thread
  | .lookup thread => server.limit thread Limiter.RateLimiter.lookup
  | .insert thread => server.limit thread Limiter.RateLimiter.insert
  | .consume thread => server.limit thread Limiter.RateLimiter.consume
  | .respond thread surroundings => server.respond thread surroundings
  | .push thread => server.touch thread .push
  | .notify thread => server.touch thread .notify
  | .finish thread => server.finish thread
  | .release thread => { server with pool := server.pool.release thread }
  | .windDown => server.windDown

end FleetGateway.Gateway.Server
