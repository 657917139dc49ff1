import FleetGateway.Gateway.Server

/-! What one step of the server can do, said once, and what it makes of the tasks. -/

namespace FleetGateway.Gateway.Transitions
open Library Library.ByteStore Http.Parser Http.Response Http.Routing Storage.Log Network Network.Submission Security
  Routes Server

def Runs (thread number : Nat) (ticket : Ticket) (server : TCPServer) : Prop :=
  server.pool.workers[thread]? = some (.running number ticket)

def Label.isInternal : ThreadPool.Label Ticket → Bool
  | .beginShutdown | .notifyOne _ | .notifyAll | .wake _ | .take _ | .release _ => true
  | .submit _ | .execute _ _ => false

inductive Transition (server : TCPServer) : TCPServer → Prop
  | idle : Transition server server
  | flag : Transition server { server with shutdownRequested := true }
  | loop (index : Nat) (worker : EventLoop.Worker) (label : EventLoop.Label) (pool : ThreadPool.Pool Ticket)
      (flag : Bool) (found : server.workers[index]? = some worker)
      (spared : (EventLoop.step worker label).tasks = worker.tasks)
      (stops : pool = server.pool ∨ pool = server.pool.beginShutdown) :
      Transition server { server with
        workers := server.workers.set index (EventLoop.step worker label)
        pool := pool
        shutdownRequested := flag }
  | submit (index : Nat) (worker : EventLoop.Worker) (label : EventLoop.Label) (task : EventLoop.Task)
      (pool : ThreadPool.Pool Ticket) (flag : Bool) (found : server.workers[index]? = some worker)
      (room : (server.pool.submit ⟨index, worker.tasks.length⟩).1 = true) (queued : task.progress = .queued)
      (submitted : (EventLoop.step worker label).tasks = worker.tasks ++ [task])
      (stops : pool = (server.pool.submit ⟨index, worker.tasks.length⟩).2 ∨
        pool = (server.pool.submit ⟨index, worker.tasks.length⟩).2.beginShutdown) :
      Transition server { server with
        workers := server.workers.set index (EventLoop.step worker label)
        pool := pool
        shutdownRequested := flag }
  | pool (label : ThreadPool.Label Ticket) (internal : Label.isInternal label = true) :
      Transition server { server with pool := ThreadPool.step server.pool label }
  | clock (now : Bucket.Time) : Transition server { server with limiter := server.limiter.advance now }
  | check (thread number : Nat) (ticket : Ticket) (task : EventLoop.Task) (runs : Runs thread number ticket server)
      (found : server.taskOf ticket = some task) (outside : server.limiter.callers number = .outside) :
      Transition server { server with limiter := server.limiter.check number task.clientIp }
  | limit (thread number : Nat) (ticket : Ticket) (action : Limiter.Action) (runs : Runs thread number ticket server)
      (own : action = .lookup number ∨ action = .insert number ∨ action = .consume number) :
      Transition server { server with limiter := Limiter.step server.limiter action }
  | respond (thread number : Nat) (ticket : Ticket) (task : EventLoop.Task) (worker : EventLoop.Worker)
      (allowed : Bool) (surroundings : Surroundings) (runs : Runs thread number ticket server)
      (found : server.taskOf ticket = some task) (owner : server.workers[ticket.worker]? = some worker)
      (returned : server.limiter.callers number = .returned allowed) (queued : task.progress = .queued) :
      Transition server { server with
        workers := server.workers.set ticket.worker
          (EventLoop.step worker (.runHandler ticket.task (server.reply allowed surroundings task).1))
        store := (server.reply allowed surroundings task).2
        answers := server.answers ++ [server.answer number ticket task allowed surroundings] }
  | touch (thread number : Nat) (ticket : Ticket) (worker : EventLoop.Worker) (label : EventLoop.Label)
      (runs : Runs thread number ticket server) (owner : server.workers[ticket.worker]? = some worker)
      (alive : hasExited worker = false) (posts : label = .push ticket.task ∨ label = .notify ticket.task) :
      Transition server { server with workers := server.workers.set ticket.worker (EventLoop.step worker label) }
  | finish (thread number : Nat) (ticket : Ticket) (task : EventLoop.Task) (runs : Runs thread number ticket server)
      (found : server.taskOf ticket = some task) (finished : Lifetime.Task.finished task = true) :
      Transition server { server with pool := server.pool.execute thread false }

theorem runs_of_running {thread number : Nat} {ticket : Ticket} {server : TCPServer}
    (running : server.running thread = some (number, ticket)) : Runs thread number ticket server := by
  unfold TCPServer.running at running
  unfold Runs
  split at running
  next number' ticket' runs =>
    cases running
    exact runs
  next => cases running

theorem loop_transition (server : TCPServer) (index : Nat) (label : EventLoop.Label) :
    Transition server (server.loop index label) := by
  unfold TCPServer.loop
  split
  · exact .idle
  next worker found =>
  split
  swap
  · exact .idle
  next own =>
  dsimp only
  rcases loop_submits (server.pool.submit ⟨index, worker.tasks.length⟩).1 worker label own with
    same | ⟨room, task, queued, longer⟩
  · simp only [same, Nat.lt_irrefl, if_false]
    refine .loop index worker _ _ _ found same ?_
    split
    · exact .inr rfl
    · exact .inl rfl
  · have more : worker.tasks.length < (worker.tasks ++ [task]).length := by
      rw [List.length_append]
      exact Nat.lt_succ_self _
    simp only [longer, more, if_true]
    refine .submit index worker _ task _ _ found room queued longer ?_
    split
    · exact .inr rfl
    · exact .inl rfl

theorem observe_transition (server : TCPServer) (index : Nat) : Transition server (server.observe index) := by
  unfold TCPServer.observe
  split
  · exact .idle
  next worker found =>
  split
  · exact .loop index worker .requestShutdown server.pool server.shutdownRequested found rfl (.inl rfl)
  · exact .idle

theorem check_transition (server : TCPServer) (thread : Nat) : Transition server (server.check thread) := by
  unfold TCPServer.check
  split
  · exact .idle
  next number ticket running =>
  split
  next task found outside => exact .check thread number ticket task (runs_of_running running) found outside
  next => exact .idle

theorem limit_transition (server : TCPServer) (thread : Nat) (action : Nat → Limiter.Action)
    (own : ∀ number, action number = .lookup number ∨ action number = .insert number ∨
      action number = .consume number) :
    Transition server (server.limit thread fun number limiter => Limiter.step limiter (action number)) := by
  unfold TCPServer.limit
  split
  · exact .idle
  next number ticket running =>
  exact .limit thread number ticket (action number) (runs_of_running running) (own number)

theorem respond_transition (server : TCPServer) (thread : Nat) (surroundings : Surroundings) :
    Transition server (server.respond thread surroundings) := by
  unfold TCPServer.respond
  split
  · exact .idle
  next number ticket running =>
  split
  next task worker allowed found owner returned =>
    split
    next queued =>
      exact .respond thread number ticket task worker allowed surroundings (runs_of_running running) found owner
        returned queued
    next => exact .idle
  next => exact .idle

theorem touch_transition (server : TCPServer) (thread : Nat) (label : Nat → EventLoop.Label)
    (posts : ∀ task, label task = .push task ∨ label task = .notify task) :
    Transition server (server.touch thread label) := by
  unfold TCPServer.touch
  split
  · exact .idle
  next number ticket running =>
  split
  · exact .idle
  next worker owner =>
  split
  · exact .idle
  next alive =>
  rw [Bool.not_eq_true] at alive
  exact .touch thread number ticket worker _ (runs_of_running running) owner alive (posts ticket.task)

theorem finish_transition (server : TCPServer) (thread : Nat) : Transition server (server.finish thread) := by
  unfold TCPServer.finish
  split
  · exact .idle
  next number ticket running =>
  split
  · exact .idle
  next task found =>
  split
  next finished => exact .finish thread number ticket task (runs_of_running running) found finished
  next => exact .idle

theorem step_transition (server : TCPServer) (label : Label) : Transition server (step server label) := by
  cases label with
  | requestShutdown => exact .flag
  | observe worker => exact observe_transition server worker
  | loop worker label => exact loop_transition server worker label
  | notifyOne thread => exact .pool (.notifyOne thread) rfl
  | notifyAll => exact .pool .notifyAll rfl
  | wake thread => exact .pool (.wake thread) rfl
  | take thread => exact .pool (.take thread) rfl
  | advance now => exact .clock now
  | check thread => exact check_transition server thread
  | lookup thread => exact limit_transition server thread .lookup fun _ => .inl rfl
  | insert thread => exact limit_transition server thread .insert fun _ => .inr (.inl rfl)
  | consume thread => exact limit_transition server thread .consume fun _ => .inr (.inr rfl)
  | respond thread surroundings => exact respond_transition server thread surroundings
  | push thread => exact touch_transition server thread .push fun _ => .inl rfl
  | notify thread => exact touch_transition server thread .notify fun _ => .inr rfl
  | finish thread => exact finish_transition server thread
  | release thread => exact .pool (.release thread) rfl
  | windDown =>
    simp only [step, TCPServer.windDown]
    split
    · exact .pool .beginShutdown rfl
    · exact .idle

end FleetGateway.Gateway.Transitions
