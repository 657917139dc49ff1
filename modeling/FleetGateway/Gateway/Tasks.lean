import FleetGateway.Gateway.Transitions

/-! What the steps of the server make of its parts: each part runs as it does on its own, and a task
only moves on. -/

namespace FleetGateway.Gateway.Tasks
open Library Library.ByteStore Library.Run Http.Parser Http.Response Network Security Routes Server Transitions

/-- What the server does to the pool is a run of the pool. -/
theorem pool_runs {server after : TCPServer} (transition : Transition server after) :
    ∃ labels, after.pool = run ThreadPool.step server.pool labels := by
  cases transition with
  | loop index worker label pool flag found spared stops =>
    rcases stops with same | stopped
    · exact ⟨[], same⟩
    · exact ⟨[.beginShutdown], stopped⟩
  | submit index worker label task pool flag found room queued submitted stops =>
    rcases stops with same | stopped
    · exact ⟨[.submit _], same⟩
    · exact ⟨[.submit _, .beginShutdown], stopped⟩
  | pool label internal => exact ⟨[label], rfl⟩
  | finish thread number ticket task runs found finished => exact ⟨[.execute thread false], rfl⟩
  | _ => exact ⟨[], rfl⟩

theorem limiter_runs {server after : TCPServer} (transition : Transition server after) :
    ∃ actions, after.limiter = run Limiter.step server.limiter actions := by
  cases transition with
  | clock now => exact ⟨[.advance now], rfl⟩
  | check thread number ticket task runs found outside => exact ⟨[.check number task.clientIp], rfl⟩
  | limit thread number ticket action runs own => exact ⟨[action], rfl⟩
  | _ => exact ⟨[], rfl⟩

theorem worker_set {workers : List EventLoop.Worker} {changed index : Nat} {worker after : EventLoop.Worker}
    {label : EventLoop.Label} (found : workers[changed]? = some worker)
    (here : (workers.set changed (EventLoop.step worker label))[index]? = some after) :
    ∃ before labels, workers[index]? = some before ∧ after = run EventLoop.step before labels := by
  by_cases same : changed = index
  · subst same
    rw [List.getElem?_set_self (List.getElem?_eq_some_iff.mp found).1] at here
    exact ⟨worker, [label], found, (Option.some.inj here).symm⟩
  · rw [List.getElem?_set_ne same] at here
    exact ⟨after, [], here, rfl⟩

theorem worker_runs {server after : TCPServer} (transition : Transition server after) (index : Nat)
    (worker : EventLoop.Worker) (here : after.workers[index]? = some worker) :
    ∃ before labels, server.workers[index]? = some before ∧ worker = run EventLoop.step before labels := by
  cases transition with
  | loop changed old label pool flag found spared stops => exact worker_set found here
  | submit changed old label task pool flag found room queued submitted stops => exact worker_set found here
  | respond thread number ticket task old allowed surroundings runs found owner returned queued =>
    exact worker_set owner here
  | touch thread number ticket old label runs owner alive posts => exact worker_set owner here
  | _ => exact ⟨worker, [], here, rfl⟩

structure Composed (setup : Setup) (server : TCPServer) : Prop where
  pool : ∃ labels, server.pool = run ThreadPool.step (ThreadPool.start setup.poolThreads setup.queueCapacity) labels
  limiter : ∃ actions, server.limiter =
    run Limiter.step (Limiter.start setup.rateLimitCapacity setup.rateLimitRefillRate setup.clock) actions
  workers : ∀ (index : Nat) (worker : EventLoop.Worker), server.workers[index]? = some worker →
    ∃ loop labels, setup.loops[index]? = some loop ∧ worker = run EventLoop.step (Loop.start loop) labels
  router : server.router = routes setup.testMode

theorem transition_composed {setup : Setup} {server after : TCPServer} (transition : Transition server after)
    (composed : Composed setup server) : Composed setup after where
  pool := by
    obtain ⟨before, same⟩ := composed.pool
    obtain ⟨labels, later⟩ := pool_runs transition
    exact ⟨before ++ labels, by rw [later, same, run_append]⟩
  limiter := by
    obtain ⟨before, same⟩ := composed.limiter
    obtain ⟨actions, later⟩ := limiter_runs transition
    exact ⟨before ++ actions, by rw [later, same, run_append]⟩
  workers := by
    intro index worker here
    obtain ⟨old, labels, there, later⟩ := worker_runs transition index worker here
    obtain ⟨loop, before, found, same⟩ := composed.workers index old there
    exact ⟨loop, before ++ labels, found, by rw [later, same, run_append]⟩
  router := by
    have kept : after.router = server.router := by cases transition <;> rfl
    rw [kept, composed.router]

theorem start_composed (setup : Setup) : Composed setup (start setup) where
  pool := ⟨[], rfl⟩
  limiter := ⟨[], rfl⟩
  workers := by
    intro index worker here
    obtain ⟨loop, found, same⟩ := Option.map_eq_some_iff.mp ((List.getElem?_map ..).symm.trans here)
    exact ⟨loop, [], found, same.symm⟩
  router := rfl

def Task.response (task : EventLoop.Task) : Option HttpResponse :=
  match task.progress with
  | .queued => none
  | .handled response | .posted response | .notified response => some response

theorem taskOf_congr {server after : TCPServer} (same : after.workers = server.workers) (ticket : Ticket) :
    after.taskOf ticket = server.taskOf ticket := by
  rw [TCPServer.taskOf, TCPServer.taskOf, same]

theorem taskOf_set {server after : TCPServer} {index : Nat} {worker next : EventLoop.Worker}
    (found : server.workers[index]? = some worker) (workers : after.workers = server.workers.set index next)
    (ticket : Ticket) :
    after.taskOf ticket = if ticket.worker = index then next.tasks[ticket.task]? else server.taskOf ticket := by
  rw [TCPServer.taskOf, workers]
  split
  next same =>
    rw [same, List.getElem?_set_self (List.getElem?_eq_some_iff.mp found).1]
    rfl
  next other =>
    rw [List.getElem?_set_ne (Ne.symm other)]
    rfl

theorem taskOf_worker {server : TCPServer} {worker : EventLoop.Worker} (ticket : Ticket)
    (found : server.workers[ticket.worker]? = some worker) :
    server.taskOf ticket = worker.tasks[ticket.task]? := by
  rw [TCPServer.taskOf, found]
  rfl

theorem taskOf_spared {server after : TCPServer} {index : Nat} {worker next : EventLoop.Worker}
    (found : server.workers[index]? = some worker) (workers : after.workers = server.workers.set index next)
    (spared : next.tasks = worker.tasks) (ticket : Ticket) : after.taskOf ticket = server.taskOf ticket := by
  rw [taskOf_set found workers]
  split
  next same =>
    rw [spared]
    exact (taskOf_worker _ (by rw [same]; exact found)).symm
  next => rfl

theorem taskOf_update {server after : TCPServer} {worker next : EventLoop.Worker} {task : EventLoop.Task}
    (ticket : Ticket) (found : server.workers[ticket.worker]? = some worker)
    (workers : after.workers = server.workers.set ticket.worker next)
    (here : next.tasks[ticket.task]? = some task)
    (elsewhere : ∀ index, index ≠ ticket.task → next.tasks[index]? = worker.tasks[index]?) (other : Ticket) :
    after.taskOf other = if other = ticket then some task else server.taskOf other := by
  rw [taskOf_set found workers]
  by_cases own : other = ticket
  · subst own
    rw [if_pos rfl, if_pos rfl, here]
  · rw [if_neg own]
    split
    next same =>
      have different : other.task ≠ ticket.task := by
        intro equal
        exact own (Ticket.ext same equal)
      rw [elsewhere other.task different, ← taskOf_worker _ (by rw [same]; exact found)]
    next => rfl

theorem getElem?_set {index : Nat} {tasks : List EventLoop.Task} {task other : EventLoop.Task}
    (found : tasks[index]? = some task) : (tasks.set index other)[index]? = some other :=
  List.getElem?_set_self (List.getElem?_eq_some_iff.mp found).1

theorem runHandler_tasks {worker : EventLoop.Worker} {index : Nat} {task : EventLoop.Task}
    (found : worker.tasks[index]? = some task) (queued : task.progress = .queued) (outcome : Option HttpResponse) :
    (EventLoop.step worker (.runHandler index outcome)).tasks =
      worker.tasks.set index { task with progress := .handled (outcome.getD EventLoop.internalError) } := by
  simp only [EventLoop.step, EventLoop.Worker.runHandler, found, queued]
  rfl

theorem posts_tasks {index : Nat} {label : EventLoop.Label} (worker : EventLoop.Worker)
    (posts : label = .push index ∨ label = .notify index) :
    (EventLoop.step worker label).tasks = worker.tasks ∨
      ∃ task progress, worker.tasks[index]? = some task ∧ Lifetime.Task.finished task = false ∧
        Task.response { task with progress := progress } = Task.response task ∧
        (EventLoop.step worker label).tasks = worker.tasks.set index { task with progress := progress } := by
  rcases posts with rfl | rfl
  · simp only [EventLoop.step, EventLoop.Worker.pushCompletion]
    split
    next task found =>
      split
      next response handled =>
        exact .inr ⟨task, .posted response, found, by simp [Lifetime.Task.finished, handled],
          by simp [Task.response, handled], rfl⟩
      next => exact .inl rfl
    next => exact .inl rfl
  · simp only [EventLoop.step, EventLoop.Worker.notify]
    split
    next task found =>
      split
      next response posted =>
        exact .inr ⟨task, .notified response, found, by simp [Lifetime.Task.finished, posted],
          by simp [Task.response, posted], rfl⟩
      next => exact .inl rfl
    next => exact .inl rfl

theorem submit_books {pool : ThreadPool.Pool Ticket} {ticket : Ticket} (room : (pool.submit ticket).1 = true) :
    (pool.submit ticket).2.accepted = pool.accepted ++ [ticket] ∧ (pool.submit ticket).2.executed = pool.executed := by
  unfold ThreadPool.Pool.submit at room ⊢
  split at room
  · cases room
  next open' =>
    rw [if_neg open']
    exact ⟨rfl, rfl⟩

theorem internal_books (pool : ThreadPool.Pool Ticket) (label : ThreadPool.Label Ticket)
    (internal : Label.isInternal label = true) :
    (ThreadPool.step pool label).accepted = pool.accepted ∧ (ThreadPool.step pool label).executed = pool.executed := by
  have waking (thread : Nat) (pool : ThreadPool.Pool Ticket) :
      (pool.wake thread).accepted = pool.accepted ∧ (pool.wake thread).executed = pool.executed := by
    unfold ThreadPool.Pool.wake
    split
    · exact ⟨rfl, rfl⟩
    · exact ⟨rfl, rfl⟩
  cases label with
  | beginShutdown => exact ⟨rfl, rfl⟩
  | notifyOne thread =>
    simp only [ThreadPool.step, ThreadPool.Pool.notifyOne]
    split
    · exact ⟨rfl, rfl⟩
    split
    · exact waking _ _
    · exact waking _ _
  | notifyAll =>
    simp only [ThreadPool.step, ThreadPool.Pool.notifyAll]
    split
    · exact ⟨rfl, rfl⟩
    · exact ⟨rfl, rfl⟩
  | wake thread => exact waking thread pool
  | take thread =>
    simp only [ThreadPool.step, ThreadPool.Pool.take]
    split
    · split
      · split
        · exact ⟨rfl, rfl⟩
        · split
          · exact ⟨rfl, rfl⟩
          · exact ⟨rfl, rfl⟩
      · exact ⟨rfl, rfl⟩
    · exact ⟨rfl, rfl⟩
  | release thread =>
    simp only [ThreadPool.step, ThreadPool.Pool.release]
    split
    · exact ⟨rfl, rfl⟩
    · exact ⟨rfl, rfl⟩
  | submit task => cases internal
  | execute thread threw => cases internal

theorem execute_books {pool : ThreadPool.Pool Ticket} {thread number : Nat} {ticket : Ticket}
    (runs : pool.workers[thread]? = some (.running number ticket)) :
    (pool.execute thread false).accepted = pool.accepted ∧
      (pool.execute thread false).executed = pool.executed ++ [⟨number, ticket, false⟩] := by
  unfold ThreadPool.Pool.execute
  rw [runs]
  exact ⟨rfl, rfl⟩

inductive Change (server after : TCPServer) : Prop
  | spared (accepted : after.pool.accepted = server.pool.accepted) (answers : after.answers = server.answers)
      (tasks : ∀ ticket, after.taskOf ticket = server.taskOf ticket)
  | submitted (ticket : Ticket) (task : EventLoop.Task) (queued : task.progress = .queued)
      (fresh : server.taskOf ticket = none) (accepted : after.pool.accepted = server.pool.accepted ++ [ticket])
      (answers : after.answers = server.answers)
      (tasks : ∀ other, after.taskOf other = if other = ticket then some task else server.taskOf other)
  | posted (ticket : Ticket) (task : EventLoop.Task) (progress : EventLoop.Progress)
      (found : server.taskOf ticket = some task) (unfinished : Lifetime.Task.finished task = false)
      (kept : Task.response { task with progress := progress } = Task.response task)
      (accepted : after.pool.accepted = server.pool.accepted) (answers : after.answers = server.answers)
      (tasks : ∀ other, after.taskOf other =
        if other = ticket then some { task with progress := progress } else server.taskOf other)
  | handled (thread number : Nat) (ticket : Ticket) (task : EventLoop.Task) (allowed : Bool)
      (surroundings : Surroundings) (runs : Runs thread number ticket server)
      (found : server.taskOf ticket = some task) (queued : task.progress = .queued)
      (returned : server.limiter.callers number = .returned allowed)
      (accepted : after.pool.accepted = server.pool.accepted)
      (answers : after.answers = server.answers ++ [server.answer number ticket task allowed surroundings])
      (tasks : ∀ other, after.taskOf other = if other = ticket
        then some { task with progress := .handled (server.answer number ticket task allowed surroundings).response }
        else server.taskOf other)

theorem taskOf_submit {server : TCPServer} {index : Nat} {worker next : EventLoop.Worker}
    {task : EventLoop.Task} (after : TCPServer) (found : server.workers[index]? = some worker)
    (workers : after.workers = server.workers.set index next) (longer : next.tasks = worker.tasks ++ [task]) :
    server.taskOf ⟨index, worker.tasks.length⟩ = none ∧ ∀ other, after.taskOf other =
      if other = ⟨index, worker.tasks.length⟩ then some task else server.taskOf other := by
  constructor
  · rw [taskOf_worker ⟨index, worker.tasks.length⟩ found]
    exact List.getElem?_eq_none (Nat.le_refl _)
  · apply taskOf_update ⟨index, worker.tasks.length⟩ found workers
    · rw [longer]
      exact List.getElem?_concat_length
    · intro other different
      rw [longer, List.getElem?_append]
      split
      · rfl
      next beyond =>
        have outside : worker.tasks.length < other := by
          dsimp only at different
          omega
        rw [List.getElem?_eq_none (by simp; omega), List.getElem?_eq_none (by omega)]

theorem taskOf_move {server after : TCPServer} {ticket : Ticket} {worker next : EventLoop.Worker}
    {task other : EventLoop.Task} (owner : server.workers[ticket.worker]? = some worker)
    (workers : after.workers = server.workers.set ticket.worker next)
    (found : worker.tasks[ticket.task]? = some task) (tasks : next.tasks = worker.tasks.set ticket.task other) :
    ∀ asked, after.taskOf asked = if asked = ticket then some other else server.taskOf asked := by
  apply taskOf_update ticket owner workers
  · rw [tasks]
    exact getElem?_set found
  · intro index different
    rw [tasks]
    exact List.getElem?_set_ne (Ne.symm different)

theorem transition_change {server after : TCPServer} (transition : Transition server after) : Change server after := by
  cases transition with
  | loop index worker label pool flag found spared stops =>
    refine .spared ?_ rfl (taskOf_spared found rfl spared)
    rcases stops with rfl | rfl
    · rfl
    · rfl
  | submit index worker label task pool flag found room queued longer stops =>
    obtain ⟨fresh, tasks⟩ := taskOf_submit { server with
      workers := server.workers.set index (EventLoop.step worker label)
      pool := pool
      shutdownRequested := flag } found rfl longer
    refine .submitted _ task queued fresh ?_ rfl tasks
    rcases stops with rfl | rfl
    · exact (submit_books room).1
    · exact (submit_books room).1
  | pool label internal => exact .spared (internal_books server.pool label internal).1 rfl (taskOf_congr rfl)
  | finish thread number ticket task runs found finished =>
    exact .spared (execute_books runs).1 rfl (taskOf_congr rfl)
  | respond thread number ticket task worker allowed surroundings runs found owner returned queued =>
    have here := (taskOf_worker ticket owner).symm.trans found
    exact .handled thread number ticket task allowed surroundings runs found queued returned rfl rfl
      (taskOf_move owner rfl here (runHandler_tasks here queued _))
  | touch thread number ticket worker label runs owner alive posts =>
    rcases posts_tasks worker posts with same | ⟨task, progress, here, unfinished, kept, tasks⟩
    · exact .spared rfl rfl (taskOf_spared owner rfl same)
    · exact .posted ticket task progress ((taskOf_worker ticket owner).trans here) unfinished kept rfl rfl
        (taskOf_move owner rfl here tasks)
  | _ => exact .spared rfl rfl (taskOf_congr rfl)

/-- A task keeps what it captured, and its response once it has come to one. -/
theorem transition_keeps {server after : TCPServer} (transition : Transition server after) (ticket : Ticket)
    (task : EventLoop.Task) (found : server.taskOf ticket = some task) :
    ∃ progress, after.taskOf ticket = some { task with progress := progress } ∧
      ∀ response, Task.response task = some response →
        Task.response { task with progress := progress } = some response := by
  cases transition_change transition with
  | spared accepted answers tasks => exact ⟨task.progress, (tasks ticket).trans found, fun _ come => come⟩
  | submitted other new queued fresh accepted answers tasks =>
    have apart : ticket ≠ other := by
      rintro rfl
      cases fresh.symm.trans found
    refine ⟨task.progress, ?_, fun _ come => come⟩
    rw [tasks, if_neg apart]
    exact found
  | posted other old progress there unfinished kept accepted answers tasks =>
    rw [tasks]
    by_cases same : ticket = other
    · subst same
      cases found.symm.trans there
      exact ⟨progress, if_pos rfl, fun _ come => kept.trans come⟩
    · rw [if_neg same]
      exact ⟨task.progress, found, fun _ come => come⟩
  | handled thread number other old allowed surroundings runs there queued returned accepted answers tasks =>
    rw [tasks]
    by_cases same : ticket = other
    · subst same
      cases found.symm.trans there
      refine ⟨_, if_pos rfl, fun response come => ?_⟩
      simp [Task.response, queued] at come
    · rw [if_neg same]
      exact ⟨task.progress, found, fun _ come => come⟩

end FleetGateway.Gateway.Tasks
