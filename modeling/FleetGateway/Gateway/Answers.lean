import FleetGateway.Gateway.Tasks

/-! The answers of the server. Each belongs to one task that the pool took, and each task that has come to
a response has one. -/

namespace FleetGateway.Gateway.Answers
open Library Library.ByteStore Library.Run Http.Parser Http.Response Network Security Routes Server Transitions Tasks

theorem transition_taken {before after : ThreadPool.Pool Ticket} (transition : ThreadPool.Transition before after) :
    before.taken <+: after.taken := by
  cases transition with
  | take index ready task rest queued => exact List.prefix_append _ _
  | _ => exact List.prefix_rfl

theorem run_taken (pool : ThreadPool.Pool Ticket) (labels : List (ThreadPool.Label Ticket)) :
    pool.taken <+: (run ThreadPool.step pool labels).taken := by
  apply run_invariant ThreadPool.step (fun later => pool.taken <+: later.taken) (fun _ => True)
  · intro later label _ before
    exact before.trans (transition_taken (ThreadPool.step_transition later label))
  · exact fun _ _ => trivial
  · exact List.prefix_rfl

structure Registered (setup : Setup) (server : TCPServer) : Prop where
  queued : ThreadPool.Queued setup.queueCapacity server.pool
  staffed : ThreadPool.Staffed setup.poolThreads server.pool
  known : ∀ ticket, ticket ∈ server.pool.accepted ↔ (server.taskOf ticket).isSome = true
  distinct : server.pool.accepted.Nodup

theorem isSome_changed {server : TCPServer} {changed ticket : Ticket} {old new : EventLoop.Task}
    (found : server.taskOf changed = some old) :
    (server.taskOf ticket).isSome = true ↔
      (if ticket = changed then some new else server.taskOf ticket).isSome = true := by
  split
  next own =>
    rw [own, found]
    exact iff_of_true rfl rfl
  next => exact Iff.rfl

theorem transition_registered {setup : Setup} {server after : TCPServer} (transition : Transition server after)
    (registered : Registered setup server) : Registered setup after := by
  obtain ⟨labels, pool⟩ := pool_runs transition
  have books : ThreadPool.Queued setup.queueCapacity after.pool ∧ ThreadPool.Staffed setup.poolThreads after.pool := by
    rw [pool]
    apply run_invariant ThreadPool.step (fun pool => ThreadPool.Queued setup.queueCapacity pool ∧
      ThreadPool.Staffed setup.poolThreads pool) (fun _ => True)
    · rintro pool label - ⟨queued, staffed⟩
      have step := ThreadPool.step_transition pool label
      exact ⟨ThreadPool.transition_queued step queued, ThreadPool.transition_staffed step staffed⟩
    · exact fun _ _ => trivial
    · exact ⟨registered.queued, registered.staffed⟩
  refine ⟨books.1, books.2, ?_, ?_⟩
  · intro ticket
    have known := registered.known ticket
    cases transition_change transition with
    | spared accepted answers tasks => rw [accepted, tasks, known]
    | submitted new task queued fresh accepted answers tasks =>
      rw [accepted, tasks, List.mem_append, List.mem_singleton, known]
      split
      next own => exact iff_of_true (.inr own) rfl
      next other => exact or_iff_left other
    | posted changed task progress found unfinished kept accepted answers tasks =>
      rw [accepted, tasks, known]
      exact isSome_changed found
    | handled thread number changed task allowed surroundings runs found queued returned accepted answers tasks =>
      rw [accepted, tasks, known]
      exact isSome_changed found
  · cases transition_change transition with
    | submitted new task queued fresh accepted answers tasks =>
      have unknown : new ∉ server.pool.accepted := by
        rw [registered.known, fresh]
        exact Bool.false_ne_true
      rw [accepted, ← List.concat_eq_append]
      exact registered.distinct.concat unknown
    | spared accepted answers tasks => exact accepted ▸ registered.distinct
    | posted changed task progress found unfinished kept accepted answers tasks => exact accepted ▸ registered.distinct
    | handled thread number changed task allowed surroundings runs found queued returned accepted answers tasks =>
      exact accepted ▸ registered.distinct

theorem start_registered (setup : Setup) : Registered setup (start setup) where
  queued := ⟨rfl, Nat.le_refl _, Nat.zero_le _, rfl⟩
  staffed := ThreadPool.start_staffed _ _
  known := by
    intro ticket
    refine iff_of_false List.not_mem_nil ?_
    have none : (start setup).taskOf ticket = none := by
      unfold TCPServer.taskOf
      cases found : (start setup).workers[ticket.worker]? with
      | none => rfl
      | some worker =>
        obtain ⟨loop, _, rfl⟩ := Option.map_eq_some_iff.mp ((List.getElem?_map ..).symm.trans found)
        rfl
    rw [none]
    exact Bool.false_ne_true
  distinct := List.nodup_nil

theorem Registered.taken {setup : Setup} {server : TCPServer} (registered : Registered setup server) {thread number : Nat}
    {ticket : Ticket} (runs : Runs thread number ticket server) : server.pool.taken[number]? = some ticket :=
  registered.staffed.holding _ (List.mem_of_getElem? runs) number ticket rfl

/-- The answer is that of the task: it was given for its request when the limiter had answered. -/
structure Tells (server : TCPServer) (answer : Answer) : Prop where
  taken : server.pool.taken[answer.number]? = some answer.ticket
  returned : server.limiter.callers answer.number = .returned answer.allowed
  task : ∃ task, server.taskOf answer.ticket = some task ∧ task.request = answer.request ∧
    task.clientIp = answer.clientIp ∧ Task.response task = some answer.response

structure Answered (server : TCPServer) : Prop where
  told : ∀ answer ∈ server.answers, Tells server answer
  all : ∀ ticket task response, server.taskOf ticket = some task → Task.response task = some response →
    ∃ answer ∈ server.answers, answer.ticket = ticket
  once : (server.answers.map Answer.ticket).Nodup

theorem Answered.find {server : TCPServer} (answered : Answered server) (ticket : Ticket) (task : EventLoop.Task)
    (response : HttpResponse) (found : server.taskOf ticket = some task) (come : Task.response task = some response) :
    ∃ answer ∈ server.answers, answer.ticket = ticket ∧ answer.request = task.request ∧
      answer.clientIp = task.clientIp ∧ answer.response = response := by
  obtain ⟨answer, member, rfl⟩ := answered.all ticket task response found come
  obtain ⟨other, there, request, clientIp, response'⟩ := (answered.told answer member).task
  cases found.symm.trans there
  exact ⟨answer, member, rfl, request.symm, clientIp.symm, Option.some.inj (response'.symm.trans come)⟩

/-- A call of `check` that has returned stays so: every task calls it once. -/
theorem transition_returned {server after : TCPServer} (transition : Transition server after) (number : Nat)
    (allowed : Bool) (returned : server.limiter.callers number = .returned allowed) :
    after.limiter.callers number = .returned allowed := by
  have moved (caller : Nat) (stage : Limiter.Stage) (apart : caller ≠ number) :
      (server.limiter.move caller stage).callers number = .returned allowed := by
    rw [← returned]
    exact Function.update_of_ne (Ne.symm apart) ..
  cases transition with
  | clock now =>
    show (Limiter.RateLimiter.advance now server.limiter).callers number = _
    unfold Limiter.RateLimiter.advance
    split
    · exact returned
    · exact returned
  | check thread caller ticket task runs found outside =>
    have apart : caller ≠ number := by
      rintro rfl
      cases outside.symm.trans returned
    show (server.limiter.check caller task.clientIp).callers number = _
    unfold Limiter.RateLimiter.check
    rw [outside]
    exact moved caller _ apart
  | limit thread caller ticket action runs own =>
    by_cases same : caller = number
    · subst same
      rcases own with rfl | rfl | rfl
      · show (server.limiter.lookup caller).callers caller = _
        simp only [Limiter.RateLimiter.lookup, returned]
      · show (server.limiter.insert caller).callers caller = _
        simp only [Limiter.RateLimiter.insert, returned]
      · show (server.limiter.consume caller).callers caller = _
        simp only [Limiter.RateLimiter.consume, returned]
    · rcases own with rfl | rfl | rfl
      · show (server.limiter.lookup caller).callers number = _
        unfold Limiter.RateLimiter.lookup
        split
        · split
          · exact moved caller _ same
          · exact moved caller _ same
        · exact returned
      · show (server.limiter.insert caller).callers number = _
        unfold Limiter.RateLimiter.insert
        split
        · split
          · exact moved caller _ same
          · exact moved caller _ same
        · exact returned
      · show (server.limiter.consume caller).callers number = _
        unfold Limiter.RateLimiter.consume
        split
        · split
          · exact returned
          · exact moved caller _ same
        · exact returned
  | _ => exact returned

theorem Tells.keep {server after : TCPServer} {answer : Answer} (tells : Tells server answer)
    (transition : Transition server after) : Tells after answer where
  taken := by
    obtain ⟨labels, pool⟩ := pool_runs transition
    obtain ⟨rest, grows⟩ := run_taken server.pool labels
    rw [pool, ← grows, List.getElem?_append_left (List.getElem?_eq_some_iff.mp tells.taken).1]
    exact tells.taken
  returned := transition_returned transition _ _ tells.returned
  task := by
    obtain ⟨task, found, request, clientIp, response⟩ := tells.task
    obtain ⟨progress, later, kept⟩ := transition_keeps transition answer.ticket task found
    exact ⟨_, later, request, clientIp, kept _ response⟩

theorem Answered.quiet {server after : TCPServer} (answered : Answered server) (transition : Transition server after)
    (answers : after.answers = server.answers)
    (earlier : ∀ ticket task response, after.taskOf ticket = some task → Task.response task = some response →
      ∃ before, server.taskOf ticket = some before ∧ Task.response before = some response) : Answered after where
  told := by
    rw [answers]
    exact fun answer member => (answered.told answer member).keep transition
  all := by
    intro ticket task response found come
    obtain ⟨before, there, come'⟩ := earlier ticket task response found come
    rw [answers]
    exact answered.all ticket before response there come'
  once := by
    rw [answers]
    exact answered.once

theorem Answered.handle {setup : Setup} {server after : TCPServer} (answered : Answered server)
    (registered : Registered setup server) (transition : Transition server after) {thread number : Nat}
    {ticket : Ticket} {task : EventLoop.Task} {allowed : Bool} {surroundings : Surroundings}
    (runs : Runs thread number ticket server) (found : server.taskOf ticket = some task)
    (queued : task.progress = .queued) (returned : server.limiter.callers number = .returned allowed)
    (answers : after.answers = server.answers ++ [server.answer number ticket task allowed surroundings])
    (tasks : ∀ other, after.taskOf other = if other = ticket
      then some { task with progress := .handled (server.answer number ticket task allowed surroundings).response }
      else server.taskOf other) : Answered after := by
  have own : Tells after (server.answer number ticket task allowed surroundings) := by
    refine ⟨?_, transition_returned transition _ _ returned, _, (tasks ticket).trans (if_pos rfl), rfl, rfl, rfl⟩
    obtain ⟨labels, pool⟩ := pool_runs transition
    obtain ⟨rest, grows⟩ := run_taken server.pool labels
    have taken := registered.taken runs
    rw [pool, ← grows]
    exact (List.getElem?_append_left (List.getElem?_eq_some_iff.mp taken).1).trans taken
  refine ⟨?_, ?_, ?_⟩
  · intro answer member
    rw [answers] at member
    rcases List.mem_append.mp member with old | new
    · exact (answered.told answer old).keep transition
    · rw [List.mem_singleton.mp new]
      exact own
  · intro other later response there come
    rw [answers]
    rw [tasks] at there
    split at there
    next same => exact ⟨_, List.mem_append_right _ List.mem_cons_self, same.symm⟩
    next =>
      obtain ⟨answer, member, same⟩ := answered.all other later response there come
      exact ⟨answer, List.mem_append_left _ member, same⟩
  · have unanswered : ticket ∉ server.answers.map Answer.ticket := by
      intro member
      obtain ⟨answer, old, same⟩ := List.mem_map.mp member
      obtain ⟨earlier, there, _, _, come⟩ := (answered.told answer old).task
      rw [same, found] at there
      cases there
      simp [Task.response, queued] at come
    rw [answers, List.map_append, List.map_singleton, ← List.concat_eq_append]
    exact answered.once.concat unanswered

theorem transition_answered {setup : Setup} {server after : TCPServer} (transition : Transition server after)
    (registered : Registered setup server) (answered : Answered server) : Answered after := by
  cases transition_change transition with
  | spared accepted answers tasks =>
    apply answered.quiet transition answers
    intro ticket task response found come
    exact ⟨task, (tasks ticket).symm.trans found, come⟩
  | submitted new fresh queued unknown accepted answers tasks =>
    apply answered.quiet transition answers
    intro ticket task response found come
    rw [tasks] at found
    split at found
    next =>
      cases found
      simp [Task.response, queued] at come
    next => exact ⟨task, found, come⟩
  | posted changed old progress there unfinished kept accepted answers tasks =>
    apply answered.quiet transition answers
    intro ticket task response found come
    rw [tasks] at found
    split at found
    next same =>
      cases found
      exact ⟨old, same ▸ there, kept.symm.trans come⟩
    next => exact ⟨task, found, come⟩
  | handled thread number ticket task allowed surroundings runs found queued returned accepted answers tasks =>
    exact answered.handle registered transition runs found queued returned answers tasks

end FleetGateway.Gateway.Answers
