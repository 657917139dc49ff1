import FleetGateway.Gateway.Service
import FleetGateway.Network.Isolation

/-! What reaches the clients. A response is that of the answer to the request that was read on the
connection, and once the pool has been joined every request it took has been answered. -/

namespace FleetGateway.Gateway.Delivery
open Library Library.ByteStore Library.Run Http.Parser Http.Response Storage.Format Storage.Record
  Storage.Recovery Network Network.Isolation Routes Server Transitions Tasks Answers Service

theorem response_of_published {task : EventLoop.Task} {response : HttpResponse}
    (published : Isolation.Task.published task = some response) : Tasks.Task.response task = some response := by
  unfold Isolation.Task.published at published
  unfold Tasks.Task.response
  cases progress : task.progress with
  | queued => simp [progress] at published
  | handled other => simp [progress] at published
  | posted other => simpa [progress] using published
  | notified other => simpa [progress] using published

theorem Serves.acknowledged {testMode : Bool} {capacity : Nat} {messages : List Message} {request : HttpRequest}
    {allowed : Bool} {response : HttpResponse} {message : Option Message}
    (serves : Serves testMode capacity messages request allowed response message) (code : response.statusCode = 201) :
    ∃ now, message = some (nextOf messages now request.body) ∧ response.body = decimal (totalSize messages) := by
  cases serves with
  | published now routed filled => exact ⟨now, rfl, rfl⟩
  | recent count response routed asks ok body =>
    rw [ok] at code
    cases code
  | _ => cases code

theorem Serial.acknowledged {testMode : Bool} {capacity : Nat} {recovered : List Message} {answers : List Answer}
    (serial : Serial testMode capacity recovered answers) (answer : Answer) (member : answer ∈ answers)
    (code : answer.response.statusCode = 201) :
    ∃ message, answer.message = some message ∧ message.payload = answer.request.body ∧
      answer.response.body = decimal message.offset := by
  induction serial with
  | none => cases member
  | next front last _ serves ih =>
    rcases List.mem_append.mp member with old | new
    · exact ih old
    · cases List.mem_singleton.mp new
      obtain ⟨now, same, body⟩ := Serves.acknowledged serves code
      exact ⟨_, same, rfl, body⟩

theorem Stored.increasing {setup : Setup} {server : TCPServer} (opens : setup.opened.result = .ok ())
    (stored : Stored setup server) :
    (recovered setup ++ server.answers.filterMap Answer.message).Pairwise
      fun first second => first.offset < second.offset := by
  obtain ⟨appends, _, appended⟩ := stored.log
  rw [← appended]
  exact Storage.Cache.messagesAfter_increasing opens appends

/-- In every run, as long as a loop has accepted fewer than 2^64 connections, what it appends to a
connection as the response to a task is the answer to the request of that task, which was read on this
connection; no answer is appended twice. Where the answer acknowledges a publication the log holds the
body of the request under the offset in the response, no two messages have the same offset, and the
messages are those that a scan of the files accepts. -/
theorem responses_delivered (setup : Setup) (opens : setup.opened.result = .ok ()) (labels : List Label)
    (index : Nat) (worker : EventLoop.Worker)
    (here : (run step (start setup) labels).workers[index]? = some worker) (few : worker.accepted < 2 ^ 64) :
    let server := run step (start setup) labels
    let messages := recovered setup ++ server.answers.filterMap Answer.message
    (∀ serial task bytes, .appended serial (.completion task) bytes ∈ worker.trace →
      ∃ own answer, worker.tasks[task]? = some own ∧ own.serial = serial ∧ answer ∈ server.answers ∧
        answer.ticket = ⟨index, task⟩ ∧ answer.request = own.request ∧ answer.clientIp = own.clientIp ∧
        bytes = answer.response.toString ∧
        (answer.response.statusCode = 201 → ∃ message ∈ messages, message.payload = own.request.body ∧
          answer.response.body = decimal message.offset)) ∧
      (∀ task, deliveries task worker.trace ≤ 1) ∧
      (messages.Pairwise fun first second => first.offset < second.offset) ∧
      messagesIn setup.segmentSize server.store.disk = messages := by
  intro server messages
  have orderly : Orderly setup server := run_orderly setup labels
  have stored : Stored setup server := run_stored setup opens labels
  obtain ⟨loop, steps, _, ran⟩ := orderly.composed.workers index worker here
  have isolated : Isolated worker := by
    rw [ran]
    exact run_isolated loop.workerId loop.listenerFd loop.completionFd steps
  refine ⟨?_, ?_, Stored.increasing opens stored, stored.held opens⟩
  · intro serial task bytes member
    obtain ⟨own, response, found, published, same, serial'⟩ := isolated.addressed few serial task bytes member
    have known : server.taskOf ⟨index, task⟩ = some own := (taskOf_worker ⟨index, task⟩ here).trans found
    obtain ⟨answer, given, ticket, request, clientIp, rfl⟩ :=
      orderly.answered.find _ own response known (response_of_published published)
    refine ⟨own, answer, found, serial', given, ticket, request, clientIp, same, fun code => ?_⟩
    obtain ⟨message, added, payload, body⟩ := Serial.acknowledged stored.serial answer given code
    refine ⟨message, List.mem_append_right _ (List.mem_filterMap.mpr ⟨answer, given, added⟩), ?_, body⟩
    rw [payload, request]
  · intro task
    have single := isolated.single task
    have delivered := isolated.delivered task
    have once := publications_le_one task worker.tasks
    omega

theorem responses_delivered_exchange :
    ∃ worker, (run step (start small) exchange).workers[0]? = some worker ∧
      (worker.trace.countP fun effect => match effect with
        | .appended _ (.completion _) _ => true
        | _ => false) = 2 ∧
      ∀ task, deliveries task worker.trace ≤ 1 := by
  have known : ((run step (start small) exchange).workers[0]?).map (fun worker => (worker.accepted,
      worker.trace.countP fun effect => match effect with
        | .appended _ (.completion _) _ => true
        | _ => false)) = some (2, 2) := by
    decide +kernel
  obtain ⟨worker, here, facts⟩ := Option.map_eq_some_iff.mp known
  obtain ⟨accepted, appended⟩ := Prod.mk.injEq .. ▸ facts
  have few : worker.accepted < 2 ^ 64 := by omega
  exact ⟨worker, here, appended, (responses_delivered small (by decide +kernel) exchange 0 worker here few).2.1⟩

/-- The pool counts a task as executed once the pool thread has made all of its steps. -/
def Executed (server : TCPServer) : Prop :=
  ∀ execution ∈ server.pool.executed, ∃ task, server.taskOf execution.task = some task ∧
    Lifetime.Task.finished task = true

theorem transition_finished {server after : TCPServer} (transition : Transition server after) (ticket : Ticket)
    (task : EventLoop.Task) (found : server.taskOf ticket = some task)
    (finished : Lifetime.Task.finished task = true) : after.taskOf ticket = some task := by
  cases transition_change transition with
  | spared accepted answers tasks => exact (tasks ticket).trans found
  | submitted other new queued fresh accepted answers tasks =>
    rw [tasks, if_neg, found]
    rintro rfl
    cases fresh.symm.trans found
  | posted other old progress there unfinished kept accepted answers tasks =>
    rw [tasks, if_neg, found]
    rintro rfl
    cases there.symm.trans found
    cases finished.symm.trans unfinished
  | handled thread number other old allowed surroundings runs there queued returned accepted answers tasks =>
    rw [tasks, if_neg, found]
    rintro rfl
    cases there.symm.trans found
    simp [Lifetime.Task.finished, queued] at finished

theorem transition_executes {server after : TCPServer} (transition : Transition server after) :
    after.pool.executed = server.pool.executed ∨
      ∃ number ticket task, server.taskOf ticket = some task ∧ Lifetime.Task.finished task = true ∧
        after.pool.executed = server.pool.executed ++ [⟨number, ticket, false⟩] := by
  cases transition with
  | loop index worker label pool flag found spared stops =>
    left
    rcases stops with rfl | rfl
    · rfl
    · rfl
  | submit index worker label task pool flag found room queued submitted stops =>
    left
    rcases stops with rfl | rfl
    · exact (submit_books room).2
    · exact (submit_books room).2
  | pool label internal => exact .inl (internal_books server.pool label internal).2
  | finish thread number ticket task runs found finished =>
    exact .inr ⟨number, ticket, task, found, finished, (execute_books runs).2⟩
  | _ => exact .inl rfl

theorem transition_executed {server after : TCPServer} (transition : Transition server after)
    (executed : Executed server) : Executed after := by
  have kept (execution : ThreadPool.Execution Ticket) (member : execution ∈ server.pool.executed) :
      ∃ task, after.taskOf execution.task = some task ∧ Lifetime.Task.finished task = true := by
    obtain ⟨task, found, finished⟩ := executed execution member
    exact ⟨task, transition_finished transition _ task found finished, finished⟩
  intro execution member
  rcases transition_executes transition with same | ⟨number, ticket, task, found, finished, longer⟩
  · rw [same] at member
    exact kept execution member
  · rw [longer] at member
    rcases List.mem_append.mp member with old | new
    · exact kept execution old
    · rw [List.mem_singleton.mp new]
      exact ⟨task, transition_finished transition ticket task found finished, finished⟩

theorem run_executed (setup : Setup) (labels : List Label) : Executed (run step (start setup) labels) := by
  apply run_invariant step Executed (fun _ => True)
  · exact fun server label _ executed => transition_executed (step_transition server label) executed
  · exact fun _ _ => trivial
  · exact nofun

/-- Once all pool threads have left, every task of every loop was answered, its completion posted and its
loop notified, and the answers are one for each request that the pool had accepted. -/
theorem joined_answered (setup : Setup) (positive : 0 < setup.poolThreads) (labels : List Label)
    (left : ∀ thread ∈ (run step (start setup) labels).pool.workers, thread = .exited) :
    let server := run step (start setup) labels
    (∀ worker ∈ server.workers, ∀ task ∈ worker.tasks, Lifetime.Task.finished task = true) ∧
      (server.answers.map Answer.ticket).Perm server.pool.accepted := by
  intro server
  have orderly : Orderly setup server := run_orderly setup labels
  have registered := orderly.registered
  obtain ⟨steps, ran⟩ := orderly.composed.pool
  obtain ⟨queued, staffed, awake⟩ := ThreadPool.run_sound setup.poolThreads setup.queueCapacity positive steps
  rw [← ran] at queued staffed awake
  have taken : server.pool.taken = server.pool.accepted := by
    obtain ⟨thread, member⟩ := List.exists_mem_of_ne_nil _ (staffed.populated positive)
    have order := queued.order
    rw [(awake.exits (left thread member ▸ member)).2, List.append_nil] at order
    exact order
  have finished (ticket : Ticket) (member : ticket ∈ server.pool.accepted) :
      ∃ task, server.taskOf ticket = some task ∧ Lifetime.Task.finished task = true := by
    rw [← taken] at member
    obtain ⟨number, inside, here⟩ := List.getElem_of_mem member
    have ran' : number ∈ server.pool.executed.map ThreadPool.Execution.ticket :=
      (staffed.settled left).1.mem_iff.mpr (List.mem_range.mpr inside)
    obtain ⟨execution, executed, rfl⟩ := List.mem_map.mp ran'
    have found := staffed.ran execution executed
    rw [List.getElem?_eq_getElem inside, here] at found
    cases found
    exact run_executed setup labels execution executed
  refine ⟨?_, ?_⟩
  · intro worker member task inside
    obtain ⟨index, bound, here⟩ := List.getElem_of_mem member
    obtain ⟨place, within, there⟩ := List.getElem_of_mem inside
    have owner : server.workers[index]? = some worker := by rw [List.getElem?_eq_getElem bound, here]
    have known : server.taskOf ⟨index, place⟩ = some task := by
      rw [taskOf_worker ⟨index, place⟩ owner, List.getElem?_eq_getElem within, there]
    have accepted := (registered.known ⟨index, place⟩).mpr (by rw [known]; rfl)
    obtain ⟨other, found, done⟩ := finished _ accepted
    cases known.symm.trans found
    exact done
  · rw [List.perm_ext_iff_of_nodup orderly.answered.once registered.distinct]
    intro ticket
    constructor
    · intro member
      obtain ⟨answer, given, rfl⟩ := List.mem_map.mp member
      rw [← taken]
      exact List.mem_of_getElem? (orderly.answered.told answer given).taken
    · intro member
      obtain ⟨task, found, done⟩ := finished ticket member
      have come : ∃ response, Tasks.Task.response task = some response := by
        unfold Lifetime.Task.finished at done
        unfold Tasks.Task.response
        cases progress : task.progress with
        | notified response => exact ⟨response, rfl⟩
        | queued => simp [progress] at done
        | handled response => simp [progress] at done
        | posted response => simp [progress] at done
      obtain ⟨response, come⟩ := come
      obtain ⟨answer, given, same⟩ := orderly.answered.all ticket task response found come
      exact List.mem_map.mpr ⟨answer, given, same⟩

def exchangeAndStop : List Label :=
  exchange ++ [.requestShutdown, .observe 0] ++ turn [] {} [] ++ [.loop 0 .test, .notifyAll, .take 0, .windDown]

theorem joined_answered_exchange :
    let server := run step (start small) exchangeAndStop
    server.pool.accepted.length = 2 ∧ server.workers.all hasExited = true ∧
      (server.answers.map Answer.ticket).Perm server.pool.accepted := by
  have left : (run step (start small) exchangeAndStop).pool.workers = [.exited] := by decide +kernel
  refine ⟨by decide +kernel, by decide +kernel, (joined_answered small (by decide) exchangeAndStop ?_).2⟩
  rw [left]
  exact List.forall_mem_singleton.mpr rfl

end FleetGateway.Gateway.Delivery
