import FleetGateway.Gateway.Answers

/-! The gateway as a service that answers one request after the other over a list of messages. Whatever
the threads of the server do, its answers are those of such a service. -/

namespace FleetGateway.Gateway.Service
open Library Library.ByteStore Library.Run Http.Parser Http.Response Http.Routing Storage.Format Storage.Record
  Storage.Disk Storage.Log Storage.Recovery Storage.Operations Storage.Invariant Storage.Cache Network
  Network.Recent Security Routes Server Transitions Tasks Answers

def nextOf (messages : List Message) (now : Int) (body : Bytes) : Message :=
  ⟨totalSize messages, timestampOf now, body.length, body⟩

/-- What the service answers to a request while it holds `messages`, and what it then adds to them. A
publication that the log cannot take adds nothing. -/
inductive Serves (testMode : Bool) (capacity : Nat) (messages : List Message) (request : HttpRequest) :
    (allowed : Bool) → HttpResponse → Option Message → Prop
  | limited : Serves testMode capacity messages request false tooManyRequests none
  | unknown (nowhere : ∀ handler, ¬ Routed testMode request handler) :
      Serves testMode capacity messages request true notFound none
  | health (routed : Routed testMode request .health) : Serves testMode capacity messages request true healthy none
  | connections (count : Nat) (routed : Routed testMode request .connections) :
      Serves testMode capacity messages request true (connectionCount count) none
  | metrics (report : Bytes) (routed : Routed testMode request .metrics) :
      Serves testMode capacity messages request true (metricsReport report) none
  | metricsFailed (routed : Routed testMode request .metrics) :
      Serves testMode capacity messages request true EventLoop.internalError none
  | recent (count : Nat) (response : HttpResponse) (routed : Routed testMode request .recent)
      (asks : Asks request.query count) (code : response.statusCode = 200)
      (body : response.body =
        messagesJson (messages.drop (messages.length - min (min count capacity) messages.length))) :
      Serves testMode capacity messages request true response none
  | badQuery (routed : Routed testMode request .recent) (senseless : ¬ ∃ count, Asks request.query count) :
      Serves testMode capacity messages request true invalidQuery none
  | bodiless (routed : Routed testMode request .publish) (empty : request.body = []) :
      Serves testMode capacity messages request true bodyRequired none
  | published (now : Int) (routed : Routed testMode request .publish) (filled : request.body ≠ []) :
      Serves testMode capacity messages request true (Routes.created (totalSize messages))
        (some (nextOf messages now request.body))
  | refused (routed : Routed testMode request .publish) (filled : request.body ≠ []) :
      Serves testMode capacity messages request true EventLoop.internalError none
  | largeResponse (routed : Routed testMode request .largeResponse) :
      Serves testMode capacity messages request true largeBody none
  | hold (routed : Routed testMode request .hold) : Serves testMode capacity messages request true held none

/-- Answers given one after the other by a service that begins with `recovered`. -/
inductive Serial (testMode : Bool) (capacity : Nat) (recovered : List Message) : List Answer → Prop
  | none : Serial testMode capacity recovered []
  | next (answers : List Answer) (answer : Answer) (serial : Serial testMode capacity recovered answers)
      (serves : Serves testMode capacity (recovered ++ answers.filterMap Answer.message) answer.request answer.allowed
        answer.response answer.message) : Serial testMode capacity recovered (answers ++ [answer])

theorem Serves.limited_iff {testMode : Bool} {capacity : Nat} {messages : List Message} {request : HttpRequest}
    {allowed : Bool} {response : HttpResponse} {message : Option Message}
    (serves : Serves testMode capacity messages request allowed response message) :
    response.statusCode = 429 ↔ allowed = false := by
  cases serves with
  | limited => exact iff_of_true rfl rfl
  | recent count response routed asks code body =>
    rw [code]
    exact iff_of_false (by decide) (by decide)
  | _ => exact iff_of_false nofun nofun

theorem Serial.limited {testMode : Bool} {capacity : Nat} {messages : List Message}
    {answers : List Answer} (serial : Serial testMode capacity messages answers) :
    ∀ answer ∈ answers, answer.response.statusCode = 429 ↔ answer.allowed = false := by
  induction serial with
  | none => exact nofun
  | next answers answer _ serves ih =>
    intro other member
    rcases List.mem_append.mp member with old | new
    · exact ih other old
    · rw [List.mem_singleton.mp new]
      exact serves.limited_iff

section Log

variable {setup : Setup}

def recovered (setup : Setup) : List Message :=
  acceptedMessages setup.segmentSize setup.found.disk (segmentFiles setup.found.disk) 0

def logAfter (setup : Setup) (appends : List Appending) : History :=
  after setup.faults setup.segmentSize setup.recentCapacity setup.found appends

theorem logAfter_concat (setup : Setup) (appends : List Appending) (faults : Faults) (payload : Bytes) (now : Int) :
    let before := logAfter setup appends
    let behind := logAfter setup (appends ++ [(faults, payload, now)])
    behind.store = (append faults payload now before.store).store ∧
      behind.appended = before.appended ++ written faults (.append payload now) before.store := by
  have same : logAfter setup (appends ++ [(faults, payload, now)]) =
      Storage.Invariant.advance (logAfter setup appends) (faults, .append payload now) := by
    rw [logAfter, Storage.Cache.after, List.map_append, run_append]
    rfl
  dsimp only
  rw [same]
  exact ⟨rfl, rfl⟩

theorem append_next (opens : setup.opened.result = .ok ()) (appends : List Appending) (faults : Faults)
    (payload : Bytes) (now : Int) (offset : Nat) (left : Store)
    (run : append faults payload now (logAfter setup appends).store = ⟨.ok offset, left⟩) :
    offset = totalSize (recovered setup ++ (logAfter setup appends).appended) := by
  obtain ⟨⟨contents, standing, flatten, _⟩, _⟩ := after_cached opens (appends ++ [(faults, payload, now)])
  have chain := standing_chain standing
  have wrote : (after setup.faults setup.segmentSize setup.recentCapacity setup.found
      (appends ++ [(faults, payload, now)])).appended =
      (logAfter setup appends).appended ++ [⟨offset, timestampOf now, payload.length, payload⟩] := by
    refine (logAfter_concat setup appends faults payload now).2.trans ?_
    simp only [written, run]
  rw [flatten, wrote, ← List.append_assoc, chain_append] at chain
  have first := chain.2.1
  rw [Nat.zero_add] at first
  exact first

/-- What `route` and the handler come to is what the service answers, and the log takes the message. -/
theorem reply_serves (opens : setup.opened.result = .ok ()) (appends : List Appending) (server : TCPServer)
    (router : server.router = routes setup.testMode) (store : server.store = (logAfter setup appends).store)
    (task : EventLoop.Task) (allowed : Bool) (surroundings : Surroundings) :
    let messages := recovered setup ++ (logAfter setup appends).appended
    let reply := server.reply allowed surroundings task
    let message := published task surroundings server allowed
    Serves setup.testMode setup.recentCapacity messages task.request allowed (reply.1.getD EventLoop.internalError)
        message ∧
      ∃ more, reply.2 = (logAfter setup (appends ++ more)).store ∧
        (logAfter setup (appends ++ more)).appended = (logAfter setup appends).appended ++ message.toList := by
  intro messages reply message
  have idle : ∃ more, server.store = (logAfter setup (appends ++ more)).store ∧
      (logAfter setup (appends ++ more)).appended = (logAfter setup appends).appended ++ (none : Option Message).toList := by
    refine ⟨[], ?_, ?_⟩
    · rw [List.append_nil, store]
    · rw [List.append_nil]
      exact (List.append_nil _).symm
  cases allowed with
  | false =>
    exact ⟨.limited, idle⟩
  | true =>
    cases found : server.router.find task.request with
    | none =>
      have answer : reply = (some notFound, server.store) := by
        simp only [reply, TCPServer.reply, Router.route, found]
        rfl
      have nothing : message = none := by
        simp only [message, published, Router.route, found]
        rfl
      rw [router, find_none] at found
      rw [answer, nothing]
      exact ⟨.unknown found, idle⟩
    | some handler =>
      have routed : Routed setup.testMode task.request handler := by
        rw [router, find_iff] at found
        exact found
      have answer : reply = handler.serve { surroundings with activeConnections := server.activeConnections }
          task.request server.store := by
        simp only [reply, TCPServer.reply, Router.route, found]
        rfl
      have silent (other : handler ≠ .publish) : message = none := by
        simp only [message, published, Router.route, found]
        cases handler with
        | publish => exact absurd rfl other
        | _ => rfl
      rw [answer]
      cases handler with
      | publish =>
        by_cases bodiless : task.request.body = []
        · have nothing : message = none := by
            simp only [message, published, Router.route, found, bodiless]
            rfl
          rw [nothing]
          simp only [Handler.serve, bodiless, if_true]
          exact ⟨.bodiless routed bodiless, idle⟩
        · obtain ⟨stored, recorded⟩ :=
            logAfter_concat setup appends surroundings.faults task.request.body surroundings.now
          simp only [Handler.serve, bodiless, if_false, store]
          cases run : append surroundings.faults task.request.body surroundings.now (logAfter setup appends).store with
          | mk result left =>
          rw [run] at stored
          cases result with
          | ok offset =>
            have said : message =
                some ⟨offset, timestampOf surroundings.now, task.request.body.length, task.request.body⟩ := by
              simp only [message, published, Router.route, found, bodiless]
              rw [store, run]
              rfl
            obtain rfl := append_next opens appends _ _ _ offset left run
            rw [said]
            refine ⟨.published surroundings.now routed bodiless, _, stored.symm, recorded.trans ?_⟩
            simp only [written, run]
            rfl
          | error error =>
            have said : message = none := by
              simp only [message, published, Router.route, found, bodiless]
              rw [store, run]
              rfl
            rw [said]
            refine ⟨.refused routed bodiless, _, stored.symm, recorded.trans ?_⟩
            simp only [written, run]
            rfl
      | health =>
        rw [silent (by decide)]
        exact ⟨.health routed, idle⟩
      | connections =>
        rw [silent (by decide)]
        exact ⟨.connections _ routed, idle⟩
      | largeResponse =>
        rw [silent (by decide)]
        exact ⟨.largeResponse routed, idle⟩
      | hold =>
        rw [silent (by decide)]
        exact ⟨.hold routed, idle⟩
      | metrics =>
        rw [silent (by decide)]
        refine ⟨?_, idle⟩
        cases report : surroundings.metricsText with
        | none => exact .metricsFailed routed
        | some text => exact .metrics text routed
      | recent =>
        rw [silent (by decide)]
        refine ⟨?_, idle⟩
        show Serves _ _ _ _ true (recentMessagesResponse server.store task.request) none
        rcases recentMessagesResponse_cases server.store task.request with
          ⟨count, asks, listed⟩ | ⟨senseless, refused⟩
        · rw [listed]
          refine .recent count _ routed asks rfl ?_
          rw [listing, recentMessagesJson, store, logAfter, getRecent_after opens appends count]
          rfl
        · rw [refused]
          exact .badQuery routed senseless

end Log

structure Stored (setup : Setup) (server : TCPServer) : Prop where
  log : ∃ appends, server.store = (logAfter setup appends).store ∧
    (logAfter setup appends).appended = server.answers.filterMap Answer.message
  serial : Serial setup.testMode setup.recentCapacity (recovered setup) server.answers

theorem transition_stored {setup : Setup} {server after : TCPServer} (opens : setup.opened.result = .ok ())
    (transition : Transition server after) (composed : Composed setup server) (stored : Stored setup server) :
    Stored setup after := by
  cases transition with
  | respond thread number ticket task worker allowed surroundings runs found owner returned queued =>
    obtain ⟨appends, store, appended⟩ := stored.log
    obtain ⟨serves, more, left, longer⟩ :=
      reply_serves opens appends server composed.router store task allowed surroundings
    rw [appended] at serves longer
    refine ⟨⟨appends ++ more, left, ?_⟩, .next _ _ stored.serial serves⟩
    rw [longer, List.filterMap_append]
    rfl
  | _ => exact ⟨stored.log, stored.serial⟩

structure Orderly (setup : Setup) (server : TCPServer) : Prop where
  composed : Composed setup server
  registered : Registered setup server
  answered : Answered server

theorem transition_orderly {setup : Setup} {server after : TCPServer} (transition : Transition server after)
    (orderly : Orderly setup server) : Orderly setup after where
  composed := transition_composed transition orderly.composed
  registered := transition_registered transition orderly.registered
  answered := transition_answered transition orderly.registered orderly.answered

theorem start_orderly (setup : Setup) : Orderly setup (start setup) where
  composed := start_composed setup
  registered := start_registered setup
  answered := by
    refine ⟨nofun, fun ticket task response found => ?_, List.nodup_nil⟩
    have known := (start_registered setup).known ticket
    rw [found] at known
    cases known.mpr rfl

theorem run_orderly (setup : Setup) (labels : List Label) : Orderly setup (run step (start setup) labels) := by
  apply run_invariant step (Orderly setup) (fun _ => True)
  · exact fun server label _ orderly => transition_orderly (step_transition server label) orderly
  · exact fun _ _ => trivial
  · exact start_orderly setup

theorem run_stored (setup : Setup) (opens : setup.opened.result = .ok ()) (labels : List Label) :
    Stored setup (run step (start setup) labels) := by
  have both := run_invariant step (fun server => Orderly setup server ∧ Stored setup server) (fun _ => True)
    (fun server label _ ⟨orderly, stored⟩ =>
      have transition := step_transition server label
      ⟨transition_orderly transition orderly, transition_stored opens transition orderly.composed stored⟩)
    (start setup) labels (fun _ _ => trivial) ⟨start_orderly setup, ⟨[], rfl, rfl⟩, .none⟩
  exact both.2

theorem Stored.held {setup : Setup} {server : TCPServer} (stored : Stored setup server)
    (opens : setup.opened.result = .ok ()) :
    messagesIn setup.segmentSize server.store.disk = recovered setup ++ server.answers.filterMap Answer.message := by
  obtain ⟨appends, store, appended⟩ := stored.log
  obtain ⟨⟨contents, standing, flatten, _⟩, _⟩ := after_cached opens appends
  calc
    messagesIn setup.segmentSize server.store.disk = contents.flatten := by
      rw [store]
      exact accepted_standing standing
    _ = recovered setup ++ server.answers.filterMap Answer.message := by
      rw [flatten]
      exact congrArg (recovered setup ++ ·) appended

theorem transition_answers {server after : TCPServer} (transition : Transition server after) :
    server.answers <+: after.answers := by
  cases transition with
  | respond => exact List.prefix_append _ _
  | _ => exact List.prefix_rfl

theorem run_answers (server : TCPServer) (labels : List Label) : server.answers <+: (run step server labels).answers := by
  apply run_invariant step (fun later => server.answers <+: later.answers) (fun _ => True)
  · exact fun later label _ before => before.trans (transition_answers (step_transition later label))
  · exact fun _ _ => trivial
  · exact List.prefix_rfl

theorem Stored.getRecent {setup : Setup} {server : TCPServer} (stored : Stored setup server)
    (opens : setup.opened.result = .ok ()) (count : Nat) :
    let messages := recovered setup ++ server.answers.filterMap Answer.message
    Storage.Log.getRecent server.store count =
      messages.drop (messages.length - min (min count setup.recentCapacity) messages.length) := by
  obtain ⟨appends, store, appended⟩ := stored.log
  intro messages
  have recent := getRecent_after opens appends count
  have same : messages = messagesAfter setup.faults setup.segmentSize setup.recentCapacity setup.found appends := by
    show recovered setup ++ server.answers.filterMap Answer.message = _
    rw [← appended]
    rfl
  rw [store, same]
  exact recent

/-- In every run the answers, in the order in which they were given, are those of a service that answers
one request after the other over the messages that the log held at the start. The log then holds those
messages and what the answers added; every task that has come to a response has one answer, with this
response; and whatever is answered later was not answered before. -/
theorem server_linear (setup : Setup) (opens : setup.opened.result = .ok ()) (labels : List Label) :
    let server := run step (start setup) labels
    let messages := recovered setup ++ server.answers.filterMap Answer.message
    Serial setup.testMode setup.recentCapacity (recovered setup) server.answers ∧
      (∀ count, Storage.Log.getRecent server.store count =
        messages.drop (messages.length - min (min count setup.recentCapacity) messages.length)) ∧
      ((server.answers.map Answer.ticket).Nodup ∧ ∀ ticket task response, server.taskOf ticket = some task →
        Task.response task = some response → ∃ answer ∈ server.answers, answer.ticket = ticket ∧
          answer.request = task.request ∧ answer.clientIp = task.clientIp ∧ answer.response = response) ∧
      ∀ more, ∃ rest, (run step server more).answers = server.answers ++ rest ∧
        ∀ answer ∈ rest, ∀ task, server.taskOf answer.ticket = some task → Task.response task = none := by
  intro server messages
  have orderly : Orderly setup server := run_orderly setup labels
  have stored : Stored setup server := run_stored setup opens labels
  refine ⟨stored.serial, stored.getRecent opens, ⟨orderly.answered.once, orderly.answered.find⟩, fun more => ?_⟩
  obtain ⟨rest, later⟩ := run_answers server more
  refine ⟨rest, later.symm, fun answer member task found => ?_⟩
  by_contra come
  obtain ⟨response, come⟩ := Option.ne_none_iff_exists'.mp come
  obtain ⟨earlier, old, same⟩ := orderly.answered.all _ task response found come
  have once : ((run step server more).answers.map Answer.ticket).Nodup := by
    have whole := (run_orderly setup (labels ++ more)).answered.once
    rwa [run_append] at whole
  rw [← later, List.map_append] at once
  have apart := (List.nodup_append.mp once).2.2
  exact apart _ (List.mem_map_of_mem old) _ (List.mem_map_of_mem member) same

def small : Setup where
  segmentSize := 200
  recentCapacity := 4
  poolThreads := 1
  queueCapacity := 2
  rateLimitCapacity := 1.0
  rateLimitRefillRate := 0.0
  loops := [⟨0, 5, 6⟩]

def turn (batch : List (Nat × EventLoop.Events)) (script : EventLoop.Script) (sends : List EventLoop.SendOutcome) :
    List Label :=
  let head : List EventLoop.Label := [.test, .wait (.ready batch)]
  let event : List EventLoop.Label := batch.map fun _ => .handle script
  let tail : List EventLoop.Label := [.iterate, .collect, .apply { sends := sends }, .apply { sends := sends },
    .apply {}, .finish {}]
  (head ++ event ++ tail).map (.loop 0)

def serveNext : List Label :=
  [.take 0, .check 0, .lookup 0, .insert 0, .consume 0, .respond 0 { now := 9 }, .push 0, .notify 0, .finish 0,
    .release 0]

/-- Two clients with one address send a request each: the first one publishes, the second one is refused. -/
def exchange : List Label :=
  turn [(5, { input := true })] { accepts := [.client 7 (some (text "10.0.0.1")) true true,
    .client 8 (some (text "10.0.0.1")) true true] } [] ++
  turn [(7, { input := true })]
    { reads := [.bytes (text "POST /publish HTTP/1.1\r\nHost: a\r\nContent-Length: 2\r\n\r\nhi")] } [] ++
  turn [(8, { input := true })] { reads := [.bytes (text "GET /recent HTTP/1.1\r\nHost: a\r\n\r\n")] } [] ++
  serveNext ++ serveNext ++ turn [] {} [.sent 1000]

theorem server_linear_exchange :
    let server := run step (start small) exchange
    server.answers.map (fun answer => (answer.response.statusCode, answer.message.map Message.payload)) =
        [(201, some (text "hi")), (429, none)] ∧
      Serial small.testMode small.recentCapacity (recovered small) server.answers :=
  ⟨by decide +kernel, (server_linear small (by decide +kernel) exchange).1⟩

end FleetGateway.Gateway.Service
