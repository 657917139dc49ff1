import FleetGateway.Network.Lifetime

/-! Responses and the connections they are for. A completion carries the generation of the
connection its request was read on, so that a connection which got the same descriptor
number later is not mistaken for it. -/

namespace FleetGateway.Network.Isolation
open Library Library.ByteStore Library.Run Http.Response EventLoop Actions Transitions Identity Dispatch Lifetime

def Effect.processes (index : Nat) : Effect → Bool
  | .processed other => other == index
  | _ => false

def Effect.delivers (index : Nat) : Effect → Bool
  | .appended _ (.completion other) _ => other == index
  | _ => false

def processings (index : Nat) (trace : List Effect) : Nat := trace.countP (Effect.processes index)

/-- How often its response was appended to an outbound buffer. -/
def deliveries (index : Nat) (trace : List Effect) : Nat := trace.countP (Effect.delivers index)

@[simp] theorem processings_append (index : Nat) (trace more : List Effect) :
    processings index (trace ++ more) = processings index trace + processings index more :=
  List.countP_append

@[simp] theorem deliveries_append (index : Nat) (trace more : List Effect) :
    deliveries index (trace ++ more) = deliveries index trace + deliveries index more :=
  List.countP_append

def Unconcerned (effects : List Effect) : Prop :=
  ∀ index, processings index effects = 0 ∧ deliveries index effects = 0

theorem action_trace {context : Context} {before after : Worker} (action : Action context before after) :
    (∃ more, after.trace = before.trace ++ more ∧ Unconcerned more) ∨
      ∃ completion connection, context.completion = some completion ∧
        before.connections.lookup completion.clientFd = some connection ∧
        connection.generation = completion.generation ∧
        after.trace = before.trace ++
          [.appended connection.serial (.completion completion.task) completion.serializedResponse] := by
  have nothing : Unconcerned [] := fun _ => ⟨rfl, rfl⟩
  have same (trace : after.trace = before.trace) : ∃ more, after.trace = before.trace ++ more ∧ Unconcerned more :=
    ⟨[], by rw [trace, List.append_nil], nothing⟩
  cases action with
  | answer completion connection popped live matching inFlight fits =>
    exact .inr ⟨completion, connection, popped, live, matching, rfl⟩
  | close fd connection live => exact .inl ⟨_, rfl, fun _ => ⟨rfl, rfl⟩⟩
  | advance fd connection offset reaches onward within => exact .inl ⟨_, rfl, fun _ => ⟨rfl, rfl⟩⟩
  | refuse fd connection read hears fits => exact .inl ⟨_, rfl, fun _ => ⟨rfl, rfl⟩⟩
  | dispatch fd connection read hears running => exact .inl ⟨_, rfl, fun _ => ⟨rfl, rfl⟩⟩
  | overload fd connection read hears fits => exact .inl ⟨_, rfl, fun _ => ⟨rfl, rfl⟩⟩
  | connect fd clientIp unused running => exact .inl ⟨_, rfl, fun _ => ⟨rfl, rfl⟩⟩
  | turnAway fd unused running =>
    refine .inl ⟨[.accepted fd none, .closed fd], ?_, fun _ => ⟨rfl, rfl⟩⟩
    show (before.trace ++ [_]) ++ [_] = _
    rw [List.append_assoc]
    rfl
  | drain noticed asked running =>
    revert same
    cases before.listenerFd with
    | none => exact fun same => .inl (same rfl)
    | some fd => exact fun _ => .inl ⟨_, rfl, fun _ => ⟨rfl, rfl⟩⟩
  | _ => exact .inl (same rfl)

theorem action_processings {context : Context} {before after : Worker} (action : Action context before after)
    (index : Nat) : processings index after.trace = processings index before.trace := by
  rcases action_trace action with ⟨more, trace, unconcerned⟩ | ⟨_, _, _, _, _, trace⟩
  · rw [trace, processings_append, (unconcerned index).1, Nat.add_zero]
  · rw [trace, processings_append]
    rfl

def Task.published (task : Task) : Option HttpResponse :=
  match task.progress with
  | .posted response | .notified response => some response
  | .queued | .handled _ => none

def publications (index : Nat) (tasks : List Task) : Nat :=
  if ((tasks[index]?).bind Task.published).isSome then 1 else 0

theorem publications_le_one (index : Nat) (tasks : List Task) : publications index tasks ≤ 1 := by
  unfold publications
  split
  · exact le_rfl
  · exact Nat.zero_le _

def Genuine (tasks : List Task) (completion : Completion) : Prop :=
  ∃ task response, tasks[completion.task]? = some task ∧ Task.published task = some response ∧
    completion = completionOf completion.task task response

/-- The bytes are the response of the task, and the task's request was read on the connection. -/
def Addressed (tasks : List Task) (serial index : Nat) (bytes : Bytes) : Prop :=
  ∃ task response, tasks[index]? = some task ∧ Task.published task = some response ∧
    bytes = response.toString ∧ task.serial = serial

def Grows (before after : List Task) : Prop :=
  ∀ (index : Nat) (task : Task) (response : HttpResponse), before[index]? = some task →
    Task.published task = some response → ∃ progress, after[index]? = some { task with progress := progress } ∧
      Task.published { task with progress := progress } = some response

theorem grows_refl (tasks : List Task) : Grows tasks tasks := by
  intro index task response found published
  exact ⟨task.progress, found, published⟩

theorem grows_append (tasks : List Task) (task : Task) : Grows tasks (tasks ++ [task]) := by
  intro index earlier response found published
  refine ⟨earlier.progress, ?_, published⟩
  rw [List.getElem?_append_left (List.getElem?_eq_some_iff.mp found).1]
  exact found

theorem grows_set (tasks : List Task) (index : Nat) (task : Task) (progress : Progress)
    (found : tasks[index]? = some task)
    (kept : ∀ response, Task.published task = some response →
      Task.published { task with progress := progress } = some response) :
    Grows tasks (tasks.set index { task with progress := progress }) := by
  intro other earlier response present published
  obtain ⟨inside, _⟩ := List.getElem?_eq_some_iff.mp found
  by_cases here : index = other
  · subst here
    cases found.symm.trans present
    exact ⟨progress, List.getElem?_set_self inside, kept response published⟩
  · exact ⟨earlier.progress, by rw [List.getElem?_set_ne here]; exact present, published⟩

theorem Grows.genuine {before after : List Task} (grows : Grows before after) {completion : Completion}
    (genuine : Genuine before completion) : Genuine after completion := by
  obtain ⟨task, response, found, published, shape⟩ := genuine
  obtain ⟨progress, later, still⟩ := grows _ task response found published
  exact ⟨_, response, later, still, shape⟩

theorem Grows.addressed {before after : List Task} (grows : Grows before after) {serial index : Nat} {bytes : Bytes}
    (addressed : Addressed before serial index bytes) : Addressed after serial index bytes := by
  obtain ⟨task, response, found, published, same, own⟩ := addressed
  obtain ⟨progress, later, still⟩ := grows _ task response found published
  exact ⟨_, response, later, still, same, own⟩

theorem Grows.publications {before after : List Task} (grows : Grows before after) (index : Nat) :
    publications index before ≤ publications index after := by
  unfold Isolation.publications
  split
  next some =>
    obtain ⟨response, bound⟩ := Option.isSome_iff_exists.mp some
    obtain ⟨task, found, published⟩ := Option.bind_eq_some_iff.mp bound
    obtain ⟨progress, later, still⟩ := grows index task response found published
    simp [later, still]
  next => exact Nat.zero_le _

def travelling (index : Nat) (worker : Worker) : Nat :=
  (worker.completions ++ worker.completed).countP fun completion => completion.task == index

structure Isolated (worker : Worker) : Prop where
  identified : Identified worker
  tasks : ∀ task ∈ worker.tasks, task.serial < worker.accepted ∧ task.generation = generationOf task.serial
  genuine : ∀ completion ∈ worker.completions ++ worker.completed, Genuine worker.tasks completion
  single : ∀ index, processings index worker.trace + travelling index worker ≤ publications index worker.tasks
  delivered : ∀ index, deliveries index worker.trace ≤ processings index worker.trace
  addressed : worker.accepted < 2 ^ 64 → ∀ serial index bytes,
    .appended serial (.completion index) bytes ∈ worker.trace → Addressed worker.tasks serial index bytes

def Held (worker : Worker) (completion : Completion) : Prop :=
  Genuine worker.tasks completion ∧
    deliveries completion.task worker.trace < processings completion.task worker.trace

theorem unconcerned_mem {effects : List Effect} (unconcerned : Unconcerned effects) (serial index : Nat)
    (bytes : Bytes) : .appended serial (.completion index) bytes ∉ effects := by
  intro member
  have none := List.countP_eq_zero.mp (unconcerned index).2 _ member
  simp [Effect.delivers] at none

theorem action_accepted {context : Context} {before after : Worker} (action : Action context before after) :
    before.accepted ≤ after.accepted := by
  rcases action_continues action with ⟨fd, clientIp, _, rfl⟩ | ⟨_, accepted, _⟩
  · exact Nat.le_succ _
  · exact accepted.ge

theorem action_grows {context : Context} {before after : Worker} (action : Action context before after) :
    Grows before.tasks after.tasks := by
  rcases action_tasks action with ⟨_, tasks⟩ | ⟨_, _, task, _, _, _, _, tasks, _⟩
  · rw [tasks]
    exact grows_refl _
  · rw [tasks]
    exact grows_append _ task

/-- A response goes to the connection its completion was made for: generations of so few
connections are distinct. -/
theorem addressed_of_matching (worker : Worker) (completion : Completion) (fd : Nat) (connection : Connection)
    (isolated : Isolated worker) (few : worker.accepted < 2 ^ 64)
    (genuine : Genuine worker.tasks completion)
    (live : worker.connections.lookup fd = some connection)
    (matching : connection.generation = completion.generation) :
    Addressed worker.tasks connection.serial completion.task completion.serializedResponse := by
  obtain ⟨task, response, found, published, shape⟩ := genuine
  obtain ⟨known, generation⟩ := isolated.tasks task (List.mem_of_getElem? found)
  have own := isolated.identified.known fd connection live
  have generation' := isolated.identified.generation fd connection live
  have carried : completion.generation = task.generation := by rw [shape]; rfl
  refine ⟨task, response, found, published, by rw [shape]; rfl, ?_⟩
  apply generationOf_injective
  · omega
  · omega
  · rw [← generation, ← generation', matching, carried]

theorem action_isolated {context : Context} {before after : Worker} (action : Action context before after)
    (held : ∀ completion, context.completion = some completion → Held before completion)
    (isolated : Isolated before) : Isolated after where
  identified := action_identified action isolated.identified
  tasks := by
    have accepted := action_accepted action
    rcases action_tasks action with ⟨_, tasks⟩ | ⟨fd, connection, task, live, serial, generation, _, tasks, _⟩
    · rw [tasks]
      intro task member
      obtain ⟨known, generation⟩ := isolated.tasks task member
      exact ⟨by omega, generation⟩
    · rw [tasks]
      intro other member
      rcases List.mem_append.mp member with old | new
      · obtain ⟨known, generation⟩ := isolated.tasks other old
        exact ⟨by omega, generation⟩
      · rw [List.mem_singleton.mp new, serial, generation]
        have known := isolated.identified.known fd connection live
        exact ⟨by omega, isolated.identified.generation fd connection live⟩
  genuine := by
    obtain ⟨_, completions, completed⟩ := action_frame action
    rw [completions, completed]
    intro completion member
    exact (action_grows action).genuine (isolated.genuine completion member)
  single := by
    intro index
    obtain ⟨_, completions, completed⟩ := action_frame action
    have grown := (action_grows action).publications index
    have bound := isolated.single index
    rw [action_processings action]
    simp only [travelling, completions, completed] at bound ⊢
    omega
  delivered := by
    intro index
    have bound := isolated.delivered index
    rcases action_trace action with ⟨more, trace, unconcerned⟩ | ⟨completion, connection, popped, _, _, trace⟩
    · rw [trace, processings_append, deliveries_append, (unconcerned index).1, (unconcerned index).2]
      exact bound
    · rw [trace, processings_append, deliveries_append]
      have undelivered := (held completion popped).2
      by_cases own : completion.task = index
      · subst own
        simp only [deliveries, processings, List.countP_singleton, Effect.delivers, Effect.processes] at undelivered ⊢
        simpa using undelivered
      · simpa [deliveries, processings, Effect.delivers, Effect.processes, own] using bound
  addressed := by
    intro few serial index bytes member
    have few' := lt_of_le_of_lt (action_accepted action) few
    have grown := action_grows action
    rcases action_trace action with ⟨more, trace, unconcerned⟩ | ⟨completion, connection, popped, live, matching, trace⟩
    · rw [trace] at member
      rcases List.mem_append.mp member with old | new
      · exact grown.addressed (isolated.addressed few' serial index bytes old)
      · exact absurd new (unconcerned_mem unconcerned serial index bytes)
    · rw [trace] at member
      rcases List.mem_append.mp member with old | new
      · exact grown.addressed (isolated.addressed few' serial index bytes old)
      · cases List.mem_singleton.mp new
        exact grown.addressed
          (addressed_of_matching before completion _ connection isolated few' (held completion popped).1 live matching)

theorem Isolated.frame {before after : Worker} (isolated : Isolated before) (identified : Identified after)
    (accepted : after.accepted = before.accepted) (tasks : after.tasks = before.tasks)
    (queues : after.completions ++ after.completed = before.completions ++ before.completed)
    (trace : ∃ more, after.trace = before.trace ++ more ∧ Unconcerned more) : Isolated after := by
  obtain ⟨more, trace, unconcerned⟩ := trace
  refine ⟨identified, ?_, ?_, ?_, ?_, ?_⟩
  · rw [accepted, tasks]
    exact isolated.tasks
  · rw [queues, tasks]
    exact isolated.genuine
  · intro index
    rw [tasks, trace, processings_append, (unconcerned index).1, travelling, queues]
    exact isolated.single index
  · intro index
    rw [trace, processings_append, deliveries_append, (unconcerned index).1, (unconcerned index).2]
    exact isolated.delivered index
  · intro few serial index bytes member
    rw [accepted] at few
    rw [trace] at member
    rw [tasks]
    rcases List.mem_append.mp member with old | new
    · exact isolated.addressed few serial index bytes old
    · exact absurd new (unconcerned_mem unconcerned serial index bytes)

theorem unconcerned_nil (trace : List Effect) : ∃ more, trace = trace ++ more ∧ Unconcerned more :=
  ⟨[], (List.append_nil _).symm, fun _ => ⟨rfl, rfl⟩⟩

theorem exit_trace (completed : Bool) (worker : Worker) :
    ∃ more, (worker.exit completed).trace = worker.trace ++ more ∧ Unconcerned more := by
  unfold Worker.exit
  dsimp only
  split
  · exact ⟨[.closed worker.completionFd], rfl, fun _ => ⟨rfl, rfl⟩⟩
  next fd _ =>
    refine ⟨[.closed fd, .closed worker.completionFd], ?_, fun _ => ⟨rfl, rfl⟩⟩
    show (worker.trace ++ [_]) ++ [_] = _
    rw [List.append_assoc]
    rfl

theorem chain_isolated {context : Context} {before after : Worker} (empty : context.completion = none)
    (chain : Chain context before after) (isolated : Isolated before) : Isolated after :=
  chain.preserves Isolated
    (fun _ _ action => action_isolated action fun _ popped => by cases empty.symm.trans popped) isolated

theorem processings_pop (worker : Worker) (completion : Completion) (rest : List Completion) (index : Nat) :
    processings index (worker.pop completion rest).trace =
      processings index worker.trace + if completion.task == index then 1 else 0 := by
  show processings index (worker.trace ++ [_]) = _
  rw [processings_append]
  simp [processings, List.countP_singleton, Effect.processes]

theorem Isolated.pop {worker : Worker} (isolated : Isolated worker) (completion : Completion)
    (rest : List Completion) (queued : worker.completed = completion :: rest) :
    Isolated (worker.pop completion rest) ∧ Held (worker.pop completion rest) completion := by
  have member : completion ∈ worker.completions ++ worker.completed := by simp [queued]
  have processed := processings_pop worker completion rest
  have undelivered (index : Nat) : deliveries index (worker.pop completion rest).trace =
      deliveries index worker.trace := by
    show deliveries index (worker.trace ++ [_]) = _
    rw [deliveries_append]
    rfl
  have genuine : Genuine worker.tasks completion := isolated.genuine completion member
  refine ⟨⟨isolated.identified.quiet ⟨rfl, rfl, rfl, [.processed completion.task], rfl, rfl⟩, isolated.tasks, ?_, ?_, ?_, ?_⟩, genuine, ?_⟩
  · intro other inside
    apply isolated.genuine other
    rw [queued]
    rcases List.mem_append.mp inside with left | right
    · exact List.mem_append_left _ left
    · exact List.mem_append_right _ (List.mem_cons_of_mem _ right)
  · intro index
    have bound := isolated.single index
    rw [processed index]
    simp only [travelling, queued, List.countP_append, List.countP_cons] at bound
    show processings index worker.trace + _ + (worker.completions ++ rest).countP _ ≤ publications index worker.tasks
    rw [List.countP_append]
    omega
  · intro index
    have bound := isolated.delivered index
    rw [processed, undelivered]
    omega
  · intro few serial index bytes inside
    rcases List.mem_append.mp inside with old | new
    · exact isolated.addressed few serial index bytes old
    · cases List.mem_singleton.mp new
  · have bound := isolated.delivered completion.task
    rw [processed, undelivered]
    simp only [beq_self_eq_true, if_true]
    omega

theorem Isolated.advanceTask {worker after : Worker} (isolated : Isolated worker) (index : Nat) (task : Task)
    (progress : Progress) (found : worker.tasks[index]? = some task)
    (identified : Identified after) (accepted : after.accepted = worker.accepted)
    (tasks : after.tasks = worker.tasks.set index { task with progress := progress })
    (trace : after.trace = worker.trace)
    (kept : ∀ response, Task.published task = some response →
      Task.published { task with progress := progress } = some response)
    (genuine : ∀ completion ∈ after.completions ++ after.completed,
      completion ∈ worker.completions ++ worker.completed ∨ Genuine after.tasks completion)
    (single : ∀ other, travelling other after + publications other worker.tasks ≤
      travelling other worker + publications other after.tasks) : Isolated after := by
  have grows : Grows worker.tasks after.tasks := by
    rw [tasks]
    exact grows_set worker.tasks index task progress found kept
  refine ⟨identified, ?_, ?_, ?_, ?_, ?_⟩
  · rw [accepted, tasks]
    intro other member
    rcases List.mem_or_eq_of_mem_set member with old | rfl
    · exact isolated.tasks other old
    · exact isolated.tasks task (List.mem_of_getElem? found)
  · intro completion member
    rcases genuine completion member with old | new
    · exact grows.genuine (isolated.genuine completion old)
    · exact new
  · intro other
    have bound := isolated.single other
    have moved := single other
    rw [trace]
    omega
  · rw [trace]
    exact isolated.delivered
  · rw [trace, accepted]
    intro few serial other bytes member
    exact grows.addressed (isolated.addressed few serial other bytes member)

theorem push_single (worker : Worker) (index other : Nat) (task : Task) (response : HttpResponse)
    (found : worker.tasks[index]? = some task) (handled : task.progress = .handled response) :
    (worker.completions ++ [completionOf index task response] ++ worker.completed).countP (·.task == other) +
        publications other worker.tasks ≤
      travelling other worker + publications other (worker.tasks.set index { task with progress := .posted response }) := by
  obtain ⟨inside, _⟩ := List.getElem?_eq_some_iff.mp found
  simp only [travelling, List.countP_append, List.countP_singleton, completionOf]
  by_cases here : index = other
  · subst here
    have before : publications index worker.tasks = 0 := by simp [publications, found, Task.published, handled]
    have after : publications index (worker.tasks.set index { task with progress := .posted response }) = 1 := by
      simp [publications, List.getElem?_set_self inside, Task.published]
    simp only [before, after, beq_self_eq_true, if_true]
    omega
  · have same : publications other (worker.tasks.set index { task with progress := .posted response }) =
        publications other worker.tasks := by
      simp [publications, List.getElem?_set_ne here]
    simp only [same, beq_iff_eq, here, if_false]
    omega

theorem transition_isolated {permits : Permits} {label : Label} {before after : Worker}
    (transition : Transition permits label before after) (accounted : Accounted before) (isolated : Isolated before) :
    Isolated after := by
  have identified := transition_identified transition isolated.identified
  cases transition with
  | stop test tested stops =>
    obtain ⟨tasks, _, completions, completed, _⟩ := exit_frame true before
    exact isolated.frame identified (quiet_exit true before).accepted tasks (by rw [completions, completed])
      (exit_trace true before)
  | fail waited =>
    obtain ⟨tasks, _, completions, completed, _⟩ := exit_frame false before
    exact isolated.frame identified (quiet_exit false before).accepted tasks (by rw [completions, completed])
      (exit_trace false before)
  | handle called ready rest last handled chain drained =>
    exact (chain_isolated rfl chain isolated).frame identified rfl rfl rfl (unconcerned_nil _)
  | notice called ready rest last handled chain drained =>
    exact (chain_isolated rfl chain isolated).frame identified rfl rfl rfl (unconcerned_nil _)
  | finish last finished chain drained forgotten =>
    exact (chain_isolated rfl chain isolated).frame identified rfl rfl rfl (unconcerned_nil _)
  | collect caller collected =>
    have none := accounted.local_empty (by simp [collected])
    apply isolated.frame identified rfl rfl _ (unconcerned_nil _)
    rw [none, List.append_nil, List.nil_append]
  | apply caller completion rest landed last applied queued lands chain =>
    obtain ⟨popped, held⟩ := isolated.pop completion rest queued
    have landing : Isolated landed := by
      rcases lands with rfl | action
      · exact popped
      · apply action_isolated action _ popped
        intro other same
        cases same
        exact held
    exact (chain_isolated rfl chain landing).frame identified rfl rfl rfl (unconcerned_nil _)
  | run index task response found queued =>
    apply isolated.advanceTask index task (.handled response) found identified rfl rfl rfl
    · intro response published
      simp [Task.published, queued] at published
    · exact fun completion member => .inl member
    · intro other
      have grown := (grows_set before.tasks index task (.handled response) found
        fun _ published => by simp [Task.published, queued] at published).publications other
      exact Nat.add_le_add_left grown _
  | push index task response found handled =>
    obtain ⟨inside, _⟩ := List.getElem?_eq_some_iff.mp found
    apply isolated.advanceTask index task (.posted response) found identified rfl rfl rfl
    · intro response published
      simp [Task.published, handled] at published
    · intro completion member
      rcases List.mem_append.mp member with pushed | left
      · rcases List.mem_append.mp pushed with old | new
        · exact .inl (List.mem_append_left _ old)
        · right
          rw [List.mem_singleton.mp new]
          exact ⟨_, response, List.getElem?_set_self inside, rfl, rfl⟩
      · exact .inl (List.mem_append_right _ left)
    · exact fun other => push_single before index other task response found handled
  | notify index task response found posted =>
    have kept (earlier : HttpResponse) (published : Task.published task = some earlier) :
        Task.published { task with progress := .notified response } = some earlier := by
      simpa [Task.published, posted] using published
    apply isolated.advanceTask index task (.notified response) found identified rfl rfl rfl kept
    · exact fun completion member => .inl member
    · intro other
      have grown := (grows_set before.tasks index task (.notified response) found kept).publications other
      exact Nat.add_le_add_left grown _
  | _ => exact isolated.frame identified rfl rfl rfl (unconcerned_nil _)

theorem start_isolated (workerId listenerFd completionFd : Nat) :
    Isolated (start workerId listenerFd completionFd) where
  identified := start_identified workerId listenerFd completionFd
  tasks := nofun
  genuine := nofun
  single := fun _ => Nat.zero_le _
  delivered := fun _ => Nat.zero_le _
  addressed := nofun

theorem run_isolated (workerId listenerFd completionFd : Nat) (labels : List Label) :
    Isolated (run step (start workerId listenerFd completionFd) labels) := by
  have both := run_invariant step (fun worker => Accounted worker ∧ Isolated worker) (fun _ => True)
    (fun worker label _ invariant => by
      have transition := any_transition worker label
      exact ⟨transition_accounted transition invariant.1, transition_isolated transition invariant.1 invariant.2⟩)
    (start workerId listenerFd completionFd) labels (fun _ _ => trivial)
    ⟨(start_settled workerId listenerFd completionFd).accounted, start_isolated workerId listenerFd completionFd⟩
  exact both.2

/-- Without the connection it was made for, a completion finds none with its generation. -/
theorem deliver_gone (worker : Worker) (completion : Completion) (task : Task) (script : Script)
    (isolated : Isolated worker) (few : worker.accepted < 2 ^ 64) (genuine : Genuine worker.tasks completion)
    (found : worker.tasks[completion.task]? = some task)
    (gone : ∀ fd connection, worker.connections.lookup fd = some connection → connection.serial ≠ task.serial) :
    deliver completion ⟨worker, script⟩ = ⟨worker, script⟩ := by
  unfold deliver
  split
  · rfl
  next connection live =>
    split
    next matching =>
      rw [Bool.and_eq_true_iff, decide_eq_true_eq] at matching
      obtain ⟨other, response, found', _, _, own⟩ :=
        addressed_of_matching worker completion _ connection isolated few genuine live matching.1
      cases found.symm.trans found'
      exact absurd own.symm (gone _ connection live)
    next => rfl

/-- As long as fewer than 2^64 connections were accepted: every connection has the generation
of its serial number; a response is appended only to the connection its request was read on;
no completion is popped or delivered twice; and one whose connection is gone leaves all
connections as they are. -/
theorem responses_isolated (workerId listenerFd completionFd : Nat) (labels : List Label)
    (few : (run step (start workerId listenerFd completionFd) labels).accepted < 2 ^ 64) :
    let worker := run step (start workerId listenerFd completionFd) labels
    (∀ fd connection, worker.connections.lookup fd = some connection →
        connection.generation = generationOf connection.serial) ∧
      (∀ serial index bytes, .appended serial (.completion index) bytes ∈ worker.trace →
        ∃ task response, worker.tasks[index]? = some task ∧ Task.published task = some response ∧
          bytes = response.toString ∧ task.serial = serial ∧ task.generation = generationOf serial) ∧
      (∀ index, processings index worker.trace ≤ 1 ∧ deliveries index worker.trace ≤ 1) ∧
      ∀ caller completion rest task script, worker.phase = .applying caller →
        worker.completed = completion :: rest → worker.tasks[completion.task]? = some task →
        (∀ fd connection, worker.connections.lookup fd = some connection → connection.serial ≠ task.serial) →
        (step worker (.apply script)).connections = worker.connections := by
  intro worker
  have isolated : Isolated worker := run_isolated workerId listenerFd completionFd labels
  refine ⟨isolated.identified.generation, ?_, ?_, ?_⟩
  · intro serial index bytes member
    obtain ⟨task, response, found, published, same, own⟩ := isolated.addressed few serial index bytes member
    refine ⟨task, response, found, published, same, own, ?_⟩
    rw [← own]
    exact (isolated.tasks task (List.mem_of_getElem? found)).2
  · intro index
    have single := isolated.single index
    have delivered := isolated.delivered index
    have once := publications_le_one index worker.tasks
    omega
  · intro caller completion rest task script applied queued found gone
    have popped := (isolated.pop completion rest queued).1
    have genuine := (isolated.pop completion rest queued).2.1
    simp only [step, applied, queued, applyCompletion]
    rw [deliver_gone _ completion task script popped few genuine found gone]
    rfl

/-- The first client hangs up before its response is there; the second gets its descriptor
and has a request in flight when the response comes. -/
def reusedDescriptor : List Label :=
  handled ++ iteration {} ++ [.wait (.ready [(7, { hangup := true })]), .handle {}] ++ iteration {} ++
  [.wait (.ready [(5, { input := true })]),
    .handle { accepts := [.client 7 (some (text "10.0.0.2")) true true] }] ++ iteration {} ++
  [.wait (.ready [(7, { input := true })]), .handle { reads := [.bytes request] },
    .push 0, .notify 0, .iterate, .collect, .apply {}]

theorem responses_isolated_reused_descriptor :
    (run step (start 0 5 6) reusedDescriptor).accepted = 2 ∧
      processings 0 (run step (start 0 5 6) reusedDescriptor).trace = 1 ∧
      ((run step (start 0 5 6) reusedDescriptor).connections.lookup 7).map Connection.requestInFlight = some true ∧
      ∀ index, processings index (run step (start 0 5 6) reusedDescriptor).trace ≤ 1 ∧
        deliveries index (run step (start 0 5 6) reusedDescriptor).trace ≤ 1 :=
  ⟨by decide +kernel, by decide +kernel, by decide +kernel,
    (responses_isolated 0 5 6 reusedDescriptor (by decide +kernel)).2.2.1⟩

end FleetGateway.Network.Isolation
