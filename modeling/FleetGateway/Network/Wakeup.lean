import FleetGateway.Network.Interest

/-! Completions on their way back to the loop: none is lost between its push and its delivery, and the
loop is woken for each of them. -/

namespace FleetGateway.Network.Wakeup
open Library Library.ByteStore Library.Run Http.Parser Http.Response Monitoring.Counters EventLoop Actions Transitions
open Identity Dispatch Lifetime Isolation Outstanding Descriptors Interest

def Tracked (worker : Worker) : Prop :=
  ∀ index, publications index worker.tasks ≤ processings index worker.trace + travelling index worker

theorem publications_concat (tasks : List Task) (task : Task) (index : Nat) (queued : task.progress = .queued) :
    publications index (tasks ++ [task]) = publications index tasks := by
  unfold publications
  by_cases inside : index < tasks.length
  · rw [List.getElem?_append_left inside]
  · rw [List.getElem?_append_right (Nat.le_of_not_lt inside), List.getElem?_eq_none (Nat.le_of_not_lt inside)]
    cases behind : index - tasks.length with
    | zero => simp [Task.published, queued]
    | succ more => simp

theorem publications_set (tasks : List Task) (index other : Nat) (task : Task) :
    publications other (tasks.set index task) ≤ publications other tasks + if index = other then 1 else 0 := by
  by_cases here : index = other
  · rw [if_pos here]
    exact (publications_le_one other _).trans (Nat.le_add_left 1 _)
  · rw [if_neg here]
    unfold publications
    rw [List.getElem?_set_ne here]
    exact Nat.le_refl _

theorem action_tracked {context : Context} {before after : Worker} (action : Action context before after)
    (tracked : Tracked before) : Tracked after := by
  intro index
  obtain ⟨_, completions, completed⟩ := action_frame action
  have same : publications index after.tasks = publications index before.tasks := by
    rcases action_tasks action with ⟨_, tasks⟩ | ⟨_, _, task, _, _, _, queued, tasks, _⟩
    · rw [tasks]
    · rw [tasks, publications_concat before.tasks task index queued]
  have bound := tracked index
  rw [same, action_processings action]
  simp only [travelling, completions, completed] at bound ⊢
  exact bound

theorem chain_tracked {context : Context} {before after : Worker} (chain : Chain context before after)
    (tracked : Tracked before) : Tracked after :=
  chain.preserves Tracked (fun _ _ => action_tracked) tracked

theorem Tracked.pop {worker : Worker} (tracked : Tracked worker) (completion : Completion) (rest : List Completion)
    (queued : worker.completed = completion :: rest) : Tracked (worker.pop completion rest) := by
  intro index
  have bound := tracked index
  simp only [travelling, queued, List.countP_append, List.countP_cons] at bound
  rw [processings_pop worker completion rest index]
  show publications index worker.tasks ≤ _ + (worker.completions ++ rest).countP _
  rw [List.countP_append]
  omega

theorem transition_tracked {permits : Permits} {label : Label} {before after : Worker}
    (transition : Transition permits label before after) (accounted : Accounted before) (tracked : Tracked before) :
    Tracked after := by
  have left (completed : Bool) : Tracked (before.exit completed) := by
    obtain ⟨tasks, _, completions, done, _⟩ := exit_frame completed before
    obtain ⟨more, trace, unconcerned⟩ := exit_trace completed before
    intro index
    rw [tasks, trace, processings_append, (unconcerned index).1, travelling, completions, done]
    exact tracked index
  cases transition with
  | stop test tested stops => exact left true
  | fail waited => exact left false
  | handle called ready rest last handled chain drained =>
    have kept := chain_tracked chain tracked
    exact kept
  | notice called ready rest last handled chain drained =>
    have kept := chain_tracked chain tracked
    exact kept
  | finish last finished chain drained forgotten =>
    have kept := chain_tracked chain tracked
    exact kept
  | collect caller collected =>
    intro index
    have none := accounted.local_empty (by simp [collected])
    have bound := tracked index
    simp only [travelling, none, List.append_nil, List.nil_append] at bound ⊢
    exact bound
  | apply caller completion rest landed last applied queued lands chain =>
    have popped := tracked.pop completion rest queued
    have landing : Tracked landed := by
      rcases lands with same | action
      · rw [same]
        exact popped
      · exact action_tracked action popped
    have kept := chain_tracked chain landing
    exact kept
  | run index task response found queued =>
    intro other
    refine le_trans ?_ (tracked other)
    by_cases here : index = other
    · have nothing : publications other (before.setTask index task (.handled response)).tasks = 0 := by
        simp [← here, publications, Worker.setTask, (List.getElem?_eq_some_iff.mp found).1, Task.published]
      rw [nothing]
      exact Nat.zero_le _
    · have bound := publications_set before.tasks index other { task with progress := .handled response }
      rw [if_neg here] at bound
      exact bound
  | push index task response found handled =>
    intro other
    have bound := publications_set before.tasks index other { task with progress := .posted response }
    have pushed : (before.completions ++ [completionOf index task response] ++ before.completed).countP (·.task == other) =
        travelling other before + if index = other then 1 else 0 := by
      simp only [travelling, List.countP_append, List.countP_singleton, completionOf, beq_iff_eq]
      omega
    calc publications other (before.tasks.set index { task with progress := .posted response })
        ≤ publications other before.tasks + if index = other then 1 else 0 := bound
      _ ≤ processings other before.trace + travelling other before + if index = other then 1 else 0 :=
        Nat.add_le_add_right (tracked other) _
      _ = processings other before.trace +
          (before.completions ++ [completionOf index task response] ++ before.completed).countP (·.task == other) := by
        rw [pushed, Nat.add_assoc]
  | notify index task response found posted =>
    intro other
    refine le_trans ?_ (tracked other)
    by_cases here : index = other
    · have once : publications other before.tasks = 1 := by simp [← here, publications, found, Task.published, posted]
      rw [once]
      exact publications_le_one other _
    · have bound := publications_set before.tasks index other { task with progress := .notified response }
      rw [if_neg here] at bound
      exact bound
  | _ => exact tracked

/-- A completion in the shared queue is announced, or its task is still to announce it. -/
def Noted (worker : Worker) : Prop :=
  worker.completions = [] ∨ 0 < worker.notifications ∨ ∃ task ∈ worker.tasks, Lifetime.Task.unwritten task = true

/-- The loop takes a notification away just before it takes the completions. -/
def Announced (worker : Worker) : Prop := Noted worker ∨ ∃ caller, worker.phase = .collecting caller

theorem retire_notifications (listener : Option Nat) (worker : Worker) :
    (worker.retire listener).notifications = worker.notifications := by
  cases listener with
  | none => rfl
  | some fd => rfl

theorem action_notifications {context : Context} {before after : Worker} (action : Action context before after) :
    after.notifications = before.notifications := by
  cases action with
  | drain noticed asked running => exact retire_notifications _ _
  | _ => rfl

theorem Noted.keep {before after : Worker} (noted : Noted before) (completions : after.completions = before.completions)
    (notifications : after.notifications = before.notifications)
    (unwritten : ∀ task ∈ before.tasks, Lifetime.Task.unwritten task = true → task ∈ after.tasks) : Noted after := by
  rcases noted with empty | told | ⟨task, member, writes⟩
  · exact .inl (completions.trans empty)
  · exact .inr (.inl (notifications ▸ told))
  · exact .inr (.inr ⟨task, unwritten task member writes, writes⟩)

theorem action_noted {context : Context} {before after : Worker} (action : Action context before after)
    (noted : Noted before) : Noted after := by
  apply noted.keep (action_frame action).2.1 (action_notifications action)
  intro task member _
  rcases action_tasks action with ⟨_, tasks⟩ | ⟨_, _, _, _, _, _, _, tasks, _⟩
  · rw [tasks]
    exact member
  · rw [tasks]
    exact List.mem_append_left _ member

theorem chain_noted {context : Context} {before after : Worker} (chain : Chain context before after)
    (noted : Noted before) : Noted after :=
  chain.preserves Noted (fun _ _ => action_noted) noted

theorem Announced.noted {worker : Worker} (announced : Announced worker)
    (elsewhere : ∀ caller, worker.phase ≠ .collecting caller) : Noted worker := by
  rcases announced with noted | ⟨caller, collecting⟩
  · exact noted
  · exact absurd collecting (elsewhere caller)

theorem exit_noted {worker : Worker} (completed : Bool) (noted : Noted worker) : Noted (worker.exit completed) := by
  obtain ⟨tasks, _, completions, _, _⟩ := exit_frame completed worker
  apply noted.keep completions
  · unfold Worker.exit
    dsimp only
    split
    · rfl
    · rfl
  · rw [tasks]
    exact fun _ member _ => member

theorem mem_set_unwritten {tasks : List Task} {index : Nat} {task other : Task} (next : Task)
    (found : tasks[index]? = some task) (silent : Lifetime.Task.unwritten task = false) (member : other ∈ tasks)
    (writes : Lifetime.Task.unwritten other = true) : other ∈ tasks.set index next := by
  obtain ⟨place, there⟩ := List.mem_iff_getElem?.mp member
  have apart : index ≠ place := by
    intro same
    rw [same, there, Option.some.injEq] at found
    rw [found, silent] at writes
    exact absurd writes Bool.noConfusion
  apply List.mem_of_getElem?
  rw [List.getElem?_set_ne apart]
  exact there

theorem transition_announced {permits : Permits} {label : Label} {before after : Worker}
    (transition : Transition permits label before after) (announced : Announced before) : Announced after := by
  cases transition with
  | idle => exact announced
  | shutdown => exact announced
  | stop test tested stops => exact .inl (exit_noted true (announced.noted (by simp [tested])))
  | fail waited => exact .inl (exit_noted false (announced.noted (by simp [waited])))
  | proceed tested =>
    have noted := announced.noted (by simp [tested])
    exact .inl noted
  | wake batch waited reported =>
    have noted := announced.noted (by simp [waited])
    exact .inl noted
  | retry waited =>
    have noted := announced.noted (by simp [waited])
    exact .inl noted
  | handle called ready rest last handled chain drained =>
    have noted := chain_noted chain (announced.noted (by simp [handled]))
    exact .inl noted
  | notice called ready rest last handled chain drained => exact .inr ⟨_, rfl⟩
  | iterate handled => exact .inr ⟨_, rfl⟩
  | collect caller collected => exact .inl (.inl rfl)
  | resume caller applied done =>
    have noted := announced.noted (by simp [applied])
    exact .inl noted
  | apply caller completion rest landed last applied queued lands chain =>
    have noted := announced.noted (by simp [applied])
    have popped : Noted (before.pop completion rest) := noted
    have landing : Noted landed := by
      rcases lands with same | action
      · rw [same]
        exact popped
      · exact action_noted action popped
    have kept := chain_noted chain landing
    exact .inl kept
  | finish last finished chain drained forgotten =>
    have noted := chain_noted chain (announced.noted (by simp [finished]))
    exact .inl noted
  | run index task response found queued =>
    have silent : Lifetime.Task.unwritten task = false := by simp [Lifetime.Task.unwritten, queued]
    rcases announced with noted | collecting
    · exact .inl (noted.keep rfl rfl fun _ member writes => mem_set_unwritten _ found silent member writes)
    · exact .inr collecting
  | push index task response found handled =>
    refine .inl (.inr (.inr ⟨{ task with progress := .posted response }, ?_, rfl⟩))
    exact List.mem_of_getElem? (List.getElem?_set_self (List.getElem?_eq_some_iff.mp found).1)
  | notify index task response found posted => exact .inl (.inr (.inl (Nat.succ_pos _)))

/-! A callback changes the interest in the descriptors it is about, and the event descriptor is none of them. -/

def Narrow (fd : Nat) (before after : Worker) : Prop :=
  ∀ other, other ≠ fd → after.interest.lookup other = before.interest.lookup other

section Narrow

variable (fd : Nat) (machine : Machine)

theorem closeClient_narrow : Narrow fd machine.worker (closeClient fd machine).worker :=
  fun _ different => AList.lookup_erase_ne different

theorem watchOrClose_narrow (mask : Events) : Narrow fd machine.worker (watchOrClose fd mask machine).2.worker := by
  intro other different
  unfold watchOrClose
  split
  next watched call =>
    dsimp only
    rw [(modifyFd_spec _ _ _ _ _ call).1]
    exact AList.lookup_insert_ne different
  next unwatched call =>
    refine (closeClient_narrow fd unwatched other different).trans ?_
    rw [(modifyFd_spec _ _ _ _ _ call).1]
    rfl

theorem flushClient_narrow : Narrow fd machine.worker (flushClient fd machine).2.worker := by
  intro other different
  unfold flushClient
  split
  · rfl
  · split
    next ended sends left loop =>
    dsimp only
    cases ended with
    | failed => exact closeClient_narrow fd _ other different
    | blocked => exact watchOrClose_narrow fd _ _ other different
    | drained =>
      dsimp only
      split
      · exact closeClient_narrow fd _ other different
      · exact watchOrClose_narrow fd _ _ other different

theorem flushIdle_narrow : Narrow fd machine.worker (flushIdle fd machine).worker := by
  intro other different
  unfold flushIdle
  split
  · rfl
  · split
    · rfl
    · exact flushClient_narrow fd machine other different

theorem refuse_narrow (connection : Connection) : Narrow fd machine.worker (refuse fd connection machine).worker := by
  intro other different
  unfold refuse
  dsimp only
  split
  · exact closeClient_narrow fd _ other different
  · exact flushIdle_narrow fd _ other different

theorem dispatch_narrow (connection : Connection) : Narrow fd machine.worker (dispatch fd connection machine).worker := by
  intro other different
  unfold dispatch
  dsimp only
  split
  next unwatched call =>
    refine (closeClient_narrow fd unwatched other different).trans ?_
    rw [(modifyFd_spec _ _ _ _ _ call).1]
    rfl
  next watched call =>
    have begun : watched.worker.interest.lookup other = machine.worker.interest.lookup other := by
      rw [(modifyFd_spec _ _ _ _ _ call).1]
      exact AList.lookup_insert_ne different
    split
    · exact (flushIdle_narrow fd _ other different).trans begun
    · exact ((flushIdle_narrow fd _ other different).trans (flushClient_narrow fd _ other different)).trans begun

theorem handleClient_narrow : Narrow fd machine.worker (handleClient fd machine).worker := by
  intro other different
  unfold handleClient
  split
  · rfl
  · split
    next ended reads read loop =>
    dsimp only
    cases ended with
    | failed => exact closeClient_narrow fd _ other different
    | complained => exact closeClient_narrow fd _ other different
    | refused => exact refuse_narrow fd _ read other different
    | complete => exact dispatch_narrow fd _ read other different
    | blocked => exact flushIdle_narrow fd _ other different
    | peerClosed => exact flushIdle_narrow fd _ other different

theorem handleReady_narrow (events : Events) : Narrow fd machine.worker (handleReady fd events machine).worker := by
  intro other different
  unfold handleReady
  split
  · exact closeClient_narrow fd machine other different
  dsimp only
  generalize readEq : (if events.input = true then _ else machine) = read
  have reading : read.worker.interest.lookup other = machine.worker.interest.lookup other := by
    rw [← readEq]
    split
    · exact handleClient_narrow fd machine other different
    · rfl
  split
  · exact reading
  generalize hungEq : (if events.readHangup = true then _ else read) = hung
  have hanging : hung.worker.interest.lookup other = machine.worker.interest.lookup other := by
    rw [← hungEq]
    split
    · exact reading
    · exact reading
  generalize flushedEq : (if events.output = true then _ else hung) = flushed
  have flushing : flushed.worker.interest.lookup other = machine.worker.interest.lookup other := by
    rw [← flushedEq]
    split
    · exact (flushClient_narrow fd hung other different).trans hanging
    · exact hanging
  split
  · exact flushing
  · split
    · exact (closeClient_narrow fd flushed other different).trans flushing
    · exact flushing

theorem settle_narrow : Narrow fd machine.worker (settle machine fd).worker := by
  intro other different
  unfold settle
  split
  · rfl
  · split
    · rfl
    · split
      · exact flushClient_narrow fd machine other different
      · exact closeClient_narrow fd machine other different

theorem deliver_narrow (completion : Completion) :
    Narrow completion.clientFd machine.worker (deliver completion machine).worker := by
  intro other different
  unfold deliver
  split
  · rfl
  · split
    · dsimp only
      split
      · exact flushClient_narrow completion.clientFd _ other different
      · exact closeClient_narrow completion.clientFd _ other different
    · rfl

end Narrow

theorem foldl_elsewhere (fds : List Nat) (machine : Machine) (other : Nat) (outside : other ∉ fds) :
    (fds.foldl settle machine).worker.interest.lookup other = machine.worker.interest.lookup other := by
  induction fds generalizing machine with
  | nil => rfl
  | cons fd rest ih =>
    have apart := List.ne_of_not_mem_cons outside
    exact (ih (settle machine fd) (List.not_mem_of_not_mem_cons outside)).trans (settle_narrow fd machine other apart)

theorem sweep_elsewhere (machine : Machine) (other : Nat) (outside : other ∉ machine.worker.connections) :
    (sweep machine).worker.interest.lookup other = machine.worker.interest.lookup other := by
  apply foldl_elsewhere
  intro member
  apply outside
  unfold fileDescriptors at member
  rcases List.mem_append.mp member with named | unnamed
  · exact AList.mem_keys.mpr (of_decide_eq_true (List.mem_filter.mp named).2)
  · exact AList.mem_keys.mpr (List.mem_filter.mp unnamed).1

theorem acceptClients_elsewhere (outcomes : List AcceptOutcome) (worker : Worker) (other : Nat)
    (own : other ∈ worker.opened) :
    (acceptClients outcomes worker).2.interest.lookup other = worker.interest.lookup other := by
  induction outcomes generalizing worker with
  | nil => rfl
  | cons outcome rest ih =>
    unfold acceptClients
    split
    · rfl
    · cases outcome with
      | again => rfl
      | failed => rfl
      | interrupted => exact ih worker own
      | client fd address nonblocking registered =>
        dsimp only
        split
        · rfl
        next unused =>
          have different : other ≠ fd := fun same => unused (same ▸ own)
          have turned : other ∈ (worker.turnAway fd).opened := by
            show other ∈ (fd :: worker.opened).erase fd
            rw [List.erase_cons_head]
            exact own
          split
          · exact ih _ turned
          · split
            · refine (ih _ (List.mem_cons_of_mem _ own)).trans ?_
              exact AList.lookup_insert_ne different
            · exact ih _ turned

section Registered

variable {listener completion : Nat}

theorem outside_of_attended {worker : Worker} (attended : Attended listener completion worker) :
    completion ∉ worker.connections :=
  fun present => (attended.clients completion present).2.2 rfl

theorem beginDrain_elsewhere {machine : Machine} (attended : Attended listener completion machine.worker)
    (apart : listener ≠ completion) :
    (beginDrain machine.worker.listenerFd machine).2.worker.interest.lookup completion =
      machine.worker.interest.lookup completion := by
  unfold beginDrain
  split
  · rfl
  · have outside := outside_of_attended attended
    dsimp only
    rcases attended.listenerFd with gone | stays
    · rw [gone]
      exact sweep_elsewhere _ completion outside
    · rw [stays]
      refine Eq.trans (sweep_elsewhere _ completion outside) ?_
      exact AList.lookup_erase_ne (Ne.symm apart)

theorem noticeShutdown_elsewhere {machine : Machine} (attended : Attended listener completion machine.worker)
    (apart : listener ≠ completion) :
    (noticeShutdown machine).2.worker.interest.lookup completion = machine.worker.interest.lookup completion := by
  unfold noticeShutdown
  split
  · exact beginDrain_elsewhere attended apart
  · rfl

theorem handleEvent_elsewhere {machine : Machine} (ready : Ready) (rest : List Ready)
    (attended : Attended listener completion machine.worker) (apart : listener ≠ completion)
    (running : Phase.running machine.worker.phase = true) :
    (handleEvent ready rest machine).interest.lookup completion = machine.worker.interest.lookup completion := by
  have noticed := noticeShutdown_elsewhere attended apart
  have later : Attended listener completion (noticeShutdown machine).2.worker :=
    chain_attended (noticeShutdown_chain { notice := .event } machine fun _ _ => by decide).1 running attended
  have goes : Phase.running (noticeShutdown machine).2.worker.phase = true := by
    rw [(chain_frame (noticeShutdown_chain { notice := .event } machine fun _ _ => by decide).1).1]
    exact running
  unfold handleEvent
  dsimp only
  split
  · exact noticed
  next other =>
    split
    · refine Eq.trans ?_ noticed
      unfold handleListener
      split
      · rfl
      next drains =>
        split
        · rfl
        · split
          · exact acceptClients_elsewhere _ _ completion (later.own goes (Bool.eq_false_iff.mpr drains)).2
          · rfl
    · split
      · have different : completion ≠ ready.fd := by
          intro same
          exact other (same.symm.trans later.completionFd.symm)
        exact (handleReady_narrow ready.fd _ ready.events completion different).trans noticed
      · exact noticed

theorem finishIteration_elsewhere {machine : Machine} (attended : Attended listener completion machine.worker)
    (apart : listener ≠ completion) (running : Phase.running machine.worker.phase = true) :
    (finishIteration machine).interest.lookup completion = machine.worker.interest.lookup completion := by
  unfold finishIteration
  dsimp only
  generalize drainedEq : (if machine.worker.shutdownRequested = true then _ else machine) = drained
  have draining : drained.worker.interest.lookup completion = machine.worker.interest.lookup completion ∧
      completion ∉ drained.worker.connections := by
    rw [← drainedEq]
    split
    next asked =>
      refine ⟨beginDrain_elsewhere attended apart, ?_⟩
      have later : Attended listener completion (beginDrain machine.worker.listenerFd machine).2.worker :=
        chain_attended (beginDrain_chain { notice := .iteration } machine (by decide) asked).1 running attended
      have outside := outside_of_attended later
      exact outside
    next => exact ⟨rfl, outside_of_attended attended⟩
  split
  · exact (sweep_elsewhere drained completion draining.2).trans draining.1
  · exact draining.1

theorem step_elsewhere {worker : Worker} (label : Label) (attended : Attended listener completion worker)
    (apart : listener ≠ completion) :
    (step worker label).interest.lookup completion = worker.interest.lookup completion := by
  have exits (completed : Bool) : (worker.exit completed).interest = worker.interest := by
    unfold Worker.exit
    dsimp only
    split
    · rfl
    · rfl
  cases label with
  | handle script =>
    simp only [step]
    split
    next ready rest handled => exact handleEvent_elsewhere ready rest attended apart (by rw [handled]; rfl)
    next => rfl
  | finish script =>
    simp only [step]
    split
    next finished => exact finishIteration_elsewhere attended apart (by rw [finished]; rfl)
    next => rfl
  | apply script =>
    simp only [step]
    split
    · split
      · rfl
      next popped rest queued =>
        show (deliver popped ⟨worker.pop popped rest, script⟩).worker.interest.lookup completion = _
        have outside := outside_of_attended attended
        by_cases own : completion = popped.clientFd
        · have none : (worker.pop popped rest).connections.lookup popped.clientFd = none := by
            rw [← own]
            exact AList.lookup_eq_none.mpr outside
          unfold deliver
          rw [none]
          rfl
        · exact deliver_narrow _ popped completion own
    · rfl
  | test =>
    simp only [step]
    split
    · split
      · rw [exits]
      · rfl
    · rfl
  | wait outcome =>
    simp only [step]
    split
    · cases outcome with
      | ready batch =>
        dsimp only
        split
        · rfl
        · rfl
      | interrupted => rfl
      | failed => rw [exits]
    · rfl
  | requestShutdown => rfl
  | iterate =>
    simp only [step]
    split
    · rfl
    · rfl
  | collect =>
    simp only [step]
    split
    · rfl
    · rfl
  | runHandler index outcome =>
    simp only [step, Worker.runHandler]
    split
    · split
      · rfl
      · rfl
    · rfl
  | push index =>
    simp only [step, Worker.pushCompletion]
    split
    · split
      · rfl
      · rfl
    · rfl
  | notify index =>
    simp only [step, Worker.notify]
    split
    · split
      · rfl
      · rfl
    · rfl

end Registered

structure Awaits (worker : Worker) : Prop where
  accounted : Accounted worker
  tracked : Tracked worker
  announced : Announced worker

theorem run_awaits (workerId listenerFd completionFd : Nat) (labels : List Label) :
    Awaits (run step (start workerId listenerFd completionFd) labels) := by
  refine run_invariant step Awaits (fun _ => True) ?_ (start workerId listenerFd completionFd) labels
    (fun _ _ => trivial) ⟨(start_settled workerId listenerFd completionFd).accounted, fun _ => Nat.zero_le _, .inl (.inl rfl)⟩
  intro worker label _ awaits
  have transition := any_transition worker label
  exact ⟨transition_accounted transition awaits.accounted, transition_tracked transition awaits.accounted awaits.tracked,
    transition_announced transition awaits.announced⟩

theorem run_registered (workerId listenerFd completionFd : Nat) (labels : List Label) (apart : listenerFd ≠ completionFd) :
    (run step (start workerId listenerFd completionFd) labels).interest.lookup completionFd = some { input := true } := by
  induction labels using List.reverseRecOn with
  | nil =>
    calc (start workerId listenerFd completionFd).interest.lookup completionFd
        = ((∅ : AList (fun _ : Nat => Events)).insert completionFd { input := true }).lookup completionFd :=
          AList.lookup_insert_ne (Ne.symm apart)
      _ = some { input := true } := AList.lookup_insert _
  | append_singleton front label ih =>
    rw [run_append]
    exact (step_elsewhere label (run_attended workerId listenerFd completionFd front) apart).trans ih

/-- A task whose completion was not popped is in the pool, or its completion is in one of the queues. -/
theorem Tracked.somewhere {worker : Worker} (tracked : Tracked worker) (index : Nat) (task : Task)
    (found : worker.tasks[index]? = some task) (unpopped : processings index worker.trace = 0) :
    Lifetime.Task.unposted task = true ∨
      ∃ completion ∈ worker.completions ++ worker.completed, completion.task = index := by
  by_cases unposted : Lifetime.Task.unposted task = true
  · exact .inl unposted
  · have published : publications index worker.tasks = 1 := by
      unfold publications
      rw [found]
      cases progress : task.progress with
      | queued => exact absurd (by simp [Lifetime.Task.unposted, progress]) unposted
      | handled response => exact absurd (by simp [Lifetime.Task.unposted, progress]) unposted
      | posted response => simp [Task.published, progress]
      | notified response => simp [Task.published, progress]
    have bound := tracked index
    have under : 0 < travelling index worker := by omega
    obtain ⟨completion, member, same⟩ := List.countP_pos_iff.mp under
    exact .inr ⟨completion, member, beq_iff_eq.mp same⟩

/-- Between any two steps the loop has forgotten nobody. A live connection is registered for a hang-up;
without a request in flight also for bytes, and while something is to be sent for room, and if it is only
to be closed something is still to be sent; with one, a task is under way that names its descriptor and
its generation. The event descriptor stays registered, and it is readable as long as a completion waits in
the shared queue, unless the loop is about to take it or the task that pushed it is about to write. -/
theorem never_forgotten (workerId listenerFd completionFd : Nat) (apart : listenerFd ≠ completionFd)
    (labels : List Label) :
    let worker := run step (start workerId listenerFd completionFd) labels
    (∀ fd connection, worker.connections.lookup fd = some connection →
      (∃ mask, worker.interest.lookup fd = some mask ∧ mask.readHangup = true ∧
        (connection.requestInFlight = false →
          mask.input = true ∧ (connection.pendingBytes ≠ 0 → mask.output = true))) ∧
      (connection.requestInFlight = false → connection.peerClosed = true → connection.pendingBytes ≠ 0) ∧
      (connection.requestInFlight = true → ∃ index task, worker.tasks[index]? = some task ∧ task.clientFd = fd ∧
        task.generation = connection.generation ∧ (Lifetime.Task.unposted task = true ∨
          ∃ completion ∈ worker.completions ++ worker.completed, completion.task = index))) ∧
      (worker.interest.lookup completionFd = some { input := true } ∧ (worker.completions ≠ [] →
        (∀ caller, worker.phase ≠ .collecting caller) →
        worker.reports [(completionFd, { input := true })] = true ∨
          ∃ task ∈ worker.tasks, Lifetime.Task.unwritten task = true)) := by
  intro worker
  have watches : Watches worker := run_watches workerId listenerFd completionFd labels
  have awaits : Awaits worker := run_awaits workerId listenerFd completionFd labels
  have attended : Attended listenerFd completionFd worker := run_attended workerId listenerFd completionFd labels
  have registered : worker.interest.lookup completionFd = some { input := true } :=
    run_registered workerId listenerFd completionFd labels apart
  refine ⟨fun fd connection live => ?_, registered, fun waiting elsewhere => ?_⟩
  · have watched := watches fd connection live
    obtain ⟨mask, listed, suits⟩ := watched.mask
    refine ⟨⟨mask, listed, suits.hangup, fun idle => ⟨suits.input idle, suits.output idle⟩⟩, watched.ending, fun busy => ?_⟩
    obtain ⟨index, task, found, clientFd, generation, unpopped⟩ := watched.owned busy
    exact ⟨index, task, found, clientFd, generation, awaits.tracked.somewhere index task found unpopped⟩
  · rcases awaits.announced.noted elsewhere with empty | told | writes
    · exact absurd empty waiting
    · left
      simp [Worker.reports, registered, told, Events.reportable]
    · exact .inr writes

/-- The request is under way: only a hang-up is asked for, and the completion stands in the queue. -/
theorem never_forgotten_posted :
    let worker := run step (start 0 5 6) (handled ++ [.push 0, .notify 0])
    (∃ connection mask, worker.connections.lookup 7 = some connection ∧ connection.requestInFlight = true ∧
      worker.interest.lookup 7 = some mask ∧ mask.readHangup = true) ∧
      worker.reports [(6, { input := true })] = true := by
  intro worker
  obtain ⟨clients, registered, woken⟩ := never_forgotten 0 5 6 (by decide) (handled ++ [.push 0, .notify 0])
  have live : (worker.connections.lookup 7).isSome = true := by decide +kernel
  obtain ⟨connection, found⟩ := Option.isSome_iff_exists.mp live
  obtain ⟨⟨mask, listed, hangup, _⟩, _, _⟩ := clients 7 connection found
  have busy : (worker.connections.lookup 7).map Connection.requestInFlight = some true := by decide +kernel
  rw [found] at busy
  refine ⟨⟨connection, mask, found, Option.some.inj busy, listed, hangup⟩, ?_⟩
  have phase : worker.phase = .handling [] := by decide +kernel
  have elsewhere (caller : Caller) : worker.phase ≠ .collecting caller := by
    rw [phase]
    exact Phase.noConfusion
  rcases woken (by decide +kernel) elsewhere with readable | ⟨task, member, writes⟩
  · exact readable
  · have silent : ∀ task ∈ worker.tasks, Lifetime.Task.unwritten task = false := by decide +kernel
    exact absurd (writes.symm.trans (silent task member)) Bool.noConfusion

end FleetGateway.Network.Wakeup
