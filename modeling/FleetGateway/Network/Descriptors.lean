import FleetGateway.Network.Isolation

/-! The descriptors of a worker: the clients it accepted and has not closed are the keys of
its connection map, and its listener and its event descriptor are never among them. -/

namespace FleetGateway.Network.Descriptors
open Library Library.ByteStore Library.Run Monitoring.Counters EventLoop Actions Transitions Identity Lifetime

def Effect.opens (fd : Nat) : Effect → Bool
  | .accepted other _ => other == fd
  | _ => false

def Effect.closes (fd : Nat) : Effect → Bool
  | .closed other => other == fd
  | _ => false

def acceptances (fd : Nat) (trace : List Effect) : Nat := trace.countP (Effect.opens fd)

def closings (fd : Nat) (trace : List Effect) : Nat := trace.countP (Effect.closes fd)

@[simp] theorem acceptances_append (fd : Nat) (trace more : List Effect) :
    acceptances fd (trace ++ more) = acceptances fd trace + acceptances fd more :=
  List.countP_append

@[simp] theorem closings_append (fd : Nat) (trace more : List Effect) :
    closings fd (trace ++ more) = closings fd trace + closings fd more :=
  List.countP_append

structure Steady (before after : Worker) : Prop where
  members : ∀ fd, fd ∈ after.connections ↔ fd ∈ before.connections
  count : after.connections.keys.length = before.connections.keys.length
  opened : after.opened = before.opened
  listenerFd : after.listenerFd = before.listenerFd
  completionFd : after.completionFd = before.completionFd
  draining : after.draining = before.draining
  asked : before.shutdownRequested = true → after.shutdownRequested = true
  gauge : after.metrics.openConnections = before.metrics.openConnections
  acceptances : ∀ fd, acceptances fd after.trace = acceptances fd before.trace
  closings : ∀ fd, closings fd after.trace = closings fd before.trace

def holdings (worker : Worker) :
    AList (fun _ : Nat => Connection) × List Nat × Option Nat × Nat × Bool × List Effect :=
  (worker.connections, worker.opened, worker.listenerFd, worker.completionFd, worker.draining, worker.trace)

theorem steady_of_same {before after : Worker} (same : holdings after = holdings before)
    (asked : before.shutdownRequested = true → after.shutdownRequested = true)
    (gauge : after.metrics.openConnections = before.metrics.openConnections) : Steady before after := by
  simp only [holdings, Prod.mk.injEq] at same
  obtain ⟨connections, opened, listenerFd, completionFd, draining, trace⟩ := same
  exact ⟨fun fd => by rw [connections], by rw [connections], opened, listenerFd, completionFd, draining, asked, gauge,
    fun fd => by rw [trace], fun fd => by rw [trace]⟩

theorem length_keys_insert (connections : AList (fun _ : Nat => Connection)) (fd : Nat) (connection : Connection)
    (present : fd ∈ connections) : (connections.insert fd connection).keys.length = connections.keys.length := by
  rw [AList.keys_insert, List.length_cons, List.length_erase_of_mem (AList.mem_keys.mp present)]
  exact Nat.sub_add_cancel (List.length_pos_of_mem (AList.mem_keys.mp present))

theorem steady_insert {before after : Worker} (fd : Nat) (earlier connection : Connection)
    (live : before.connections.lookup fd = some earlier)
    (inserted : after.connections = before.connections.insert fd connection)
    (opened : after.opened = before.opened) (listenerFd : after.listenerFd = before.listenerFd)
    (completionFd : after.completionFd = before.completionFd) (draining : after.draining = before.draining)
    (asked : after.shutdownRequested = before.shutdownRequested)
    (gauge : after.metrics.openConnections = before.metrics.openConnections)
    (acceptances' : ∀ fd, acceptances fd after.trace = acceptances fd before.trace)
    (closings' : ∀ fd, closings fd after.trace = closings fd before.trace) : Steady before after := by
  have present : fd ∈ before.connections := AList.lookup_isSome.mp (by rw [live]; rfl)
  refine ⟨?_, ?_, opened, listenerFd, completionFd, draining, fun same => asked.trans same, gauge, acceptances',
    closings'⟩
  · intro other
    rw [inserted, AList.mem_insert]
    constructor
    · rintro (rfl | there)
      · exact present
      · exact there
    · exact .inr
  · rw [inserted]
    exact length_keys_insert _ _ _ present

inductive Descriptive (context : Context) (before : Worker) : Worker → Prop
  | steady {after : Worker} (steady : Steady before after) : Descriptive context before after
  | close (fd : Nat) (present : fd ∈ before.connections) : Descriptive context before (before.closeClient fd)
  | connect (fd : Nat) (clientIp : Bytes) (unused : fd ∉ before.opened) (running : before.shutdownRequested = false) :
      Descriptive context before (before.connect fd clientIp)
  | turnAway (fd : Nat) (unused : fd ∉ before.opened) (running : before.shutdownRequested = false) :
      Descriptive context before (before.turnAway fd)
  | drain (noticed : context.notice ≠ .never) (asked : before.shutdownRequested = true)
      (running : before.draining = false) : Descriptive context before
        (Worker.retire before.listenerFd { before with draining := true, poolStopping := true })
  | forget (iterating : context.notice = .iteration) (draining : before.draining = true) :
      Descriptive context before { before with listenerFd := none }

theorem action_descriptive {context : Context} {before after : Worker} (action : Action context before after) :
    Descriptive context before after := by
  cases action with
  | close fd connection live => exact .close fd (AList.lookup_isSome.mp (by rw [live]; rfl))
  | connect fd clientIp unused running => exact .connect fd clientIp unused running
  | turnAway fd unused running => exact .turnAway fd unused running
  | drain noticed asked running => exact .drain noticed asked running
  | forget iterating draining => exact .forget iterating draining
  | watch fd events => exact .steady (steady_of_same rfl id rfl)
  | countError => exact .steady (steady_of_same rfl id rfl)
  | fail => exact .steady (steady_of_same rfl (fun _ => rfl) rfl)
  | advance fd connection offset reaches onward within =>
    exact .steady (steady_insert fd _ _ reaches.live rfl rfl rfl rfl rfl rfl rfl
      (fun _ => acceptances_append _ _ _) fun _ => closings_append _ _ _)
  | rewind fd connection reaches done =>
    exact .steady (steady_insert fd _ _ reaches.live rfl rfl rfl rfl rfl rfl rfl (fun _ => rfl) fun _ => rfl)
  | hangUp fd connection reaches =>
    exact .steady (steady_insert fd _ _ reaches.live rfl rfl rfl rfl rfl rfl rfl (fun _ => rfl) fun _ => rfl)
  | read fd connection read ended hears =>
    exact .steady (steady_insert fd _ _ hears.reaches.live rfl rfl rfl rfl rfl rfl rfl (fun _ => rfl) fun _ => rfl)
  | refuse fd connection read hears fits =>
    exact .steady (steady_insert fd _ _ hears.reaches.live (AList.insert_insert _) rfl rfl rfl rfl rfl rfl
      (fun _ => acceptances_append _ _ _) fun _ => closings_append _ _ _)
  | request fd connection read hears lost =>
    exact .steady (steady_insert fd _ _ hears.reaches.live (connections_requested _ _ _) rfl rfl rfl rfl rfl
      (openConnections_requestStarted _ _) (fun _ => rfl) fun _ => rfl)
  | dispatch fd connection read hears running =>
    exact .steady (steady_insert fd _ _ hears.reaches.live (connections_requested _ _ _) rfl rfl rfl rfl rfl
      (openConnections_requestStarted _ _) (fun _ => acceptances_append _ _ _) fun _ => closings_append _ _ _)
  | overload fd connection read hears fits =>
    exact .steady (steady_insert fd _ _ hears.reaches.live (connections_overload _ _ _) rfl rfl rfl rfl rfl
      ((openConnections_requestCompleted _ _ _).trans (openConnections_requestStarted _ _))
      (fun _ => acceptances_append _ _ _) fun _ => closings_append _ _ _)
  | release fd connection live inFlight =>
    exact .steady (steady_insert fd _ _ live rfl rfl rfl rfl rfl rfl rfl (fun _ => rfl) fun _ => rfl)
  | answer completion connection popped live same inFlight fits =>
    exact .steady (steady_insert _ _ _ live rfl rfl rfl rfl rfl rfl rfl
      (fun _ => acceptances_append _ _ _) fun _ => closings_append _ _ _)

def Phase.running : Phase → Bool
  | .exited _ => false
  | _ => true

/-- `listener` and `completion` are the numbers with which the loop began. -/
structure Attended (listener completion : Nat) (worker : Worker) : Prop where
  completionFd : worker.completionFd = completion
  listenerFd : worker.listenerFd = none ∨ worker.listenerFd = some listener
  asked : worker.draining = true → worker.shutdownRequested = true
  /-- Until the worker drains, its own two descriptors are open. -/
  own : Phase.running worker.phase = true → worker.draining = false →
    listener ∈ worker.opened ∧ completion ∈ worker.opened
  clients : ∀ fd, fd ∈ worker.connections → fd ∈ worker.opened ∧ fd ≠ listener ∧ fd ≠ completion
  balance : ∀ fd, fd ≠ listener → fd ≠ completion →
    acceptances fd worker.trace = closings fd worker.trace + if fd ∈ worker.connections then 1 else 0
  foreign : acceptances listener worker.trace = 0 ∧ acceptances completion worker.trace = 0
  gauge : worker.metrics.openConnections = worker.connections.keys.length

section Attended

variable {listener completion : Nat} {before after : Worker}

theorem Attended.steady (attended : Attended listener completion before) (steady : Steady before after)
    (running : Phase.running after.phase = true → Phase.running before.phase = true) :
    Attended listener completion after where
  completionFd := steady.completionFd.trans attended.completionFd
  listenerFd := by
    rw [steady.listenerFd]
    exact attended.listenerFd
  asked := by
    rw [steady.draining]
    exact fun draining => steady.asked (attended.asked draining)
  own := by
    rw [steady.draining, steady.opened]
    exact fun still => attended.own (running still)
  clients := by
    intro fd member
    rw [steady.opened]
    exact attended.clients fd ((steady.members fd).mp member)
  balance := by
    intro fd apart apart'
    rw [steady.acceptances, steady.closings, attended.balance fd apart apart']
    simp only [steady.members]
  foreign := by
    rw [steady.acceptances, steady.acceptances]
    exact attended.foreign
  gauge := by rw [steady.gauge, steady.count, attended.gauge]

theorem Attended.closeClient (attended : Attended listener completion before) (fd : Nat)
    (present : fd ∈ before.connections) : Attended listener completion (before.closeClient fd) where
  completionFd := attended.completionFd
  listenerFd := attended.listenerFd
  asked := attended.asked
  own := by
    intro running still
    obtain ⟨_, apart, apart'⟩ := attended.clients fd present
    obtain ⟨own, own'⟩ := attended.own running still
    exact ⟨(List.mem_erase_of_ne (Ne.symm apart)).mpr own, (List.mem_erase_of_ne (Ne.symm apart')).mpr own'⟩
  clients := by
    intro other member
    obtain ⟨different, there⟩ := AList.mem_erase.mp member
    obtain ⟨opened, apart⟩ := attended.clients other there
    exact ⟨(List.mem_erase_of_ne different).mpr opened, apart⟩
  balance := by
    intro other apart apart'
    have balance := attended.balance other apart apart'
    show acceptances other (before.trace ++ [_]) = closings other (before.trace ++ [_]) +
      if other ∈ before.connections.erase fd then 1 else 0
    rw [acceptances_append, closings_append, balance]
    by_cases here : other = fd
    · subst here
      simp [acceptances, closings, Effect.opens, Effect.closes, present]
    · simp [acceptances, closings, Effect.opens, Effect.closes, here, Ne.symm here]
  foreign := by
    show acceptances listener (before.trace ++ [_]) = 0 ∧ acceptances completion (before.trace ++ [_]) = 0
    rw [acceptances_append, acceptances_append]
    exact attended.foreign
  gauge := by
    have found : (before.connections.lookup fd).isSome = true := AList.lookup_isSome.mpr present
    have positive : 0 < before.connections.keys.length := List.length_pos_of_mem (AList.mem_keys.mp present)
    show (if (before.connections.lookup fd).isSome = true then before.metrics.connectionClosed
      else before.metrics).openConnections = ((before.connections.erase fd).keys.length : Int)
    rw [if_pos found, AList.keys_erase, List.length_erase_of_mem (AList.mem_keys.mp present)]
    show before.metrics.openConnections - 1 = _
    rw [attended.gauge]
    omega

theorem Attended.unused (attended : Attended listener completion before) (fd : Nat) (unused : fd ∉ before.opened) :
    fd ∉ before.connections :=
  fun member => unused (attended.clients fd member).1

theorem Attended.accepting (attended : Attended listener completion before)
    (running : Phase.running before.phase = true) (unasked : before.shutdownRequested = false) :
    listener ∈ before.opened ∧ completion ∈ before.opened := by
  apply attended.own running
  cases draining : before.draining with
  | false => rfl
  | true => cases unasked.symm.trans (attended.asked draining)

theorem Attended.connect (attended : Attended listener completion before) (fd : Nat) (clientIp : Bytes)
    (unused : fd ∉ before.opened) (running : Phase.running before.phase = true)
    (unasked : before.shutdownRequested = false) : Attended listener completion (before.connect fd clientIp) := by
  obtain ⟨own, own'⟩ := attended.accepting running unasked
  have apart : fd ≠ listener := fun same => unused (same ▸ own)
  have apart' : fd ≠ completion := fun same => unused (same ▸ own')
  have absent := attended.unused fd unused
  refine ⟨attended.completionFd, attended.listenerFd, attended.asked, ?_, ?_, ?_, ?_, ?_⟩
  · intro _ _
    exact ⟨List.mem_cons_of_mem _ own, List.mem_cons_of_mem _ own'⟩
  · intro other member
    rcases AList.mem_insert _ |>.mp member with rfl | there
    · exact ⟨List.mem_cons_self, apart, apart'⟩
    · obtain ⟨opened, others⟩ := attended.clients other there
      exact ⟨List.mem_cons_of_mem _ opened, others⟩
  · intro other different different'
    have balance := attended.balance other different different'
    show acceptances other (before.trace ++ [_]) = closings other (before.trace ++ [_]) +
      if other ∈ before.connections.insert fd _ then 1 else 0
    rw [acceptances_append, closings_append, balance]
    by_cases here : other = fd
    · subst here
      simp [acceptances, closings, Effect.opens, Effect.closes, absent]
    · simp [acceptances, closings, Effect.opens, Effect.closes, here, Ne.symm here]
  · show acceptances listener (before.trace ++ [_]) = 0 ∧ acceptances completion (before.trace ++ [_]) = 0
    rw [acceptances_append, acceptances_append, attended.foreign.1, attended.foreign.2]
    simp [acceptances, Effect.opens, apart, apart']
  · show (before.metrics.connectionOpened before.workerId).openConnections =
      ((before.connections.insert fd _).keys.length : Int)
    rw [openConnections_connectionOpened, attended.gauge, AList.keys_insert,
      List.erase_of_not_mem (fun member => absent (AList.mem_keys.mpr member)), List.length_cons]
    omega

theorem Attended.turnAway (attended : Attended listener completion before) (fd : Nat)
    (unused : fd ∉ before.opened) (running : Phase.running before.phase = true)
    (unasked : before.shutdownRequested = false) : Attended listener completion (before.turnAway fd) := by
  obtain ⟨own, own'⟩ := attended.accepting running unasked
  have apart : fd ≠ listener := fun same => unused (same ▸ own)
  have apart' : fd ≠ completion := fun same => unused (same ▸ own')
  have opened : (before.turnAway fd).opened = before.opened := List.erase_cons_head _ _
  have trace : (before.turnAway fd).trace = before.trace ++ [.accepted fd none, .closed fd] := by
    show (before.trace ++ [_]) ++ [_] = _
    rw [List.append_assoc]
    rfl
  refine ⟨attended.completionFd, attended.listenerFd, attended.asked, ?_, ?_, ?_, ?_, attended.gauge⟩
  · rw [opened]
    exact attended.own
  · rw [opened]
    exact attended.clients
  · intro other different different'
    have balance := attended.balance other different different'
    show _ = _ + if other ∈ before.connections then 1 else 0
    rw [trace, acceptances_append, closings_append, balance]
    by_cases here : other = fd
    · subst here
      simp [acceptances, closings, Effect.opens, Effect.closes, attended.unused other unused]
    · simp [acceptances, closings, Effect.opens, Effect.closes, Ne.symm here]
  · rw [trace, acceptances_append, acceptances_append, attended.foreign.1, attended.foreign.2]
    simp [acceptances, Effect.opens, apart, apart']

theorem Attended.closeOwn (attended : Attended listener completion before) (fd : Nat)
    (own : fd = listener ∨ fd = completion) (opened : after.opened = before.opened.erase fd)
    (trace : after.trace = before.trace ++ [.closed fd]) (connections : after.connections = before.connections)
    (completionFd : after.completionFd = before.completionFd)
    (listenerFd : after.listenerFd = none ∨ after.listenerFd = before.listenerFd)
    (asked : after.draining = true → after.shutdownRequested = true)
    (gauge : after.metrics.openConnections = before.metrics.openConnections)
    (finished : Phase.running after.phase = false ∨ after.draining = true) : Attended listener completion after := by
  refine ⟨completionFd.trans attended.completionFd, ?_, asked, ?_, ?_, ?_, ?_, ?_⟩
  · rcases listenerFd with none | same
    · exact .inl none
    · rw [same]
      exact attended.listenerFd
  · intro running still
    rcases finished with stopped | draining
    · cases running.symm.trans stopped
    · cases still.symm.trans draining
  · intro other member
    rw [connections] at member
    obtain ⟨there, apart, apart'⟩ := attended.clients other member
    have different : other ≠ fd := by
      rcases own with rfl | rfl
      · exact apart
      · exact apart'
    rw [opened]
    exact ⟨(List.mem_erase_of_ne different).mpr there, apart, apart'⟩
  · intro other apart apart'
    have different : fd ≠ other := by
      rcases own with rfl | rfl
      · exact Ne.symm apart
      · exact Ne.symm apart'
    have balance := attended.balance other apart apart'
    rw [trace, connections, acceptances_append, closings_append, balance]
    simp [acceptances, closings, Effect.opens, Effect.closes, different]
  · rw [trace, acceptances_append, acceptances_append]
    exact attended.foreign
  · rw [gauge, connections]
    exact attended.gauge

theorem Attended.drain (attended : Attended listener completion before) (asked : before.shutdownRequested = true) :
    Attended listener completion
      (Worker.retire before.listenerFd { before with draining := true, poolStopping := true }) := by
  rcases attended.listenerFd with none | some
  · rw [none]
    exact ⟨attended.completionFd, .inl rfl, fun _ => asked, nofun, attended.clients, attended.balance,
      attended.foreign, attended.gauge⟩
  · rw [some]
    exact attended.closeOwn listener (.inl rfl) rfl rfl rfl rfl (.inr some.symm) (fun _ => asked) rfl (.inr rfl)

theorem action_attended {context : Context} (action : Action context before after)
    (running : Phase.running before.phase = true) (attended : Attended listener completion before) :
    Attended listener completion after := by
  have phase := (action_frame action).1
  cases action_descriptive action with
  | steady steady => exact attended.steady steady (fun still => phase ▸ still)
  | close fd present => exact attended.closeClient fd present
  | connect fd clientIp unused unasked => exact attended.connect fd clientIp unused running unasked
  | turnAway fd unused unasked => exact attended.turnAway fd unused running unasked
  | drain noticed asked running => exact attended.drain asked
  | forget iterating draining =>
    exact ⟨attended.completionFd, .inl rfl, attended.asked, attended.own, attended.clients, attended.balance,
      attended.foreign, attended.gauge⟩

theorem chain_attended {context : Context} (chain : Chain context before after)
    (running : Phase.running before.phase = true) (attended : Attended listener completion before) :
    Attended listener completion after := by
  have both := chain.preserves
    (fun worker => Phase.running worker.phase = true ∧ Attended listener completion worker)
    (fun worker next action invariant =>
      ⟨by rw [(action_frame action).1]; exact invariant.1, action_attended action invariant.1 invariant.2⟩)
    ⟨running, attended⟩
  exact both.2

end Attended

theorem Attended.closeSteady {listener completion : Nat} {worker : Worker}
    (attended : Attended listener completion worker) (fd : Nat) (own : fd = listener ∨ fd = completion)
    (finished : Phase.running worker.phase = false) : Attended listener completion (worker.close fd) :=
  attended.closeOwn fd own rfl rfl rfl rfl (.inr rfl) attended.asked rfl (.inl finished)

theorem exit_attended {listener completion : Nat} {worker : Worker} (completed : Bool)
    (attended : Attended listener completion worker) : Attended listener completion (worker.exit completed) := by
  -- the phase may as well change before the descriptors are closed
  have stopped : Attended listener completion { worker with
      workerFailed := worker.workerFailed || (!completed && !worker.shutdownRequested)
      shutdownRequested := worker.shutdownRequested || (!completed && !worker.shutdownRequested)
      phase := .exited completed } :=
    attended.steady (steady_of_same rfl (fun asked => by simp [asked]) rfl) nofun
  have own : worker.completionFd = listener ∨ worker.completionFd = completion := .inr attended.completionFd
  unfold Worker.exit
  dsimp only
  split
  next none => exact stopped.closeSteady worker.completionFd own rfl
  next fd some =>
    have listens : fd = listener := by
      rcases attended.listenerFd with none | same
      · cases none.symm.trans some
      · exact Option.some.inj (some.symm.trans same)
    exact (stopped.closeSteady fd (.inl listens) rfl).closeSteady worker.completionFd own rfl

theorem pop_attended {listener completion : Nat} {worker : Worker} (popped : Completion) (rest : List Completion)
    (attended : Attended listener completion worker) : Attended listener completion (worker.pop popped rest) :=
  attended.steady ⟨fun _ => Iff.rfl, rfl, rfl, rfl, rfl, rfl, id, openConnections_requestCompleted _ _ _,
    fun _ => acceptances_append _ _ _, fun _ => closings_append _ _ _⟩ id

theorem transition_attended {permits : Permits} {label : Label} {listener completion : Nat} {before after : Worker}
    (transition : Transition permits label before after) (attended : Attended listener completion before) :
    Attended listener completion after := by
  cases transition with
  | idle => exact attended
  | shutdown =>
    exact attended.steady (steady_of_same rfl (fun _ => rfl) rfl) id
  | stop test tested stops => exact exit_attended true attended
  | fail waited => exact exit_attended false attended
  | handle called ready rest last handled chain drained =>
    have running : Phase.running before.phase = true := by rw [handled]; rfl
    exact (chain_attended chain running attended).steady (steady_of_same rfl id rfl)
      fun _ => by rw [(chain_frame chain).1]; exact running
  | notice called ready rest last handled chain drained =>
    have running : Phase.running before.phase = true := by rw [handled]; rfl
    exact (chain_attended chain running attended).steady (steady_of_same rfl id rfl)
      fun _ => by rw [(chain_frame chain).1]; exact running
  | finish last finished chain drained forgotten =>
    have running : Phase.running before.phase = true := by rw [finished]; rfl
    exact (chain_attended chain running attended).steady (steady_of_same rfl id rfl)
      fun _ => by rw [(chain_frame chain).1]; exact running
  | apply caller completion' rest landed last applied queued lands chain =>
    have running : Phase.running before.phase = true := by rw [applied]; rfl
    have popped := pop_attended completion' rest attended
    have landing : Attended listener completion landed ∧ Phase.running landed.phase = true := by
      rcases lands with rfl | action
      · exact ⟨popped, running⟩
      · exact ⟨action_attended action running popped, by rw [(action_frame action).1]; exact running⟩
    exact (chain_attended chain landing.2 landing.1).steady (steady_of_same rfl id rfl) id
  | collect caller collected =>
    exact attended.steady (steady_of_same rfl id (openConnections_completionQueueSize _ _ _))
      fun _ => by rw [collected]; rfl
  | push index task response found handled =>
    exact attended.steady (steady_of_same rfl id (openConnections_completionQueueSize _ _ _)) id
  | run index task response found queued =>
    exact attended.steady (steady_of_same rfl id rfl) id
  | notify index task response found posted =>
    exact attended.steady (steady_of_same rfl id rfl) id
  | proceed tested =>
    exact attended.steady (steady_of_same rfl id rfl)
      fun _ => by rw [tested]; rfl
  | wake batch waited reported =>
    exact attended.steady (steady_of_same rfl id rfl)
      fun _ => by rw [waited]; rfl
  | retry waited =>
    exact attended.steady (steady_of_same rfl id rfl)
      fun _ => by rw [waited]; rfl
  | iterate handled =>
    exact attended.steady (steady_of_same rfl id rfl)
      fun _ => by rw [handled]; rfl
  | resume caller applied done =>
    exact attended.steady (steady_of_same rfl id rfl)
      fun _ => by rw [applied]; rfl

theorem start_attended (workerId listenerFd completionFd : Nat) :
    Attended listenerFd completionFd (start workerId listenerFd completionFd) where
  completionFd := rfl
  listenerFd := .inr rfl
  asked := nofun
  own := fun _ _ => ⟨List.mem_cons_self, List.mem_cons_of_mem _ List.mem_cons_self⟩
  clients := nofun
  balance := fun _ _ _ => rfl
  foreign := ⟨rfl, rfl⟩
  gauge := rfl

theorem run_attended (workerId listenerFd completionFd : Nat) (labels : List Label) :
    Attended listenerFd completionFd (run step (start workerId listenerFd completionFd) labels) :=
  run_invariant step (Attended listenerFd completionFd) (fun _ => True)
    (fun worker label _ => transition_attended (any_transition worker label))
    (start workerId listenerFd completionFd) labels (fun _ _ => trivial)
    (start_attended workerId listenerFd completionFd)

/-- A loop that has ended was left in this step, or had been left and nothing happens to its
connections. -/
theorem transition_exited {permits : Permits} {label : Label} {before after : Worker} {completed : Bool}
    (transition : Transition permits label before after) (exited : after.phase = .exited completed) :
    (after = before.exit completed ∧ Phase.running before.phase = true ∧
        (completed = true → before.shouldStop = true)) ∨
      (before.phase = .exited completed ∧ after.connections = before.connections ∧ after.trace = before.trace) := by
  cases transition with
  | idle => exact .inr ⟨exited, rfl, rfl⟩
  | shutdown => exact .inr ⟨exited, rfl, rfl⟩
  | run index task response found queued => exact .inr ⟨exited, rfl, rfl⟩
  | push index task response found handled => exact .inr ⟨exited, rfl, rfl⟩
  | notify index task response found posted => exact .inr ⟨exited, rfl, rfl⟩
  | stop test tested stops =>
    rw [(exit_frame true before).2.2.2.2] at exited
    cases exited
    exact .inl ⟨rfl, by rw [tested]; rfl, fun _ => stops⟩
  | fail waited =>
    rw [(exit_frame false before).2.2.2.2] at exited
    cases exited
    exact .inl ⟨rfl, by rw [waited]; rfl, nofun⟩
  | apply caller completion rest landed last applied queued lands chain =>
    have phase := apply_phase completion rest lands chain
    cases (phase.trans applied).symm.trans exited
  | resume caller applied done => cases caller <;> cases exited
  | proceed tested => cases exited
  | wake batch waited reported => cases exited
  | retry waited => cases exited
  | handle called ready rest last handled chain drained => cases exited
  | notice called ready rest last handled chain drained => cases exited
  | iterate handled => cases exited
  | collect caller collected => cases exited
  | finish last finished chain drained forgotten => cases exited

/-- No connection outlives a loop that was left through `should_stop`. -/
def Vacated (worker : Worker) : Prop := worker.phase = .exited true → worker.connections.keys.length = 0

theorem transition_vacated {permits : Permits} {label : Label} {before after : Worker}
    (transition : Transition permits label before after) (vacated : Vacated before) : Vacated after := by
  intro exited
  rcases transition_exited transition exited with ⟨rfl, _, stops⟩ | ⟨finished, same, _⟩
  · have none := stops rfl
    simp only [Worker.shouldStop, Bool.and_eq_true, decide_eq_true_eq] at none
    rw [(quiet_exit true before).connections]
    exact none.2
  · rw [same]
    exact vacated finished

theorem run_vacated (workerId listenerFd completionFd : Nat) (labels : List Label) :
    Vacated (run step (start workerId listenerFd completionFd) labels) :=
  run_invariant step Vacated (fun _ => True) (fun worker label _ => transition_vacated (any_transition worker label))
    (start workerId listenerFd completionFd) labels (fun _ _ => trivial) nofun

/-- In every run: the keys of the connection map are the client descriptors that were accepted
and not closed since, so that each is closed once for each accept; they are none of the worker's
own; the gauge counts them, and it is 0 when the loop was left through `should_stop`. -/
theorem connections_accounted (workerId listenerFd completionFd : Nat) (labels : List Label) :
    let worker := run step (start workerId listenerFd completionFd) labels
    (∀ fd, fd ≠ listenerFd → fd ≠ completionFd →
        acceptances fd worker.trace = closings fd worker.trace + if fd ∈ worker.connections then 1 else 0) ∧
      (∀ fd, fd = listenerFd ∨ fd = completionFd → acceptances fd worker.trace = 0 ∧ fd ∉ worker.connections) ∧
      worker.metrics.openConnections = worker.connections.keys.length ∧
      (worker.phase = .exited true → worker.metrics.openConnections = 0) := by
  intro worker
  have attended : Attended listenerFd completionFd worker := run_attended workerId listenerFd completionFd labels
  refine ⟨attended.balance, ?_, attended.gauge, ?_⟩
  · rintro fd (rfl | rfl)
    · exact ⟨attended.foreign.1, fun member => (attended.clients fd member).2.1 rfl⟩
    · exact ⟨attended.foreign.2, fun member => (attended.clients fd member).2.2 rfl⟩
  · intro exited
    rw [attended.gauge, run_vacated workerId listenerFd completionFd labels exited]
    rfl

end FleetGateway.Network.Descriptors
