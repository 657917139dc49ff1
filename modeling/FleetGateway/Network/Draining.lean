import FleetGateway.Library.Ranking
import FleetGateway.Network.Staleness
import FleetGateway.Network.Wakeup

/-! The end of a worker: once it is to shut down and its tasks have posted their completions, only a socket
that takes no bytes keeps it, and from every state it can be brought to its end. -/

namespace FleetGateway.Network.Draining
open Library Library.ByteStore Library.Run Library.Ranking Http.Parser Http.Response Monitoring.Counters EventLoop
open Actions Transitions Identity Dispatch Lifetime Isolation Outstanding Descriptors Staleness Submission Interest Wakeup

/-- Whatever is to be sent is the last that is sent. -/
def Closing (worker : Worker) : Prop :=
  ∀ fd connection, worker.connections.lookup fd = some connection → connection.pendingBytes ≠ 0 →
    connection.peerClosed = true

theorem Closing.insert {before after : Worker} (closing : Closing before) (fd : Nat) (connection : Connection)
    (inserted : after.connections = before.connections.insert fd connection)
    (own : connection.pendingBytes ≠ 0 → connection.peerClosed = true) : Closing after := by
  intro other found live pending
  rw [inserted] at live
  rcases lookup_insert_cases live with ⟨_, same⟩ | ⟨_, live⟩
  · rw [same] at pending ⊢
    exact own pending
  · exact closing other found live pending

theorem Closing.same {before after : Worker} (closing : Closing before) (same : after.connections = before.connections) :
    Closing after := by
  unfold Closing
  rw [same]
  exact closing

theorem readLoop_keeps_closed (reads rest : List ReadOutcome) (connection read : Connection) (ended : ReadEnd)
    (loop : readLoop reads connection = (ended, rest, read)) (closed : connection.peerClosed = true) :
    read.peerClosed = true := by
  induction reads generalizing connection with
  | nil =>
    cases loop
    exact closed
  | cons outcome reads ih =>
    cases outcome with
    | again =>
      cases loop
      exact closed
    | interrupted => exact ih connection loop closed
    | failed =>
      cases loop
      exact closed
    | bytes data =>
      unfold readLoop at loop
      split at loop
      · cases loop
        rfl
      dsimp only at loop
      generalize feed _ _ = result at loop
      obtain ⟨status, parser⟩ := result
      cases status with
      | error =>
        cases loop
        exact closed
      | complete =>
        cases loop
        exact closed
      | incomplete =>
        dsimp only at loop
        split at loop
        · cases loop
          exact closed
        · exact ih _ loop closed

theorem hears_closing {context : Context} {worker : Worker} {fd : Nat} {connection read : Connection} {ended : ReadEnd}
    (closing : Closing worker) (hears : context.Hears worker fd connection read ended)
    (pending : read.pendingBytes ≠ 0) : read.peerClosed = true := by
  obtain ⟨reads, rest, loop, _⟩ := hears.heard
  obtain ⟨outbound, offset⟩ := Outbound.hears_buffer hears
  apply readLoop_keeps_closed reads rest connection read ended loop
  apply closing fd connection hears.reaches.live
  unfold Connection.pendingBytes at pending ⊢
  rw [← outbound, ← offset]
  exact pending

theorem action_closing {context : Context} {before after : Worker} (action : Action context before after)
    (closing : Closing before) : Closing after := by
  cases action with
  | close fd connection live =>
    intro other found there pending
    exact closing other found (lookup_erase_some there) pending
  | advance fd connection offset reaches onward within =>
    apply closing.insert fd { connection with outboundOffset := offset } rfl
    intro pending
    apply closing fd connection reaches.live
    simp only [Connection.pendingBytes] at pending ⊢
    omega
  | rewind fd connection reaches done => exact closing.insert fd _ rfl fun pending => absurd rfl pending
  | hangUp fd connection reaches => exact closing.insert fd _ rfl fun _ => rfl
  | read fd connection read ended hears => exact closing.insert fd _ rfl (hears_closing closing hears)
  | refuse fd connection read hears fits => exact closing.insert fd _ (AList.insert_insert _) fun _ => rfl
  | request fd connection read hears lost =>
    have heard : read.pendingBytes ≠ 0 → read.peerClosed = true := hears_closing closing hears
    exact closing.insert fd _ (connections_requested _ _ _) heard
  | dispatch fd connection read hears running =>
    have heard : read.pendingBytes ≠ 0 → read.peerClosed = true := hears_closing closing hears
    exact closing.insert fd _ (connections_requested _ _ _) heard
  | overload fd connection read hears fits => exact closing.insert fd _ (connections_overload _ _ _) fun _ => rfl
  | release fd connection live inFlight => exact closing.insert fd _ rfl (closing fd connection live)
  | answer completion connection popped live same inFlight fits => exact closing.insert _ _ rfl fun _ => rfl
  | connect fd clientIp unused running => exact closing.insert fd _ rfl fun pending => absurd rfl pending
  | drain noticed asked running => exact closing.same (connections_retire _ _)
  | _ => exact closing.same rfl

theorem run_closing (workerId listenerFd completionFd : Nat) (labels : List Label) :
    Closing (run step (start workerId listenerFd completionFd) labels) := by
  refine run_invariant step Closing (fun _ => True) ?_ (start workerId listenerFd completionFd) labels
    (fun _ _ => trivial) (fun fd connection live => absurd live (by simp [start]))
  intro worker label _ closing
  obtain ⟨first, last, quiet, moves, quiet'⟩ := (any_transition worker label).loop
  have ended := moves.preserves Closing (fun _ _ _ _ action => action_closing action) (closing.same quiet.connections)
  exact ended.same quiet'.connections

/-- Nothing is left to do for the client but to wait for its task or its socket. -/
def Spent (fd : Nat) (worker : Worker) : Prop :=
  ∀ connection, worker.connections.lookup fd = some connection →
    connection.requestInFlight = true ∨ connection.pendingBytes ≠ 0

def Private (fd : Nat) (before after : Worker) : Prop :=
  ∀ other, other ≠ fd → after.connections.lookup other = before.connections.lookup other

theorem watchOrClose_private (fd : Nat) (mask : Events) (machine : Machine) :
    Private fd machine.worker (watchOrClose fd mask machine).2.worker := by
  intro other different
  unfold watchOrClose
  split
  next watched call =>
    dsimp only
    rw [(modifyFd_spec _ _ _ _ _ call).1]
    rfl
  next unwatched call =>
    refine (AList.lookup_erase_ne different).trans ?_
    rw [(modifyFd_spec _ _ _ _ _ call).1]
    rfl

theorem flushClient_private (fd : Nat) (machine : Machine) :
    Private fd machine.worker (flushClient fd machine).2.worker := by
  intro other different
  unfold flushClient
  split
  · rfl
  next connection live =>
    split
    next ended sends left loop =>
    have advanced : (machine.worker.advance fd connection left.outboundOffset).connections.lookup other =
        machine.worker.connections.lookup other := AList.lookup_insert_ne different
    dsimp only
    cases ended with
    | failed => exact (AList.lookup_erase_ne different).trans advanced
    | blocked => exact (watchOrClose_private fd _ _ other different).trans advanced
    | drained =>
      have emptied : ((machine.worker.advance fd connection left.outboundOffset).put fd
          { left with outbound := [], outboundOffset := 0 }).connections.lookup other =
          machine.worker.connections.lookup other := (AList.lookup_insert_ne different).trans advanced
      dsimp only
      split
      · exact (AList.lookup_erase_ne different).trans emptied
      · exact (watchOrClose_private fd _ _ other different).trans emptied

theorem settle_private (fd : Nat) (machine : Machine) : Private fd machine.worker (settle machine fd).worker := by
  intro other different
  unfold settle
  split
  · rfl
  · split
    · rfl
    · split
      · exact flushClient_private fd machine other different
      · exact AList.lookup_erase_ne different

theorem flushClient_spent {fd : Nat} {machine : Machine} {connection : Connection}
    (live : machine.worker.connections.lookup fd = some connection) (closed : connection.peerClosed = true) :
    Spent fd (flushClient fd machine).2.worker := by
  have ends := Stream.sendLoop_ends machine.script.sends connection
  have gone {other : Machine} : Spent fd (closeClient fd other).worker := by
    intro found there
    rw [show (closeClient fd other).worker.connections.lookup fd = none from AList.lookup_erase _ _] at there
    exact absurd there (Option.some_ne_none found).symm
  generalize loop : sendLoop machine.script.sends connection = result at ends
  obtain ⟨ended, rest, left⟩ := result
  have frame := (sendLoop_spec _ _ _ _ _ loop).1
  simp only [flushClient, live, loop]
  cases ends with
  | failed front outcome rest left hard last => exact gone
  | blocked rest left pending =>
    dsimp only
    intro found there
    unfold watchOrClose at there
    split at there
    next watched call =>
      dsimp only at there
      rw [(modifyFd_spec _ _ _ _ _ call).1, if_pos rfl, lookup_watch] at there
      have own : found = { connection with outboundOffset := left.outboundOffset } :=
        Option.some.inj (there.symm.trans (lookup_put _ _ _))
      rw [own, ← frame]
      exact .inr pending
    next unwatched call => exact gone found there
  | drained rest left done =>
    dsimp only
    split
    · exact gone
    next opened =>
      have same := congrArg Connection.peerClosed frame
      exact absurd (same.trans closed) opened

theorem settle_spent {fd : Nat} {machine : Machine} (closing : Closing machine.worker) :
    Spent fd (settle machine fd).worker := by
  unfold settle
  split
  next none =>
    intro connection live
    rw [none] at live
    exact absurd live (Option.some_ne_none connection).symm
  next connection live =>
    split
    next busy =>
      intro found there
      rw [live, Option.some.injEq] at there
      rw [← there]
      exact .inl busy
    next idle =>
      split
      next pending => exact flushClient_spent live (closing fd connection live pending)
      next =>
        intro found there
        rw [show (closeClient fd machine).worker.connections.lookup fd = none from AList.lookup_erase _ _] at there
        exact absurd there (Option.some_ne_none found).symm

theorem foldl_spent (fds : List Nat) (machine : Machine) (closing : Closing machine.worker) (fd : Nat)
    (reached : fd ∈ fds ∨ Spent fd machine.worker) : Spent fd (fds.foldl settle machine).worker := by
  induction fds generalizing machine with
  | nil =>
    rcases reached with never | spent
    · exact absurd never List.not_mem_nil
    · exact spent
  | cons other rest ih =>
    have kept : Closing (settle machine other).worker :=
      (settle_chain {} machine other).preserves Closing (fun _ _ => action_closing) closing
    apply ih (settle machine other) kept
    by_cases here : fd = other
    · rw [here]
      exact .inr (settle_spent closing)
    · rcases reached with member | spent
      · exact .inl (List.mem_of_ne_of_mem here member)
      · right
        unfold Spent
        rw [settle_private other machine fd here]
        exact spent

theorem sweep_spent {machine : Machine} (closing : Closing machine.worker) (fd : Nat) :
    Spent fd (sweep machine).worker := by
  unfold sweep
  dsimp only
  apply foldl_spent
  · exact closing
  by_cases present : fd ∈ machine.worker.connections
  · exact .inl (mem_fileDescriptors _ machine.worker fd present)
  · right
    intro connection live
    exact absurd (AList.lookup_isSome.mp (by rw [live]; rfl)) present

def Posted (worker : Worker) : Prop := ∀ task ∈ worker.tasks, Lifetime.Task.unposted task = false

theorem idle_of_settled {worker : Worker} (watches : Watches worker) (owed : Owed 0 worker)
    (none : worker.outstandingTasks = 0) (fd : Nat) (connection : Connection)
    (live : worker.connections.lookup fd = some connection) : connection.requestInFlight = false := by
  by_contra busy
  obtain ⟨index, task, found, _, _, waits⟩ :=
    (watches fd connection live).owned (Bool.eq_true_of_not_eq_false busy)
  have member : index ∈ unpopped worker := by simp [unpopped, (List.getElem?_eq_some_iff.mp found).1, waits]
  have positive := Finset.card_pos.mpr ⟨index, member⟩
  unfold Owed at owed
  omega

theorem chain_asked {context : Context} {before after : Worker} (chain : Chain context before after)
    (asked : before.shutdownRequested = true) : after.shutdownRequested = true :=
  chain.preserves (fun worker => worker.shutdownRequested = true) (fun _ _ => action_asked) asked

structure Worked (phase : Phase) (completed : List Completion) (before after : Worker) : Prop where
  phase : after.phase = phase
  completed : after.completed = completed
  tasks : after.tasks = before.tasks
  completions : after.completions = before.completions
  asked : before.shutdownRequested = true → after.shutdownRequested = true

theorem apply_next {worker : Worker} (script : Script) (caller : Caller) (completion : Completion)
    (rest : List Completion) (applied : worker.phase = .applying caller) (queued : worker.completed = completion :: rest) :
    Worked (.applying caller) rest worker (step worker (.apply script)) := by
  have stepped : step worker (.apply script) = (applyCompletion completion rest ⟨worker, script⟩).worker := by
    simp only [step, applied, queued]
  have tasks := applyCompletion_tasks completion rest ⟨worker, script⟩
  obtain ⟨landed, after, lands, chain, same⟩ := applyCompletion_chain {} completion rest ⟨worker, script⟩
  have landing : landed.completions = worker.completions ∧ landed.completed = rest ∧
      (worker.shutdownRequested = true → landed.shutdownRequested = true) := by
    rcases lands with here | action
    · rw [here]
      exact ⟨rfl, rfl, id⟩
    · obtain ⟨_, completions, completed⟩ := action_frame action
      exact ⟨completions, completed, fun asked => action_asked action asked⟩
  obtain ⟨_, completions, completed⟩ := chain_frame chain
  have phase := (apply_phase completion rest lands chain).trans applied
  rw [stepped]
  refine ⟨?_, ?_, tasks, ?_, fun asked => ?_⟩
  · rw [same]
    exact phase
  · rw [same]
    exact completed.trans landing.2.1
  · rw [same]
    exact completions.trans landing.1
  · have still := chain_asked chain (landing.2.2 asked)
    rw [same]
    exact still

theorem apply_all (scripts : List Script) (worker : Worker) (caller : Caller) (applied : worker.phase = .applying caller)
    (enough : scripts.length = worker.completed.length + 1) :
    Worked caller.continue [] worker (run step worker (scripts.map Label.apply)) := by
  induction scripts generalizing worker with
  | nil => exact absurd enough.symm (Nat.succ_ne_zero _)
  | cons script rest ih =>
    rw [List.map_cons, run_cons]
    cases queued : worker.completed with
    | nil =>
      rw [queued] at enough
      have last : rest = [] := List.length_eq_zero_iff.mp (Nat.succ.inj enough)
      have stepped : step worker (.apply script) = { worker with phase := caller.continue } := by
        simp only [step, applied, queued]
      rw [last, stepped]
      exact ⟨rfl, queued, rfl, rfl, id⟩
    | cons completion others =>
      have next := apply_next script caller completion others applied queued
      rw [queued, List.length_cons, List.length_cons] at enough
      have later := ih (step worker (.apply script)) next.phase (by rw [next.completed]; omega)
      exact ⟨later.phase, later.completed, later.tasks.trans next.tasks, later.completions.trans next.completions,
        fun asked => later.asked (next.asked asked)⟩

theorem finish_worked {worker : Worker} (script : Script) (finished : worker.phase = .finishing)
    (asked : worker.shutdownRequested = true) (closing : Closing worker) :
    let after := step worker (.finish script)
    Worked .testing worker.completed worker after ∧ after.draining = true ∧ ∀ fd, Spent fd after := by
  intro after
  have stepped : after = finishIteration ⟨worker, script⟩ := by
    show step worker (.finish script) = _
    simp only [step, finished]
  obtain ⟨last, chain, drained, _, same⟩ :=
    finishIteration_chain { notice := iterationNotice worker } ⟨worker, script⟩ rfl
  have tasks := finishIteration_tasks ⟨worker, script⟩
  obtain ⟨_, completions, completed⟩ := chain_frame chain
  rw [stepped]
  refine ⟨⟨?_, ?_, tasks, ?_, fun asked => ?_⟩, ?_, fun fd => ?_⟩
  · rw [same]
  · rw [same]
    exact completed
  · rw [same]
    exact completions
  · have still := chain_asked chain asked
    rw [same]
    exact still
  · rw [same]
    exact drained asked
  · obtain ⟨begun, draining⟩ := beginDrain_chain { notice := .iteration } ⟨worker, script⟩ (by decide) asked
    have left : Closing (beginDrain worker.listenerFd ⟨worker, script⟩).2.worker :=
      begun.preserves Closing (fun _ _ => action_closing) closing
    unfold finishIteration
    dsimp only at draining left ⊢
    rw [if_pos asked]
    generalize beginDrain worker.listenerFd ⟨worker, script⟩ = result at draining left ⊢
    dsimp only
    rw [if_pos draining]
    have spent : Spent fd (sweep { result.2 with worker := { result.2.worker with listenerFd := result.1 } }).worker := by
      apply sweep_spent
      exact left
    exact spent

structure Reached (worker : Worker) : Prop where
  watches : Watches worker
  closing : Closing worker
  accounted : Accounted worker
  owed : Owed 0 worker

theorem run_reached (workerId listenerFd completionFd : Nat) (labels : List Label) :
    Reached (run step (start workerId listenerFd completionFd) labels) := by
  obtain ⟨accounted, _, owed⟩ := run_owed workerId listenerFd completionFd labels
  exact ⟨run_watches workerId listenerFd completionFd labels, run_closing workerId listenerFd completionFd labels,
    accounted, owed⟩

/-- The worker before its last test: all is done but what sockets have not taken. -/
structure Drained (worker : Worker) : Prop where
  phase : worker.phase = .testing
  draining : worker.draining = true
  nothing : worker.outstandingTasks = 0
  slow : ∀ fd connection, worker.connections.lookup fd = some connection → connection.requestInFlight = false ∧
    connection.pendingBytes ≠ 0 ∧ ∃ mask, worker.interest.lookup fd = some mask ∧ mask.output = true

theorem Accounted.nothing {worker : Worker} (accounted : Accounted worker) (posted : Posted worker)
    (empty : worker.completions = []) (drained : worker.completed = []) : worker.outstandingTasks = 0 := by
  have unposted : worker.tasks.countP Lifetime.Task.unposted = 0 := by
    rw [List.countP_eq_zero]
    intro task member
    rw [posted task member]
    exact Bool.noConfusion
  have counts := accounted.counts
  unfold Counts at counts
  rw [counts, unposted, empty, drained]
  rfl

theorem finish_drained {worker : Worker} (script : Script) (finished : worker.phase = .finishing)
    (asked : worker.shutdownRequested = true) (posted : Posted worker) (empty : worker.completions = [])
    (before : Reached worker) (after : Reached (step worker (.finish script))) :
    Drained (step worker (.finish script)) := by
  obtain ⟨worked, draining, spent⟩ := finish_worked script finished asked before.closing
  have drained := before.accounted.local_empty (by simp [finished])
  have nothing : (step worker (.finish script)).outstandingTasks = 0 := by
    apply Accounted.nothing after.accounted
    · unfold Posted
      rw [worked.tasks]
      exact posted
    · exact worked.completions.trans empty
    · exact worked.completed.trans drained
  refine ⟨worked.phase, draining, nothing, fun fd connection live => ?_⟩
  have idle := idle_of_settled after.watches after.owed nothing fd connection live
  have pending : connection.pendingBytes ≠ 0 := by
    rcases spent fd connection live with busy | pending
    · exact absurd (busy.symm.trans idle) Bool.noConfusion
    · exact pending
  obtain ⟨mask, listed, suits⟩ := (after.watches fd connection live).mask
  exact ⟨idle, pending, mask, listed, suits.output idle pending⟩

theorem Drained.test {worker : Worker} (drained : Drained worker) :
    (step worker .test = worker.exit true ∧ worker.connections.keys = []) ∨
      (step worker .test = { worker with phase := .waiting } ∧ worker.connections.keys ≠ []) := by
  simp only [step, drained.phase, if_true, Worker.shouldStop, drained.draining, drained.nothing, decide_true,
    Bool.and_self, Bool.true_and]
  by_cases empty : worker.connections.keys = []
  · left
    simp [empty]
  · right
    simp [empty]

theorem iteration_finishing {worker : Worker} (scripts : List Script) (handled : worker.phase = .handling [])
    (enough : scripts.length = worker.completions.length + 1) :
    let after := run step worker ([.iterate, .collect] ++ scripts.map Label.apply)
    after.phase = .finishing ∧ after.tasks = worker.tasks ∧ after.completions = [] ∧
      (worker.shutdownRequested = true → after.shutdownRequested = true) := by
  intro after
  have collected : run step worker [.iterate, .collect] = { worker with
      notifications := 0
      completed := worker.completions
      completions := []
      metrics := worker.metrics.completionQueueSize worker.workerId 0
      phase := .applying .iteration } := by
    simp only [run, List.foldl_cons, List.foldl_nil, step, handled]
  have worked := apply_all scripts (run step worker [.iterate, .collect]) .iteration (by rw [collected])
    (by rw [collected]; exact enough)
  have same : after = run step (run step worker [.iterate, .collect]) (scripts.map Label.apply) := run_append step _ _ _
  rw [same]
  refine ⟨worked.phase, worked.tasks.trans ?_, worked.completions.trans ?_, fun asked => worked.asked ?_⟩
  · rw [collected]
  · rw [collected]
  · rw [collected]
    exact asked

structure Deaf (count : Nat) (script : Script) : Prop where
  enough : count ≤ script.sends.length
  fails : ∀ outcome ∈ script.sends, outcome = .failed

theorem settle_deaf {machine : Machine} (fd count : Nat) (deaf : Deaf (count + 1) machine.script)
    (idle : ∀ connection, machine.worker.connections.lookup fd = some connection → connection.requestInFlight = false) :
    (settle machine fd).worker.connections.lookup fd = none ∧ Deaf count (settle machine fd).script := by
  obtain ⟨enough, fails⟩ := deaf
  have fewer : Deaf count machine.script := ⟨by omega, fails⟩
  unfold settle
  split
  next none => exact ⟨none, fewer⟩
  next connection live =>
    rw [if_neg (by rw [idle connection live]; exact Bool.noConfusion)]
    split
    next pending =>
      cases sends : machine.script.sends with
      | nil =>
        rw [sends] at enough
        exact absurd enough (Nat.not_succ_le_zero _)
      | cons outcome rest =>
        rw [sends] at fails enough
        have hard := fails outcome List.mem_cons_self
        have loop : sendLoop machine.script.sends connection = (.failed, rest, connection) := by
          rw [sends, hard, sendLoop, if_neg pending]
        unfold flushClient
        rw [live]
        dsimp only
        rw [loop]
        refine ⟨AList.lookup_erase _ _, Nat.le_of_succ_le_succ enough, ?_⟩
        exact fun other member => fails other (List.mem_cons_of_mem _ member)
    next => exact ⟨AList.lookup_erase _ _, fewer⟩

theorem foldl_deaf (fds : List Nat) (machine : Machine) (deaf : Deaf fds.length machine.script)
    (idle : ∀ fd connection, machine.worker.connections.lookup fd = some connection → connection.requestInFlight = false)
    (fd : Nat) (reached : fd ∈ fds ∨ machine.worker.connections.lookup fd = none) :
    (fds.foldl settle machine).worker.connections.lookup fd = none := by
  induction fds generalizing machine with
  | nil =>
    rcases reached with never | gone
    · exact absurd never List.not_mem_nil
    · exact gone
  | cons other rest ih =>
    obtain ⟨gone, still⟩ := settle_deaf other rest.length deaf (idle other)
    apply ih (settle machine other) still
    · intro third connection live
      by_cases here : third = other
      · rw [here, gone] at live
        exact absurd live (Option.some_ne_none connection).symm
      · rw [settle_private other machine third here] at live
        exact idle third connection live
    · by_cases here : fd = other
      · rw [here]
        exact .inr gone
      · rcases reached with member | missing
        · exact .inl (List.mem_of_ne_of_mem here member)
        · exact .inr ((settle_private other machine fd here).trans missing)

theorem foldl_settle_empty (fds : List Nat) (machine : Machine)
    (empty : ∀ fd, machine.worker.connections.lookup fd = none) : fds.foldl settle machine = machine := by
  induction fds with
  | nil => rfl
  | cons fd rest ih =>
    have still : settle machine fd = machine := by
      unfold settle
      rw [empty fd]
    rw [List.foldl_cons, still]
    exact ih

theorem sweep_deaf (machine : Machine) (deaf : Deaf machine.worker.connections.keys.length machine.script)
    (orders : machine.script.orders = [])
    (idle : ∀ fd connection, machine.worker.connections.lookup fd = some connection → connection.requestInFlight = false)
    (fd : Nat) : (sweep machine).worker.connections.lookup fd = none := by
  have all : fileDescriptors [] machine.worker = machine.worker.connections.keys := by simp [fileDescriptors]
  unfold sweep
  dsimp only
  rw [orders, List.headD_nil, all]
  apply foldl_deaf
  · exact ⟨deaf.enough, deaf.fails⟩
  · exact idle
  · by_cases present : fd ∈ machine.worker.connections
    · exact .inl (AList.mem_keys.mpr present)
    · exact .inr (AList.lookup_eq_none.mpr present)

theorem sweep_empty (machine : Machine) (empty : ∀ fd, machine.worker.connections.lookup fd = none) (fd : Nat) :
    (sweep machine).worker.connections.lookup fd = none := by
  unfold sweep
  dsimp only
  rw [foldl_settle_empty]
  · exact empty fd
  · exact empty

theorem finish_deaf {worker : Worker} (script : Script) (finished : worker.phase = .finishing)
    (asked : worker.shutdownRequested = true) (deaf : Deaf worker.connections.keys.length script)
    (orders : script.orders = [])
    (idle : ∀ fd connection, worker.connections.lookup fd = some connection → connection.requestInFlight = false) :
    (step worker (.finish script)).connections.keys = [] := by
  have stepped : step worker (.finish script) = finishIteration ⟨worker, script⟩ := by simp only [step, finished]
  have gone (fd : Nat) : (finishIteration ⟨worker, script⟩).connections.lookup fd = none := by
    obtain ⟨_, draining⟩ := beginDrain_chain { notice := .iteration } ⟨worker, script⟩ (by decide) asked
    unfold finishIteration
    dsimp only at draining ⊢
    rw [if_pos asked]
    unfold beginDrain at draining ⊢
    dsimp only at draining ⊢
    by_cases before : worker.draining = true
    · rw [if_pos before] at draining ⊢
      dsimp only at draining ⊢
      rw [if_pos draining]
      exact sweep_deaf { worker := { worker with listenerFd := worker.listenerFd }, script } deaf orders idle fd
    · rw [if_neg before] at draining ⊢
      dsimp only at draining ⊢
      rw [if_pos draining]
      have retired : (Worker.retire worker.listenerFd { worker with draining := true, poolStopping := true }).connections =
          worker.connections := connections_retire _ _
      apply sweep_empty
      intro other
      apply sweep_deaf
      · dsimp only
        rw [retired]
        exact deaf
      · exact orders
      · dsimp only
        rw [retired]
        exact idle
  rw [stepped, List.eq_nil_iff_forall_not_mem]
  intro fd member
  exact absurd (gone fd) (fun none => AList.lookup_eq_none.mp none (AList.mem_keys.mp member))

def Task.toil (task : Task) : Nat :=
  match task.progress with
  | .queued => 3
  | .handled _ => 2
  | .posted _ | .notified _ => 0

def Caller.left : Caller → Nat
  | .event rest => 4 * rest.length
  | .iteration => 3

/-- The steps to the end of a batch, but for those that pop completions. -/
def Phase.left : Phase → Nat
  | .exited _ => 0
  | .handling batch => 4 * batch.length
  | .waiting => 1
  | .testing => 2
  | .finishing => 3
  | .applying caller => Caller.left caller + 1
  | .collecting caller => Caller.left caller + 2

def left (worker : Worker) : Nat :=
  (worker.tasks.map Task.toil).sum + Phase.left worker.phase + worker.completions.length + worker.completed.length

def Rested (worker : Worker) : Prop :=
  worker.phase = .exited true ∨ worker.phase = .handling [] ∧ Posted worker

theorem left_lowers {before after : Worker} (tasks : after.tasks = before.tasks)
    (lower : Phase.left after.phase + after.completions.length + after.completed.length <
      Phase.left before.phase + before.completions.length + before.completed.length) : left after < left before := by
  unfold left
  rw [tasks]
  omega

theorem test_lowers {worker : Worker} (tested : worker.phase = .testing) : left (step worker .test) < left worker := by
  simp only [step, tested, if_true]
  split
  · obtain ⟨tasks, _, completions, completed, phase⟩ := exit_frame true worker
    apply left_lowers tasks
    rw [completions, completed, phase, tested]
    simp only [Phase.left]
    omega
  · apply left_lowers
    · rfl
    · simp only [tested, Phase.left]
      omega

theorem wait_lowers {worker : Worker} (waited : worker.phase = .waiting) :
    left (step worker (.wait (.ready []))) < left worker := by
  have woken : step worker (.wait (.ready [])) = { worker with phase := .handling [] } := by
    simp [step, waited, Worker.reports]
  rw [woken]
  apply left_lowers
  · rfl
  · simp only [waited, Phase.left, List.length_nil]
    omega

theorem handle_lowers {worker : Worker} (ready : Ready) (rest : List Ready)
    (handled : worker.phase = .handling (ready :: rest)) :
    left (step worker (.handle { rooms := [false] })) < left worker := by
  have tasks : (step worker (.handle { rooms := [false] })).tasks = worker.tasks := by
    rcases loop_submits false worker (.handle {}) rfl with same | ⟨room, _⟩
    · exact same
    · cases room
  have stepped : step worker (.handle { rooms := [false] }) = handleEvent ready rest ⟨worker, { rooms := [false] }⟩ := by
    simp only [step, handled]
  obtain ⟨after, chain, _, same | same⟩ :=
    handleEvent_chain {} ready rest ⟨worker, { rooms := [false] }⟩ ⟨.inl rfl, .inl rfl, .inl rfl⟩
  · obtain ⟨_, completions, completed⟩ := chain_frame chain
    apply left_lowers tasks
    rw [stepped, same, handled]
    dsimp only at completions completed ⊢
    rw [completions, completed]
    simp only [Phase.left, Caller.left, List.length_cons]
    omega
  · obtain ⟨_, completions, completed⟩ := chain_frame chain
    apply left_lowers tasks
    rw [stepped, same, handled]
    dsimp only at completions completed ⊢
    rw [completions, completed]
    simp only [Phase.left, List.length_cons]
    omega

theorem collect_lowers {worker : Worker} (caller : Caller) (collected : worker.phase = .collecting caller)
    (empty : worker.completed = []) : left (step worker .collect) < left worker := by
  simp only [step, collected]
  apply left_lowers
  · rfl
  · simp only [collected, empty, Phase.left, List.length_nil]
    omega

theorem apply_lowers {worker : Worker} (caller : Caller) (applied : worker.phase = .applying caller) :
    left (step worker (.apply {})) < left worker := by
  cases queued : worker.completed with
  | nil =>
    simp only [step, applied, queued]
    apply left_lowers
    · rfl
    · cases caller with
      | event rest =>
        simp only [applied, queued, Caller.continue, Phase.left, Caller.left, List.length_nil]
        omega
      | iteration =>
        simp only [applied, queued, Caller.continue, Phase.left, Caller.left, List.length_nil]
        omega
  | cons completion rest =>
    have next := apply_next {} caller completion rest applied queued
    apply left_lowers next.tasks
    rw [next.phase, next.completions, next.completed, applied, queued, List.length_cons]
    omega

theorem finish_lowers {worker : Worker} (finished : worker.phase = .finishing) :
    left (step worker (.finish {})) < left worker := by
  have stepped : step worker (.finish {}) = finishIteration ⟨worker, {}⟩ := by simp only [step, finished]
  obtain ⟨after, chain, _, _, same⟩ := finishIteration_chain { notice := iterationNotice worker } ⟨worker, {}⟩ rfl
  obtain ⟨_, completions, completed⟩ := chain_frame chain
  rw [stepped]
  apply left_lowers (finishIteration_tasks _)
  rw [same, finished]
  dsimp only at completions completed ⊢
  rw [completions, completed]
  simp only [Phase.left]
  omega

theorem run_lowers {worker : Worker} (index : Nat) (task : Task) (found : worker.tasks[index]? = some task)
    (queued : task.progress = .queued) : left (step worker (.runHandler index none)) < left worker := by
  have moved := sum_map_set worker.tasks Task.toil index task { task with progress := .handled internalError } found
  simp only [step, Worker.runHandler, found, queued, Option.getD_none, Worker.setTask, left]
  simp only [Task.toil, queued] at moved ⊢
  omega

theorem push_lowers {worker : Worker} (index : Nat) (task : Task) (response : HttpResponse)
    (found : worker.tasks[index]? = some task) (handled : task.progress = .handled response) :
    left (step worker (.push index)) < left worker := by
  have moved := sum_map_set worker.tasks Task.toil index task { task with progress := .posted response } found
  simp only [step, Worker.pushCompletion, found, handled, Worker.setTask, left, List.length_append, List.length_singleton]
  simp only [Task.toil, handled] at moved ⊢
  omega

/-- Short of the end some step leads on. -/
theorem lowers {worker : Worker} (accounted : Accounted worker) (sound : worker.phase ≠ .exited false)
    (busy : ¬ Rested worker) : ∃ label, label ≠ .wait .failed ∧ left (step worker label) < left worker := by
  by_cases posted : Posted worker
  · cases phase : worker.phase with
    | testing => exact ⟨.test, Label.noConfusion, test_lowers phase⟩
    | waiting =>
      refine ⟨.wait (.ready []), fun same => ?_, wait_lowers phase⟩
      cases same
    | handling batch =>
      cases batch with
      | nil => exact absurd (.inr ⟨phase, posted⟩) busy
      | cons ready rest => exact ⟨.handle { rooms := [false] }, Label.noConfusion, handle_lowers ready rest phase⟩
    | collecting caller =>
      have empty := accounted.local_empty (by simp [phase])
      exact ⟨.collect, Label.noConfusion, collect_lowers caller phase empty⟩
    | applying caller => exact ⟨.apply {}, Label.noConfusion, apply_lowers caller phase⟩
    | finishing => exact ⟨.finish {}, Label.noConfusion, finish_lowers phase⟩
    | exited completed =>
      cases completed with
      | true => exact absurd (.inl phase) busy
      | false => exact absurd phase sound
  · obtain ⟨task, unposted⟩ := not_forall.mp posted
    obtain ⟨member, waits⟩ := Classical.not_imp.mp unposted
    obtain ⟨index, found⟩ := List.mem_iff_getElem?.mp member
    cases progress : task.progress with
    | queued => exact ⟨.runHandler index none, Label.noConfusion, run_lowers index task found progress⟩
    | handled response => exact ⟨.push index, Label.noConfusion, push_lowers index task response found progress⟩
    | posted response => exact absurd (by simp [Lifetime.Task.unposted, progress]) waits
    | notified response => exact absurd (by simp [Lifetime.Task.unposted, progress]) waits

/-- Only where `epoll_wait` fails the loop ends in failure. -/
theorem step_sound {worker : Worker} {label : Label} (served : label ≠ .wait .failed)
    (sound : worker.phase ≠ .exited false) : (step worker label).phase ≠ .exited false := by
  intro failed
  cases label with
  | requestShutdown => exact sound failed
  | test =>
    simp only [step] at failed
    split at failed
    · split at failed
      · have phase := (exit_frame true worker).2.2.2.2
        cases phase.symm.trans failed
      · cases failed
    · exact sound failed
  | wait outcome =>
    simp only [step] at failed
    split at failed
    · cases outcome with
      | ready batch =>
        dsimp only at failed
        split at failed
        · cases failed
        · exact sound failed
      | interrupted => cases failed
      | failed => exact served rfl
    · exact sound failed
  | handle script =>
    simp only [step] at failed
    split at failed
    next ready rest handled =>
      obtain ⟨after, _, _, same | same⟩ :=
        handleEvent_chain {} ready rest ⟨worker, script⟩ ⟨.inl rfl, .inl rfl, .inl rfl⟩
      · rw [same] at failed
        cases failed
      · rw [same] at failed
        cases failed
    next => exact sound failed
  | iterate =>
    simp only [step] at failed
    split at failed
    · cases failed
    · exact sound failed
  | collect =>
    simp only [step] at failed
    split at failed
    · cases failed
    · exact sound failed
  | apply script =>
    cases phase : worker.phase with
    | applying caller =>
      cases queued : worker.completed with
      | nil =>
        simp only [step, phase, queued] at failed
        cases caller with
        | event rest => cases failed
        | iteration => cases failed
      | cons completion rest =>
        have next := apply_next script caller completion rest phase queued
        cases next.phase.symm.trans failed
    | _ =>
      simp only [step, phase] at failed
      exact sound (phase.trans failed)
  | finish script =>
    simp only [step] at failed
    split at failed
    · obtain ⟨after, _, _, _, same⟩ :=
        finishIteration_chain { notice := iterationNotice worker } ⟨worker, script⟩ rfl
      rw [same] at failed
      cases failed
    · exact sound failed
  | runHandler index outcome =>
    simp only [step, Worker.runHandler] at failed
    split at failed
    · split at failed
      · exact sound failed
      · exact sound failed
    · exact sound failed
  | push index =>
    simp only [step, Worker.pushCompletion] at failed
    split at failed
    · split at failed
      · exact sound failed
      · exact sound failed
    · exact sound failed
  | notify index =>
    simp only [step, Worker.notify] at failed
    split at failed
    · split at failed
      · exact sound failed
      · exact sound failed
    · exact sound failed

/-- From wherever the loop runs, all its tasks can be brought to post their completions, and the batch to its end. -/
theorem exists_rested {worker : Worker} (accounted : Accounted worker) (sound : worker.phase ≠ .exited false) :
    ∃ labels, (∀ label ∈ labels, label ≠ .wait .failed) ∧ Rested (run step worker labels) := by
  apply exists_settled step (fun worker => Accounted worker ∧ worker.phase ≠ .exited false) Rested
    (fun label => label ≠ .wait .failed) left
  · intro state label kept served
    exact ⟨transition_accounted (any_transition state label) kept.1, step_sound served kept.2⟩
  · exact fun state kept busy => lowers kept.1 kept.2 busy
  · exact ⟨accounted, sound⟩

theorem exit_asked (completed : Bool) (worker : Worker) (asked : worker.shutdownRequested = true) :
    (worker.exit completed).shutdownRequested = true := by
  unfold Worker.exit
  dsimp only
  split
  · exact (Bool.or_eq_true _ _).mpr (.inl asked)
  · exact (Bool.or_eq_true _ _).mpr (.inl asked)

theorem transition_asked {permits : Permits} {label : Label} {before after : Worker}
    (transition : Transition permits label before after) (asked : before.shutdownRequested = true) :
    after.shutdownRequested = true := by
  cases transition with
  | stop test tested stops => exact exit_asked true before asked
  | fail waited => exact exit_asked false before asked
  | shutdown => rfl
  | handle called ready rest last handled chain drained =>
    have still := chain_asked chain asked
    exact still
  | notice called ready rest last handled chain drained =>
    have still := chain_asked chain asked
    exact still
  | finish last finished chain drained forgotten =>
    have still := chain_asked chain asked
    exact still
  | apply caller completion rest landed last applied queued lands chain =>
    have landing : landed.shutdownRequested = true := by
      rcases lands with same | action
      · rw [same]
        exact asked
      · exact action_asked action asked
    have still := chain_asked chain landing
    exact still
  | _ => exact asked

theorem run_asked (worker : Worker) (labels : List Label) (asked : worker.shutdownRequested = true) :
    (run step worker labels).shutdownRequested = true :=
  run_invariant step (fun worker => worker.shutdownRequested = true) (fun _ => True)
    (fun before label _ => transition_asked (any_transition before label)) worker labels (fun _ _ => trivial) asked

def Reachable (worker : Worker) : Prop :=
  ∃ workerId listenerFd completionFd labels, worker = run step (start workerId listenerFd completionFd) labels

theorem Reachable.reached {worker : Worker} (reachable : Reachable worker) : Reached worker := by
  obtain ⟨workerId, listenerFd, completionFd, labels, same⟩ := reachable
  rw [same]
  exact run_reached workerId listenerFd completionFd labels

theorem Reachable.onward {worker : Worker} (reachable : Reachable worker) (later : List Label) :
    Reachable (run step worker later) := by
  obtain ⟨workerId, listenerFd, completionFd, labels, same⟩ := reachable
  refine ⟨workerId, listenerFd, completionFd, labels ++ later, ?_⟩
  rw [same, run_append]

def wholeIteration (scripts : List Script) (script : Script) : List Label :=
  [.iterate, .collect] ++ scripts.map Label.apply ++ [.finish script, .test]

theorem run_wholeIteration (worker : Worker) (scripts : List Script) (script : Script) :
    run step worker (wholeIteration scripts script) =
      step (step (run step worker ([.iterate, .collect] ++ scripts.map Label.apply)) (.finish script)) .test := by
  unfold wholeIteration
  rw [run_append]
  rfl

section Iteration

variable {worker : Worker} (reachable : Reachable worker) (scripts : List Script)
  (handled : worker.phase = .handling []) (posted : Posted worker) (asked : worker.shutdownRequested = true)
  (enough : scripts.length = worker.completions.length + 1)
include reachable handled posted asked enough

theorem iteration_nothing :
    let last := run step worker ([.iterate, .collect] ++ scripts.map Label.apply)
    last.phase = .finishing ∧ last.shutdownRequested = true ∧ Posted last ∧ last.completions = [] ∧
      ∀ fd connection, last.connections.lookup fd = some connection → connection.requestInFlight = false := by
  intro last
  obtain ⟨finishing, tasks, empty, still⟩ := iteration_finishing scripts handled enough
  have reached : Reached last := (reachable.onward _).reached
  have everyPosted : Posted last := by
    unfold Posted
    rw [tasks]
    exact posted
  have elsewhere (caller : Caller) : last.phase ≠ .applying caller := by
    intro applied
    cases finishing.symm.trans applied
  have drained := reached.accounted.local_empty elsewhere
  have nothing := Accounted.nothing reached.accounted everyPosted empty drained
  exact ⟨finishing, still asked, everyPosted, empty, idle_of_settled reached.watches reached.owed nothing⟩

theorem iteration_drained (script : Script) :
    Drained (step (run step worker ([.iterate, .collect] ++ scripts.map Label.apply)) (.finish script)) := by
  obtain ⟨finishing, still, everyPosted, empty, _⟩ := iteration_nothing reachable scripts handled posted asked enough
  have before := reachable.onward ([.iterate, .collect] ++ scripts.map Label.apply)
  exact finish_drained script finishing still everyPosted empty before.reached (before.onward [.finish script]).reached

end Iteration

/-- The clients do not take anything any more, and the loop is left. -/
theorem exists_exited {worker : Worker} (reachable : Reachable worker) (handled : worker.phase = .handling [])
    (posted : Posted worker) (asked : worker.shutdownRequested = true) :
    ∃ scripts script, (run step worker (wholeIteration scripts script)).phase = .exited true := by
  have enough : (List.replicate (worker.completions.length + 1) ({} : Script)).length = worker.completions.length + 1 :=
    List.length_replicate
  generalize List.replicate (worker.completions.length + 1) ({} : Script) = scripts at enough
  obtain ⟨finishing, still, _, _, idle⟩ := iteration_nothing reachable scripts handled posted asked enough
  have drained := iteration_drained reachable scripts handled posted asked enough
  generalize lastEq : run step worker ([.iterate, .collect] ++ scripts.map Label.apply) = last at *
  have deaf : Deaf last.connections.keys.length { sends := List.replicate last.connections.keys.length .failed } := by
    refine ⟨Nat.le_of_eq List.length_replicate.symm, ?_⟩
    exact fun outcome member => List.eq_of_mem_replicate member
  have empty := finish_deaf _ finishing still deaf rfl idle
  refine ⟨scripts, { sends := List.replicate last.connections.keys.length .failed }, ?_⟩
  rw [run_wholeIteration, lastEq]
  rcases (drained _).test with ⟨exits, _⟩ | ⟨_, some⟩
  · rw [exits]
    exact (exit_frame true _).2.2.2.2
  · exact absurd empty some

/-- The end of a worker that is to shut down. Once its tasks have posted their completions, an iteration
either leaves the loop with no connection left, or ends with connections that wait for nothing but room
in their sockets; and from wherever the loop runs it can be left in that way. -/
theorem shutdown_drains (workerId listenerFd completionFd : Nat) (labels : List Label)
    (asked : (run step (start workerId listenerFd completionFd) labels).shutdownRequested = true) :
    let worker := run step (start workerId listenerFd completionFd) labels
    (worker.phase = .handling [] → (∀ task ∈ worker.tasks, Lifetime.Task.unposted task = false) →
      ∀ scripts script, scripts.length = worker.completions.length + 1 →
        let after := run step worker (wholeIteration scripts script)
        (after.phase = .exited true ∧ after.connections.keys = []) ∨
          (after.phase = .waiting ∧ after.connections.keys ≠ [] ∧
            ∀ fd connection, after.connections.lookup fd = some connection → connection.requestInFlight = false ∧
              connection.pendingBytes ≠ 0 ∧ ∃ mask, after.interest.lookup fd = some mask ∧ mask.output = true)) ∧
      (worker.phase ≠ .exited false → ∃ later, (∀ label ∈ later, label ≠ .wait .failed) ∧
        (run step worker later).phase = .exited true ∧ (run step worker later).connections.keys = []) := by
  intro worker
  have reachable : Reachable worker := ⟨workerId, listenerFd, completionFd, labels, rfl⟩
  have vacated (later : List Label) (exited : (run step worker later).phase = .exited true) :
      (run step worker later).connections.keys = [] := by
    apply List.length_eq_zero_iff.mp
    have onward : run step worker later = run step (start workerId listenerFd completionFd) (labels ++ later) :=
      (run_append step _ _ _).symm
    rw [onward] at exited ⊢
    exact run_vacated workerId listenerFd completionFd (labels ++ later) exited
  constructor
  · intro handled posted scripts script enough after
    have drained := iteration_drained reachable scripts handled posted asked enough script
    have last : after = step (step (run step worker ([.iterate, .collect] ++ scripts.map Label.apply)) (.finish script))
        .test := run_wholeIteration worker scripts script
    rcases drained.test with ⟨exits, _⟩ | ⟨waits, some⟩
    · have exited : after.phase = .exited true := by
        rw [last, exits]
        exact (exit_frame true _).2.2.2.2
      exact .inl ⟨exited, vacated (wholeIteration scripts script) exited⟩
    · right
      rw [last, waits]
      exact ⟨rfl, some, drained.slow⟩
  · intro sound
    obtain ⟨front, served, rested⟩ := exists_rested reachable.reached.accounted sound
    rcases rested with exited | ⟨handled, posted⟩
    · exact ⟨front, served, exited, vacated front exited⟩
    · obtain ⟨scripts, script, exited⟩ :=
        exists_exited (reachable.onward front) handled posted (run_asked worker front asked)
      rw [← run_append] at exited
      refine ⟨front ++ wholeIteration scripts script, ?_, exited, vacated _ exited⟩
      intro label member failed
      rcases List.mem_append.mp member with early | late
      · exact served label early failed
      · rw [failed] at late
        simp [wholeIteration] at late

/-- The client reads slowly: its response keeps the loop waiting, and could be given up. -/
theorem shutdown_drains_slow :
    let worker := run step (start 0 5 6) (handled ++ [.push 0, .requestShutdown])
    (∃ connection, (run step worker (wholeIteration [{}, {}] {})).connections.lookup 7 = some connection ∧
      connection.requestInFlight = false ∧ connection.pendingBytes ≠ 0) ∧
      ∃ later, (run step worker later).phase = .exited true := by
  intro worker
  obtain ⟨iterates, leaves⟩ := shutdown_drains 0 5 6 (handled ++ [.push 0, .requestShutdown]) (by decide +kernel)
  have phase : worker.phase = .handling [] := by decide +kernel
  constructor
  · have live : ((run step worker (wholeIteration [{}, {}] {})).connections.lookup 7).isSome = true := by decide +kernel
    obtain ⟨connection, found⟩ := Option.isSome_iff_exists.mp live
    rcases iterates phase (by decide +kernel) [{}, {}] {} (by decide +kernel) with ⟨exited, _⟩ | ⟨_, _, slow⟩
    · have waits : (run step worker (wholeIteration [{}, {}] {})).phase = .waiting := by decide +kernel
      cases waits.symm.trans exited
    · obtain ⟨idle, pending, _⟩ := slow 7 connection found
      exact ⟨connection, found, idle, pending⟩
  · have runs : worker.phase ≠ .exited false := by
      rw [phase]
      exact Phase.noConfusion
    obtain ⟨later, _, exited, _⟩ := leaves runs
    exact ⟨later, exited⟩

end FleetGateway.Network.Draining
