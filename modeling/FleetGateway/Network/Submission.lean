import FleetGateway.Network.Lifetime

/-! What the loop does to the tasks: a callback submits at most one, and only where the pool has
room for it; nothing else that the loop does touches them. -/

namespace FleetGateway.Network.Submission
open Library Library.ByteStore EventLoop Actions Lifetime

structure Spares (before after : Machine) : Prop where
  tasks : after.worker.tasks = before.worker.tasks
  rooms : after.script.rooms = before.script.rooms

theorem Spares.refl (machine : Machine) : Spares machine machine := ⟨rfl, rfl⟩

theorem Spares.trans {before between after : Machine} (first : Spares before between) (second : Spares between after) :
    Spares before after :=
  ⟨second.tasks.trans first.tasks, second.rooms.trans first.rooms⟩

theorem watchOrClose_spares (fd : Nat) (events : Events) (machine : Machine) :
    Spares machine (watchOrClose fd events machine).2 := by
  unfold watchOrClose
  split
  next watched call =>
    obtain ⟨same, rooms, _⟩ := modifyFd_spec _ _ _ _ _ call
    exact ⟨by rw [same]; rfl, rooms⟩
  next unwatched call =>
    obtain ⟨same, rooms, _⟩ := modifyFd_spec _ _ _ _ _ call
    exact ⟨by rw [closeClient, same]; rfl, rooms⟩

theorem flushClient_spares (fd : Nat) (machine : Machine) : Spares machine (flushClient fd machine).2 := by
  unfold flushClient
  split
  · exact .refl machine
  split
  dsimp only
  split
  · exact ⟨rfl, rfl⟩
  · apply Spares.trans _ (watchOrClose_spares fd _ _)
    exact ⟨rfl, rfl⟩
  · split
    · exact ⟨rfl, rfl⟩
    · apply Spares.trans _ (watchOrClose_spares fd _ _)
      exact ⟨rfl, rfl⟩

theorem flushIdle_spares (fd : Nat) (machine : Machine) : Spares machine (flushIdle fd machine) := by
  unfold flushIdle
  split
  · exact .refl machine
  · split
    · exact .refl machine
    · exact flushClient_spares fd machine

theorem settle_spares (machine : Machine) (fd : Nat) : Spares machine (settle machine fd) := by
  unfold settle
  split
  · exact .refl machine
  · split
    · exact .refl machine
    · split
      · exact flushClient_spares fd machine
      · exact ⟨rfl, rfl⟩

theorem foldl_spares (fds : List Nat) (machine : Machine) : Spares machine (fds.foldl settle machine) := by
  induction fds generalizing machine with
  | nil => exact .refl machine
  | cons fd rest ih => exact (settle_spares machine fd).trans (ih (settle machine fd))

theorem sweep_spares (machine : Machine) : Spares machine (sweep machine) := by
  apply Spares.trans _ (foldl_spares _ _)
  exact ⟨rfl, rfl⟩

theorem beginDrain_spares (listener : Option Nat) (machine : Machine) :
    Spares machine (beginDrain listener machine).2 := by
  unfold beginDrain
  split
  · exact .refl machine
  · apply Spares.trans _ (sweep_spares _)
    cases listener with
    | none => exact ⟨rfl, rfl⟩
    | some fd => exact ⟨rfl, rfl⟩

theorem noticeShutdown_spares (machine : Machine) : Spares machine (noticeShutdown machine).2 := by
  unfold noticeShutdown
  split
  · exact beginDrain_spares _ machine
  · exact .refl machine

theorem acceptClients_tasks (outcomes : List AcceptOutcome) (worker : Worker) :
    (acceptClients outcomes worker).2.tasks = worker.tasks := by
  induction outcomes generalizing worker with
  | nil => rfl
  | cons outcome rest ih =>
    unfold acceptClients
    split
    · rfl
    cases outcome with
    | again => rfl
    | failed => rfl
    | interrupted => exact ih worker
    | client fd address nonblocking registered =>
      dsimp only
      split
      · rfl
      cases address with
      | none => exact ih _
      | some clientIp =>
        dsimp only
        split
        · exact ih _
        · exact ih _

theorem handleListener_tasks (events : Events) (machine : Machine) :
    (handleListener events machine).worker.tasks = machine.worker.tasks := by
  unfold handleListener
  split
  · rfl
  split
  · rfl
  split
  · exact acceptClients_tasks _ _
  · rfl

theorem finishIteration_tasks (machine : Machine) : (finishIteration machine).tasks = machine.worker.tasks := by
  unfold finishIteration
  dsimp only
  generalize drainedEq : (if machine.worker.shutdownRequested = true then _ else machine) = drained
  have same : drained.worker.tasks = machine.worker.tasks := by
    rw [← drainedEq]
    split
    · exact (beginDrain_spares _ machine).tasks
    · rfl
  split
  · exact (sweep_spares drained).tasks.trans same
  · exact same

theorem applyCompletion_tasks (completion : Completion) (rest : List Completion) (machine : Machine) :
    (applyCompletion completion rest machine).worker.tasks = machine.worker.tasks := by
  show (deliver completion _).worker.tasks = _
  unfold deliver
  split
  · rfl
  · split
    · dsimp only
      split
      · exact (flushClient_spares _ _).tasks
      · rfl
    · rfl

def Submits (room : Bool) (before after : Worker) : Prop :=
  after.tasks = before.tasks ∨
    room = true ∧ ∃ task : Task, task.progress = .queued ∧ after.tasks = before.tasks ++ [task]

theorem Submits.of_same {room : Bool} {first before after : Worker} (submits : Submits room first before)
    (same : after.tasks = before.tasks) : Submits room first after := by
  unfold Submits
  rw [same]
  exact submits

theorem dispatch_submits (fd : Nat) (connection : Connection) (machine : Machine) :
    Submits (machine.script.rooms.headD true) machine.worker (dispatch fd connection machine).worker := by
  unfold dispatch
  dsimp only
  split
  next unwatched call =>
    obtain ⟨same, _⟩ := modifyFd_spec _ _ _ _ _ call
    left
    rw [closeClient, same]
    rfl
  next watched call =>
    obtain ⟨same, rooms, _⟩ := modifyFd_spec _ _ _ _ _ call
    have kept : watched.worker.tasks = machine.worker.tasks := by
      rw [same]
      rfl
    split
    next accepted =>
      have room := (Bool.and_eq_true_iff.mp accepted).2
      rw [rooms] at room
      exact .inr ⟨room, _, rfl, (flushIdle_spares fd _).tasks.trans (congrArg (· ++ [_]) kept)⟩
    next =>
      left
      rw [(flushIdle_spares fd _).tasks, (flushClient_spares fd _).tasks]
      exact kept

theorem handleClient_submits (fd : Nat) (machine : Machine) :
    Submits (machine.script.rooms.headD true) machine.worker (handleClient fd machine).worker := by
  unfold handleClient
  split
  · exact .inl rfl
  split
  dsimp only
  split
  · exact .inl rfl
  · exact .inl rfl
  · left
    unfold refuse
    dsimp only
    split
    · rfl
    · exact (flushIdle_spares fd _).tasks
  · exact dispatch_submits fd _ _
  · exact .inl (flushIdle_spares fd _).tasks
  · exact .inl (flushIdle_spares fd _).tasks

theorem handleReady_submits (fd : Nat) (events : Events) (machine : Machine) :
    Submits (machine.script.rooms.headD true) machine.worker (handleReady fd events machine).worker := by
  unfold handleReady
  split
  · exact .inl rfl
  dsimp only
  generalize readEq : (if events.input = true then _ else machine) = read
  have reading : Submits (machine.script.rooms.headD true) machine.worker read.worker := by
    rw [← readEq]
    split
    · exact handleClient_submits fd machine
    · exact .inl rfl
  split
  · exact reading
  generalize hungEq : (if events.readHangup = true then _ else read) = hung
  have hanging : hung.worker.tasks = read.worker.tasks := by
    rw [← hungEq]
    split <;> rfl
  generalize flushedEq : (if events.output = true then _ else hung) = flushed
  have flushing : flushed.worker.tasks = read.worker.tasks := by
    rw [← flushedEq]
    split
    · exact (flushClient_spares fd hung).tasks.trans hanging
    · exact hanging
  split
  · exact reading.of_same flushing
  · split
    · exact reading.of_same flushing
    · exact reading.of_same flushing

theorem handleEvent_submits (ready : Ready) (rest : List Ready) (machine : Machine) :
    Submits (machine.script.rooms.headD true) machine.worker (handleEvent ready rest machine) := by
  have notices := noticeShutdown_spares machine
  unfold handleEvent
  dsimp only
  split
  · exact .inl notices.tasks
  split
  · exact .inl ((handleListener_tasks _ _).trans notices.tasks)
  split
  · have handled := handleReady_submits ready.fd ready.events (noticeShutdown machine).2
    rw [notices.rooms] at handled
    unfold Submits at handled ⊢
    rw [notices.tasks] at handled
    exact handled
  · exact .inl notices.tasks

def Label.isLoop : Label → Bool
  | .test | .wait _ | .handle _ | .iterate | .collect | .apply _ | .finish _ => true
  | .requestShutdown | .runHandler _ _ | .push _ | .notify _ => false

def Label.withRoom (room : Bool) : Label → Label
  | .handle script => .handle { script with rooms := [room] }
  | other => other

/-- A step of the loop submits one task at most, and only if the pool has room. -/
theorem loop_submits (room : Bool) (worker : Worker) (label : Label) (loop : Label.isLoop label = true) :
    Submits room worker (step worker (Label.withRoom room label)) := by
  cases label with
  | test =>
    simp only [Label.withRoom, step]
    split
    · split
      · exact .inl (exit_frame true worker).1
      · exact .inl rfl
    · exact .inl rfl
  | wait outcome =>
    simp only [Label.withRoom, step]
    split
    · cases outcome with
      | ready batch =>
        dsimp only
        split <;> exact .inl rfl
      | interrupted => exact .inl rfl
      | failed => exact .inl (exit_frame false worker).1
    · exact .inl rfl
  | handle script =>
    simp only [Label.withRoom, step]
    split
    · exact handleEvent_submits _ _ ⟨worker, { script with rooms := [room] }⟩
    · exact .inl rfl
  | iterate =>
    simp only [Label.withRoom, step]
    split <;> exact .inl rfl
  | collect =>
    simp only [Label.withRoom, step]
    split <;> exact .inl rfl
  | apply script =>
    simp only [Label.withRoom, step]
    split
    · split
      · exact .inl rfl
      · exact .inl (applyCompletion_tasks _ _ _)
    · exact .inl rfl
  | finish script =>
    simp only [Label.withRoom, step]
    split
    · exact .inl (finishIteration_tasks _)
    · exact .inl rfl
  | requestShutdown => cases loop
  | runHandler task outcome => cases loop
  | push task => cases loop
  | notify task => cases loop

end FleetGateway.Network.Submission
