import FleetGateway.Library.Counting
import FleetGateway.Network.Dispatch

/-! The tasks of a worker and its life. `outstanding_tasks` counts the tasks whose completion
the loop has not popped; a task that has pushed its completion still has to write to the
event descriptor, and nothing counts it then. -/

namespace FleetGateway.Network.Lifetime
open Library Library.ByteStore Library.Counting Library.Run Http.Response EventLoop Actions Transitions Identity Dispatch

def Task.unposted (task : Task) : Bool :=
  match task.progress with
  | .queued | .handled _ => true
  | .posted _ | .notified _ => false

def Task.unwritten (task : Task) : Bool :=
  match task.progress with
  | .posted _ => true
  | .queued | .handled _ | .notified _ => false

def Task.finished (task : Task) : Bool :=
  match task.progress with
  | .notified _ => true
  | .queued | .handled _ | .posted _ => false

/-- The counter with `excess` completions popped that it does not know of yet. -/
def Counts (excess : Nat) (worker : Worker) : Prop :=
  worker.outstandingTasks =
    worker.tasks.countP Task.unposted + worker.completions.length + worker.completed.length + excess

theorem action_frame {context : Context} {before after : Worker} (action : Action context before after) :
    after.phase = before.phase ∧ after.completions = before.completions ∧ after.completed = before.completed := by
  cases action with
  | drain noticed asked running =>
    cases before.listenerFd with
    | none => exact ⟨rfl, rfl, rfl⟩
    | some fd => exact ⟨rfl, rfl, rfl⟩
  | _ => exact ⟨rfl, rfl, rfl⟩

theorem chain_frame {context : Context} {before after : Worker} (chain : Chain context before after) :
    after.phase = before.phase ∧ after.completions = before.completions ∧ after.completed = before.completed := by
  refine chain.preserves (fun worker => worker.phase = before.phase ∧ worker.completions = before.completions ∧
    worker.completed = before.completed) ?_ ⟨rfl, rfl, rfl⟩
  intro worker next action frame
  obtain ⟨phase, completions, completed⟩ := action_frame action
  exact ⟨phase.trans frame.1, completions.trans frame.2.1, completed.trans frame.2.2⟩

/-- Only a dispatch changes the counter and the tasks, and it changes both. -/
theorem action_tasks {context : Context} {before after : Worker} (action : Action context before after) :
    (after.outstandingTasks = before.outstandingTasks ∧ after.tasks = before.tasks) ∨
      ∃ fd connection task, before.connections.lookup fd = some connection ∧
        task.serial = connection.serial ∧ task.generation = connection.generation ∧ task.progress = .queued ∧
        after.tasks = before.tasks ++ [task] ∧ after.outstandingTasks = before.outstandingTasks + 1 := by
  cases action with
  | dispatch fd connection read hears running =>
    have identity := hears_identity hears
    exact .inr ⟨fd, connection, _, hears.reaches.live, identity.serial, identity.generation, rfl, rfl, rfl⟩
  | overload fd connection read hears fits =>
    left
    constructor
    · show fetchSub (before.outstandingTasks + 1) = before.outstandingTasks
      simp [fetchSub]
    · rfl
  | drain noticed asked running =>
    cases before.listenerFd with
    | none => exact .inl ⟨rfl, rfl⟩
    | some fd => exact .inl ⟨rfl, rfl⟩
  | _ => exact .inl ⟨rfl, rfl⟩

theorem action_counts {context : Context} {before after : Worker} (excess : Nat)
    (action : Action context before after) (counts : Counts excess before) : Counts excess after := by
  obtain ⟨_, completions, completed⟩ := action_frame action
  unfold Counts at counts ⊢
  rw [completions, completed]
  rcases action_tasks action with ⟨outstanding, tasks⟩ | ⟨_, _, task, _, _, _, queued, tasks, outstanding⟩
  · rw [outstanding, tasks, counts]
  · have unposted : Task.unposted task = true := by simp [Task.unposted, queued]
    rw [outstanding, tasks, counts, List.countP_append, List.countP_singleton, unposted]
    simp only [if_true]
    omega

theorem chain_counts {context : Context} {before after : Worker} (excess : Nat)
    (chain : Chain context before after) (counts : Counts excess before) : Counts excess after :=
  chain.preserves (Counts excess) (fun _ _ => action_counts excess) counts

theorem lands_counts {context : Context} {before after : Worker} (excess : Nat)
    (lands : after = before ∨ Action context before after) (counts : Counts excess before) :
    Counts excess after := by
  rcases lands with rfl | action
  · exact counts
  · exact action_counts excess action counts

theorem apply_phase {context : Context} {permits : Permits} {before landed after : Worker} (completion : Completion)
    (rest : List Completion)
    (lands : landed = before.pop completion rest ∨ Action context (before.pop completion rest) landed)
    (chain : Chain { permits := permits } landed after) : after.phase = before.phase := by
  refine (chain_frame chain).1.trans ?_
  rcases lands with rfl | action
  · rfl
  · exact (action_frame action).1

structure Accounted (worker : Worker) : Prop where
  counts : Counts 0 worker
  /-- The local queue is empty outside `process_completions`. -/
  local_empty : (∀ caller, worker.phase ≠ .applying caller) → worker.completed = []

theorem countP_setTask (worker : Worker) (index : Nat) (task : Task) (progress : Progress)
    (found : worker.tasks[index]? = some task) :
    (worker.setTask index task progress).tasks.countP Task.unposted + (if Task.unposted task then 1 else 0) =
      worker.tasks.countP Task.unposted +
        if Task.unposted { task with progress := progress } then 1 else 0 :=
  countP_set worker.tasks index task { task with progress := progress } Task.unposted found

theorem exit_frame (completed : Bool) (worker : Worker) :
    (worker.exit completed).tasks = worker.tasks ∧
      (worker.exit completed).outstandingTasks = worker.outstandingTasks ∧
      (worker.exit completed).completions = worker.completions ∧
      (worker.exit completed).completed = worker.completed ∧
      (worker.exit completed).phase = .exited completed := by
  unfold Worker.exit
  dsimp only
  split
  · exact ⟨rfl, rfl, rfl, rfl, rfl⟩
  · exact ⟨rfl, rfl, rfl, rfl, rfl⟩

theorem transition_accounted {permits : Permits} {label : Label} {before after : Worker}
    (transition : Transition permits label before after) (accounted : Accounted before) : Accounted after := by
  have counts := accounted.counts
  have empty := accounted.local_empty
  cases transition with
  | idle => exact accounted
  | shutdown => exact ⟨counts, empty⟩
  | stop test tested stops =>
    obtain ⟨tasks, outstanding, completions, completed, _⟩ := exit_frame true before
    refine ⟨?_, fun _ => completed.trans (empty (by simp [tested]))⟩
    simpa only [Counts, tasks, outstanding, completions, completed] using counts
  | fail waited =>
    obtain ⟨tasks, outstanding, completions, completed, _⟩ := exit_frame false before
    refine ⟨?_, fun _ => completed.trans (empty (by simp [waited]))⟩
    simpa only [Counts, tasks, outstanding, completions, completed] using counts
  | proceed tested => exact ⟨counts, fun _ => empty (by simp [tested])⟩
  | wake batch waited reported => exact ⟨counts, fun _ => empty (by simp [waited])⟩
  | retry waited => exact ⟨counts, fun _ => empty (by simp [waited])⟩
  | handle called ready rest last handled chain drained =>
    obtain ⟨_, _, completed⟩ := chain_frame chain
    have counted := chain_counts 0 chain counts
    exact ⟨counted, fun _ => completed.trans (empty (by simp [handled]))⟩
  | notice called ready rest last handled chain drained =>
    obtain ⟨_, _, completed⟩ := chain_frame chain
    have counted := chain_counts 0 chain counts
    exact ⟨counted, fun _ => completed.trans (empty (by simp [handled]))⟩
  | iterate handled => exact ⟨counts, fun _ => empty (by simp [handled])⟩
  | collect caller collected =>
    have none := empty (by simp [collected])
    refine ⟨?_, fun other => absurd rfl (other caller)⟩
    simp only [Counts, none, List.length_nil] at counts ⊢
    omega
  | resume caller applied done => exact ⟨counts, fun _ => done⟩
  | apply caller completion rest landed last applied queued lands chain =>
    have phase := apply_phase completion rest lands chain
    have popped : Counts 1 (before.pop completion rest) := by
      simp only [Counts, Worker.pop, Worker.emit, queued, List.length_cons] at counts ⊢
      omega
    have kept := chain_counts 1 chain (lands_counts 1 lands popped)
    refine ⟨?_, fun other => absurd (phase.trans applied) (other caller)⟩
    simp only [Counts, fetchSub] at kept ⊢
    split
    · omega
    · omega
  | finish last finished chain drained forgotten =>
    obtain ⟨_, _, completed⟩ := chain_frame chain
    have counted := chain_counts 0 chain counts
    exact ⟨counted, fun _ => completed.trans (empty (by simp [finished]))⟩
  | run index task response found queued =>
    refine ⟨?_, empty⟩
    have step := countP_setTask before index task (.handled response) found
    simp only [Task.unposted, queued, if_true, Nat.add_right_cancel_iff] at step
    exact counts.trans (by rw [← step]; rfl)
  | push index task response found handled =>
    refine ⟨?_, empty⟩
    have step := countP_setTask before index task (.posted response) found
    simp only [Task.unposted, handled, if_true, Bool.false_eq_true, if_false, Nat.add_zero] at step
    have longer : (before.completions ++ [completionOf index task response]).length =
        before.completions.length + 1 := List.length_append
    show before.outstandingTasks = (before.setTask index task (.posted response)).tasks.countP Task.unposted +
      (before.completions ++ [completionOf index task response]).length + before.completed.length + 0
    simp only [Counts] at counts
    omega
  | notify index task response found posted =>
    refine ⟨?_, empty⟩
    have step := countP_setTask before index task (.notified response) found
    simp only [Task.unposted, posted, Bool.false_eq_true, if_false, Nat.add_zero] at step
    exact counts.trans (by rw [← step]; rfl)

/-- Where the loop is left through `should_stop`, no task stands between its push and its
write to the event descriptor. -/
def NotifiedStop (worker : Worker) : Label → Prop
  | .test => worker.phase = .testing → worker.shouldStop = true →
      ∀ task ∈ worker.tasks, Task.unwritten task = false
  | _ => True

instance (worker : Worker) : (label : Label) → Decidable (NotifiedStop worker label)
  | .test => inferInstanceAs (Decidable (_ → _ → ∀ task ∈ worker.tasks, _))
  | .requestShutdown | .wait _ | .handle _ | .iterate | .collect | .apply _ | .finish _ | .runHandler _ _ | .push _
  | .notify _ => inferInstanceAs (Decidable True)

structure Settled (worker : Worker) : Prop where
  accounted : Accounted worker
  settled : worker.phase = .exited true → ∀ task ∈ worker.tasks, Task.finished task = true

theorem shouldStop_counts (worker : Worker) (counts : Counts 0 worker) (stops : worker.shouldStop = true) :
    worker.tasks.countP Task.unposted = 0 := by
  simp only [Worker.shouldStop, Bool.and_eq_true, decide_eq_true_eq] at stops
  unfold Counts at counts
  omega

theorem finished_of_not (task : Task) (posted : Task.unposted task = false)
    (written : Task.unwritten task = false) : Task.finished task = true := by
  unfold Task.unposted at posted
  unfold Task.unwritten at written
  unfold Task.finished
  cases progress : task.progress with
  | queued => simp [progress] at posted
  | handled response => simp [progress] at posted
  | posted response => simp [progress] at written
  | notified response => rfl

theorem transition_settled {permits : Permits} {label : Label} {before after : Worker}
    (transition : Transition permits label before after) (notified : NotifiedStop before label)
    (settled : Settled before) : Settled after := by
  refine ⟨transition_accounted transition settled.accounted, ?_⟩
  intro exited
  cases transition with
  | idle => exact settled.settled exited
  | shutdown => exact settled.settled exited
  | stop test tested stops =>
    obtain ⟨tasks, _⟩ := exit_frame true before
    rw [tasks]
    intro task member
    subst test
    have posted := List.countP_eq_zero.mp (shouldStop_counts before settled.accounted.counts stops) task member
    exact finished_of_not task (by simpa using posted) (notified tested stops task member)
  | fail waited =>
    obtain ⟨_, _, _, _, phase⟩ := exit_frame false before
    rw [phase] at exited
    cases exited
  | apply caller completion rest landed last applied queued lands chain =>
    have phase := apply_phase completion rest lands chain
    cases (phase.trans applied).symm.trans exited
  | resume caller applied done => cases caller <;> cases exited
  | run index task response found queued =>
    have done := settled.settled exited task (List.mem_of_getElem? found)
    simp [Task.finished, queued] at done
  | push index task response found handled =>
    have done := settled.settled exited task (List.mem_of_getElem? found)
    simp [Task.finished, handled] at done
  | notify index task response found posted =>
    have done := settled.settled exited task (List.mem_of_getElem? found)
    simp [Task.finished, posted] at done
  | proceed tested => cases exited
  | wake batch waited reported => cases exited
  | retry waited => cases exited
  | handle called ready rest last handled chain drained => cases exited
  | notice called ready rest last handled chain drained => cases exited
  | iterate handled => cases exited
  | collect caller collected => cases exited
  | finish last finished chain drained forgotten => cases exited

theorem start_settled (workerId listenerFd completionFd : Nat) :
    Settled (start workerId listenerFd completionFd) :=
  ⟨⟨rfl, fun _ => rfl⟩, nofun⟩

/-- If no task stands between its push and its write whenever `should_stop` ends the loop,
every task has made all of its steps in every state in which the loop has ended that way. -/
theorem tasks_end_before_loop (workerId listenerFd completionFd : Nat) (labels : List Label)
    (notified : Along step NotifiedStop (start workerId listenerFd completionFd) labels)
    (exited : (run step (start workerId listenerFd completionFd) labels).phase = .exited true) :
    ∀ task ∈ (run step (start workerId listenerFd completionFd) labels).tasks, Task.finished task = true := by
  have settled := along_invariant step Settled NotifiedStop
    (fun worker label allowed =>
      transition_settled (any_transition worker label) allowed)
    (start workerId listenerFd completionFd) labels notified (start_settled workerId listenerFd completionFd)
  exact settled.settled exited

def handled : List Label :=
  [.test, .wait (.ready [(5, { input := true })]),
    .handle { accepts := [.client 7 (some (text "10.0.0.1")) true true] }] ++ iteration {} ++
  [.wait (.ready [(7, { input := true })]), .handle { reads := [.bytes request] }, .runHandler 0 (some {})]

def shutDown : List Label := .requestShutdown :: iteration { sends := [.sent 1000] }

def notifiedInTime : List Label := handled ++ [.push 0, .notify 0] ++ shutDown

def notifiedTooLate : List Label := handled ++ [.push 0] ++ shutDown

theorem tasks_end_before_loop_notified :
    Along step NotifiedStop (start 0 5 6) notifiedInTime ∧
      (run step (start 0 5 6) notifiedInTime).phase = .exited true ∧
      (run step (start 0 5 6) notifiedInTime).tasks.length = 1 ∧
      ∀ task ∈ (run step (start 0 5 6) notifiedInTime).tasks, Task.finished task = true :=
  ⟨by decide +kernel, by decide +kernel, by decide +kernel,
    tasks_end_before_loop 0 5 6 notifiedInTime (by decide +kernel) (by decide +kernel)⟩

/-- The iteration callback pops the completion of a task that has yet to write to the event
descriptor; the loop ends and closes that descriptor, and the task is left with its write. -/
theorem task_outlives_loop :
    (run step (start 0 5 6) notifiedTooLate).phase = .exited true ∧
      (run step (start 0 5 6) notifiedTooLate).tasks.all Task.finished = false := by
  decide +kernel

end FleetGateway.Network.Lifetime
