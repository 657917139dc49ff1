import FleetGateway.Library.Run
import FleetGateway.Network.Actions

/-! What one step of the worker can do, said once: the invariants of the later modules are
proved over these transitions. -/

namespace FleetGateway.Network.Transitions
open Library Library.ByteStore Library.Counting Http.Response Monitoring.Counters EventLoop Actions

inductive Transition (permits : Permits) (label : Label) (worker : Worker) : Worker → Prop
  | idle : Transition permits label worker worker
  | shutdown : Transition permits label worker { worker with shutdownRequested := true }
  | stop (test : label = .test) (tested : worker.phase = .testing) (stops : worker.shouldStop = true) :
      Transition permits label worker (worker.exit true)
  | proceed (tested : worker.phase = .testing) : Transition permits label worker { worker with phase := .waiting }
  | wake (batch : List (Nat × Events)) (waited : worker.phase = .waiting) (reported : worker.reports batch = true) :
      Transition permits label worker { worker with phase := .handling (batch.map worker.attribute) }
  | retry (waited : worker.phase = .waiting) : Transition permits label worker { worker with phase := .testing }
  | fail (waited : worker.phase = .waiting) : Transition permits label worker (worker.exit false)
  | handle (called : ∃ script, label = .handle script) (ready : Ready) (rest : List Ready) (after : Worker)
      (handled : worker.phase = .handling (ready :: rest))
      (chain : Chain { target := some ready.fd, notice := eventNotice worker, permits := permits } worker after)
      (drained : worker.shutdownRequested = true → after.draining = true) :
      Transition permits label worker { after with phase := .handling rest }
  | notice (called : ∃ script, label = .handle script) (ready : Ready) (rest : List Ready) (after : Worker)
      (handled : worker.phase = .handling (ready :: rest))
      (chain : Chain { target := some ready.fd, notice := eventNotice worker, permits := permits } worker after)
      (drained : worker.shutdownRequested = true → after.draining = true) :
      Transition permits label worker { after with notifications := 0, phase := .collecting (.event rest) }
  | iterate (handled : worker.phase = .handling []) :
      Transition permits label worker { worker with notifications := 0, phase := .collecting .iteration }
  | collect (caller : Caller) (collected : worker.phase = .collecting caller) :
      Transition permits label worker { worker with
        completed := worker.completions
        completions := []
        metrics := worker.metrics.completionQueueSize worker.workerId 0
        phase := .applying caller }
  | resume (caller : Caller) (applied : worker.phase = .applying caller) (done : worker.completed = []) :
      Transition permits label worker { worker with phase := caller.continue }
  | apply (caller : Caller) (completion : Completion) (rest : List Completion) (landed after : Worker)
      (applied : worker.phase = .applying caller) (queued : worker.completed = completion :: rest)
      (lands : landed = worker.pop completion rest ∨
        Action { completion := some completion, permits := permits } (worker.pop completion rest) landed)
      (chain : Chain { permits := permits } landed after) :
      Transition permits label worker { after with outstandingTasks := fetchSub after.outstandingTasks }
  | finish (after : Worker) (finished : worker.phase = .finishing)
      (chain : Chain { notice := iterationNotice worker, permits := permits } worker after)
      (drained : worker.shutdownRequested = true → after.draining = true)
      (forgotten : worker.shutdownRequested = true → worker.draining = false → after.listenerFd = none) :
      Transition permits label worker { after with phase := .testing }
  | run (index : Nat) (task : Task) (response : HttpResponse) (found : worker.tasks[index]? = some task)
      (queued : task.progress = .queued) : Transition permits label worker (worker.setTask index task (.handled response))
  | push (index : Nat) (task : Task) (response : HttpResponse) (found : worker.tasks[index]? = some task)
      (handled : task.progress = .handled response) :
      Transition permits label worker { worker.setTask index task (.posted response) with
        completions := worker.completions ++ [completionOf index task response]
        metrics := worker.metrics.completionQueueSize worker.workerId
          (worker.completions ++ [completionOf index task response]).length }
  | notify (index : Nat) (task : Task) (response : HttpResponse) (found : worker.tasks[index]? = some task)
      (posted : task.progress = .posted response) :
      Transition permits label worker { worker.setTask index task (.notified response) with
        notifications := worker.notifications + 1 }

def nextReady (worker : Worker) : Option Ready :=
  match worker.phase with
  | .handling (ready :: _) => some ready
  | _ => none

def OnHandle (condition : Ready → Machine → Prop) (worker : Worker) : Label → Prop
  | .handle script => ∀ ready ∈ nextReady worker, condition ready (noticeShutdown ⟨worker, script⟩).2
  | _ => True

instance (condition : Ready → Machine → Prop) [∀ ready machine, Decidable (condition ready machine)]
    (worker : Worker) : (label : Label) → Decidable (OnHandle condition worker label)
  | .handle _ => inferInstanceAs (Decidable (∀ ready ∈ nextReady worker, _))
  | .requestShutdown | .test | .wait _ | .iterate | .collect | .apply _ | .finish _ | .runHandler _ _ | .push _
  | .notify _ => inferInstanceAs (Decidable True)

theorem OnHandle.imp {condition weaker : Ready → Machine → Prop}
    (follows : ∀ ready machine, condition ready machine → weaker ready machine) {worker : Worker} {label : Label}
    (holds : OnHandle condition worker label) : OnHandle weaker worker label := by
  cases label with
  | handle script => exact fun ready head => follows _ _ (holds ready head)
  | _ => trivial

theorem wait_transition (permits : Permits) (worker : Worker) (outcome : WaitOutcome) :
    Transition permits (.wait outcome) worker (step worker (.wait outcome)) := by
  simp only [step]
  split
  next waited =>
    cases outcome with
    | ready batch =>
      dsimp only
      split
      next reported => exact .wake batch waited reported
      next => exact .idle
    | interrupted => exact .retry waited
    | failed => exact .fail waited
  next => exact .idle

theorem handle_transition (permits : Permits) (worker : Worker) (script : Script)
    (allowed : OnHandle permits.Allows worker (.handle script)) :
    Transition permits (.handle script) worker (step worker (.handle script)) := by
  simp only [step]
  split
  next ready rest handled =>
    have head : ready ∈ nextReady worker := by simp [nextReady, handled]
    obtain ⟨after, chain, drained, same | same⟩ :=
      handleEvent_chain permits ready rest ⟨worker, script⟩ (allowed ready head)
    · rw [same]
      exact .notice ⟨script, rfl⟩ ready rest after handled chain drained
    · rw [same]
      exact .handle ⟨script, rfl⟩ ready rest after handled chain drained
  next => exact .idle

theorem apply_transition (permits : Permits) (worker : Worker) (script : Script) :
    Transition permits (.apply script) worker (step worker (.apply script)) := by
  simp only [step]
  split
  next caller applied =>
    split
    next done => exact .resume caller applied done
    next completion rest queued =>
      obtain ⟨landed, after, lands, chain, same⟩ := applyCompletion_chain permits completion rest ⟨worker, script⟩
      rw [same]
      exact .apply caller completion rest landed after applied queued lands chain
  next => exact .idle

theorem pool_transition (permits : Permits) (worker : Worker) (label : Label)
    (pool : (∃ index outcome, label = .runHandler index outcome) ∨ (∃ index, label = .push index) ∨
      ∃ index, label = .notify index) : Transition permits label worker (step worker label) := by
  rcases pool with ⟨index, outcome, rfl⟩ | ⟨index, rfl⟩ | ⟨index, rfl⟩
  · simp only [step, Worker.runHandler]
    split
    next task found =>
      split
      next queued => exact .run index task _ found queued
      next => exact .idle
    next => exact .idle
  · simp only [step, Worker.pushCompletion]
    split
    next task found =>
      split
      next response handled => exact .push index task response found handled
      next => exact .idle
    next => exact .idle
  · simp only [step, Worker.notify]
    split
    next task found =>
      split
      next response posted => exact .notify index task response found posted
      next => exact .idle
    next => exact .idle

theorem step_transition (permits : Permits) (worker : Worker) (label : Label)
    (allowed : OnHandle permits.Allows worker label) :
    Transition permits label worker (step worker label) := by
  cases label with
  | requestShutdown => exact .shutdown
  | test =>
    simp only [step]
    split
    next tested =>
      split
      next stops => exact .stop rfl tested stops
      next => exact .proceed tested
    next => exact .idle
  | wait outcome => exact wait_transition permits worker outcome
  | handle script => exact handle_transition permits worker script allowed
  | iterate =>
    simp only [step]
    split
    next handled => exact .iterate handled
    next => exact .idle
  | collect =>
    simp only [step]
    split
    next caller collected => exact .collect caller collected
    next => exact .idle
  | apply script => exact apply_transition permits worker script
  | finish script =>
    simp only [step]
    split
    next finished =>
      obtain ⟨after, chain, drained, forgotten, same⟩ :=
        finishIteration_chain { notice := iterationNotice worker, permits := permits } ⟨worker, script⟩ rfl
      rw [same]
      exact .finish after finished chain drained forgotten
    next => exact .idle
  | runHandler index outcome => exact pool_transition permits worker _ (.inl ⟨index, outcome, rfl⟩)
  | push index => exact pool_transition permits worker _ (.inr (.inl ⟨index, rfl⟩))
  | notify index => exact pool_transition permits worker _ (.inr (.inr ⟨index, rfl⟩))

theorem any_transition (worker : Worker) (label : Label) : Transition {} label worker (step worker label) := by
  apply step_transition
  cases label with
  | handle script => exact fun _ _ => ⟨.inl rfl, .inl rfl, .inl rfl⟩
  | _ => trivial

def Effect.isQuiet : Effect → Bool
  | .processed _ | .closed _ => true
  | _ => false

structure Quiet (before after : Worker) : Prop where
  connections : after.connections = before.connections
  accepted : after.accepted = before.accepted
  upcoming : after.nextGeneration = before.nextGeneration
  trace : ∃ more, after.trace = before.trace ++ more ∧ more.all Effect.isQuiet = true

theorem Quiet.of_same {before after : Worker} (connections : after.connections = before.connections)
    (accepted : after.accepted = before.accepted) (upcoming : after.nextGeneration = before.nextGeneration)
    (trace : after.trace = before.trace) : Quiet before after :=
  ⟨connections, accepted, upcoming, [], by rw [trace, List.append_nil], rfl⟩

theorem Quiet.trans {before between after : Worker} (first : Quiet before between) (second : Quiet between after) :
    Quiet before after := by
  obtain ⟨more, trace, quiet⟩ := first.trace
  obtain ⟨further, trace', quiet'⟩ := second.trace
  refine ⟨second.connections.trans first.connections, second.accepted.trans first.accepted,
    second.upcoming.trans first.upcoming, more ++ further, ?_, ?_⟩
  · rw [trace', trace, List.append_assoc]
  · rw [List.all_append, quiet, quiet', Bool.and_self]

theorem quiet_close (fd : Nat) (worker : Worker) : Quiet worker (worker.close fd) :=
  ⟨rfl, rfl, rfl, [.closed fd], rfl, rfl⟩

theorem quiet_exit (completed : Bool) (worker : Worker) : Quiet worker (worker.exit completed) := by
  have flagged (failed : Bool) : Quiet worker { worker with
      workerFailed := worker.workerFailed || failed
      shutdownRequested := worker.shutdownRequested || failed } := .of_same rfl rfl rfl rfl
  unfold Worker.exit
  dsimp only
  split
  · exact ((flagged _).trans (quiet_close _ _)).trans (.of_same rfl rfl rfl rfl)
  · exact (((flagged _).trans (quiet_close _ _)).trans (quiet_close _ _)).trans (.of_same rfl rfl rfl rfl)

def Moves (permits : Permits) : Worker → Worker → Prop :=
  Relation.ReflTransGen fun before after => ∃ context : Context, context.permits = permits ∧ Action context before after

theorem Moves.of_chain {context : Context} {before after : Worker} (chain : Chain context before after) :
    Moves context.permits before after := by
  induction chain with
  | refl => exact .refl
  | tail _ action ih => exact .tail ih ⟨context, rfl, action⟩

theorem Moves.preserves {permits : Permits} {before after : Worker} (invariant : Worker → Prop)
    (kept : ∀ context worker next, context.permits = permits → Action context worker next → invariant worker → invariant next)
    (moves : Moves permits before after) (initially : invariant before) : invariant after := by
  induction moves with
  | refl => exact initially
  | tail _ action ih =>
    obtain ⟨context, timely, action⟩ := action
    exact kept context _ _ timely action ih

/-- For the connections a transition is a chain of actions, with nothing before and after. -/
theorem Transition.loop {permits : Permits} {label : Label} {before after : Worker}
    (transition : Transition permits label before after) :
    ∃ first last, Quiet before first ∧ Moves permits first last ∧ Quiet last after := by
  have still (quiet : Quiet before after) :
      ∃ (first last : Worker), Quiet before first ∧ Moves permits first last ∧ Quiet last after :=
    ⟨before, before, .of_same rfl rfl rfl rfl, Relation.ReflTransGen.refl, quiet⟩
  cases transition with
  | handle called ready rest last handled chain drained =>
    exact ⟨before, last, .of_same rfl rfl rfl rfl, .of_chain chain, .of_same rfl rfl rfl rfl⟩
  | notice called ready rest last handled chain drained =>
    exact ⟨before, last, .of_same rfl rfl rfl rfl, .of_chain chain, .of_same rfl rfl rfl rfl⟩
  | apply caller completion rest landed last applied queued lands chain =>
    have popped : Quiet before (before.pop completion rest) :=
      ⟨rfl, rfl, rfl, [.processed completion.task], rfl, rfl⟩
    refine ⟨_, last, popped, ?_, .of_same rfl rfl rfl rfl⟩
    rcases lands with same | action
    · rw [← same]
      exact .of_chain chain
    · exact Relation.ReflTransGen.head ⟨_, rfl, action⟩ (Moves.of_chain chain)
  | finish last finished chain drained forgotten =>
    exact ⟨before, last, .of_same rfl rfl rfl rfl, .of_chain chain, .of_same rfl rfl rfl rfl⟩
  | stop test tested stops => exact still (quiet_exit true before)
  | fail waited => exact still (quiet_exit false before)
  | _ => exact still (.of_same rfl rfl rfl rfl)

end FleetGateway.Network.Transitions
