import FleetGateway.Network.Outstanding

/-! The counters of requests against the tasks: a request that was counted when it started is
outstanding or counted as completed, unless the interest of its descriptor could not be changed
between the two. -/

namespace FleetGateway.Network.Conservation
open Library Library.ByteStore Library.Counting Library.Run Monitoring.Counters EventLoop Actions Transitions Identity Lifetime
open Dispatch Isolation Outstanding

/-- Every started request is completed or outstanding, with `excess` completions counted that
`outstanding_tasks` does not know of yet. -/
structure Balanced (excess : Nat) (worker : Worker) : Prop where
  slot : worker.workerId < workerSlots
  started : worker.metrics.requestCounts.started + excess =
    worker.metrics.requestCounts.completed + worker.outstandingTasks
  requests : worker.metrics.requestCounts.requests = worker.metrics.requestCounts.started
  observations : worker.metrics.requestCounts.observations = worker.metrics.requestCounts.completed

theorem exit_metrics (completed : Bool) (worker : Worker) :
    (worker.exit completed).workerId = worker.workerId ∧ (worker.exit completed).metrics = worker.metrics := by
  unfold Worker.exit
  dsimp only
  split
  · exact ⟨rfl, rfl⟩
  · exact ⟨rfl, rfl⟩

section Balanced

variable {excess excess' : Nat} {before after : Worker}

theorem Balanced.add (balanced : Balanced excess before) (begun ended : Nat)
    (workerId : after.workerId = before.workerId)
    (counts : after.metrics.requestCounts = before.metrics.requestCounts.add begun ended)
    (outstanding : before.outstandingTasks + begun + excess' = after.outstandingTasks + ended + excess) :
    Balanced excess' after := by
  obtain ⟨slot, started, requests, observations⟩ := balanced
  refine ⟨by rw [workerId]; exact slot, ?_, ?_, ?_⟩
  · rw [counts]
    dsimp only [RequestCounts.add]
    omega
  · rw [counts]
    dsimp only [RequestCounts.add]
    omega
  · rw [counts]
    dsimp only [RequestCounts.add]
    omega

theorem Balanced.frame (balanced : Balanced excess before) (workerId : after.workerId = before.workerId)
    (outstanding : after.outstandingTasks = before.outstandingTasks)
    (counts : after.metrics.requestCounts = before.metrics.requestCounts) : Balanced excess after :=
  balanced.add 0 0 workerId counts (by rw [outstanding])

/-- A request is counted and becomes a task, or it is completed at once. -/
theorem action_balanced {context : Context} (action : Action context before after)
    (kept : context.permits.lossy = false) (balanced : Balanced excess before) : Balanced excess after := by
  have counted := requestCounts_requestStarted before.workerId before.metrics balanced.slot
  cases action with
  | request fd connection read hears lost => cases kept.symm.trans lost
  | dispatch fd connection read hears running =>
    exact balanced.add 1 0 rfl counted rfl
  | overload fd connection read hears fits =>
    have completed := requestCounts_requestCompleted 503 before.workerId
      (before.metrics.requestStarted before.workerId) balanced.slot
    rw [counted] at completed
    refine balanced.add 1 1 rfl completed ?_
    show _ = fetchSub (before.outstandingTasks + 1) + 1 + excess
    simp [fetchSub]
  | close fd connection live =>
    refine balanced.frame rfl rfl ?_
    show (if _ then before.metrics.connectionClosed else before.metrics).requestCounts = _
    split
    · rfl
    · rfl
  | connect fd clientIp unused running => exact balanced.frame rfl rfl (requestCounts_connectionOpened _ _)
  | drain noticed asked running =>
    cases before.listenerFd with
    | none => exact balanced.frame rfl rfl rfl
    | some fd => exact balanced.frame rfl rfl rfl
  | _ => exact balanced.frame rfl rfl rfl

theorem chain_balanced {context : Context} (chain : Chain context before after)
    (kept : context.permits.lossy = false) (balanced : Balanced excess before) : Balanced excess after :=
  chain.preserves (Balanced excess) (fun _ _ action => action_balanced action kept) balanced

/-- The completion is counted first and the task taken off last. -/
theorem apply_balanced {permits : Permits} {landed : Worker} (completion : Completion) (rest : List Completion)
    (kept : permits.lossy = false)
    (lands : landed = before.pop completion rest ∨
      Action { completion := some completion, permits := permits } (before.pop completion rest) landed)
    (chain : Chain { permits := permits } landed after) (balanced : Balanced 0 before) : Balanced 1 after := by
  have completed := requestCounts_requestCompleted completion.statusCode before.workerId before.metrics balanced.slot
  have popped : Balanced 1 (before.pop completion rest) := balanced.add 0 1 rfl completed rfl
  rcases lands with rfl | action
  · exact chain_balanced chain kept popped
  · exact chain_balanced chain kept (action_balanced action kept popped)

theorem transition_balanced {permits : Permits} {label : Label} (transition : Transition permits label before after)
    (kept : permits.lossy = false) (isolated : Isolated before) (owed : Owed 0 before) (balanced : Balanced 0 before) :
    Balanced 0 after := by
  cases transition with
  | stop test tested stops =>
    obtain ⟨workerId, metrics⟩ := exit_metrics true before
    exact balanced.frame workerId (exit_frame true before).2.1 (by rw [metrics])
  | fail waited =>
    obtain ⟨workerId, metrics⟩ := exit_metrics false before
    exact balanced.frame workerId (exit_frame false before).2.1 (by rw [metrics])
  | handle called ready rest last handled chain drained => exact (chain_balanced chain kept balanced).frame rfl rfl rfl
  | notice called ready rest last handled chain drained => exact (chain_balanced chain kept balanced).frame rfl rfl rfl
  | finish last finished chain drained forgotten => exact (chain_balanced chain kept balanced).frame rfl rfl rfl
  | collect caller collected => exact balanced.frame rfl rfl (requestCounts_completionQueueSize _ _ _)
  | push index task response found handled => exact balanced.frame rfl rfl (requestCounts_completionQueueSize _ _ _)
  | apply caller completion rest landed last applied queued lands chain =>
    have counted := apply_balanced completion rest kept lands chain balanced
    have owed' := apply_owed completion rest queued isolated owed lands chain
    refine counted.add 0 0 rfl rfl ?_
    show _ = fetchSub last.outstandingTasks + 0 + 1
    unfold Owed at owed'
    rw [owed']
    simp [fetchSub]
  | _ => exact balanced.frame rfl rfl rfl

end Balanced

structure Launch where
  workerId : Nat
  listenerFd : Nat
  completionFd : Nat
  labels : List Label

def Launch.start (launch : Launch) : Worker :=
  EventLoop.start launch.workerId launch.listenerFd launch.completionFd

def Launch.worker (launch : Launch) : Worker := run step launch.start launch.labels

/-- The interest of every descriptor whose request was complete could be changed. -/
def Launch.Registered (launch : Launch) : Prop :=
  Along step (OnHandle Actions.Registered) launch.start launch.labels

instance (launch : Launch) : Decidable launch.Registered := inferInstanceAs (Decidable (Along _ _ _ _))

theorem launch_balanced (launch : Launch) (slot : launch.workerId < workerSlots) (registered : launch.Registered) :
    Balanced 0 launch.worker := by
  have kept := along_invariant step
    (fun worker => Accounted worker ∧ Isolated worker ∧ Owed 0 worker ∧ Balanced 0 worker)
    (OnHandle Actions.Registered)
    (fun worker label registered kept => by
      have transition := step_transition { lossy := false } worker label
        (registered.imp fun _ _ registered => ⟨.inl rfl, .inr registered, .inl rfl⟩)
      obtain ⟨accounted, isolated, owed, balanced⟩ := kept
      exact ⟨transition_accounted transition accounted, transition_isolated transition accounted isolated,
        transition_owed transition isolated owed, transition_balanced transition rfl isolated owed balanced⟩)
    launch.start launch.labels registered
    ⟨(start_settled _ _ _).accounted, start_isolated _ _ _, rfl, slot, rfl, rfl, rfl⟩
  exact kept.2.2.2

/-- As long as the interest of every descriptor with a complete request can be changed, each
worker's counters say that its requests are completed or outstanding; and when none is outstanding,
the histogram has seen as many as all workers have started. -/
theorem requests_conserved (fleet : List Launch) (slots : ∀ launch ∈ fleet, launch.workerId < workerSlots)
    (registered : ∀ launch ∈ fleet, launch.Registered) :
    (∀ launch ∈ fleet, launch.worker.metrics.worker.requests =
        launch.worker.metrics.worker.completedRequests + launch.worker.outstandingTasks) ∧
      ((∀ launch ∈ fleet, launch.worker.outstandingTasks = 0) →
        (fleet.map fun launch => launch.worker.metrics.durationObservations).sum =
            (fleet.map fun launch => launch.worker.metrics.worker.requests).sum ∧
          (fleet.map fun launch => launch.worker.metrics.requests).sum =
            (fleet.map fun launch => launch.worker.metrics.worker.requests).sum) := by
  have balanced (launch : Launch) (member : launch ∈ fleet) : Balanced 0 launch.worker :=
    launch_balanced launch (slots launch member) (registered launch member)
  refine ⟨fun launch member => (balanced launch member).started, fun idle => ⟨?_, ?_⟩⟩
  · congr 1
    apply List.map_congr_left
    intro launch member
    have started := (balanced launch member).started
    rw [idle launch member] at started
    exact (balanced launch member).observations.trans started.symm
  · congr 1
    apply List.map_congr_left
    intro launch member
    exact (balanced launch member).requests

def unregistered : List Label :=
  [.test, .wait (.ready [(5, { input := true })]),
    .handle { accepts := [.client 7 (some (text "10.0.0.1")) true true] }] ++ iteration {} ++
  [.wait (.ready [(7, { input := true })]), .handle { reads := [.bytes request], controls := [false] }] ++ iteration {}

theorem requests_conserved_two_workers :
    let fleet : List Launch := [⟨0, 5, 6, slowReader⟩, ⟨1, 5, 6, notifiedInTime⟩]
    (fleet.map fun launch => launch.worker.metrics.worker.requests) = [1, 1] ∧
      (fleet.map fun launch => launch.worker.metrics.durationObservations).sum =
        (fleet.map fun launch => launch.worker.metrics.worker.requests).sum :=
  ⟨by decide +kernel, ((requests_conserved [⟨0, 5, 6, slowReader⟩, ⟨1, 5, 6, notifiedInTime⟩] (by decide)
    (by decide +kernel)).2 (by decide +kernel)).1⟩

/-- The connection is closed, and its request stays started for ever. -/
theorem request_lost :
    (run step (start 0 5 6) unregistered).phase = .waiting ∧
      (run step (start 0 5 6) unregistered).metrics.worker.requests = 1 ∧
      (run step (start 0 5 6) unregistered).metrics.worker.completedRequests = 0 ∧
      (run step (start 0 5 6) unregistered).outstandingTasks = 0 := by
  decide +kernel

end FleetGateway.Network.Conservation
