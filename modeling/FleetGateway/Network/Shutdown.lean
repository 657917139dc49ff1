import FleetGateway.Network.Descriptors

/-! Who closes the listener. Both callbacks may begin to drain, but only the iteration callback
tells the loop that the listener is closed: the event callback works on a copy of the variable,
and the loop closes the number once more when it ends. -/

namespace FleetGateway.Network.Shutdown
open Library Library.ByteStore Library.Run EventLoop Actions Transitions Identity Lifetime Dispatch Descriptors

/-- The event callback is the first to notice that the server is to shut down. -/
def NoticedByEvent (worker : Worker) : Label → Prop
  | .handle _ => (nextReady worker).isSome = true ∧ eventNotice worker = .event
  | _ => False

instance (worker : Worker) : (label : Label) → Decidable (NoticedByEvent worker label)
  | .handle _ => inferInstanceAs (Decidable (_ ∧ _))
  | .requestShutdown | .test | .wait _ | .iterate | .collect | .apply _ | .finish _ | .runHandler _ _ | .push _
  | .notify _ => inferInstanceAs (Decidable False)

/-- The loop's variable says that the listener is closed if it is. -/
def Informed (worker : Worker) : Prop := worker.draining = true → worker.listenerFd = none

inductive Listens (context : Context) (listener : Nat) (before after : Worker) : Prop
  | keep (draining : after.draining = before.draining) (listenerFd : after.listenerFd = before.listenerFd)
      (closed : closings listener after.trace = closings listener before.trace)
  | drain (noticed : context.notice ≠ .never) (running : before.draining = false) (draining : after.draining = true)
      (listenerFd : after.listenerFd = before.listenerFd)
      (closed : closings listener after.trace =
        closings listener before.trace + if before.listenerFd = some listener then 1 else 0)
  | forget (iterating : context.notice = .iteration) (draining : before.draining = true ∧ after.draining = true)
      (listenerFd : after.listenerFd = none) (closed : closings listener after.trace = closings listener before.trace)

theorem closings_singleton (fd other : Nat) : closings fd [.closed other] = if other = fd then 1 else 0 := by
  simp [closings, List.countP_singleton, Effect.closes]

theorem action_listens {context : Context} {listener completion : Nat} {before after : Worker}
    (action : Action context before after) (running : Phase.running before.phase = true)
    (attended : Attended listener completion before) : Listens context listener before after := by
  cases action_descriptive action with
  | steady steady => exact .keep steady.draining steady.listenerFd (steady.closings listener)
  | close fd present =>
    refine .keep rfl rfl ?_
    show closings listener (before.trace ++ [_]) = _
    rw [closings_append, closings_singleton, if_neg (attended.clients fd present).2.1, Nat.add_zero]
  | connect fd clientIp unused unasked => exact .keep rfl rfl (closings_append _ _ _)
  | turnAway fd unused unasked =>
    have apart : fd ≠ listener := fun same => unused (same ▸ (attended.accepting running unasked).1)
    refine .keep rfl rfl ?_
    show closings listener ((before.trace ++ [_]) ++ [_]) = _
    rw [closings_append, closings_append, closings_singleton, if_neg apart]
    rfl
  | drain noticed asked still =>
    rcases attended.listenerFd with none | some
    · refine .drain noticed still (draining_retire _ _) ?_ ?_
      · rw [none]
        rfl
      · rw [none]
        rfl
    · refine .drain noticed still (draining_retire _ _) ?_ ?_
      · rw [some]
        rfl
      · rw [some, if_pos rfl]
        show closings listener (before.trace ++ [_]) = _
        rw [closings_append, closings_singleton, if_pos rfl]
  | forget iterating draining => exact .forget iterating ⟨draining, draining⟩ rfl rfl

/-- Only the iteration callback changes the variable, and only a callback that notices the
request begins to drain. -/
theorem chain_frozen {context : Context} {listener completion : Nat} {before after : Worker}
    (chain : Chain context before after) (running : Phase.running before.phase = true)
    (attended : Attended listener completion before) :
    (context.notice ≠ .iteration → after.listenerFd = before.listenerFd) ∧
      (context.notice = .never → after.draining = before.draining) := by
  have frozen := chain.preserves (fun worker => (Phase.running worker.phase = true ∧
      Attended listener completion worker) ∧ (context.notice ≠ .iteration → worker.listenerFd = before.listenerFd) ∧
      (context.notice = .never → worker.draining = before.draining)) ?_
    ⟨⟨running, attended⟩, fun _ => rfl, fun _ => rfl⟩
  · exact frozen.2
  rintro worker next action ⟨⟨still, attended⟩, variable', draining⟩
  refine ⟨⟨by rw [(action_frame action).1]; exact still, action_attended action still attended⟩, ?_⟩
  cases action_listens action still attended with
  | keep draining' listenerFd closed =>
    rw [draining', listenerFd]
    exact ⟨variable', draining⟩
  | drain noticed running' draining' listenerFd closed =>
    rw [listenerFd]
    exact ⟨variable', fun never => absurd never noticed⟩
  | forget iterating draining' listenerFd closed =>
    rw [draining'.2, ← draining'.1]
    exact ⟨fun other => absurd iterating other, draining⟩

/-- While the loop runs, the listener has been closed once if the worker drains and not yet
otherwise; and the variable says that it is closed only if it is. -/
structure Listening (listener : Nat) (worker : Worker) : Prop where
  forgotten : worker.listenerFd = none → worker.draining = true
  closed : closings listener worker.trace = if worker.draining then 1 else 0

theorem Listening.frame {listener : Nat} {before after : Worker} (listening : Listening listener before)
    (draining : after.draining = before.draining) (listenerFd : after.listenerFd = before.listenerFd)
    (closed : closings listener after.trace = closings listener before.trace) : Listening listener after where
  forgotten := by
    rw [draining, listenerFd]
    exact listening.forgotten
  closed := by rw [draining, closed, listening.closed]

theorem Listens.keeps {context : Context} {listener completion : Nat} {before after : Worker}
    (listens : Listens context listener before after) (attended : Attended listener completion before)
    (listening : Listening listener before) : Listening listener after := by
  cases listens with
  | keep draining listenerFd same => exact listening.frame draining listenerFd same
  | drain noticed running draining listenerFd more =>
    have present : before.listenerFd = some listener := by
      rcases attended.listenerFd with none | some
      · cases running.symm.trans (listening.forgotten none)
      · exact some
    refine ⟨fun _ => draining, ?_⟩
    rw [more, listening.closed, running, if_pos present, draining]
    rfl
  | forget iterating draining listenerFd same =>
    refine ⟨fun _ => draining.2, ?_⟩
    rw [same, listening.closed, draining.1, draining.2]

theorem chain_listening {context : Context} {listener completion : Nat} {before after : Worker}
    (chain : Chain context before after) (running : Phase.running before.phase = true)
    (attended : Attended listener completion before) (listening : Listening listener before) :
    Listening listener after := by
  have kept := chain.preserves (fun worker => (Phase.running worker.phase = true ∧
      Attended listener completion worker) ∧ Listening listener worker) ?_ ⟨⟨running, attended⟩, listening⟩
  · exact kept.2
  rintro worker next action ⟨⟨still, attended⟩, listening⟩
  exact ⟨⟨by rw [(action_frame action).1]; exact still, action_attended action still attended⟩,
    (action_listens action still attended).keeps attended listening⟩

theorem apply_frozen {permits : Permits} {listener completion' : Nat} {before landed after : Worker}
    (completion : Completion) (rest : List Completion) (running : Phase.running before.phase = true)
    (attended : Attended listener completion' before)
    (lands : landed = before.pop completion rest ∨
      Action { completion := some completion, permits := permits } (before.pop completion rest) landed)
    (chain : Chain { permits := permits } landed after) :
    after.listenerFd = before.listenerFd ∧ after.draining = before.draining ∧
      (Listening listener before → Listening listener after) := by
  have popped := pop_attended completion rest attended
  have listening (earlier : Listening listener before) : Listening listener (before.pop completion rest) :=
    earlier.frame rfl rfl (closings_append _ _ _)
  rcases lands with rfl | action
  · have frozen := chain_frozen chain running popped
    exact ⟨frozen.1 nofun, frozen.2 rfl, fun earlier => chain_listening chain running popped (listening earlier)⟩
  · have landed' := chain_frozen (.one action) running popped
    have still : Phase.running landed.phase = true := by rw [(action_frame action).1]; exact running
    have attended' := action_attended action running popped
    have frozen := chain_frozen chain still attended'
    refine ⟨(frozen.1 nofun).trans (landed'.1 nofun), (frozen.2 rfl).trans (landed'.2 rfl), fun earlier => ?_⟩
    exact chain_listening chain still attended' (chain_listening (.one action) running popped (listening earlier))

structure Counted (listener : Nat) (worker : Worker) : Prop where
  running : Phase.running worker.phase = true → Listening listener worker
  ended : Phase.running worker.phase = false → (worker.listenerFd = none → worker.draining = true) ∧
    closings listener worker.trace =
      (if worker.draining then 1 else 0) + if worker.listenerFd.isSome then 1 else 0

theorem Counted.of_listening {listener : Nat} {worker : Worker} (running : Phase.running worker.phase = true)
    (listening : Listening listener worker) : Counted listener worker :=
  ⟨fun _ => listening, fun finished => by cases running.symm.trans finished⟩

theorem exit_counted {listener completion : Nat} {worker : Worker} (completed : Bool) (apart : listener ≠ completion)
    (attended : Attended listener completion worker) (listening : Listening listener worker) :
    Counted listener (worker.exit completed) := by
  have other : worker.completionFd ≠ listener := by
    rw [attended.completionFd]
    exact apart.symm
  have phase := (exit_frame completed worker).2.2.2.2
  refine ⟨fun still => ?_, fun _ => ?_⟩
  · rw [phase] at still
    cases still
  rcases attended.listenerFd with none | some
  · simp only [Worker.exit, none, Worker.close, Worker.emit, closings_append, closings_singleton, if_neg other]
    rw [listening.closed]
    exact ⟨fun _ => listening.forgotten none, rfl⟩
  · simp only [Worker.exit, some, Worker.close, Worker.emit, closings_append, closings_singleton, if_neg other]
    rw [listening.closed]
    exact ⟨(fun impossible => by cases impossible), rfl⟩

theorem transition_counted {permits : Permits} {label : Label} {listener completion : Nat} {before after : Worker}
    (apart : listener ≠ completion) (transition : Transition permits label before after)
    (attended : Attended listener completion before) (counted : Counted listener before) : Counted listener after := by
  cases transition with
  | idle => exact counted
  | shutdown => exact ⟨fun still => (counted.running still).frame rfl rfl rfl, counted.ended⟩
  | run index task response found queued => exact ⟨fun still => (counted.running still).frame rfl rfl rfl, counted.ended⟩
  | push index task response found handled => exact ⟨fun still => (counted.running still).frame rfl rfl rfl, counted.ended⟩
  | notify index task response found posted => exact ⟨fun still => (counted.running still).frame rfl rfl rfl, counted.ended⟩
  | stop test tested stops => exact exit_counted true apart attended (counted.running (by rw [tested]; rfl))
  | fail waited => exact exit_counted false apart attended (counted.running (by rw [waited]; rfl))
  | proceed tested =>
    have listening := counted.running (by rw [tested]; rfl)
    exact .of_listening rfl (listening.frame rfl rfl rfl)
  | wake batch waited reported =>
    have listening := counted.running (by rw [waited]; rfl)
    exact .of_listening rfl (listening.frame rfl rfl rfl)
  | retry waited =>
    have listening := counted.running (by rw [waited]; rfl)
    exact .of_listening rfl (listening.frame rfl rfl rfl)
  | iterate handled =>
    have listening := counted.running (by rw [handled]; rfl)
    exact .of_listening rfl (listening.frame rfl rfl rfl)
  | collect caller collected =>
    have listening := counted.running (by rw [collected]; rfl)
    exact .of_listening rfl (listening.frame rfl rfl rfl)
  | resume caller applied done =>
    have listening := counted.running (by rw [applied]; rfl)
    exact .of_listening (by cases caller <;> rfl) (listening.frame rfl rfl rfl)
  | handle called ready rest last handled chain drained =>
    have running : Phase.running before.phase = true := by rw [handled]; rfl
    have listening := chain_listening chain running attended (counted.running running)
    exact .of_listening rfl (listening.frame rfl rfl rfl)
  | notice called ready rest last handled chain drained =>
    have running : Phase.running before.phase = true := by rw [handled]; rfl
    have listening := chain_listening chain running attended (counted.running running)
    exact .of_listening rfl (listening.frame rfl rfl rfl)
  | finish last finished chain drained forgotten =>
    have running : Phase.running before.phase = true := by rw [finished]; rfl
    have listening := chain_listening chain running attended (counted.running running)
    exact .of_listening rfl (listening.frame rfl rfl rfl)
  | apply caller completion' rest landed last applied queued lands chain =>
    have running : Phase.running before.phase = true := by rw [applied]; rfl
    have listening := (apply_frozen completion' rest running attended lands chain).2.2 (counted.running running)
    have phase := apply_phase completion' rest lands chain
    exact .of_listening (by rw [← phase] at running; exact running) (listening.frame rfl rfl rfl)

/-- A loop that has ended closed the listener once if it was informed, and otherwise twice. -/
theorem counted_once {listener : Nat} {worker : Worker} (counted : Counted listener worker)
    (finished : Phase.running worker.phase = false) : closings listener worker.trace = 1 ↔ Informed worker := by
  obtain ⟨forgotten, closed⟩ := counted.ended finished
  rw [closed]
  unfold Informed
  cases draining : worker.draining with
  | false =>
    cases listenerFd : worker.listenerFd with
    | none => cases draining.symm.trans (forgotten listenerFd)
    | some fd => simp
  | true =>
    cases worker.listenerFd with
    | none => simp
    | some fd => simp

theorem exit_informed (completed : Bool) (worker : Worker) : Informed (worker.exit completed) ↔ Informed worker := by
  cases listenerFd : worker.listenerFd with
  | none => simp [Informed, Worker.exit, listenerFd, Worker.close, Worker.emit]
  | some fd => simp [Informed, Worker.exit, listenerFd, Worker.close, Worker.emit]

/-- An event callback that begins to drain leaves the variable as it was, and it is the only one
that does. -/
theorem handle_informed {listener completion : Nat} {worker : Worker} (script : Script) (ready : Ready)
    (rest : List Ready) (handled : worker.phase = .handling (ready :: rest))
    (attended : Attended listener completion worker) (counted : Counted listener worker) :
    Informed (step worker (.handle script)) ↔ Informed worker ∧ ¬NoticedByEvent worker (.handle script) := by
  have running : Phase.running worker.phase = true := by rw [handled]; rfl
  have head : (nextReady worker).isSome = true := by simp [nextReady, handled]
  obtain ⟨after, chain, drained, result⟩ :=
    handleEvent_chain {} ready rest ⟨worker, script⟩ ⟨.inl rfl, .inl rfl, .inl rfl⟩
  have stepped : step worker (.handle script) = handleEvent ready rest ⟨worker, script⟩ := by
    simp only [step, handled]
  have informed : Informed (step worker (.handle script)) ↔ Informed after := by
    rw [stepped]
    rcases result with same | same
    · rw [same]
      rfl
    · rw [same]
      rfl
  have frozen := chain_frozen chain running attended
  rw [informed]
  by_cases noticed : eventNotice worker = .event
  · have asked : worker.shutdownRequested = true ∧ worker.draining = false := by
      simpa [eventNotice] using noticed
    have unchanged := frozen.1 (by rw [noticed]; exact fun impossible => by cases impossible)
    constructor
    · -- the listener would be gone before anything drains
      intro known
      have gone := (counted.running running).forgotten (unchanged.symm.trans (known (drained asked.1)))
      cases asked.2.symm.trans gone
    · intro unnoticed
      exact absurd ⟨head, noticed⟩ unnoticed.2
  · have never : eventNotice worker = .never := by
      simp only [eventNotice] at noticed ⊢
      split at noticed
      · exact absurd rfl noticed
      next other => rw [if_neg other]
    have unnoticed : ¬NoticedByEvent worker (.handle script) := fun bad => noticed bad.2
    have kept := frozen.1 (by rw [never]; exact fun impossible => by cases impossible)
    simp only [Informed, kept, frozen.2 never, unnoticed, not_false_iff, and_true]

theorem finish_informed {permits : Permits} {listener completion : Nat} {before after : Worker}
    (finished : before.phase = .finishing) (attended : Attended listener completion before)
    (chain : Chain { notice := iterationNotice before, permits := permits } before after)
    (forgotten : before.shutdownRequested = true → before.draining = false → after.listenerFd = none) :
    Informed after ↔ Informed before := by
  have frozen := chain_frozen chain (by rw [finished]; rfl) attended
  by_cases noticed : before.shutdownRequested = true ∧ before.draining = false
  · have gone := forgotten noticed.1 noticed.2
    constructor
    · intro _ draining
      cases noticed.2.symm.trans draining
    · exact fun _ _ => gone
  · have never : iterationNotice before = .never := by simpa [iterationNotice] using noticed
    have kept := frozen.1 (by rw [never]; exact fun impossible => by cases impossible)
    simp only [Informed, kept, frozen.2 never]

theorem transition_informed {permits : Permits} {label : Label} {listener completion : Nat} {before after : Worker}
    (transition : Transition permits label before after) (other : ∀ script, label ≠ .handle script)
    (attended : Attended listener completion before) : Informed after ↔ Informed before := by
  cases transition with
  | handle called ready rest last handled chain drained => exact absurd called.choose_spec (other _)
  | notice called ready rest last handled chain drained => exact absurd called.choose_spec (other _)
  | stop test tested stops => exact exit_informed true before
  | fail waited => exact exit_informed false before
  | finish last finished chain drained forgotten =>
    have same := finish_informed finished attended chain forgotten
    exact same
  | apply caller completion' rest landed last applied queued lands chain =>
    have frozen := apply_frozen completion' rest (by rw [applied]; rfl) attended lands chain
    simp only [Informed, frozen.1, frozen.2.1]
  | _ => exact Iff.rfl

theorem step_informed {listener completion : Nat} (worker : Worker) (label : Label)
    (attended : Attended listener completion worker) (counted : Counted listener worker) :
    Informed (step worker label) ↔ Informed worker ∧ ¬NoticedByEvent worker label := by
  by_cases handles : ∃ script, label = .handle script
  · obtain ⟨script, rfl⟩ := handles
    by_cases next : ∃ ready rest, worker.phase = .handling (ready :: rest)
    · obtain ⟨ready, rest, handled⟩ := next
      exact handle_informed script ready rest handled attended counted
    · have none : nextReady worker = none := by
        unfold nextReady
        split
        next ready rest handled => exact absurd ⟨ready, rest, handled⟩ next
        next => rfl
      have idle : step worker (.handle script) = worker := by
        simp only [step]
        split
        next ready rest handled => exact absurd ⟨ready, rest, handled⟩ next
        next => rfl
      rw [idle]
      simp [NoticedByEvent, none]
  · have unnoticed : ¬NoticedByEvent worker label := by
      intro noticed
      cases label with
      | handle script => exact handles ⟨script, rfl⟩
      | _ => exact noticed
    rw [transition_informed (any_transition worker label) (fun script same => handles ⟨script, same⟩) attended]
    exact (and_iff_left unnoticed).symm

theorem start_counted (workerId listenerFd completionFd : Nat) :
    Counted listenerFd (start workerId listenerFd completionFd) :=
  .of_listening rfl ⟨nofun, rfl⟩

/-- In every run that has ended, the listener was closed exactly once if and only if no event
callback was the first to notice the request to shut down. -/
theorem listener_closed_once (workerId listenerFd completionFd : Nat) (apart : listenerFd ≠ completionFd)
    (labels : List Label) (completed : Bool)
    (ended : (run step (start workerId listenerFd completionFd) labels).phase = .exited completed) :
    closings listenerFd (run step (start workerId listenerFd completionFd) labels).trace = 1 ↔
      Along step (fun worker label => ¬NoticedByEvent worker label) (start workerId listenerFd completionFd) labels := by
  have both := run_invariant step
    (fun worker => Attended listenerFd completionFd worker ∧ Counted listenerFd worker) (fun _ => True)
    (fun worker label _ kept => ⟨transition_attended (any_transition worker label) kept.1,
      transition_counted apart (any_transition worker label) kept.1 kept.2⟩)
    (start workerId listenerFd completionFd) labels (fun _ _ => trivial)
    ⟨start_attended workerId listenerFd completionFd, start_counted workerId listenerFd completionFd⟩
  have informed := along_iff step
    (fun worker => Attended listenerFd completionFd worker ∧ Counted listenerFd worker) Informed
    (fun worker label => ¬NoticedByEvent worker label)
    (fun worker label kept => ⟨transition_attended (any_transition worker label) kept.1,
      transition_counted apart (any_transition worker label) kept.1 kept.2⟩)
    (fun worker label kept => step_informed worker label kept.1 kept.2)
    (start workerId listenerFd completionFd) labels
    ⟨start_attended workerId listenerFd completionFd, start_counted workerId listenerFd completionFd⟩
  rw [and_iff_right (show Informed (start workerId listenerFd completionFd) from nofun)] at informed
  rw [← informed]
  exact counted_once both.2 (by rw [ended]; rfl)

def noticedInIteration : List Label :=
  [.test, .wait (.ready []), .requestShutdown, .iterate, .collect, .apply {}, .finish {}, .test]

def noticedInEvent : List Label :=
  [.test, .wait (.ready [(5, { input := true })]), .requestShutdown, .handle {}, .iterate, .collect, .apply {},
    .finish {}, .test]

theorem listener_closed_once_iteration :
    (run step (start 0 5 6) noticedInIteration).phase = .exited true ∧
      (run step (start 0 5 6) noticedInIteration).shutdownRequested = true ∧
      closings 5 (run step (start 0 5 6) noticedInIteration).trace = 1 :=
  ⟨by decide +kernel, by decide +kernel,
    (listener_closed_once 0 5 6 (by decide) noticedInIteration true (by decide +kernel)).mpr (by decide +kernel)⟩

/-- The listener is closed when the worker begins to drain, and its number once more at the end. -/
theorem listener_closed_twice :
    (run step (start 0 5 6) noticedInEvent).phase = .exited true ∧
      (run step (start 0 5 6) noticedInEvent).trace = [.closed 5, .closed 5, .closed 6] ∧
      closings 5 (run step (start 0 5 6) noticedInEvent).trace = 2 := by
  decide +kernel

end FleetGateway.Network.Shutdown
