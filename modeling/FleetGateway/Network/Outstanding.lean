import FleetGateway.Network.Isolation
import Mathlib.Data.Finset.Card

/-! `outstanding_tasks` against the tasks themselves: it is the number of tasks whose completion
the loop has not popped, wherever they are, and when `should_stop` holds there are none. -/

namespace FleetGateway.Network.Outstanding
open Library Library.ByteStore Library.Counting Library.Run EventLoop Actions Transitions Identity Lifetime Isolation

def unpopped (worker : Worker) : Finset Nat :=
  (Finset.range worker.tasks.length).filter fun index => processings index worker.trace = 0

def Owed (excess : Nat) (worker : Worker) : Prop := worker.outstandingTasks = (unpopped worker).card + excess

theorem unpopped_congr {before after : Worker} (tasks : after.tasks.length = before.tasks.length)
    (processed : ∀ index, processings index after.trace = processings index before.trace) :
    unpopped after = unpopped before := by
  simp only [unpopped, tasks, processed]

theorem Isolated.unheard {worker : Worker} (isolated : Isolated worker) :
    processings worker.tasks.length worker.trace = 0 := by
  have bound := isolated.single worker.tasks.length
  have none : publications worker.tasks.length worker.tasks = 0 := by simp [publications]
  omega

theorem card_unpopped_append {before after : Worker} (task : Task) (isolated : Isolated before)
    (tasks : after.tasks = before.tasks ++ [task])
    (processed : ∀ index, processings index after.trace = processings index before.trace) :
    (unpopped after).card = (unpopped before).card + 1 := by
  have grown : unpopped after = insert before.tasks.length (unpopped before) := by
    have unheard := Isolated.unheard isolated
    simp only [unpopped, tasks, List.length_append, List.length_singleton, processed, Finset.range_add_one,
      Finset.filter_insert, unheard, if_true]
  have absent : before.tasks.length ∉ unpopped before := by simp [unpopped]
  rw [grown, Finset.card_insert_of_notMem absent]

theorem action_owed {context : Context} {before after : Worker} (excess : Nat) (action : Action context before after)
    (isolated : Isolated before) (owed : Owed excess before) : Owed excess after := by
  have processed := action_processings action
  unfold Owed at owed ⊢
  rcases action_tasks action with ⟨outstanding, tasks⟩ | ⟨_, _, task, _, _, _, _, tasks, outstanding⟩
  · rw [outstanding, unpopped_congr (by rw [tasks]) processed, owed]
  · rw [outstanding, card_unpopped_append task isolated tasks processed, owed]
    omega

/-- What an action keeps of the counter, a callback keeps. -/
theorem chain_owed {context : Context} {before after : Worker} (excess : Nat) (empty : context.completion = none)
    (chain : Chain context before after) (isolated : Isolated before) (owed : Owed excess before) :
    Isolated after ∧ Owed excess after := by
  refine chain.preserves (fun worker => Isolated worker ∧ Owed excess worker) ?_ ⟨isolated, owed⟩
  intro worker next action both
  refine ⟨action_isolated action (fun _ popped => ?_) both.1, action_owed excess action both.1 both.2⟩
  cases empty.symm.trans popped

theorem pop_owed {worker : Worker} (completion : Completion) (rest : List Completion)
    (queued : worker.completed = completion :: rest) (isolated : Isolated worker) (owed : Owed 0 worker) :
    Owed 1 (worker.pop completion rest) := by
  obtain ⟨task, response, found, published, _⟩ := isolated.genuine completion (by simp [queued])
  obtain ⟨inside, _⟩ := List.getElem?_eq_some_iff.mp found
  have first : processings completion.task worker.trace = 0 := by
    have bound := isolated.single completion.task
    have waiting : 1 ≤ travelling completion.task worker := by
      simp only [travelling, queued, List.countP_append, List.countP_cons, beq_self_eq_true, if_true]
      omega
    have once := publications_le_one completion.task worker.tasks
    omega
  have member : completion.task ∈ unpopped worker := by simp [unpopped, inside, first]
  have popped : unpopped (worker.pop completion rest) = (unpopped worker).erase completion.task := by
    ext index
    have same : (worker.pop completion rest).tasks = worker.tasks := rfl
    simp only [unpopped, processings_pop, same, Finset.mem_filter, Finset.mem_range, Finset.mem_erase, beq_iff_eq]
    by_cases own : completion.task = index
    · simp [own]
    · simp [own, Ne.symm own]
  have positive : 0 < (unpopped worker).card := Finset.card_pos.mpr ⟨_, member⟩
  unfold Owed at owed ⊢
  rw [popped, Finset.card_erase_of_mem member]
  show worker.outstandingTasks = _
  omega

theorem apply_owed {permits : Permits} {before landed after : Worker} (completion : Completion)
    (rest : List Completion) (queued : before.completed = completion :: rest) (isolated : Isolated before)
    (owed : Owed 0 before)
    (lands : landed = before.pop completion rest ∨
      Action { completion := some completion, permits := permits } (before.pop completion rest) landed)
    (chain : Chain { permits := permits } landed after) : Owed 1 after := by
  have popped := pop_owed completion rest queued isolated owed
  obtain ⟨isolated', held⟩ := isolated.pop completion rest queued
  rcases lands with rfl | action
  · exact (chain_owed 1 rfl chain isolated' popped).2
  · have landed' := action_isolated action (fun other same => by cases same; exact held) isolated'
    exact (chain_owed 1 rfl chain landed' (action_owed 1 action isolated' popped)).2

theorem exit_owed (completed : Bool) (worker : Worker) (owed : Owed 0 worker) : Owed 0 (worker.exit completed) := by
  obtain ⟨tasks, outstanding, _⟩ := exit_frame completed worker
  obtain ⟨more, trace, unconcerned⟩ := exit_trace completed worker
  have same : unpopped (worker.exit completed) = unpopped worker := by
    apply unpopped_congr
    · rw [tasks]
    · intro index
      rw [trace, processings_append, (unconcerned index).1, Nat.add_zero]
  unfold Owed at owed ⊢
  rw [outstanding, same, owed]

theorem setTask_owed {worker : Worker} (index : Nat) (task : Task) (progress : Progress) (owed : Owed 0 worker) :
    Owed 0 (worker.setTask index task progress) := by
  have same : unpopped (worker.setTask index task progress) = unpopped worker :=
    unpopped_congr (by simp [Worker.setTask]) (fun _ => rfl)
  unfold Owed at owed ⊢
  rw [same, ← owed]
  rfl

theorem transition_owed {permits : Permits} {label : Label} {before after : Worker}
    (transition : Transition permits label before after) (isolated : Isolated before) (owed : Owed 0 before) :
    Owed 0 after := by
  cases transition with
  | stop test tested stops => exact exit_owed true before owed
  | fail waited => exact exit_owed false before owed
  | handle called ready rest last handled chain drained => exact (chain_owed 0 rfl chain isolated owed).2
  | notice called ready rest last handled chain drained => exact (chain_owed 0 rfl chain isolated owed).2
  | finish last finished chain drained forgotten => exact (chain_owed 0 rfl chain isolated owed).2
  | apply caller completion rest landed last applied queued lands chain =>
    have kept := apply_owed completion rest queued isolated owed lands chain
    have lowered : fetchSub last.outstandingTasks = (unpopped last).card := by
      unfold Owed at kept
      rw [kept]
      rfl
    exact lowered
  | run index task response found queued => exact setTask_owed index task _ owed
  | push index task response found handled => exact setTask_owed index task _ owed
  | notify index task response found posted => exact setTask_owed index task _ owed
  | _ => exact owed

theorem run_owed (workerId listenerFd completionFd : Nat) (labels : List Label) :
    let worker := run step (start workerId listenerFd completionFd) labels
    Accounted worker ∧ Isolated worker ∧ Owed 0 worker :=
  run_invariant step (fun worker => Accounted worker ∧ Isolated worker ∧ Owed 0 worker) (fun _ => True)
    (fun worker label _ kept =>
      have transition := any_transition worker label
      ⟨transition_accounted transition kept.1, transition_isolated transition kept.1 kept.2.1,
        transition_owed transition kept.2.1 kept.2.2⟩)
    (start workerId listenerFd completionFd) labels (fun _ _ => trivial)
    ⟨(start_settled workerId listenerFd completionFd).accounted, start_isolated workerId listenerFd completionFd, rfl⟩

/-- When nothing is outstanding, every task has pushed its completion and the loop has popped
it, once. -/
theorem all_popped (worker : Worker) (isolated : Isolated worker) (none : (unpopped worker).card = 0) (index : Nat)
    (task : Task) (found : worker.tasks[index]? = some task) :
    (Task.published task).isSome = true ∧ processings index worker.trace = 1 := by
  obtain ⟨inside, _⟩ := List.getElem?_eq_some_iff.mp found
  have popped : processings index worker.trace ≠ 0 := by
    intro unheard
    have member : index ∈ unpopped worker := by simp [unpopped, inside, unheard]
    rw [Finset.card_eq_zero.mp none] at member
    simp at member
  have bound := isolated.single index
  have once := publications_le_one index worker.tasks
  refine ⟨?_, by omega⟩
  by_contra unpublished
  have nothing : publications index worker.tasks = 0 := by simp [publications, found, unpublished]
  omega

/-- In every run: the counter is the number of accepted tasks whose completion was not popped, and
these are in the pool, or their completions are in the two queues; the counter is not 0 when a
completion that was popped lowers it; and when `should_stop` holds, every task has pushed its one
completion and it was popped, no completion is queued and no connection is left. -/
theorem outstanding_accounted (workerId listenerFd completionFd : Nat) (labels : List Label) :
    let worker := run step (start workerId listenerFd completionFd) labels
    (worker.outstandingTasks = (unpopped worker).card ∧ worker.outstandingTasks =
        worker.tasks.countP Task.unposted + worker.completions.length + worker.completed.length) ∧
      (∀ completion rest script, worker.completed = completion :: rest →
        0 < (deliver completion ⟨worker.pop completion rest, script⟩).worker.outstandingTasks) ∧
      (worker.shouldStop = true →
        (∀ index task, worker.tasks[index]? = some task →
          (Task.published task).isSome = true ∧ processings index worker.trace = 1) ∧
        worker.completions = [] ∧ worker.completed = [] ∧ worker.connections.keys = []) := by
  intro worker
  obtain ⟨accounted, isolated, owed⟩ : Accounted worker ∧ Isolated worker ∧ Owed 0 worker :=
    run_owed workerId listenerFd completionFd labels
  have counts := accounted.counts
  refine ⟨⟨owed, counts⟩, ?_, ?_⟩
  · intro completion rest script queued
    obtain ⟨landed, lands, chain⟩ := deliver_chain {} completion ⟨worker.pop completion rest, script⟩
    have kept := apply_owed completion rest queued isolated owed lands chain
    unfold Owed at kept
    omega
  · intro stops
    simp only [Worker.shouldStop, Bool.and_eq_true, decide_eq_true_eq] at stops
    obtain ⟨⟨_, none⟩, empty⟩ := stops
    unfold Owed at owed
    unfold Counts at counts
    refine ⟨all_popped worker isolated (by omega), ?_, ?_, List.length_eq_zero_iff.mp empty⟩
    · exact List.length_eq_zero_iff.mp (by omega)
    · exact List.length_eq_zero_iff.mp (by omega)

end FleetGateway.Network.Outstanding
