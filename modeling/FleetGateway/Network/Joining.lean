import FleetGateway.Library.Ranking
import FleetGateway.Network.ThreadPool

/-! `begin_shutdown` and `join`: the workers of a pool that stops run out of steps, and they do
not stop before all of them have left. -/

namespace FleetGateway.Network.Joining
open Library.Counting Library.Run Library.Ranking ThreadPool

variable {Task : Type}

/-- The steps that are before a worker of a stopping pool with an empty queue. -/
def Thread.steps : Thread Task → Nat
  | .exited => 0
  | .ready => 1
  | .waiting | .finished => 2
  | .running _ _ => 3

/-- A queued task is taken, run and released; a notification is made once. -/
def work (pool : Pool Task) : Nat :=
  (pool.workers.map Thread.steps).sum + 3 * pool.tasks.length + pool.notifyOnes + pool.notifyAlls

def Label.isOwn : Label Task → Bool
  | .notifyOne _ | .notifyAll | .take _ | .execute _ _ | .release _ => true
  | .submit _ | .beginShutdown | .wake _ => false

/-- A further `begin_shutdown` adds a notification. -/
def Label.price : Label Task → Nat
  | .beginShutdown => 2
  | _ => 0

theorem steps_woken (thread : Thread Task) : Thread.steps (Thread.woken thread) ≤ Thread.steps thread := by
  cases thread with
  | waiting => exact Nat.le_succ 1
  | _ => exact Nat.le_refl _

theorem sum_steps_woken (workers : List (Thread Task)) :
    ((workers.map Thread.woken).map Thread.steps).sum ≤ (workers.map Thread.steps).sum := by
  induction workers with
  | nil => exact Nat.le_refl _
  | cons thread rest ih =>
    have first := steps_woken thread
    simp only [List.map_cons, List.sum_cons]
    omega

theorem sum_steps_next (pool : Pool Task) (index : Nat) (old new : Thread Task)
    (found : pool.workers[index]? = some old) :
    ((pool.setWorker index new).workers.map Thread.steps).sum + Thread.steps old =
      (pool.workers.map Thread.steps).sum + Thread.steps new :=
  sum_map_set pool.workers Thread.steps index old new found

theorem wake_lowers (pool : Pool Task) (index : Nat) (changed : pool.wake index ≠ pool) :
    work (pool.wake index) + 1 ≤ work pool := by
  unfold Pool.wake at changed ⊢
  split at changed
  next waits =>
    have moved := sum_steps_next pool index .waiting .ready waits
    simp only [Thread.steps, Pool.setWorker] at moved
    simp only [work, Pool.setWorker]
    omega
  next => exact absurd rfl changed

theorem wake_le (pool : Pool Task) (index : Nat) : work (pool.wake index) ≤ work pool := by
  by_cases same : pool.wake index = pool
  · exact Nat.le_of_eq (congrArg work same)
  · have lower := wake_lowers pool index same
    omega

theorem notifyOne_lowers (pool : Pool Task) (index : Nat) (changed : pool.notifyOne index ≠ pool) :
    work (pool.notifyOne index) + 1 ≤ work pool := by
  unfold Pool.notifyOne at changed ⊢
  split
  next none => exact absurd (if_pos none) changed
  next some =>
    have counted : work { pool with notifyOnes := pool.notifyOnes - 1 } + 1 = work pool := by
      simp only [work]
      omega
    dsimp only
    split
    · have woken := wake_le { pool with notifyOnes := pool.notifyOnes - 1 } index
      omega
    · have woken := wake_le { pool with notifyOnes := pool.notifyOnes - 1 } (pool.workers.findIdx Thread.isWaiting)
      omega

theorem take_lowers (pool : Pool Task) (index : Nat) (stops : pool.stopping = true)
    (changed : pool.take index ≠ pool) : work (pool.take index) + 1 ≤ work pool := by
  unfold Pool.take at changed ⊢
  split at changed
  next ready =>
    rw [stops, Bool.true_or, Bool.true_and, if_pos rfl] at changed ⊢
    cases queued : pool.tasks with
    | nil =>
      have moved := sum_steps_next pool index .ready .exited ready
      simp only [Thread.steps, Pool.setWorker] at moved
      simp only [queued, List.isEmpty_nil, if_true, work, Pool.setWorker]
      omega
    | cons task rest =>
      have moved := sum_steps_next pool index .ready (.running pool.taken.length task) ready
      simp only [Thread.steps, Pool.setWorker] at moved
      simp only [queued, List.isEmpty_cons, Bool.false_eq_true, if_false, work, Pool.setWorker, List.length_cons]
      omega
  next => exact absurd rfl changed

/-- With every step that changes it a pool that stops has less to do. -/
theorem step_lowers (pool : Pool Task) (label : Label Task) (stops : pool.stopping = true)
    (changed : step pool label ≠ pool) : work (step pool label) + 1 ≤ work pool + Label.price label := by
  cases label with
  | submit task =>
    have refused : step pool (.submit task) = pool := by simp [step, Pool.submit, stops]
    exact absurd refused changed
  | beginShutdown =>
    simp only [step, work, Pool.beginShutdown, Label.price]
    omega
  | notifyOne worker => exact notifyOne_lowers pool worker changed
  | notifyAll =>
    simp only [step, Pool.notifyAll] at changed ⊢
    split
    next none => exact absurd (if_pos none) changed
    next some =>
      have woken := sum_steps_woken pool.workers
      simp only [work, Label.price]
      omega
  | wake worker => exact wake_lowers pool worker changed
  | take worker => exact take_lowers pool worker stops changed
  | execute worker threw =>
    simp only [step, Pool.execute] at changed ⊢
    split at changed
    next ticket task runs =>
      have moved := sum_steps_next pool worker (.running ticket task) .finished runs
      simp only [Thread.steps, Pool.setWorker] at moved
      simp only [work, Pool.setWorker, Label.price]
      omega
    next => exact absurd rfl changed
  | release worker =>
    simp only [step, Pool.release] at changed ⊢
    split at changed
    next ended =>
      have moved := sum_steps_next pool worker .finished .ready ended
      simp only [Thread.steps, Pool.setWorker] at moved
      simp only [work, Pool.setWorker, Label.price]
      omega
    next => exact absurd rfl changed

def Told (pool : Pool Task) : Prop :=
  pool.stopping = true → .waiting ∈ pool.workers → 0 < pool.notifyAlls

theorem Told.replace {before after : Pool Task} (told : Told before) (index : Nat) (thread : Thread Task)
    (awake : thread ≠ .waiting) (workers : after.workers = before.workers.set index thread)
    (stopping : after.stopping = before.stopping) (alls : after.notifyAlls = before.notifyAlls) : Told after := by
  intro stops waits
  rw [alls]
  apply told (stopping.symm.trans stops)
  rw [workers] at waits
  rcases List.mem_or_eq_of_mem_set waits with old | same
  · exact old
  · exact absurd same.symm awake

theorem transition_told {before after : Pool Task} (transition : Transition before after) (told : Told before) :
    Told after := by
  cases transition with
  | beginShutdown => exact fun _ _ => Nat.succ_pos _
  | wakeAll alls =>
    intro _ waits
    obtain ⟨thread, _, woken⟩ := List.mem_map.mp waits
    cases thread <;> cases woken
  | wait index ready running empty =>
    intro stops
    cases running.symm.trans stops
  | wake index ones waits => exact told.replace index .ready nofun rfl rfl rfl
  | leave index ready stopping empty => exact told.replace index .exited nofun rfl rfl rfl
  | take index ready task rest queued => exact told.replace index (.running before.taken.length task) nofun rfl rfl rfl
  | execute index ticket task threw runs => exact told.replace index .finished nofun rfl rfl rfl
  | release index ended => exact told.replace index .ready nofun rfl rfl rfl
  | idle => exact told
  | submit task running room => exact told
  | unheard ones nobody => exact told

theorem run_told (workerCount queueCapacity : Nat) (labels : List (Label Task)) :
    Told (run step (start workerCount queueCapacity) labels) := by
  apply run_invariant step Told (fun _ => True) _ _ labels (fun _ _ => trivial)
  · exact fun stops => Bool.noConfusion stops
  · exact fun pool label _ told => transition_told (step_transition pool label) told

/-- A worker that has not left has a step before it, or will be woken. -/
theorem own_step_lowers (pool : Pool Task) (stops : pool.stopping = true) (told : Told pool)
    (staying : ¬ ∀ thread ∈ pool.workers, thread = .exited) :
    ∃ label : Label Task, Label.isOwn label = true ∧ step pool label ≠ pool := by
  obtain ⟨thread, rest⟩ := not_forall.mp staying
  obtain ⟨member, here⟩ := Classical.not_imp.mp rest
  obtain ⟨index, found⟩ := List.mem_iff_getElem?.mp member
  have moves {next : Pool Task} (new : Thread Task) (workers : next.workers = pool.workers.set index new)
      (different : new ≠ thread) : next ≠ pool := by
    intro same
    rw [same] at workers
    apply different
    have inside := (List.getElem?_eq_some_iff.mp found).1
    rw [workers, List.getElem?_set_self inside] at found
    exact Option.some.inj found
  cases thread with
  | exited => exact absurd rfl here
  | waiting =>
    have coming := told stops member
    refine ⟨.notifyAll, rfl, fun same => ?_⟩
    have lower := congrArg Pool.notifyAlls same
    simp only [step, Pool.notifyAll, if_neg (Nat.pos_iff_ne_zero.mp coming)] at lower
    omega
  | ready =>
    refine ⟨.take index, rfl, ?_⟩
    simp only [step, Pool.take, found, stops, Bool.true_or, if_true, Bool.true_and]
    cases queued : pool.tasks with
    | nil => exact moves .exited rfl (by intro same; cases same)
    | cons task tasks => exact moves (.running pool.taken.length task) rfl (by intro same; cases same)
  | running ticket task =>
    refine ⟨.execute index false, rfl, ?_⟩
    simp only [step, Pool.execute, found]
    exact moves .finished rfl (by intro same; cases same)
  | finished =>
    refine ⟨.release index, rfl, ?_⟩
    simp only [step, Pool.release, found]
    exact moves .ready rfl (by intro same; cases same)

/-- Every thread that `join` waits for has left, and every task that was accepted has run once. -/
structure Joined (pool : Pool Task) : Prop where
  left : ∀ thread ∈ pool.workers, thread = .exited
  ran : ∀ execution ∈ pool.executed, pool.accepted[execution.ticket]? = some execution.task
  once : (pool.executed.map Execution.ticket).Perm (List.range pool.accepted.length)

theorem joined_of_left (workerCount queueCapacity : Nat) (positive : 0 < workerCount) (labels : List (Label Task))
    (left : ∀ thread ∈ (run step (start workerCount queueCapacity) labels).workers, thread = .exited) :
    Joined (run step (start workerCount queueCapacity) labels) := by
  obtain ⟨queued, staffed, awake⟩ := run_sound workerCount queueCapacity positive labels
  obtain ⟨thread, member⟩ := List.exists_mem_of_ne_nil _ (staffed.populated positive)
  have order := queued.order
  rw [(awake.exits (left thread member ▸ member)).2, List.append_nil] at order
  refine ⟨left, ?_, ?_⟩
  · rw [← order]
    exact staffed.ran
  · rw [← order]
    exact (staffed.settled left).1

/-- After `begin_shutdown`, whatever the order of the steps: each step that changes something uses up
work, of which only a further `begin_shutdown` makes more; when the threads can do nothing more, all
have left and every accepted task has run once; and they can always come to that. So `join` returns. -/
theorem join_returns (workerCount queueCapacity : Nat) (positive : 0 < workerCount) (labels : List (Label Task))
    (asked : .beginShutdown ∈ labels) :
    let pool := run step (start workerCount queueCapacity) labels
    (∀ later, Effective step pool later →
        later.length + work (run step pool later) ≤ work pool + (later.map Label.price).sum) ∧
      (∀ later, (∀ label, Label.isOwn label = true → step (run step pool later) label = run step pool later) →
        Joined (run step pool later)) ∧
      ∃ later, (∀ label ∈ later, Label.isOwn label = true) ∧ Joined (run step pool later) := by
  intro pool
  have stops : pool.stopping = true := run_stopping (start workerCount queueCapacity) labels (.inr asked)
  have told : Told pool := run_told workerCount queueCapacity labels
  have onward (later : List (Label Task)) :
      run step pool later = run step (start workerCount queueCapacity) (labels ++ later) :=
    (run_append step _ labels later).symm
  have stays (later : List (Label Task)) : (run step pool later).stopping = true :=
    run_stopping pool later (.inl stops)
  have informed (later : List (Label Task)) : Told (run step pool later) := by
    rw [onward]
    exact run_told workerCount queueCapacity (labels ++ later)
  have joins (later : List (Label Task)) (left : ∀ thread ∈ (run step pool later).workers, thread = .exited) :
      Joined (run step pool later) := by
    rw [onward] at left ⊢
    exact joined_of_left workerCount queueCapacity positive (labels ++ later) left
  refine ⟨fun later effective => ?_, fun later stuck => ?_, ?_⟩
  · apply length_le_rank step (fun pool => pool.stopping = true) work Label.price _ _ pool later stops effective
    · exact fun state label still => transition_stopping (step_transition state label) still
    · exact fun state label still changed => step_lowers state label still changed
  · apply joins
    by_contra staying
    obtain ⟨label, own, changed⟩ := own_step_lowers _ (stays later) (informed later) staying
    exact changed (stuck label own)
  · obtain ⟨later, own, left⟩ := exists_settled step (fun state => state.stopping = true ∧ Told state)
      (fun state => ∀ thread ∈ state.workers, thread = .exited) (fun label => Label.isOwn label = true) work
      (fun state label kept _ => ⟨transition_stopping (step_transition state label) kept.1,
        transition_told (step_transition state label) kept.2⟩)
      (fun state kept staying => by
        obtain ⟨label, own, changed⟩ := own_step_lowers state kept.1 kept.2 staying
        have lower := step_lowers state label kept.1 changed
        have free : Label.price label = 0 := by
          cases label with
          | beginShutdown => cases own
          | _ => rfl
        exact ⟨label, own, by omega⟩)
      pool ⟨stops, told⟩
    exact ⟨later, own, joins later left⟩

/-- A worker sleeps and another runs a task when the pool is told to stop. -/
theorem join_returns_asleep :
    let labels : List (Label Nat) := [.take 0, .take 1, .submit 7, .notifyOne 0, .take 0, .beginShutdown]
    let pool := run step (start 2 1) labels
    pool.workers = [.running 0 7, .waiting] ∧ work pool = 6 ∧
      ∃ later, (∀ label ∈ later, Label.isOwn label = true) ∧ Joined (run step pool later) :=
  ⟨by decide, by decide, (join_returns 2 1 (by decide) _ (by simp)).2.2⟩

end FleetGateway.Network.Joining
