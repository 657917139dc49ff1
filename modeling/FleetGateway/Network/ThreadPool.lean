import FleetGateway.Library.Counting
import FleetGateway.Library.Run
import Mathlib.Algebra.Group.Nat.Defs
import Mathlib.Data.List.Perm.Basic
import Mathlib.Data.List.Count

/-! `ThreadPool`: a bounded queue, a mutex, a condition variable and the threads that take tasks.

What a thread does under the mutex is one step. The notifications come after the mutex is released,
so they are steps of their own, and until then they are pending. -/

namespace FleetGateway.Network.ThreadPool
open Library.Counting Library.Run

/-- Where a worker stands: before the mutex, in `wait`, in a task, behind it, or gone. The ticket
is the number of tasks taken before this one; the code does not have it. -/
inductive Thread (Task : Type) where
  | ready
  | waiting
  | running (ticket : Nat) (task : Task)
  | finished
  | exited
  deriving DecidableEq

structure Execution (Task : Type) where
  ticket : Nat
  task : Task
  threw : Bool
  deriving DecidableEq

structure Pool (Task : Type) where
  queueCapacity : Nat
  tasks : List Task := []
  queueHighWater : Nat := 0
  workers : List (Thread Task)
  busyThreads : Nat := 0
  stopping : Bool := false
  /-- The calls of `notify_one` and `notify_all` that are still to come. -/
  notifyOnes : Nat := 0
  notifyAlls : Nat := 0
  /-- What `submit` accepted, what the workers took and what they ran. -/
  accepted : List Task := []
  taken : List Task := []
  executed : List (Execution Task) := []

variable {Task : Type}

def start (workerCount queueCapacity : Nat) : Pool Task where
  queueCapacity := queueCapacity
  workers := List.replicate workerCount .ready

/-- `submit` up to the notification. -/
def Pool.submit (task : Task) (pool : Pool Task) : Bool × Pool Task :=
  if pool.stopping || pool.queueCapacity ≤ pool.tasks.length then (false, pool)
  else (true, { pool with
    tasks := pool.tasks ++ [task]
    queueHighWater := max pool.queueHighWater (pool.tasks ++ [task]).length
    notifyOnes := pool.notifyOnes + 1
    accepted := pool.accepted ++ [task] })

/-- `begin_shutdown` up to the notification. -/
def Pool.beginShutdown (pool : Pool Task) : Pool Task :=
  { pool with stopping := true, notifyAlls := pool.notifyAlls + 1 }

def Pool.setWorker (index : Nat) (thread : Thread Task) (pool : Pool Task) : Pool Task :=
  { pool with workers := pool.workers.set index thread }

def Pool.wake (index : Nat) (pool : Pool Task) : Pool Task :=
  match pool.workers[index]? with
  | some .waiting => pool.setWorker index .ready
  | _ => pool

def Thread.isWaiting : Thread Task → Bool
  | .waiting => true
  | _ => false

/-- `notify_one` wakes a waiting worker if there is one: the one asked for, or else the first. -/
def Pool.notifyOne (index : Nat) (pool : Pool Task) : Pool Task :=
  if pool.notifyOnes = 0 then pool
  else
    let notified := { pool with notifyOnes := pool.notifyOnes - 1 }
    match pool.workers[index]? with
    | some .waiting => notified.wake index
    | _ => notified.wake (pool.workers.findIdx Thread.isWaiting)

def Thread.woken : Thread Task → Thread Task
  | .waiting => .ready
  | other => other

def Pool.notifyAll (pool : Pool Task) : Pool Task :=
  if pool.notifyAlls = 0 then pool
  else { pool with notifyAlls := pool.notifyAlls - 1, workers := pool.workers.map Thread.woken }

/-- What a worker does under the mutex: it waits until there is something to do, leaves, or takes
the first task. -/
def Pool.take (index : Nat) (pool : Pool Task) : Pool Task :=
  match pool.workers[index]? with
  | some .ready =>
    if pool.stopping || !pool.tasks.isEmpty then
      if pool.stopping && pool.tasks.isEmpty then pool.setWorker index .exited
      else match pool.tasks with
        | [] => pool
        | task :: rest =>
          { pool.setWorker index (.running pool.taken.length task) with
            tasks := rest
            taken := pool.taken ++ [task]
            busyThreads := pool.busyThreads + 1 }
    else pool.setWorker index .waiting
  | _ => pool

/-- The task returns or throws; whatever it throws is caught. -/
def Pool.execute (index : Nat) (threw : Bool) (pool : Pool Task) : Pool Task :=
  match pool.workers[index]? with
  | some (.running ticket task) =>
    { pool.setWorker index .finished with executed := pool.executed ++ [⟨ticket, task, threw⟩] }
  | _ => pool

def Pool.release (index : Nat) (pool : Pool Task) : Pool Task :=
  match pool.workers[index]? with
  | some .finished => { pool.setWorker index .ready with busyThreads := fetchSub pool.busyThreads }
  | _ => pool

inductive Label (Task : Type) where
  | submit (task : Task)
  | beginShutdown
  | notifyOne (worker : Nat)
  | notifyAll
  | wake (worker : Nat)
  | take (worker : Nat)
  | execute (worker : Nat) (threw : Bool)
  | release (worker : Nat)

def step (pool : Pool Task) : Label Task → Pool Task
  | .submit task => (pool.submit task).2
  | .beginShutdown => pool.beginShutdown
  | .notifyOne worker => pool.notifyOne worker
  | .notifyAll => pool.notifyAll
  | .wake worker => pool.wake worker
  | .take worker => pool.take worker
  | .execute worker threw => pool.execute worker threw
  | .release worker => pool.release worker

inductive Transition (pool : Pool Task) : Pool Task → Prop
  | idle : Transition pool pool
  | submit (task : Task) (running : pool.stopping = false) (room : pool.tasks.length < pool.queueCapacity) :
      Transition pool { pool with
        tasks := pool.tasks ++ [task]
        queueHighWater := max pool.queueHighWater (pool.tasks ++ [task]).length
        notifyOnes := pool.notifyOnes + 1
        accepted := pool.accepted ++ [task] }
  | beginShutdown : Transition pool pool.beginShutdown
  | unheard (ones : Nat) (nobody : ∀ thread ∈ pool.workers, thread ≠ .waiting) :
      Transition pool { pool with notifyOnes := ones }
  | wake (index ones : Nat) (waits : pool.workers[index]? = some .waiting) :
      Transition pool { pool.setWorker index .ready with notifyOnes := ones }
  | wakeAll (alls : Nat) : Transition pool { pool with notifyAlls := alls, workers := pool.workers.map Thread.woken }
  | wait (index : Nat) (ready : pool.workers[index]? = some .ready) (running : pool.stopping = false)
      (empty : pool.tasks = []) : Transition pool (pool.setWorker index .waiting)
  | leave (index : Nat) (ready : pool.workers[index]? = some .ready) (stopping : pool.stopping = true)
      (empty : pool.tasks = []) : Transition pool (pool.setWorker index .exited)
  | take (index : Nat) (ready : pool.workers[index]? = some .ready) (task : Task) (rest : List Task)
      (queued : pool.tasks = task :: rest) :
      Transition pool { pool.setWorker index (.running pool.taken.length task) with
        tasks := rest
        taken := pool.taken ++ [task]
        busyThreads := pool.busyThreads + 1 }
  | execute (index ticket : Nat) (task : Task) (threw : Bool)
      (runs : pool.workers[index]? = some (.running ticket task)) :
      Transition pool { pool.setWorker index .finished with executed := pool.executed ++ [⟨ticket, task, threw⟩] }
  | release (index : Nat) (ended : pool.workers[index]? = some .finished) :
      Transition pool { pool.setWorker index .ready with busyThreads := fetchSub pool.busyThreads }

theorem wake_transition (pool : Pool Task) (index : Nat) : Transition pool (pool.wake index) := by
  unfold Pool.wake
  split
  next waits => exact .wake index pool.notifyOnes waits
  next => exact .idle

theorem findIdx_waiting (workers : List (Thread Task)) :
    workers[workers.findIdx Thread.isWaiting]? = some .waiting ∨ ∀ thread ∈ workers, thread ≠ .waiting := by
  by_cases some : ∃ thread ∈ workers, Thread.isWaiting thread = true
  · left
    have inside := List.findIdx_lt_length.mpr some
    have found := List.findIdx_getElem (p := Thread.isWaiting) (w := inside)
    rw [List.getElem?_eq_getElem inside]
    generalize workers[workers.findIdx Thread.isWaiting] = thread at found
    cases thread with
    | waiting => rfl
    | _ => cases found
  · right
    rintro thread member rfl
    exact some ⟨_, member, rfl⟩

theorem notifyOne_transition (pool : Pool Task) (index : Nat) : Transition pool (pool.notifyOne index) := by
  unfold Pool.notifyOne
  split
  · exact .idle
  · dsimp only
    split
    next waits =>
      simp only [Pool.wake, waits]
      exact .wake index (pool.notifyOnes - 1) waits
    next =>
      rcases findIdx_waiting pool.workers with waits | nobody
      · simp only [Pool.wake, waits]
        exact .wake _ (pool.notifyOnes - 1) waits
      · have still : Pool.wake (pool.workers.findIdx Thread.isWaiting)
            { pool with notifyOnes := pool.notifyOnes - 1 } = { pool with notifyOnes := pool.notifyOnes - 1 } := by
          unfold Pool.wake
          split
          next waits => exact absurd rfl (nobody _ (List.mem_of_getElem? waits))
          next => rfl
        rw [still]
        exact .unheard (pool.notifyOnes - 1) nobody

theorem take_transition (pool : Pool Task) (index : Nat) : Transition pool (pool.take index) := by
  unfold Pool.take
  split
  next ready =>
    split
    next called =>
      split
      next done =>
        rw [Bool.and_eq_true_iff, List.isEmpty_iff] at done
        exact .leave index ready done.1 done.2
      next =>
        split
        next => exact .idle
        next task rest queued => exact .take index ready task rest queued
    next idle =>
      rw [Bool.or_eq_true, not_or, Bool.not_eq_true, Bool.not_eq_true, Bool.not_eq_false', List.isEmpty_iff] at idle
      exact .wait index ready idle.1 idle.2
  next => exact .idle

theorem step_transition (pool : Pool Task) (label : Label Task) : Transition pool (step pool label) := by
  cases label with
  | submit task =>
    simp only [step, Pool.submit]
    split
    · exact .idle
    next open' =>
      rw [Bool.or_eq_true, not_or, Bool.not_eq_true, decide_eq_true_eq, Nat.not_le] at open'
      exact .submit task open'.1 open'.2
  | beginShutdown => exact .beginShutdown
  | notifyOne worker => exact notifyOne_transition pool worker
  | notifyAll =>
    simp only [step, Pool.notifyAll]
    split
    · exact .idle
    · exact .wakeAll (pool.notifyAlls - 1)
  | wake worker => exact wake_transition pool worker
  | take worker => exact take_transition pool worker
  | execute worker threw =>
    simp only [step, Pool.execute]
    split
    next ticket task runs => exact .execute worker ticket task threw runs
    next => exact .idle
  | release worker =>
    simp only [step, Pool.release]
    split
    next ended => exact .release worker ended
    next => exact .idle

/-- The queue is bounded, and with what was taken from it it is what was accepted, in order. -/
structure Queued (queueCapacity : Nat) (pool : Pool Task) : Prop where
  capacity : pool.queueCapacity = queueCapacity
  length : pool.tasks.length ≤ pool.queueHighWater
  highWater : pool.queueHighWater ≤ queueCapacity
  order : pool.taken ++ pool.tasks = pool.accepted

theorem transition_queued {queueCapacity : Nat} {before after : Pool Task} (transition : Transition before after)
    (queued : Queued queueCapacity before) : Queued queueCapacity after := by
  obtain ⟨capacity, length, highWater, order⟩ := queued
  cases transition with
  | submit task running room =>
    rw [capacity] at room
    refine ⟨capacity, Nat.le_max_right _ _, ?_, ?_⟩
    · simp only [List.length_append, List.length_singleton]
      omega
    · rw [← List.append_assoc, order]
  | take index ready task rest taken =>
    refine ⟨capacity, ?_, highWater, ?_⟩
    · rw [taken, List.length_cons] at length
      exact Nat.le_of_succ_le length
    · show before.taken ++ [task] ++ rest = before.accepted
      rw [List.append_assoc, List.singleton_append, ← taken, order]
  | _ => exact ⟨capacity, length, highWater, order⟩

def Thread.isBusy : Thread Task → Bool
  | .running _ _ | .finished => true
  | .ready | .waiting | .exited => false

def Thread.holds (ticket : Nat) : Thread Task → Bool
  | .running own _ => own == ticket
  | _ => false

def uses (ticket : Nat) (pool : Pool Task) : Nat :=
  pool.executed.countP (·.ticket == ticket) + pool.workers.countP (Thread.holds ticket)

structure Staffed (workerCount : Nat) (pool : Pool Task) : Prop where
  count : pool.workers.length = workerCount
  busy : pool.busyThreads = pool.workers.countP Thread.isBusy
  once : ∀ ticket, uses ticket pool = if ticket < pool.taken.length then 1 else 0
  holding : ∀ thread ∈ pool.workers, ∀ ticket task, thread = .running ticket task → pool.taken[ticket]? = some task
  ran : ∀ execution ∈ pool.executed, pool.taken[execution.ticket]? = some execution.task

theorem Staffed.populated {workerCount : Nat} {pool : Pool Task} (staffed : Staffed workerCount pool)
    (positive : 0 < workerCount) : pool.workers ≠ [] := by
  intro none
  have count := staffed.count
  rw [none] at count
  cases count
  cases positive

theorem Staffed.idle {workerCount : Nat} {before after : Pool Task} (staffed : Staffed workerCount before)
    (index : Nat) (old new : Thread Task) (found : before.workers[index]? = some old)
    (workers : after.workers = before.workers.set index new) (quiet : old.isBusy = false) (quiet' : new.isBusy = false)
    (busy : after.busyThreads = before.busyThreads) (taken : after.taken = before.taken)
    (executed : after.executed = before.executed) : Staffed workerCount after := by
  have unheld (thread : Thread Task) (ticket : Nat) (resting : thread.isBusy = false) :
      thread.holds ticket = false := by
    cases thread with
    | running own task => cases resting
    | _ => rfl
  refine ⟨?_, ?_, ?_, ?_, ?_⟩
  · rw [workers, List.length_set, staffed.count]
  · rw [busy, staffed.busy, workers, countP_set_same _ index old new _ found (by rw [quiet, quiet'])]
  · intro ticket
    have alike : new.holds ticket = old.holds ticket := by rw [unheld new ticket quiet', unheld old ticket quiet]
    have same : uses ticket after = uses ticket before := by
      unfold uses
      rw [executed, workers, countP_set_same _ index old new _ found alike]
    rw [same, staffed.once, taken]
  · rw [workers, taken]
    refine forall_mem_set staffed.holding ?_
    rintro ticket task rfl
    cases quiet'
  · rw [executed, taken]
    exact staffed.ran

theorem Staffed.take {workerCount : Nat} {pool : Pool Task} (staffed : Staffed workerCount pool) (index : Nat)
    (ready : pool.workers[index]? = some .ready) (task : Task) (rest : List Task) :
    Staffed workerCount { pool.setWorker index (.running pool.taken.length task) with
      tasks := rest
      taken := pool.taken ++ [task]
      busyThreads := pool.busyThreads + 1 } := by
  refine ⟨?_, ?_, ?_, ?_, ?_⟩
  · exact (List.length_set).trans staffed.count
  · have moved := countP_set pool.workers index .ready (.running pool.taken.length task) Thread.isBusy ready
    simp only [Thread.isBusy, Bool.false_eq_true, if_false, if_true] at moved
    show pool.busyThreads + 1 = (pool.workers.set index _).countP Thread.isBusy
    rw [staffed.busy]
    omega
  · intro ticket
    have moved := countP_set pool.workers index .ready (.running pool.taken.length task) (Thread.holds ticket) ready
    have once := staffed.once ticket
    simp only [Thread.holds, Bool.false_eq_true, if_false, beq_iff_eq] at moved
    simp only [uses, Pool.setWorker, List.length_append, List.length_singleton] at once ⊢
    split at moved
    · split at once
      · omega
      · rw [if_pos (by omega)]
        omega
    · split at once
      · rw [if_pos (by omega)]
        omega
      · rw [if_neg (by omega)]
        omega
  · have kept (ticket : Nat) (other : Task) (found : pool.taken[ticket]? = some other) :
        (pool.taken ++ [task])[ticket]? = some other := by
      rw [List.getElem?_append_left (List.getElem?_eq_some_iff.mp found).1]
      exact found
    refine forall_mem_set (fun thread member ticket other same => kept ticket other (staffed.holding thread member ticket other same)) ?_
    rintro ticket other ⟨⟩
    simp
  · intro execution member
    have found := staffed.ran execution member
    show (pool.taken ++ [task])[execution.ticket]? = some execution.task
    rw [List.getElem?_append_left (List.getElem?_eq_some_iff.mp found).1]
    exact found

theorem Staffed.execute {workerCount : Nat} {pool : Pool Task} (staffed : Staffed workerCount pool)
    (index ticket : Nat) (task : Task) (threw : Bool) (runs : pool.workers[index]? = some (.running ticket task)) :
    Staffed workerCount { pool.setWorker index .finished with executed := pool.executed ++ [⟨ticket, task, threw⟩] } := by
  refine ⟨?_, ?_, ?_, ?_, ?_⟩
  · exact (List.length_set).trans staffed.count
  · show pool.busyThreads = (pool.workers.set index .finished).countP Thread.isBusy
    rw [staffed.busy, countP_set_same pool.workers index _ .finished _ runs rfl]
  · intro other
    have moved := countP_set pool.workers index _ .finished (Thread.holds other) runs
    have once := staffed.once other
    simp only [Thread.holds, Bool.false_eq_true, if_false, beq_iff_eq] at moved
    show (pool.executed ++ [_]).countP _ + (pool.workers.set index .finished).countP (Thread.holds other) =
      if other < pool.taken.length then 1 else 0
    rw [← once]
    simp only [uses, List.countP_append, List.countP_singleton, beq_iff_eq]
    omega
  · exact forall_mem_set staffed.holding nofun
  · intro execution member
    rcases List.mem_append.mp member with old | new
    · exact staffed.ran execution old
    · rw [List.mem_singleton.mp new]
      exact staffed.holding _ (List.mem_of_getElem? runs) ticket task rfl

theorem Staffed.release {workerCount : Nat} {pool : Pool Task} (staffed : Staffed workerCount pool) (index : Nat)
    (ended : pool.workers[index]? = some .finished) :
    Staffed workerCount { pool.setWorker index .ready with busyThreads := fetchSub pool.busyThreads } := by
  refine ⟨?_, ?_, ?_, ?_, staffed.ran⟩
  · exact (List.length_set).trans staffed.count
  · have moved := countP_set pool.workers index .finished .ready Thread.isBusy ended
    simp only [Thread.isBusy, Bool.false_eq_true, if_false, if_true] at moved
    show fetchSub pool.busyThreads = (pool.workers.set index .ready).countP Thread.isBusy
    rw [staffed.busy, fetchSub, if_neg (by omega)]
    omega
  · intro ticket
    have same := countP_set_same pool.workers index .finished .ready (Thread.holds ticket) ended rfl
    have once := staffed.once ticket
    simp only [uses, Pool.setWorker, same] at once ⊢
    exact once
  · exact forall_mem_set staffed.holding nofun

theorem Staffed.wakeAll {workerCount : Nat} {pool : Pool Task} (staffed : Staffed workerCount pool) (alls : Nat) :
    Staffed workerCount { pool with notifyAlls := alls, workers := pool.workers.map Thread.woken } := by
  have busy (thread : Thread Task) : thread.woken.isBusy = thread.isBusy := by
    cases thread with
    | _ => rfl
  have holds (ticket : Nat) (thread : Thread Task) : thread.woken.holds ticket = thread.holds ticket := by
    cases thread with
    | _ => rfl
  refine ⟨?_, ?_, ?_, ?_, staffed.ran⟩
  · exact (List.length_map _).trans staffed.count
  · show pool.busyThreads = (pool.workers.map Thread.woken).countP Thread.isBusy
    rw [staffed.busy, List.countP_map]
    simp only [Function.comp_def, busy]
  · intro ticket
    show pool.executed.countP _ + (pool.workers.map Thread.woken).countP (Thread.holds ticket) =
      if ticket < pool.taken.length then 1 else 0
    rw [List.countP_map, ← staffed.once ticket]
    simp only [Function.comp_def, holds, uses]
  · intro thread member ticket task same
    obtain ⟨earlier, present, woken⟩ := List.mem_map.mp member
    apply staffed.holding earlier present ticket task
    cases earlier with
    | running own other => exact woken.trans same
    | waiting => cases woken.trans same
    | ready => cases woken.trans same
    | finished => cases woken.trans same
    | exited => cases woken.trans same

theorem transition_staffed {workerCount : Nat} {before after : Pool Task} (transition : Transition before after)
    (staffed : Staffed workerCount before) : Staffed workerCount after := by
  cases transition with
  | wake index ones waits => exact staffed.idle index .waiting .ready waits rfl rfl rfl rfl rfl rfl
  | wait index ready running empty => exact staffed.idle index .ready .waiting ready rfl rfl rfl rfl rfl rfl
  | leave index ready stopping empty => exact staffed.idle index .ready .exited ready rfl rfl rfl rfl rfl rfl
  | wakeAll alls => exact staffed.wakeAll alls
  | take index ready task rest queued => exact staffed.take index ready task rest
  | execute index ticket task threw runs => exact staffed.execute index ticket task threw runs
  | release index ended => exact staffed.release index ended
  | _ => exact ⟨staffed.count, staffed.busy, staffed.once, staffed.holding, staffed.ran⟩

def Thread.isGone : Thread Task → Bool
  | .waiting | .exited => true
  | .ready | .running _ _ | .finished => false

/-- A worker leaves when nothing is left to do, and nobody sleeps through a task. -/
structure Awake (pool : Pool Task) : Prop where
  exits : .exited ∈ pool.workers → pool.stopping = true ∧ pool.tasks = []
  wakes : pool.tasks ≠ [] → (∀ thread ∈ pool.workers, thread.isGone = true) → 0 < pool.notifyOnes

theorem Awake.of_active {before after : Pool Task} (awake : Awake before) (index : Nat) (thread : Thread Task)
    (inside : index < before.workers.length) (active : thread.isGone = false)
    (workers : after.workers = before.workers.set index thread) (stopping : after.stopping = before.stopping)
    (tasks : before.tasks = [] → after.tasks = []) : Awake after := by
  have member : thread ∈ after.workers := by
    rw [workers]
    exact List.mem_set inside thread
  refine ⟨fun gone => ?_, fun _ all => ?_⟩
  · rw [workers] at gone
    rcases List.mem_or_eq_of_mem_set gone with old | rfl
    · obtain ⟨stops, empty⟩ := awake.exits old
      exact ⟨stopping.trans stops, tasks empty⟩
    · cases active
  · cases active.symm.trans (all thread member)

theorem transition_awake {before after : Pool Task} (transition : Transition before after)
    (populated : before.workers ≠ []) (awake : Awake before) : Awake after := by
  have nonempty (nobody : ∀ thread ∈ before.workers, thread = .exited) : before.tasks = [] := by
    obtain ⟨thread, member⟩ := List.exists_mem_of_ne_nil _ populated
    exact (awake.exits (nobody thread member ▸ member)).2
  cases transition with
  | idle => exact awake
  | submit task running room =>
    refine ⟨fun gone => ?_, fun _ _ => Nat.succ_pos _⟩
    cases running.symm.trans (awake.exits gone).1
  | beginShutdown => exact ⟨fun gone => ⟨rfl, (awake.exits gone).2⟩, awake.wakes⟩
  | unheard ones nobody =>
    refine ⟨awake.exits, fun some all => absurd (nonempty fun thread member => ?_) some⟩
    -- those that do not wait and are gone have left
    have gone := all thread member
    have awake' := nobody thread member
    cases thread with
    | exited => rfl
    | waiting => exact absurd rfl awake'
    | ready => cases gone
    | running ticket task => cases gone
    | finished => cases gone
  | wake index ones waits =>
    exact awake.of_active index .ready (List.getElem?_eq_some_iff.mp waits).1 rfl rfl rfl id
  | wakeAll alls =>
    refine ⟨fun gone => ?_, fun some all => absurd (nonempty fun thread member => ?_) some⟩
    · obtain ⟨thread, member, woken⟩ := List.mem_map.mp gone
      apply awake.exits
      cases thread with
      | exited => exact member
      | waiting => cases woken
      | ready => cases woken
      | running ticket task => cases woken
      | finished => cases woken
    · have gone := all thread.woken (List.mem_map_of_mem member)
      cases thread with
      | exited => rfl
      | waiting => cases gone
      | ready => cases gone
      | running ticket task => cases gone
      | finished => cases gone
  | wait index ready running empty =>
    refine ⟨fun gone => ?_, fun some => absurd empty some⟩
    rcases List.mem_or_eq_of_mem_set gone with old | same
    · exact awake.exits old
    · cases same
  | leave index ready stopping empty => exact ⟨fun _ => ⟨stopping, empty⟩, fun some => absurd empty some⟩
  | take index ready task rest queued =>
    refine awake.of_active index _ (List.getElem?_eq_some_iff.mp ready).1 rfl rfl rfl ?_
    intro empty
    cases empty.symm.trans queued
  | execute index ticket task threw runs =>
    exact awake.of_active index .finished (List.getElem?_eq_some_iff.mp runs).1 rfl rfl rfl id
  | release index ended =>
    exact awake.of_active index .ready (List.getElem?_eq_some_iff.mp ended).1 rfl rfl rfl id

theorem start_staffed (workerCount queueCapacity : Nat) :
    Staffed workerCount (start workerCount queueCapacity : Pool Task) := by
  refine ⟨List.length_replicate, ?_, ?_, ?_, nofun⟩
  · exact (List.countP_eq_zero.mpr fun thread member => by rw [List.eq_of_mem_replicate member]; nofun).symm
  · intro ticket
    show 0 + (List.replicate workerCount Thread.ready).countP (Thread.holds ticket) = if ticket < 0 then 1 else 0
    rw [if_neg (Nat.not_lt_zero _), Nat.zero_add]
    exact List.countP_eq_zero.mpr fun thread member => by rw [List.eq_of_mem_replicate member]; nofun
  · intro thread member ticket task same
    cases (List.eq_of_mem_replicate member).symm.trans same

theorem start_awake (workerCount queueCapacity : Nat) : Awake (start workerCount queueCapacity : Pool Task) where
  exits := by
    intro gone
    cases List.eq_of_mem_replicate gone
  wakes := fun some => absurd rfl some

theorem run_sound (workerCount queueCapacity : Nat) (positive : 0 < workerCount) (labels : List (Label Task)) :
    let pool := run step (start workerCount queueCapacity) labels
    Queued queueCapacity pool ∧ Staffed workerCount pool ∧ Awake pool := by
  refine run_invariant step
    (fun pool => Queued queueCapacity pool ∧ Staffed workerCount pool ∧ Awake pool) (fun _ => True) ?_
    (start workerCount queueCapacity) labels (fun _ _ => trivial)
    ⟨⟨rfl, Nat.le_refl _, Nat.zero_le _, rfl⟩, start_staffed _ _, start_awake _ _⟩
  rintro pool label - ⟨queued, staffed, awake⟩
  have transition := step_transition pool label
  have populated := staffed.populated positive
  exact ⟨transition_queued transition queued, transition_staffed transition staffed,
    transition_awake transition populated awake⟩

theorem transition_stopping {before after : Pool Task} (transition : Transition before after)
    (stops : before.stopping = true) : after.stopping = true := by
  cases transition with
  | beginShutdown => rfl
  | _ => exact stops

theorem run_stopping (pool : Pool Task) (labels : List (Label Task))
    (stops : pool.stopping = true ∨ .beginShutdown ∈ labels) : (run step pool labels).stopping = true := by
  induction labels generalizing pool with
  | nil => exact stops.resolve_right nofun
  | cons label rest ih =>
    rw [run_cons]
    apply ih
    rcases stops with already | asked
    · exact .inl (transition_stopping (step_transition pool label) already)
    · rcases List.mem_cons.mp asked with rfl | later
      · exact .inl rfl
      · exact .inr later

/-- A ticket is used for one run at most. -/
theorem count_ticket (pool : Pool Task) (ticket : Nat) :
    (pool.executed.map Execution.ticket).count ticket = pool.executed.countP (·.ticket == ticket) := by
  rw [List.count, List.countP_map]
  rfl

/-- When all workers have left, every task that was taken has run once. -/
theorem Staffed.settled {workerCount : Nat} {pool : Pool Task} (staffed : Staffed workerCount pool)
    (left : ∀ thread ∈ pool.workers, thread = .exited) :
    (pool.executed.map Execution.ticket).Perm (List.range pool.taken.length) ∧ pool.busyThreads = 0 := by
  constructor
  · rw [List.perm_iff_count]
    intro ticket
    have once := staffed.once ticket
    have unheld : pool.workers.countP (Thread.holds ticket) = 0 :=
      List.countP_eq_zero.mpr fun thread member => by rw [left thread member]; nofun
    rw [uses, unheld, Nat.add_zero] at once
    rw [count_ticket, once, List.nodup_range.count]
    simp only [List.mem_range]
  · rw [staffed.busy]
    exact List.countP_eq_zero.mpr fun thread member => by rw [left thread member]; nofun

/-- In every run: the queue and its high-water mark are bounded; what was taken and what is queued is
what was accepted, in order; only tasks that were taken run, each once; after `begin_shutdown` no
`submit` succeeds; a worker leaves when the pool stops and the queue is empty, and once all have left
every accepted task has run once, whether it threw or not, and nobody is busy; and no task waits
while everybody sleeps and no notification is to come. -/
theorem pool_safe (workerCount queueCapacity : Nat) (positive : 0 < workerCount) (labels : List (Label Task)) :
    let pool := run step (start workerCount queueCapacity) labels
    (pool.tasks.length ≤ pool.queueHighWater ∧ pool.queueHighWater ≤ queueCapacity) ∧
      pool.taken ++ pool.tasks = pool.accepted ∧
      ((∀ execution ∈ pool.executed, pool.taken[execution.ticket]? = some execution.task) ∧
        (pool.executed.map Execution.ticket).Nodup) ∧
      (.beginShutdown ∈ labels → ∀ task, (pool.submit task).1 = false) ∧
      (.exited ∈ pool.workers → pool.stopping = true ∧ pool.tasks = []) ∧
      ((∀ thread ∈ pool.workers, thread = .exited) → pool.taken = pool.accepted ∧
        (pool.executed.map Execution.ticket).Perm (List.range pool.accepted.length) ∧ pool.busyThreads = 0) ∧
      pool.busyThreads ≤ workerCount ∧
      (pool.tasks ≠ [] → (∀ thread ∈ pool.workers, thread = .waiting ∨ thread = .exited) → 0 < pool.notifyOnes) := by
  intro pool
  obtain ⟨queued, staffed, awake⟩ : Queued queueCapacity pool ∧ Staffed workerCount pool ∧ Awake pool :=
    run_sound workerCount queueCapacity positive labels
  refine ⟨⟨queued.length, queued.highWater⟩, queued.order, ⟨staffed.ran, ?_⟩, ?_, awake.exits, ?_, ?_, ?_⟩
  · rw [List.nodup_iff_count]
    intro ticket
    have once := staffed.once ticket
    rw [count_ticket]
    unfold uses at once
    split at once
    · omega
    · omega
  · intro asked task
    have stopping := run_stopping (start workerCount queueCapacity) labels (.inr asked)
    show (Pool.submit task (run step (start workerCount queueCapacity) labels)).1 = false
    simp only [Pool.submit, stopping, Bool.true_or, if_true]
  · intro left
    have populated := staffed.populated positive
    obtain ⟨thread, member⟩ := List.exists_mem_of_ne_nil _ populated
    have all : pool.taken = pool.accepted := by
      have order := queued.order
      rw [(awake.exits (left thread member ▸ member)).2, List.append_nil] at order
      exact order
    rw [← all]
    exact ⟨rfl, staffed.settled left⟩
  · calc
      pool.busyThreads = pool.workers.countP Thread.isBusy := staffed.busy
      _ ≤ pool.workers.length := List.countP_le_length
      _ = workerCount := staffed.count
  · intro some asleep
    apply awake.wakes some
    intro thread member
    rcases asleep thread member with rfl | rfl
    · rfl
    · rfl

def twoTasks : List (Label Nat) :=
  [.take 0, .submit 10, .submit 11, .beginShutdown, .submit 12, .notifyOne 0, .take 0, .execute 0 true, .release 0,
    .take 0, .execute 0 false, .release 0, .take 0]

theorem pool_safe_two_tasks :
    (run step (start 1 2) twoTasks).workers = [.exited] ∧
      (run step (start 1 2) twoTasks).taken = [10, 11] ∧
      ((run step (start 1 2) twoTasks).executed.map Execution.ticket).Perm
        (List.range (run step (start 1 2) twoTasks).accepted.length) :=
  ⟨by decide, by decide, ((pool_safe 1 2 (by decide) twoTasks).2.2.2.2.2.1 (by decide)).2.1⟩

end FleetGateway.Network.ThreadPool
