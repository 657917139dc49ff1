import FleetGateway.Gateway.Service

/-! Rate limiting from end to end: what one bucket admits bounds what an address is served. -/

namespace FleetGateway.Gateway.Limiting
open Library Library.Binary64 Library.ByteStore Library.Run Http.Parser Http.Response Network Security Security.Bucket
  Routes Server Transitions Tasks Answers Service
open Security.Limiter hiding start step Transition step_transition

def callersOf (ip : Bytes) (allowed : Bool) (history : List Event) : List Nat :=
  (about ip history).filterMap fun event => match event with
    | .created .. => none
    | .consumed caller _ _ result => if result = allowed then some caller else none

theorem length_callersOf (ip : Bytes) (allowed : Bool) (history : List Event) :
    (callersOf ip allowed history).length = (results ip history).count allowed := by
  unfold callersOf results
  induction about ip history with
  | nil => rfl
  | cons event rest ih =>
    cases event with
    | created made time => exact ih
    | consumed caller used time result =>
      rw [List.filterMap_cons, List.filterMap_cons]
      by_cases same : result = allowed
      · subst same
        simp only [if_true, List.length_cons, List.count_cons_self, ih]
      · simp only [if_neg same, List.count_cons_of_ne same, ih]

theorem callersOf_append (ip : Bytes) (allowed : Bool) (front back : List Event) :
    callersOf ip allowed (front ++ back) = callersOf ip allowed front ++ callersOf ip allowed back := by
  rw [callersOf, about_append, List.filterMap_append, ← callersOf, ← callersOf]

theorem mem_callersOf (caller : Nat) (ip : Bytes) (time : Time) (allowed : Bool) :
    caller ∈ callersOf ip allowed [.consumed caller ip time allowed] := by
  rw [callersOf, about_own ip _ rfl]
  simp

inductive Moves (number : Nat) (limiter after : RateLimiter) : Prop
  | stays (callers : after.callers = limiter.callers) (history : after.history = limiter.history)
  | goes (ip : Bytes) (stage : Stage) (more : List Event) (from' : (limiter.callers number).ip = some ip)
      (for' : stage.ip = some ip) (callers : after.callers = Function.update limiter.callers number stage)
      (history : after.history = limiter.history ++ more)
  | returns (ip : Bytes) (time : Time) (allowed : Bool) (from' : (limiter.callers number).ip = some ip)
      (callers : after.callers = Function.update limiter.callers number (.returned allowed))
      (history : after.history = limiter.history ++ [.consumed number ip time allowed])

theorem action_moves (limiter : RateLimiter) (number : Nat) (action : Action)
    (own : action = .lookup number ∨ action = .insert number ∨ action = .consume number) :
    Moves number limiter (Limiter.step limiter action) := by
  rcases own with rfl | rfl | rfl
  · simp only [Limiter.step, RateLimiter.lookup]
    split
    next ip looking =>
      have ip' : (limiter.callers number).ip = some ip := by rw [looking]; rfl
      split
      · exact .goes ip _ [] ip' rfl rfl (List.append_nil _).symm
      · exact .goes ip _ [] ip' rfl rfl (List.append_nil _).symm
    next => exact .stays rfl rfl
  · simp only [Limiter.step, RateLimiter.insert]
    split
    next ip missed =>
      have ip' : (limiter.callers number).ip = some ip := by rw [missed]; rfl
      split
      · exact .goes ip _ [] ip' rfl rfl (List.append_nil _).symm
      · exact .goes ip _ _ ip' rfl rfl rfl
    next => exact .stays rfl rfl
  · simp only [Limiter.step, RateLimiter.consume]
    split
    next ip entry holds =>
      have ip' : (limiter.callers number).ip = some ip := by rw [holds]; rfl
      split
      · exact .stays rfl rfl
      · exact .returns ip _ _ ip' rfl rfl
    next => exact .stays rfl rfl

structure Calls (server : TCPServer) (number : Nat) : Prop where
  task : ∃ ticket task, server.pool.taken[number]? = some ticket ∧ server.taskOf ticket = some task ∧
    (∀ ip, (server.limiter.callers number).ip = some ip → ip = task.clientIp) ∧
    ∀ allowed, server.limiter.callers number = .returned allowed →
      number ∈ callersOf task.clientIp allowed server.limiter.history

def Metered (server : TCPServer) : Prop := ∀ number, server.limiter.callers number ≠ .outside → Calls server number

theorem taken_keeps {server after : TCPServer} (transition : Transition server after) {number : Nat} {ticket : Ticket}
    {task : EventLoop.Task} (taken : server.pool.taken[number]? = some ticket)
    (found : server.taskOf ticket = some task) :
    after.pool.taken[number]? = some ticket ∧
      ∃ later, after.taskOf ticket = some later ∧ later.clientIp = task.clientIp := by
  constructor
  · obtain ⟨labels, pool⟩ := pool_runs transition
    obtain ⟨rest, grows⟩ := run_taken server.pool labels
    rw [pool, ← grows]
    exact (List.getElem?_append_left (List.getElem?_eq_some_iff.mp taken).1).trans taken
  · obtain ⟨progress, later, _⟩ := transition_keeps transition ticket task found
    exact ⟨_, later, rfl⟩

theorem Calls.keep {server after : TCPServer} {number : Nat} (calls : Calls server number)
    (transition : Transition server after)
    (callers : after.limiter.callers number = server.limiter.callers number)
    (history : ∃ more, after.limiter.history = server.limiter.history ++ more) : Calls after number := by
  obtain ⟨ticket, task, taken, found, own, recorded⟩ := calls.task
  obtain ⟨taken', later, found', same⟩ := taken_keeps transition taken found
  obtain ⟨more, history⟩ := history
  refine ⟨ticket, later, taken', found', ?_, ?_⟩
  · rw [callers, same]
    exact own
  · rw [callers, same, history]
    intro allowed returned
    rw [callersOf_append]
    exact List.mem_append_left _ (recorded allowed returned)

theorem Metered.idle {server after : TCPServer} (metered : Metered server) (transition : Transition server after)
    (callers : after.limiter.callers = server.limiter.callers)
    (history : after.limiter.history = server.limiter.history) : Metered after := by
  intro number called
  rw [callers] at called
  exact (metered number called).keep transition (congrFun callers number) ⟨[], by rw [history, List.append_nil]⟩

theorem Metered.move {server after : TCPServer} (metered : Metered server) (transition : Transition server after)
    {number : Nat} {ticket : Ticket} {task : EventLoop.Task} (stage : Stage)
    (taken : server.pool.taken[number]? = some ticket) (found : server.taskOf ticket = some task)
    (callers : after.limiter.callers = Function.update server.limiter.callers number stage)
    (history : ∃ more, after.limiter.history = server.limiter.history ++ more)
    (own : ∀ ip, stage.ip = some ip → ip = task.clientIp)
    (recorded : ∀ allowed, stage = .returned allowed →
      number ∈ callersOf task.clientIp allowed after.limiter.history) : Metered after := by
  intro other called
  by_cases here : other = number
  · subst here
    obtain ⟨taken', later, found', same⟩ := taken_keeps transition taken found
    have stands : after.limiter.callers other = stage := by rw [callers, Function.update_self]
    refine ⟨ticket, later, taken', found', ?_, ?_⟩
    · rw [stands, same]
      exact own
    · rw [stands, same]
      exact recorded
  · have elsewhere : after.limiter.callers other = server.limiter.callers other := by
      rw [callers, Function.update_of_ne here]
    rw [elsewhere] at called
    exact (metered other called).keep transition elsewhere history

theorem transition_metered {setup : Setup} {server after : TCPServer} (transition : Transition server after)
    (registered : Registered setup server) (metered : Metered server) : Metered after := by
  have whole := transition
  cases transition with
  | clock now =>
    have same : (server.limiter.advance now).callers = server.limiter.callers ∧
        (server.limiter.advance now).history = server.limiter.history := by
      unfold RateLimiter.advance
      split
      · exact ⟨rfl, rfl⟩
      · exact ⟨rfl, rfl⟩
    exact metered.idle whole same.1 same.2
  | check thread number ticket task runs found outside =>
    have begins : server.limiter.check number task.clientIp = server.limiter.move number (.looking task.clientIp) := by
      simp only [RateLimiter.check, outside]
    apply metered.move whole (.looking task.clientIp) (registered.taken runs) found
    · dsimp only
      rw [begins]
      rfl
    · refine ⟨[], ?_⟩
      dsimp only
      rw [begins, List.append_nil]
      rfl
    · rintro ip ⟨⟩
      rfl
    · intro allowed same
      cases same
  | limit thread number ticket action runs own =>
    have taken := registered.taken runs
    cases action_moves server.limiter number action own with
    | stays callers history => exact metered.idle whole callers history
    | goes ip stage more from' for' callers history =>
      obtain ⟨_, task, taken', found, address, _⟩ := (metered number (by intro none; rw [none] at from'; cases from')).task
      cases taken.symm.trans taken'
      apply metered.move whole stage taken found callers ⟨more, history⟩
      · intro other same
        cases for'.symm.trans same
        exact address ip from'
      · rintro allowed rfl
        cases for'
    | returns ip time allowed from' callers history =>
      obtain ⟨_, task, taken', found, address, _⟩ := (metered number (by intro none; rw [none] at from'; cases from')).task
      cases taken.symm.trans taken'
      obtain rfl := address ip from'
      apply metered.move whole (.returned allowed) taken found callers ⟨_, history⟩
      · intro allowed same
        cases same
      · rintro other ⟨⟩
        dsimp only
        rw [history, callersOf_append]
        exact List.mem_append_right _ (mem_callersOf number _ time allowed)
  | _ => exact metered.idle whole rfl rfl

theorem start_metered (setup : Setup) : Metered (start setup) := fun _ called => absurd rfl called

theorem run_metered (setup : Setup) (labels : List Label) : Metered (run step (start setup) labels) := by
  have both := run_invariant step (fun server => Orderly setup server ∧ Metered server) (fun _ => True)
    (fun server label _ ⟨orderly, metered⟩ =>
      have transition := step_transition server label
      ⟨transition_orderly transition orderly, transition_metered transition orderly.registered metered⟩)
    (start setup) labels (fun _ _ => trivial) ⟨start_orderly setup, start_metered setup⟩
  exact both.2

/-- How many requests of an address were answered with this word of the limiter. -/
def answersTo (ip : Bytes) (allowed : Bool) (answers : List Answer) : Nat :=
  answers.countP fun answer => decide (answer.clientIp = ip) && answer.allowed == allowed

theorem number_injective {server : TCPServer} (answered : Answered server) (first second : Answer)
    (one : first ∈ server.answers) (other : second ∈ server.answers) (same : first.number = second.number) :
    first = second := by
  have taken := (answered.told first one).taken
  rw [same, (answered.told second other).taken] at taken
  exact List.inj_on_of_nodup_map answered.once one other (Option.some.inj taken).symm

theorem answersTo_le {setup : Setup} {server : TCPServer} (orderly : Orderly setup server) (metered : Metered server)
    (ip : Bytes) (allowed : Bool) :
    answersTo ip allowed server.answers ≤ (results ip server.limiter.history).count allowed := by
  have answered := orderly.answered
  set own := server.answers.filter fun answer => decide (answer.clientIp = ip) && answer.allowed == allowed
  have member (answer : Answer) (inside : answer ∈ own) :
      answer ∈ server.answers ∧ answer.clientIp = ip ∧ answer.allowed = allowed := by
    obtain ⟨present, chosen⟩ := List.mem_filter.mp inside
    rw [Bool.and_eq_true, decide_eq_true_eq, beq_iff_eq] at chosen
    exact ⟨present, chosen⟩
  have distinct : (own.map Answer.number).Nodup := by
    apply List.Nodup.map_on
    · intro first one second other
      exact number_injective answered first second (member first one).1 (member second other).1
    · exact (List.Nodup.of_map _ answered.once).filter _
  have recorded : own.map Answer.number ⊆ callersOf ip allowed server.limiter.history := by
    intro number inside
    obtain ⟨answer, chosen, rfl⟩ := List.mem_map.mp inside
    obtain ⟨present, rfl, rfl⟩ := member answer chosen
    have tells := answered.told answer present
    obtain ⟨ticket, task, taken, found, _, record⟩ :=
      (metered answer.number (by rw [tells.returned]; intro none; cases none)).task
    cases taken.symm.trans tells.taken
    obtain ⟨other, there, _, clientIp, _⟩ := tells.task
    cases found.symm.trans there
    rw [← clientIp]
    exact record _ tells.returned
  calc
    answersTo ip allowed server.answers = (own.map Answer.number).length := by
      rw [List.length_map, answersTo, List.countP_eq_length_filter]
    _ ≤ (callersOf ip allowed server.limiter.history).length := (distinct.subperm recorded).length_le
    _ = (results ip server.limiter.history).count allowed := length_callersOf ip allowed _

/-- In every run a request gets a 429 exactly when the limiter refused it, and one bucket of the configured
capacity and rate, called once for every request of the address that was answered, has admitted the others.
Without a refill, and with a capacity of at most 2^53, an address is served no more requests than the
capacity has whole permits. -/
theorem rate_limited (setup : Setup) (opens : setup.opened.result = .ok ()) (labels : List Label) (ip : Bytes) :
    let server := run step (start setup) labels
    let history := server.limiter.history
    (∀ answer ∈ server.answers, answer.response.statusCode = 429 ↔ answer.allowed = false) ∧
      (∀ allowed, answersTo ip allowed server.answers ≤ (results ip history).count allowed) ∧
      ((creations ip history).length ≤ 1 ∧ (creations ip history = [] → results ip history = []) ∧
        ∀ time ∈ creations ip history, results ip history = consumeAll (readings ip history)
          (Bucket.create setup.rateLimitCapacity setup.rateLimitRefillRate time)) ∧
      ((setup.rateLimitRefillRate == 0.0) = true → setup.rateLimitCapacity.isFinite = true →
        setup.rateLimitCapacity ≤ largest → answersTo ip true server.answers ≤ floor setup.rateLimitCapacity) := by
  intro server history
  have orderly : Orderly setup server := run_orderly setup labels
  have stored : Stored setup server := run_stored setup opens labels
  have bound := answersTo_le orderly (run_metered setup labels) ip
  obtain ⟨actions, limiter⟩ := orderly.composed.limiter
  have linear := run_linear setup.rateLimitCapacity setup.rateLimitRefillRate setup.clock actions
  rw [← limiter] at linear
  refine ⟨stored.serial.limited, bound, ?_, ?_⟩
  · cases linear.replays ip with
    | absent missing nothing =>
      have none : creations ip history = [] := by rw [creations, nothing]; rfl
      rw [none, results, nothing]
      exact ⟨Nat.zero_le 1, fun _ => rfl, fun _ member => absurd member List.not_mem_nil⟩
    | kept entry time found once here same =>
      rw [once]
      refine ⟨Nat.le_refl 1, fun empty => absurd empty (List.cons_ne_nil _ _), ?_⟩
      rintro other member
      rw [List.mem_singleton.mp member]
      exact same
  · intro rate finite small
    refine (bound true).trans ?_
    cases linear.replays ip with
    | absent missing nothing =>
      rw [results, nothing]
      exact Nat.zero_le _
    | kept entry time found once here same =>
      rw [same, create_successes _ _ time _ rate finite small]
      exact Nat.min_le_right _ _

theorem rate_limited_exchange :
    let server := run step (start small) exchange
    answersTo (text "10.0.0.1") false server.answers = 1 ∧ floor small.rateLimitCapacity = 1 ∧
      answersTo (text "10.0.0.1") true server.answers ≤ floor small.rateLimitCapacity :=
  ⟨by decide +kernel, by decide +kernel, (rate_limited small (by decide +kernel) exchange (text "10.0.0.1")).2.2.2
    (by decide +kernel) (by decide +kernel) (by decide +kernel)⟩

end FleetGateway.Gateway.Limiting
