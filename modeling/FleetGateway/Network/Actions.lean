import FleetGateway.Http.Fragmentation
import FleetGateway.Network.EventLoop
import Mathlib.Logic.Relation

/-! Every callback of the loop is a chain of small actions on the worker, so that what each
action preserves every callback preserves. -/

namespace FleetGateway.Network.Actions
open Library Library.ByteStore Library.Counting Http.Parser Http.Response Http.Fragmentation Monitoring.Counters EventLoop

def hearsData : List ReadOutcome → Bool
  | .interrupted :: rest => hearsData rest
  | .bytes data :: _ => !data.isEmpty
  | _ => false

theorem readLoop_silent (reads : List ReadOutcome) (connection : Connection) (silent : hearsData reads = false) :
    ∃ rest, readLoop reads connection = (.blocked, rest, connection) ∨
      readLoop reads connection = (.peerClosed, rest, { connection with peerClosed := true }) ∨
      readLoop reads connection = (.failed, rest, connection) := by
  induction reads with
  | nil => exact ⟨[], .inl rfl⟩
  | cons outcome rest ih =>
    cases outcome with
    | again => exact ⟨rest, .inl rfl⟩
    | interrupted => exact ih silent
    | failed => exact ⟨rest, .inr (.inr rfl)⟩
    | bytes data =>
      have empty : data = [] := by simpa [hearsData] using silent
      subst empty
      exact ⟨rest, .inr (.inl rfl)⟩

theorem readLoop_spec (reads rest : List ReadOutcome) (connection read : Connection) (ended : ReadEnd)
    (loop : readLoop reads connection = (ended, rest, read)) :
    read = { connection with
        parser := read.parser, inbound := read.inbound, peerClosed := read.peerClosed } ∧
      (ended = .refused ∨ ended = .complete → finished read.parser) := by
  induction reads generalizing connection with
  | nil =>
    cases loop
    exact ⟨rfl, nofun⟩
  | cons outcome reads ih =>
    cases outcome with
    | again =>
      cases loop
      exact ⟨rfl, nofun⟩
    | interrupted => exact ih connection loop
    | failed =>
      cases loop
      exact ⟨rfl, nofun⟩
    | bytes data =>
      unfold readLoop at loop
      split at loop
      · cases loop
        exact ⟨rfl, nofun⟩
      dsimp only at loop
      generalize fed : feed _ _ = result at loop
      obtain ⟨status, parser⟩ := result
      cases status with
      | error =>
        cases loop
        exact ⟨rfl, fun _ => feed_finished _ _ _ _ fed nofun⟩
      | complete =>
        cases loop
        exact ⟨rfl, fun _ => feed_finished _ _ _ _ fed nofun⟩
      | incomplete =>
        dsimp only at loop
        split at loop
        · cases loop
          exact ⟨rfl, nofun⟩
        · have later := ih _ loop
          exact later

/-- As `accept_clients` stored it: nothing was read, nothing is to be sent. -/
def Fresh (connection : Connection) : Prop :=
  connection =
    { fd := connection.fd, clientIp := connection.clientIp, generation := connection.generation,
      serial := connection.serial }

instance (connection : Connection) : Decidable (Fresh connection) :=
  inferInstanceAs (Decidable (_ = _))

/-- Which faults a callback may show: bytes are read although the parser has finished, a
request is counted and then lost, a response is appended without looking at the limit. -/
structure Permits where
  late : Bool := true
  lossy : Bool := true
  crowded : Bool := true

inductive Notice where
  | never
  | event
  | iteration
  deriving DecidableEq

/-- What a callback is at: the descriptor of its event, the completion in its hand, whether it
may begin to drain, and the faults it may show. -/
structure Context where
  target : Option Nat := none
  completion : Option Completion := none
  notice : Notice := .never
  permits : Permits := {}

structure Context.Reaches (context : Context) (worker : Worker) (fd : Nat) (connection : Connection) : Prop where
  live : worker.connections.lookup fd = some connection
  touched : context.target = some fd ∨ ¬Fresh connection

/-- A read loop on a connection. Unless the context allows it, bytes are read only while the
parser has not finished. -/
structure Context.Hears (context : Context) (worker : Worker) (fd : Nat) (connection read : Connection)
    (ended : ReadEnd) : Prop where
  reaches : context.Reaches worker fd connection
  heard : ∃ reads rest, readLoop reads connection = (ended, rest, read) ∧
    (context.permits.late = true ∨ ¬finished connection.parser ∨ hearsData reads = false)

def requested (fd : Nat) (read : Connection) (worker : Worker) : Worker :=
  Worker.put fd { read with requestInFlight := true } { worker.put fd read with
    metrics := worker.metrics.requestStarted worker.workerId }

inductive Action (context : Context) : Worker → Worker → Prop
  | close (worker : Worker) (fd : Nat) (connection : Connection)
      (live : worker.connections.lookup fd = some connection) : Action context worker (worker.closeClient fd)
  | watch (worker : Worker) (fd : Nat) (events : Events) : Action context worker (worker.watch fd events)
  | advance (worker : Worker) (fd : Nat) (connection : Connection) (offset : Nat)
      (reaches : context.Reaches worker fd connection) (onward : connection.outboundOffset ≤ offset)
      (within : offset - connection.outboundOffset ≤ connection.pendingBytes) :
      Action context worker (worker.advance fd connection offset)
  | rewind (worker : Worker) (fd : Nat) (connection : Connection)
      (reaches : context.Reaches worker fd connection) (done : connection.pendingBytes = 0) :
      Action context worker (worker.put fd { connection with outbound := [], outboundOffset := 0 })
  | hangUp (worker : Worker) (fd : Nat) (connection : Connection) (reaches : context.Reaches worker fd connection) :
      Action context worker (worker.put fd { connection with peerClosed := true })
  | read (worker : Worker) (fd : Nat) (connection read : Connection) (ended : ReadEnd)
      (hears : context.Hears worker fd connection read ended) : Action context worker (worker.put fd read)
  | countError (worker : Worker) : Action context worker { worker with metrics := worker.metrics.parseError }
  | refuse (worker : Worker) (fd : Nat) (connection read : Connection)
      (hears : context.Hears worker fd connection read .refused)
      (fits : read.pendingBytes + badRequest.toString.length ≤ maxOutboundBytes) :
      Action context worker (Worker.append fd .badRequest badRequest.toString read { worker.put fd read with
        metrics := worker.metrics.parseError })
  | request (worker : Worker) (fd : Nat) (connection read : Connection)
      (hears : context.Hears worker fd connection read .complete) (lost : context.permits.lossy = true) :
      Action context worker (requested fd read worker)
  | dispatch (worker : Worker) (fd : Nat) (connection read : Connection)
      (hears : context.Hears worker fd connection read .complete) (running : worker.poolStopping = false) :
      Action context worker (((requested fd read worker).watch fd { readHangup := true }).submit fd
        { read with requestInFlight := true })
  | overload (worker : Worker) (fd : Nat) (connection read : Connection)
      (hears : context.Hears worker fd connection read .complete)
      (fits : context.permits.crowded = true ∨
        read.pendingBytes + overloaded.toString.length ≤ maxOutboundBytes) :
      Action context worker (((requested fd read worker).watch fd { readHangup := true }).overload fd
        { read with requestInFlight := true })
  | release (worker : Worker) (fd : Nat) (connection : Connection)
      (live : worker.connections.lookup fd = some connection) (inFlight : connection.requestInFlight = true) :
      Action context worker (worker.put fd { connection with requestInFlight := false })
  | answer (worker : Worker) (completion : Completion) (connection : Connection)
      (popped : context.completion = some completion)
      (live : worker.connections.lookup completion.clientFd = some connection)
      (same : connection.generation = completion.generation) (inFlight : connection.requestInFlight = true)
      (fits : connection.pendingBytes + completion.serializedResponse.length ≤ maxOutboundBytes) :
      Action context worker (worker.append completion.clientFd (.completion completion.task)
        completion.serializedResponse { connection with requestInFlight := false })
  | connect (worker : Worker) (fd : Nat) (clientIp : Bytes) (unused : fd ∉ worker.opened)
      (running : worker.shutdownRequested = false) : Action context worker (worker.connect fd clientIp)
  | turnAway (worker : Worker) (fd : Nat) (unused : fd ∉ worker.opened) (running : worker.shutdownRequested = false) :
      Action context worker (worker.turnAway fd)
  | drain (worker : Worker) (noticed : context.notice ≠ .never) (asked : worker.shutdownRequested = true)
      (running : worker.draining = false) :
      Action context worker (Worker.retire worker.listenerFd { worker with draining := true, poolStopping := true })
  | forget (worker : Worker) (iterating : context.notice = .iteration) (draining : worker.draining = true) :
      Action context worker { worker with listenerFd := none }
  | fail (worker : Worker) :
      Action context worker { worker with workerFailed := true, shutdownRequested := true }

def Chain (context : Context) : Worker → Worker → Prop := Relation.ReflTransGen (Action context)

theorem Chain.refl (context : Context) (worker : Worker) : Chain context worker worker :=
  Relation.ReflTransGen.refl

theorem Chain.one {context : Context} {before after : Worker} (action : Action context before after) :
    Chain context before after :=
  Relation.ReflTransGen.single action

theorem Chain.trans {context : Context} {before between after : Worker} (first : Chain context before between)
    (second : Chain context between after) : Chain context before after :=
  Relation.ReflTransGen.trans first second

/-- What every action preserves, every chain preserves. -/
theorem Chain.preserves {context : Context} {before after : Worker} (invariant : Worker → Prop)
    (kept : ∀ worker next, Action context worker next → invariant worker → invariant next)
    (chain : Chain context before after) (initially : invariant before) : invariant after := by
  induction chain with
  | refl => exact initially
  | tail _ action ih => exact kept _ _ action ih

@[simp] theorem lookup_put (worker : Worker) (fd : Nat) (connection : Connection) :
    (worker.put fd connection).connections.lookup fd = some connection :=
  AList.lookup_insert _

@[simp] theorem lookup_emit (worker : Worker) (effect : Effect) (fd : Nat) :
    (worker.emit effect).connections.lookup fd = worker.connections.lookup fd := rfl

@[simp] theorem lookup_watch (worker : Worker) (watched fd : Nat) (events : Events) :
    (worker.watch watched events).connections.lookup fd = worker.connections.lookup fd := rfl

@[simp] theorem lookup_closeClient (worker : Worker) (fd : Nat) :
    (worker.closeClient fd).connections.lookup fd = none :=
  AList.lookup_erase _ _

section Entries

variable {connections : AList (fun _ : Nat => Connection)} {fd other : Nat} {connection found : Connection}

theorem lookup_insert_cases (present : (connections.insert fd connection).lookup other = some found) :
    other = fd ∧ found = connection ∨ other ≠ fd ∧ connections.lookup other = some found := by
  by_cases here : other = fd
  · subst here
    rw [AList.lookup_insert, Option.some.injEq] at present
    exact .inl ⟨rfl, present.symm⟩
  · rw [AList.lookup_insert_ne here] at present
    exact .inr ⟨here, present⟩

theorem lookup_erase_some (present : (connections.erase fd).lookup other = some found) :
    connections.lookup other = some found := by
  by_cases here : other = fd
  · subst here
    rw [AList.lookup_erase] at present
    cases present
  · rw [AList.lookup_erase_ne here] at present
    exact present

end Entries

/-- The send loop moves the offset over bytes that were pending, and a drained buffer has
none left. -/
theorem sendLoop_spec (sends : List SendOutcome) (connection : Connection) (ended : SendEnd)
    (rest : List SendOutcome) (left : Connection) (loop : sendLoop sends connection = (ended, rest, left)) :
    left = { connection with outboundOffset := left.outboundOffset } ∧
      connection.outboundOffset ≤ left.outboundOffset ∧
      left.outboundOffset - connection.outboundOffset ≤ connection.pendingBytes ∧
      (ended = .drained → left.pendingBytes = 0) := by
  induction sends generalizing connection with
  | nil =>
    simp only [sendLoop, Prod.mk.injEq] at loop
    obtain ⟨rfl, rfl, rfl⟩ := loop
    refine ⟨rfl, le_rfl, by omega, ?_⟩
    intro drained
    by_contra pending
    simp [pending] at drained
  | cons outcome sends ih =>
    unfold sendLoop at loop
    split at loop
    next done =>
      cases loop
      exact ⟨rfl, le_rfl, by omega, fun _ => done⟩
    next pending =>
      split at loop
      next count =>
        dsimp only at loop
        split at loop
        · cases loop
          exact ⟨rfl, le_rfl, by omega, nofun⟩
        · obtain ⟨frame, low, high, drained⟩ := ih _ loop
          refine ⟨frame, ?_, ?_, drained⟩
          · dsimp only at low
            omega
          · simp only [Connection.pendingBytes] at high ⊢
            omega
      · exact ih _ loop
      · cases loop
        exact ⟨rfl, le_rfl, by omega, nofun⟩
      · cases loop
        exact ⟨rfl, le_rfl, by omega, nofun⟩

def watchable (fd : Nat) (machine : Machine) : Bool :=
  machine.script.controls.headD true && (machine.worker.interest.lookup fd).isSome

def submittable (machine : Machine) : Bool :=
  !machine.worker.poolStopping && machine.script.rooms.headD true

theorem modifyFd_spec (fd : Nat) (events : Events) (machine after : Machine) (modified : Bool)
    (call : modifyFd fd events machine = (modified, after)) :
    (after.worker = if modified then machine.worker.watch fd events else machine.worker) ∧
      after.script.rooms = machine.script.rooms ∧ modified = watchable fd machine := by
  unfold modifyFd at call
  dsimp only at call
  split at call
  next succeeds =>
    cases call
    exact ⟨rfl, rfl, succeeds.symm⟩
  next fails =>
    cases call
    exact ⟨rfl, rfl, (Bool.not_eq_true _ ▸ fails : _ = false).symm⟩

theorem watchOrClose_chain (context : Context) (fd : Nat) (connection : Connection) (events : Events)
    (machine : Machine) (live : machine.worker.connections.lookup fd = some connection) :
    Chain context machine.worker (watchOrClose fd events machine).2.worker := by
  unfold watchOrClose
  split
  next watched call =>
    rw [(modifyFd_spec _ _ _ _ _ call).1]
    exact .one (.watch _ _ _)
  next unwatched call =>
    have same : unwatched.worker = machine.worker := (modifyFd_spec _ _ _ _ _ call).1
    dsimp only [closeClient]
    rw [same]
    exact .one (.close _ fd connection live)

theorem flushClient_chain (context : Context) (fd : Nat) (machine : Machine)
    (touched : ∀ connection offset, machine.worker.connections.lookup fd = some connection →
      context.target = some fd ∨ ¬Fresh { connection with outboundOffset := offset }) :
    Chain context machine.worker (flushClient fd machine).2.worker := by
  unfold flushClient
  split
  · exact .refl _ _
  next connection live =>
    split
    next ended sends left loop =>
      obtain ⟨frame, low, high, drained⟩ := sendLoop_spec _ _ _ _ _ loop
      have advanced : Chain context machine.worker (machine.worker.advance fd connection left.outboundOffset) :=
        .one (.advance _ _ _ _ ⟨live, touched connection connection.outboundOffset live⟩ low high)
      have still : (machine.worker.advance fd connection left.outboundOffset).connections.lookup fd = some left := by
        rw [frame]
        simp [Worker.advance]
      dsimp only
      cases ended with
      | failed => exact advanced.trans (.one (.close _ _ _ still))
      | blocked => exact advanced.trans (watchOrClose_chain context fd left _ ⟨_, _⟩ still)
      | drained =>
        have reaches : context.Reaches (machine.worker.advance fd connection left.outboundOffset) fd left := by
          refine ⟨still, ?_⟩
          rw [frame]
          exact touched connection _ live
        have emptied := advanced.trans (.one (.rewind _ fd left reaches (drained rfl)))
        dsimp only
        split
        · exact emptied.trans (.one (.close _ _ _ (lookup_put _ _ _)))
        · exact emptied.trans (watchOrClose_chain context fd _ _ ⟨_, _⟩ (lookup_put _ _ _))

section Target

variable {context : Context} {fd : Nat} (target : context.target = some fd)
include target

theorem flushTarget_chain (machine : Machine) :
    Chain context machine.worker (flushClient fd machine).2.worker :=
  flushClient_chain context fd machine fun _ _ _ => .inl target

theorem flushIdle_chain (machine : Machine) : Chain context machine.worker (flushIdle fd machine).worker := by
  unfold flushIdle
  split
  · exact .refl _ _
  · split
    · exact .refl _ _
    · exact flushTarget_chain target machine

theorem refuse_chain (worker : Worker) (connection read : Connection) (script : Script)
    (hears : context.Hears worker fd connection read .refused) :
    Chain context worker (refuse fd read ⟨worker.put fd read, script⟩).worker := by
  unfold refuse
  dsimp only
  split
  · have put : Chain context worker (worker.put fd read) := .one (.read _ _ _ _ _ hears)
    have counted := put.trans (.one (.countError _))
    exact counted.trans (.one (.close _ fd read (lookup_put _ _ _)))
  next fits =>
    have appended := Chain.one (.refuse worker fd connection read hears (Nat.le_of_not_lt fits))
    exact appended.trans (flushIdle_chain target ⟨_, _⟩)

theorem dispatch_chain (worker : Worker) (connection read : Connection) (script : Script)
    (hears : context.Hears worker fd connection read .complete)
    (registered : context.permits.lossy = true ∨ watchable fd ⟨worker, script⟩ = true)
    (roomy : context.permits.crowded = true ∨ watchable fd ⟨worker, script⟩ = false ∨
      submittable ⟨worker, script⟩ = true ∨ read.pendingBytes + overloaded.toString.length ≤ maxOutboundBytes) :
    Chain context worker (dispatch fd read ⟨worker.put fd read, script⟩).worker := by
  unfold dispatch
  dsimp only
  split
  next unwatched call =>
    obtain ⟨unchanged, _, refused⟩ := modifyFd_spec _ _ _ _ _ call
    have same : unwatched.worker = requested fd read worker := unchanged
    have started : Chain context worker (requested fd read worker) := by
      refine .one (.request _ _ _ _ hears ?_)
      rcases registered with lossy | watchable
      · exact lossy
      · cases watchable.symm.trans refused.symm
    rw [← same] at started
    exact started.trans (.one (.close _ fd _ (by rw [same]; exact lookup_put _ _ _)))
  next watched call =>
    obtain ⟨changed, rooms, succeeded⟩ := modifyFd_spec _ _ _ _ _ call
    have same : watched.worker = (requested fd read worker).watch fd { readHangup := true } := changed
    rw [same, rooms]
    split
    next room =>
      have running : worker.poolStopping = false := by
        have unstopped := (Bool.and_eq_true_iff.mp room).1
        rw [Bool.not_eq_true'] at unstopped
        exact unstopped
      have submitted := Chain.one (.dispatch worker fd connection read hears running)
      exact submitted.trans (flushIdle_chain target ⟨_, _⟩)
    next full =>
      have queued := Chain.one (.overload worker fd connection read hears (by
        rcases roomy with crowded | unwatchable | submittable | fits
        · exact .inl crowded
        · cases succeeded.trans unwatchable
        · exact absurd submittable full
        · exact .inr fits))
      refine queued.trans (Chain.trans ?_ (flushIdle_chain target _))
      exact flushTarget_chain target ⟨_, _⟩

theorem handleClient_chain (machine : Machine)
    (timely : ∀ connection, machine.worker.connections.lookup fd = some connection →
      context.permits.late = true ∨ ¬finished connection.parser ∨ hearsData machine.script.reads = false)
    (registered : ∀ connection, machine.worker.connections.lookup fd = some connection →
      (readLoop machine.script.reads connection).1 = .complete →
        context.permits.lossy = true ∨ watchable fd machine = true)
    (roomy : ∀ connection, machine.worker.connections.lookup fd = some connection →
      (readLoop machine.script.reads connection).1 = .complete →
        context.permits.crowded = true ∨ watchable fd machine = false ∨ submittable machine = true ∨
          connection.pendingBytes + overloaded.toString.length ≤ maxOutboundBytes) :
    Chain context machine.worker (handleClient fd machine).worker := by
  unfold handleClient
  split
  · exact .refl _ _
  next connection live =>
    split
    next ended reads read loop =>
      have hears : context.Hears machine.worker fd connection read ended :=
        ⟨⟨live, .inl target⟩, _, _, loop, timely connection live⟩
      have put := Chain.one (.read _ _ _ _ _ hears)
      dsimp only
      cases ended with
      | failed => exact put.trans (.one (.close _ _ _ (lookup_put _ _ _)))
      | complained => exact put.trans (.one (.close _ _ _ (lookup_put _ _ _)))
      | refused => exact refuse_chain target _ _ _ _ hears
      | complete =>
        have ends : (readLoop machine.script.reads connection).1 = .complete := by rw [loop]
        have pending : read.pendingBytes = connection.pendingBytes := by
          rw [(readLoop_spec _ _ _ _ _ loop).1]
          rfl
        refine dispatch_chain target _ _ _ { machine.script with reads := reads } hears ?_ ?_
        · exact registered connection live ends
        · rw [pending]
          exact roomy connection live ends
      | blocked => exact put.trans (flushIdle_chain target ⟨_, _⟩)
      | peerClosed => exact put.trans (flushIdle_chain target ⟨_, _⟩)

end Target

theorem acceptClients_chain (context : Context) (accepts : List AcceptOutcome) (worker : Worker) :
    Chain context worker (acceptClients accepts worker).2 := by
  induction accepts generalizing worker with
  | nil => exact .refl _ _
  | cons outcome rest ih =>
    unfold acceptClients
    split
    · exact .refl _ _
    next running =>
      split
      · exact .refl _ _
      · exact .refl _ _
      · exact ih worker
      next fd address nonblocking registered =>
        split
        · exact .refl _ _
        next unused =>
          split
          · exact (Chain.one (.turnAway _ fd unused (Bool.not_eq_true _ ▸ running))).trans (ih _)
          next clientIp =>
            split
            · exact (Chain.one (.connect _ fd clientIp unused (Bool.not_eq_true _ ▸ running))).trans (ih _)
            · exact (Chain.one (.turnAway _ fd unused (Bool.not_eq_true _ ▸ running))).trans (ih _)

theorem not_fresh_of_pending (connection : Connection) (offset : Nat) (pending : connection.pendingBytes ≠ 0) :
    ¬Fresh { connection with outboundOffset := offset } := by
  intro fresh
  have empty : connection.outbound = [] := congrArg Connection.outbound fresh
  simp [Connection.pendingBytes, empty] at pending

theorem settle_chain (context : Context) (machine : Machine) (fd : Nat) :
    Chain context machine.worker (settle machine fd).worker := by
  unfold settle
  split
  · exact .refl _ _
  next connection live =>
    split
    · exact .refl _ _
    · split
      next pending =>
        apply flushClient_chain
        intro found offset same
        cases live.symm.trans same
        exact .inr (not_fresh_of_pending connection offset pending)
      next => exact .one (.close _ fd connection live)

theorem sweep_chain (context : Context) (machine : Machine) :
    Chain context machine.worker (sweep machine).worker := by
  unfold sweep
  dsimp only
  generalize fileDescriptors _ _ = descriptors
  generalize scriptEq : ({ machine with script := _ } : Machine) = begun
  have same : machine.worker = begun.worker := by rw [← scriptEq]
  rw [same]
  clear same scriptEq
  induction descriptors generalizing begun with
  | nil => exact .refl _ _
  | cons fd rest ih => exact (settle_chain context begun fd).trans (ih _)

theorem action_draining {context : Context} {before after : Worker} (action : Action context before after)
    (draining : before.draining = true) : after.draining = true := by
  cases action with
  | drain noticed asked running =>
    cases running.symm.trans draining
  | _ => exact draining

theorem chain_draining {context : Context} {before after : Worker} (chain : Chain context before after)
    (draining : before.draining = true) : after.draining = true :=
  chain.preserves (fun worker => worker.draining = true) (fun _ _ => action_draining) draining

theorem draining_retire (listener : Option Nat) (worker : Worker) :
    (worker.retire listener).draining = worker.draining := by
  cases listener with
  | none => rfl
  | some fd => rfl

theorem beginDrain_chain (context : Context) (machine : Machine) (noticed : context.notice ≠ .never)
    (asked : machine.worker.shutdownRequested = true) :
    Chain context machine.worker (beginDrain machine.worker.listenerFd machine).2.worker ∧
      (beginDrain machine.worker.listenerFd machine).2.worker.draining = true := by
  unfold beginDrain
  split
  next draining => exact ⟨.refl _ _, draining⟩
  next running =>
    have begun := Chain.one (.drain machine.worker noticed asked (Bool.not_eq_true _ ▸ running))
    refine ⟨begun.trans (sweep_chain context ⟨_, _⟩), ?_⟩
    exact chain_draining (sweep_chain context ⟨_, _⟩) (draining_retire _ _)

theorem noticeShutdown_chain (context : Context) (machine : Machine)
    (noticed : machine.worker.shutdownRequested = true → machine.worker.draining = false → context.notice ≠ .never) :
    Chain context machine.worker (noticeShutdown machine).2.worker ∧
      (machine.worker.shutdownRequested = true → (noticeShutdown machine).2.worker.draining = true) := by
  unfold noticeShutdown
  split
  next notices =>
    rw [Bool.and_eq_true_iff, Bool.not_eq_true'] at notices
    obtain ⟨chain, draining⟩ := beginDrain_chain context machine (noticed notices.1 notices.2) notices.1
    exact ⟨chain, fun _ => draining⟩
  next unnoticed =>
    refine ⟨.refl _ _, fun asked => ?_⟩
    simpa [asked] using unnoticed

/-- A completion that finds its connection answers it or releases it, once; what follows is
sending and closing. -/
theorem deliver_chain (permits : Permits) (completion : Completion) (machine : Machine) :
    ∃ landed, (landed = machine.worker ∨
        Action { completion := some completion, permits := permits } machine.worker landed) ∧
      Chain { permits := permits } landed (deliver completion machine).worker := by
  unfold deliver
  split
  · exact ⟨_, .inl rfl, .refl _ _⟩
  next connection live =>
    split
    next fits =>
      rw [Bool.and_eq_true_iff, decide_eq_true_eq] at fits
      dsimp only
      split
      next room =>
        refine ⟨_, .inr (.answer _ completion connection rfl live fits.1 fits.2 room), ?_⟩
        apply flushClient_chain _ _ ⟨_, _⟩
        intro found offset same
        -- an answered connection is to be closed, which a fresh one is not
        have answered := Option.some.inj ((lookup_put _ _ _).symm.trans same)
        right
        intro fresh
        rw [← answered] at fresh
        exact absurd (congrArg Connection.peerClosed fresh) (by simp [Connection.answered])
      next => exact ⟨_, .inr (.release _ _ connection live fits.2), .one (.close _ _ _ (lookup_put _ _ _))⟩
    next => exact ⟨_, .inl rfl, .refl _ _⟩

theorem handleListener_chain (context : Context) (events : Events) (machine : Machine) :
    Chain context machine.worker (handleListener events machine).worker := by
  unfold handleListener
  split
  · exact .refl _ _
  split
  · exact .one (.fail _)
  split
  · exact acceptClients_chain context _ _
  · exact .refl _ _

def WhenRead (condition : Connection → Prop) (ready : Ready) (machine : Machine) : Prop :=
  ready.events.input = true → ready.events.error = false → ready.events.hangup = false →
    ∀ connection ∈ machine.worker.connections.lookup ready.fd, condition connection

instance (condition : Connection → Prop) [DecidablePred condition] (ready : Ready) (machine : Machine) :
    Decidable (WhenRead condition ready machine) :=
  inferInstanceAs (Decidable (_ → _ → _ → ∀ connection ∈ _, _))

/-- No bytes are read from a client whose parser has finished. -/
def Timely (ready : Ready) (machine : Machine) : Prop :=
  WhenRead (fun connection => finished connection.parser → hearsData machine.script.reads = false) ready machine

/-- The interest of a client whose request is complete can be changed. -/
def Registered (ready : Ready) (machine : Machine) : Prop :=
  WhenRead (fun connection => (readLoop machine.script.reads connection).1 = .complete →
    watchable ready.fd machine = true) ready machine

/-- A request that the pool turns away finds room for the response that says so. -/
def Roomy (ready : Ready) (machine : Machine) : Prop :=
  WhenRead (fun connection => (readLoop machine.script.reads connection).1 = .complete →
    watchable ready.fd machine = true → submittable machine = false →
      connection.pendingBytes + overloaded.toString.length ≤ maxOutboundBytes) ready machine

instance (ready : Ready) (machine : Machine) : Decidable (Timely ready machine) :=
  inferInstanceAs (Decidable (WhenRead (fun _ => _ → _) ready machine))

instance (ready : Ready) (machine : Machine) : Decidable (Registered ready machine) :=
  inferInstanceAs (Decidable (WhenRead (fun _ => _ → _) ready machine))

instance (ready : Ready) (machine : Machine) : Decidable (Roomy ready machine) :=
  inferInstanceAs (Decidable (WhenRead (fun _ => _ → _ → _ → _) ready machine))

structure Permits.Allows (permits : Permits) (ready : Ready) (machine : Machine) : Prop where
  timely : permits.late = true ∨ Timely ready machine
  registered : permits.lossy = true ∨ Registered ready machine
  roomy : permits.crowded = true ∨ Roomy ready machine

theorem handleAllowed_chain (context : Context) (ready : Ready) (machine : Machine)
    (target : context.target = some ready.fd) (input : ready.events.input = true)
    (error : ready.events.error = false) (hangup : ready.events.hangup = false)
    (allowed : context.permits.Allows ready machine) :
    Chain context machine.worker (handleClient ready.fd machine).worker := by
  apply handleClient_chain target
  · intro connection live
    rcases allowed.timely with late | timely
    · exact .inl late
    · by_cases done : finished connection.parser
      · exact .inr (.inr (timely input error hangup connection live done))
      · exact .inr (.inl done)
  · intro connection live complete
    rcases allowed.registered with lossy | registered
    · exact .inl lossy
    · exact .inr (registered input error hangup connection live complete)
  · intro connection live complete
    rcases allowed.roomy with crowded | roomy
    · exact .inl crowded
    · right
      cases watched : watchable ready.fd machine with
      | false => exact .inl rfl
      | true =>
        cases accepted : submittable machine with
        | true => exact .inr (.inl rfl)
        | false => exact .inr (.inr (roomy input error hangup connection live complete watched accepted))

theorem handleReady_chain (context : Context) (ready : Ready) (machine : Machine)
    (target : context.target = some ready.fd)
    (live : (machine.worker.connections.lookup ready.fd).isSome = true)
    (allowed : context.permits.Allows ready machine) :
    Chain context machine.worker (handleReady ready.fd ready.events machine).worker := by
  obtain ⟨connection, found⟩ := Option.isSome_iff_exists.mp live
  unfold handleReady
  split
  · exact .one (.close _ _ connection found)
  next healthy =>
    rw [Bool.or_eq_true, not_or, Bool.not_eq_true, Bool.not_eq_true] at healthy
    dsimp only
    generalize readEq : (if ready.events.input = true then _ else machine) = read
    have reading : Chain context machine.worker read.worker := by
      rw [← readEq]
      split
      next input => exact handleAllowed_chain context ready machine target input healthy.1 healthy.2 allowed
      next => exact .refl _ _
    refine reading.trans ?_
    split
    · exact .refl _ _
    next connection still =>
      generalize hungEq : (if ready.events.readHangup = true then _ else read) = hung
      have hanging : Chain context read.worker hung.worker := by
        rw [← hungEq]
        split
        · exact .one (.hangUp _ _ connection ⟨still, .inl target⟩)
        · exact .refl _ _
      generalize flushedEq : (if ready.events.output = true then _ else hung) = flushed
      have flushing : Chain context hung.worker flushed.worker := by
        rw [← flushedEq]
        split
        · exact flushTarget_chain target hung
        · exact .refl _ _
      refine (hanging.trans flushing).trans ?_
      split
      · exact .refl _ _
      next left remaining =>
        split
        · exact .one (.close _ _ left remaining)
        · exact .refl _ _

def eventNotice (worker : Worker) : Notice :=
  if worker.shutdownRequested && !worker.draining then .event else .never

/-- An event leads by a chain of actions to the rest of its batch, or into the completions. -/
theorem handleEvent_chain (permits : Permits) (ready : Ready) (rest : List Ready) (machine : Machine)
    (allowed : permits.Allows ready (noticeShutdown machine).2) :
    ∃ after, Chain { target := some ready.fd, notice := eventNotice machine.worker, permits := permits }
        machine.worker after ∧
      (machine.worker.shutdownRequested = true → after.draining = true) ∧
      (handleEvent ready rest machine = { after with notifications := 0, phase := .collecting (.event rest) } ∨
        handleEvent ready rest machine = { after with phase := .handling rest }) := by
  obtain ⟨noticed, drained⟩ := noticeShutdown_chain
    { target := some ready.fd, notice := eventNotice machine.worker, permits := permits } machine
    (fun asked running => by simp [eventNotice, asked, running])
  unfold handleEvent
  dsimp only
  split
  · exact ⟨_, noticed, drained, .inl rfl⟩
  split
  · have handled := handleListener_chain
      { target := some ready.fd, notice := eventNotice machine.worker, permits := permits } ready.events
      (noticeShutdown machine).2
    exact ⟨_, noticed.trans handled, fun asked => chain_draining handled (drained asked), .inr rfl⟩
  split
  next live =>
    have handled := handleReady_chain
      { target := some ready.fd, notice := eventNotice machine.worker, permits := permits } ready _ rfl live allowed
    exact ⟨_, noticed.trans handled, fun asked => chain_draining handled (drained asked), .inr rfl⟩
  next => exact ⟨_, noticed, drained, .inr rfl⟩

theorem action_forgotten {context : Context} {before after : Worker} (action : Action context before after)
    (forgotten : before.listenerFd = none) : after.listenerFd = none := by
  cases action with
  | drain noticed asked running =>
    rw [forgotten]
    rfl
  | forget iterating draining => rfl
  | _ => exact forgotten

def iterationNotice (worker : Worker) : Notice :=
  if worker.shutdownRequested && !worker.draining then .iteration else .never

theorem drainIteration_chain (context : Context) (machine : Machine)
    (iterating : context.notice = iterationNotice machine.worker) (asked : machine.worker.shutdownRequested = true) :
    let drained := beginDrain machine.worker.listenerFd machine
    Chain context machine.worker { drained.2.worker with listenerFd := drained.1 } ∧
      drained.2.worker.draining = true ∧ (machine.worker.draining = false → drained.1 = none) := by
  intro drained
  by_cases already : machine.worker.draining = true
  · -- nothing is done, and the variable keeps its value
    have idle : drained = (machine.worker.listenerFd, machine) := if_pos already
    rw [idle]
    exact ⟨.refl _ _, already, fun running => absurd already (by simp [running])⟩
  · have notice : context.notice = .iteration := by simp [iterating, iterationNotice, asked, already]
    obtain ⟨chain, done⟩ := beginDrain_chain context machine (by rw [notice]; nofun) asked
    have none : drained.1 = none := by simp [drained, beginDrain, already]
    refine ⟨chain.trans ?_, done, fun _ => none⟩
    rw [none]
    exact .one (.forget _ notice done)

theorem finishIteration_chain (context : Context) (machine : Machine)
    (iterating : context.notice = iterationNotice machine.worker) :
    ∃ after, Chain context machine.worker after ∧
      (machine.worker.shutdownRequested = true → after.draining = true) ∧
      (machine.worker.shutdownRequested = true → machine.worker.draining = false → after.listenerFd = none) ∧
      finishIteration machine = { after with phase := .testing } := by
  unfold finishIteration
  dsimp only
  generalize drainedEq : (if machine.worker.shutdownRequested = true then _ else machine) = drained
  have draining : Chain context machine.worker drained.worker ∧
      (machine.worker.shutdownRequested = true → drained.worker.draining = true) ∧
      (machine.worker.shutdownRequested = true → machine.worker.draining = false → drained.worker.listenerFd = none) := by
    rw [← drainedEq]
    split
    next asked =>
      obtain ⟨chain, done, forgotten⟩ := drainIteration_chain context machine iterating asked
      exact ⟨chain, fun _ => done, fun _ => forgotten⟩
    next unasked => exact ⟨.refl _ _, fun asked => absurd asked unasked, fun asked => absurd asked unasked⟩
  have swept : Chain context drained.worker (if drained.worker.draining = true then sweep drained else drained).worker := by
    split
    · exact sweep_chain context drained
    · exact .refl _ _
  refine ⟨_, draining.1.trans swept, fun asked => chain_draining swept (draining.2.1 asked), ?_, rfl⟩
  intro asked running
  exact swept.preserves (fun worker => worker.listenerFd = none) (fun _ _ => action_forgotten)
    (draining.2.2 asked running)

theorem applyCompletion_chain (permits : Permits) (completion : Completion) (rest : List Completion)
    (machine : Machine) :
    ∃ landed after, (landed = machine.worker.pop completion rest ∨
        Action { completion := some completion, permits := permits } (machine.worker.pop completion rest) landed) ∧
      Chain { permits := permits } landed after ∧ (applyCompletion completion rest machine).worker =
        { after with outstandingTasks := fetchSub after.outstandingTasks } := by
  obtain ⟨landed, answered, chain⟩ :=
    deliver_chain permits completion ⟨machine.worker.pop completion rest, machine.script⟩
  exact ⟨landed, _, answered, chain, rfl⟩

end FleetGateway.Network.Actions
