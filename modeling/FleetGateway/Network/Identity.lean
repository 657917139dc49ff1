import FleetGateway.Network.Transitions

/-! A descriptor number may serve many connections one after the other. Their serial numbers
are never used twice, and the generation is the serial number in 64 bits. -/

namespace FleetGateway.Network.Identity
open Library Library.ByteStore Library.Run Http.Fragmentation EventLoop Actions Transitions

/-- `next_generation` starts at 1 and wraps. -/
def generationOf (serial : Nat) : Nat := (serial + 1) % 2 ^ 64

/-- Fewer than 2^64 connections have generations of their own. -/
theorem generationOf_injective (first second : Nat) (small : first < 2 ^ 64) (also : second < 2 ^ 64)
    (same : generationOf first = generationOf second) : first = second := by
  simp only [generationOf] at same
  omega

structure SameIdentity (before after : Connection) : Prop where
  serial : after.serial = before.serial
  generation : after.generation = before.generation

theorem hears_identity {context : Context} {worker : Worker} {fd : Nat} {connection read : Connection}
    {ended : ReadEnd} (hears : context.Hears worker fd connection read ended) : SameIdentity connection read := by
  obtain ⟨reads, rest, loop, _⟩ := hears.heard
  have frame := (readLoop_spec _ _ _ _ _ loop).1
  rw [frame]
  exact ⟨rfl, rfl⟩

/-- The new map has no connections but those of the old one, and a fresh one changed only if
it is the target's. -/
def Continues (context : Context) (before after : Worker) : Prop :=
  ∀ fd connection, after.connections.lookup fd = some connection →
    ∃ earlier, before.connections.lookup fd = some earlier ∧ SameIdentity earlier connection ∧
      (connection = earlier ∨ context.target = some fd ∨ ¬Fresh earlier)

section Continuing

variable {context : Context} (before after : Worker)

theorem continues_same (same : after.connections = before.connections) : Continues context before after := by
  intro fd connection found
  rw [same] at found
  exact ⟨connection, found, ⟨rfl, rfl⟩, .inl rfl⟩

theorem continues_insert (fd : Nat) (earlier connection : Connection)
    (reaches : context.Reaches before fd earlier)
    (inserted : after.connections = before.connections.insert fd connection)
    (identity : SameIdentity earlier connection) : Continues context before after := by
  intro other found present
  rw [inserted] at present
  rcases lookup_insert_cases present with ⟨rfl, rfl⟩ | ⟨here, present⟩
  · exact ⟨earlier, reaches.live, identity, .inr reaches.touched⟩
  · exact ⟨found, present, ⟨rfl, rfl⟩, .inl rfl⟩

theorem continues_erase (fd : Nat) (erased : after.connections = before.connections.erase fd) :
    Continues context before after := by
  intro other found present
  rw [erased] at present
  exact ⟨found, lookup_erase_some present, ⟨rfl, rfl⟩, .inl rfl⟩

end Continuing

theorem reaches_inFlight {context : Context} {worker : Worker} {fd : Nat} {connection : Connection}
    (live : worker.connections.lookup fd = some connection) (inFlight : connection.requestInFlight = true) :
    context.Reaches worker fd connection := by
  refine ⟨live, .inr ?_⟩
  intro fresh
  cases inFlight.symm.trans (congrArg Connection.requestInFlight fresh)

theorem connections_retire (listener : Option Nat) (worker : Worker) :
    (worker.retire listener).connections = worker.connections := by
  unfold Worker.retire
  split
  · rfl
  · rfl

theorem retire_numbering (listener : Option Nat) (worker : Worker) :
    (worker.retire listener).accepted = worker.accepted ∧
      (worker.retire listener).nextGeneration = worker.nextGeneration := by
  cases listener with
  | none => exact ⟨rfl, rfl⟩
  | some fd => exact ⟨rfl, rfl⟩

theorem connections_requested (fd : Nat) (read : Connection) (worker : Worker) :
    (requested fd read worker).connections =
      worker.connections.insert fd { read with requestInFlight := true } :=
  AList.insert_insert _

theorem connections_overload (fd : Nat) (read : Connection) (worker : Worker) :
    (((requested fd read worker).watch fd { readHangup := true }).overload fd
        { read with requestInFlight := true }).connections =
      worker.connections.insert fd
        (Connection.answered overloaded.toString { read with requestInFlight := false }) := by
  rw [← AList.insert_insert (b := { read with requestInFlight := true }), ← connections_requested]
  rfl

/-- An action accepts a connection or goes on with those that are there. -/
theorem action_continues {context : Context} {before after : Worker} (action : Action context before after) :
    (∃ fd clientIp, (fd ∉ before.opened ∧ before.shutdownRequested = false) ∧ after = before.connect fd clientIp) ∨
      (Continues context before after ∧ after.accepted = before.accepted ∧ after.nextGeneration = before.nextGeneration) := by
  cases action with
  | connect fd clientIp unused running => exact .inl ⟨fd, clientIp, ⟨unused, running⟩, rfl⟩
  | close fd connection live => exact .inr ⟨continues_erase _ _ fd rfl, rfl, rfl⟩
  | watch fd events => exact .inr ⟨continues_same _ _ rfl, rfl, rfl⟩
  | advance fd connection offset reaches onward within =>
    exact .inr ⟨continues_insert _ _ fd _ _ reaches rfl ⟨rfl, rfl⟩, rfl, rfl⟩
  | rewind fd connection reaches done =>
    exact .inr ⟨continues_insert _ _ fd _ _ reaches rfl ⟨rfl, rfl⟩, rfl, rfl⟩
  | hangUp fd connection reaches =>
    exact .inr ⟨continues_insert _ _ fd _ _ reaches rfl ⟨rfl, rfl⟩, rfl, rfl⟩
  | read fd connection read ended hears =>
    exact .inr ⟨continues_insert _ _ fd _ _ hears.reaches rfl (hears_identity hears), rfl, rfl⟩
  | countError => exact .inr ⟨continues_same _ _ rfl, rfl, rfl⟩
  | refuse fd connection read hears fits =>
    exact .inr ⟨continues_insert _ _ fd _ _ hears.reaches (AList.insert_insert _)
      ⟨(hears_identity hears).1, (hears_identity hears).2⟩, rfl, rfl⟩
  | request fd connection read hears lost =>
    exact .inr ⟨continues_insert _ _ fd _ _ hears.reaches (connections_requested _ _ _)
      ⟨(hears_identity hears).1, (hears_identity hears).2⟩, rfl, rfl⟩
  | dispatch fd connection read hears running =>
    exact .inr ⟨continues_insert _ _ fd _ _ hears.reaches (connections_requested _ _ _)
      ⟨(hears_identity hears).1, (hears_identity hears).2⟩, rfl, rfl⟩
  | overload fd connection read hears fits =>
    exact .inr ⟨continues_insert _ _ fd _ _ hears.reaches (connections_overload _ _ _)
      ⟨(hears_identity hears).1, (hears_identity hears).2⟩, rfl, rfl⟩
  | release fd connection live inFlight =>
    exact .inr ⟨continues_insert _ _ fd _ _ (reaches_inFlight live inFlight) rfl ⟨rfl, rfl⟩, rfl, rfl⟩
  | answer completion connection popped live same inFlight fits =>
    exact .inr ⟨continues_insert _ _ _ _ _ (reaches_inFlight live inFlight) rfl ⟨rfl, rfl⟩, rfl, rfl⟩
  | turnAway fd unused running => exact .inr ⟨continues_same _ _ rfl, rfl, rfl⟩
  | drain noticed asked running =>
    obtain ⟨accepted, upcoming⟩ := retire_numbering before.listenerFd
      { before with draining := true, poolStopping := true }
    exact .inr ⟨continues_same _ _ (connections_retire _ _), accepted, upcoming⟩
  | forget iterating draining => exact .inr ⟨continues_same _ _ rfl, rfl, rfl⟩
  | fail => exact .inr ⟨continues_same _ _ rfl, rfl, rfl⟩

structure Identified (worker : Worker) : Prop where
  /-- Serial numbers of the future are not in use. -/
  known : ∀ fd connection, worker.connections.lookup fd = some connection → connection.serial < worker.accepted
  /-- No two connections share one. -/
  distinct : ∀ fd other connection connection', worker.connections.lookup fd = some connection →
    worker.connections.lookup other = some connection' → connection.serial = connection'.serial → fd = other
  generation : ∀ fd connection, worker.connections.lookup fd = some connection →
    connection.generation = generationOf connection.serial
  upcoming : worker.nextGeneration = generationOf worker.accepted

theorem Identified.continue {context : Context} {before after : Worker} (identified : Identified before)
    (continues : Continues context before after) (accepted : after.accepted = before.accepted)
    (upcoming : after.nextGeneration = before.nextGeneration) : Identified after where
  known := by
    intro fd connection found
    obtain ⟨earlier, live, identity, _⟩ := continues fd connection found
    rw [identity.serial, accepted]
    exact identified.known fd earlier live
  distinct := by
    intro fd other connection connection' found found' same
    obtain ⟨earlier, live, identity, _⟩ := continues fd connection found
    obtain ⟨earlier', live', identity', _⟩ := continues other connection' found'
    rw [identity.serial, identity'.serial] at same
    exact identified.distinct fd other earlier earlier' live live' same
  generation := by
    intro fd connection found
    obtain ⟨earlier, live, identity, _⟩ := continues fd connection found
    rw [identity.generation, identity.serial]
    exact identified.generation fd earlier live
  upcoming := by rw [upcoming, accepted, identified.upcoming]

theorem lookup_connect (worker : Worker) (fd other : Nat) (clientIp : Bytes) (connection : Connection)
    (found : (worker.connect fd clientIp).connections.lookup other = some connection) :
    (other = fd ∧ Fresh connection ∧ connection.serial = worker.accepted ∧
        connection.generation = worker.nextGeneration) ∨
      (other ≠ fd ∧ worker.connections.lookup other = some connection) := by
  by_cases here : other = fd
  · subst here
    left
    have inserted := (AList.lookup_insert worker.connections).symm.trans found
    rw [Option.some.injEq] at inserted
    rw [← inserted]
    exact ⟨rfl, rfl, rfl, rfl⟩
  · right
    refine ⟨here, ?_⟩
    exact (AList.lookup_insert_ne here).symm.trans found

theorem Identified.connect {worker : Worker} (identified : Identified worker) (fd : Nat) (clientIp : Bytes) :
    Identified (worker.connect fd clientIp) where
  known := by
    intro other connection found
    show connection.serial < worker.accepted + 1
    rcases lookup_connect worker fd other clientIp connection found with ⟨_, _, serial, _⟩ | ⟨_, old⟩
    · omega
    · have := identified.known other connection old
      omega
  distinct := by
    intro first second connection connection' found found' same
    rcases lookup_connect worker fd first clientIp connection found with ⟨here, _, serial, _⟩ | ⟨_, old⟩
    · rcases lookup_connect worker fd second clientIp connection' found' with ⟨here', _⟩ | ⟨_, old'⟩
      · rw [here, here']
      · have := identified.known second connection' old'
        omega
    · rcases lookup_connect worker fd second clientIp connection' found' with ⟨_, _, serial', _⟩ | ⟨_, old'⟩
      · have := identified.known first connection old
        omega
      · exact identified.distinct first second connection connection' old old' same
  generation := by
    intro other connection found
    rcases lookup_connect worker fd other clientIp connection found with ⟨_, _, serial, generation⟩ | ⟨_, old⟩
    · rw [generation, serial, identified.upcoming]
    · exact identified.generation other connection old
  upcoming := by
    show (worker.nextGeneration + 1) % 2 ^ 64 = generationOf (worker.accepted + 1)
    rw [identified.upcoming]
    simp only [generationOf]
    omega

theorem action_identified {context : Context} {before after : Worker} (action : Action context before after)
    (identified : Identified before) : Identified after := by
  rcases action_continues action with ⟨fd, clientIp, _, rfl⟩ | ⟨continues, accepted, upcoming⟩
  · exact identified.connect fd clientIp
  · exact identified.continue continues accepted upcoming

theorem Identified.quiet {before after : Worker} (identified : Identified before) (quiet : Quiet before after) :
    Identified after :=
  have same : Continues {} before after := continues_same before after quiet.connections
  identified.continue same quiet.accepted quiet.upcoming

theorem transition_identified {permits : Permits} {label : Label} {before after : Worker}
    (transition : Transition permits label before after) (identified : Identified before) : Identified after := by
  obtain ⟨first, last, quiet, moves, quiet'⟩ := transition.loop
  have ended := moves.preserves Identified (fun _ _ _ _ => action_identified) (identified.quiet quiet)
  exact ended.quiet quiet'

theorem start_identified (workerId listenerFd completionFd : Nat) :
    Identified (start workerId listenerFd completionFd) where
  known := nofun
  distinct := nofun
  generation := nofun
  upcoming := rfl

end FleetGateway.Network.Identity
