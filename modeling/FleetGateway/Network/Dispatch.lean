import FleetGateway.Network.Identity

/-! How often a connection is dispatched and answered. A connection whose parser has not
finished has been neither; the parser finishes in the callback that dispatches or refuses
the request, so the counts stay at one as long as nothing is read from the client later. -/

namespace FleetGateway.Network.Dispatch
open Library Library.ByteStore Library.Run Http.Fragmentation Http.Response EventLoop Actions Transitions Identity

def Effect.submits (serial : Nat) : Effect → Bool
  | .submitted other _ => other == serial
  | _ => false

def Effect.answers (serial : Nat) : Effect → Bool
  | .appended other _ _ => other == serial
  | _ => false

def submissions (serial : Nat) (trace : List Effect) : Nat := trace.countP (Effect.submits serial)

def responses (serial : Nat) (trace : List Effect) : Nat := trace.countP (Effect.answers serial)

@[simp] theorem submissions_snoc (serial : Nat) (trace : List Effect) (effect : Effect) :
    submissions serial (trace ++ [effect]) =
      submissions serial trace + if Effect.submits serial effect then 1 else 0 := by
  simp only [submissions, List.countP_append, List.countP_singleton]

@[simp] theorem responses_snoc (serial : Nat) (trace : List Effect) (effect : Effect) :
    responses serial (trace ++ [effect]) =
      responses serial trace + if Effect.answers serial effect then 1 else 0 := by
  simp only [responses, List.countP_append, List.countP_singleton]

def Agree (serial : Nat) (before after : List Effect) : Prop :=
  submissions serial after = submissions serial before ∧ responses serial after = responses serial before

theorem agree_quiet {before after : Worker} (quiet : Quiet before after) (serial : Nat) :
    Agree serial before.trace after.trace := by
  obtain ⟨more, trace, silent⟩ := quiet.trace
  rw [List.all_eq_true] at silent
  have none : submissions serial more = 0 ∧ responses serial more = 0 := by
    simp only [submissions, responses, List.countP_eq_zero]
    constructor
    · intro effect member
      have := silent effect member
      cases effect <;> simp_all [Effect.isQuiet, Effect.submits]
    · intro effect member
      have := silent effect member
      cases effect <;> simp_all [Effect.isQuiet, Effect.answers]
  rw [trace]
  simp only [Agree, submissions, responses, List.countP_append] at none ⊢
  omega

/-- What may have happened to a live connection. -/
structure Entitled (trace : List Effect) (connection : Connection) : Prop where
  unfinished : ¬finished connection.parser →
    submissions connection.serial trace = 0 ∧ responses connection.serial trace = 0 ∧
      connection.requestInFlight = false
  inFlight : connection.requestInFlight = true → responses connection.serial trace = 0

structure Once (worker : Worker) : Prop where
  identified : Identified worker
  entitled : ∀ fd connection, worker.connections.lookup fd = some connection → Entitled worker.trace connection
  upcoming : ∀ serial, worker.accepted ≤ serial →
    submissions serial worker.trace = 0 ∧ responses serial worker.trace = 0
  once : ∀ serial, submissions serial worker.trace ≤ 1 ∧ responses serial worker.trace ≤ 1

theorem Once.keep {before after : Worker} (once : Once before) (identified : Identified after)
    (accepted : after.accepted = before.accepted)
    (same : ∀ fd connection, after.connections.lookup fd = some connection →
      before.connections.lookup fd = some connection)
    (agree : ∀ serial, Agree serial before.trace after.trace) : Once after where
  identified := identified
  entitled := by
    intro fd connection found
    have earlier := once.entitled fd connection (same fd connection found)
    obtain ⟨submitted, answered⟩ := agree connection.serial
    exact ⟨by rw [submitted, answered]; exact earlier.unfinished, by rw [answered]; exact earlier.inFlight⟩
  upcoming := by
    intro serial future
    obtain ⟨submitted, answered⟩ := agree serial
    rw [submitted, answered]
    exact once.upcoming serial (accepted ▸ future)
  once := by
    intro serial
    obtain ⟨submitted, answered⟩ := agree serial
    rw [submitted, answered]
    exact once.once serial

theorem Once.replace {before after : Worker} (once : Once before) (identified : Identified after)
    (accepted : after.accepted = before.accepted) (fd : Nat) (earlier connection : Connection)
    (live : before.connections.lookup fd = some earlier)
    (inserted : after.connections = before.connections.insert fd connection)
    (others : ∀ other, other ≠ earlier.serial → Agree other before.trace after.trace)
    (entitled : Entitled after.trace connection)
    (bounded : submissions earlier.serial after.trace ≤ 1 ∧ responses earlier.serial after.trace ≤ 1) :
    Once after where
  identified := identified
  entitled := by
    intro other found present
    rw [inserted] at present
    rcases lookup_insert_cases present with ⟨rfl, rfl⟩ | ⟨here, present⟩
    · exact entitled
    · have different : found.serial ≠ earlier.serial := fun same =>
        here (once.identified.distinct other fd found earlier present live same)
      obtain ⟨submitted, answered⟩ := others found.serial different
      have old := once.entitled other found present
      exact ⟨by rw [submitted, answered]; exact old.unfinished, by rw [answered]; exact old.inFlight⟩
  upcoming := by
    intro other future
    have known := once.identified.known fd earlier live
    obtain ⟨submitted, answered⟩ := others other (by omega)
    rw [submitted, answered]
    exact once.upcoming other (accepted ▸ future)
  once := by
    intro other
    by_cases own : other = earlier.serial
    · exact own ▸ bounded
    · obtain ⟨submitted, answered⟩ := others other own
      rw [submitted, answered]
      exact once.once other

theorem Once.retain {before after : Worker} (once : Once before) (identified : Identified after)
    (accepted : after.accepted = before.accepted) (fd : Nat) (earlier connection : Connection)
    (live : before.connections.lookup fd = some earlier)
    (inserted : after.connections = before.connections.insert fd connection)
    (serial : connection.serial = earlier.serial) (parser : connection.parser = earlier.parser)
    (flag : connection.requestInFlight = earlier.requestInFlight)
    (agree : ∀ other, Agree other before.trace after.trace) : Once after := by
  obtain ⟨submitted, answered⟩ := agree earlier.serial
  have old := once.entitled fd earlier live
  apply once.replace identified accepted fd earlier connection live inserted (fun other _ => agree other)
  · constructor
    · rw [parser, flag, serial, submitted, answered]
      exact old.unfinished
    · rw [flag, serial, answered]
      exact old.inFlight
  · rw [submitted, answered]
    exact once.once earlier.serial

theorem hears_unfinished {context : Context} {worker : Worker} {fd : Nat} {connection read : Connection}
    {ended : ReadEnd} (hears : context.Hears worker fd connection read ended) (timely : context.permits.late = false)
    (final : ended = .refused ∨ ended = .complete) : ¬finished connection.parser := by
  obtain ⟨reads, rest, loop, allowed⟩ := hears.heard
  rcases allowed with late | unfinished | silent
  · rw [timely] at late
    cases late
  · exact unfinished
  · obtain ⟨_, blocked | closed | failed⟩ := readLoop_silent reads connection silent
    · rw [loop, Prod.mk.injEq] at blocked
      simp [blocked.1] at final
    · rw [loop, Prod.mk.injEq] at closed
      simp [closed.1] at final
    · rw [loop, Prod.mk.injEq] at failed
      simp [failed.1] at final

theorem hears_finished {context : Context} {worker : Worker} {fd : Nat} {connection read : Connection}
    {ended : ReadEnd} (hears : context.Hears worker fd connection read ended)
    (final : ended = .refused ∨ ended = .complete) : finished read.parser := by
  obtain ⟨_, _, loop, _⟩ := hears.heard
  exact (readLoop_spec _ _ _ _ _ loop).2 final

theorem hears_flag {context : Context} {worker : Worker} {fd : Nat} {connection read : Connection}
    {ended : ReadEnd} (hears : context.Hears worker fd connection read ended) :
    read.requestInFlight = connection.requestInFlight := by
  obtain ⟨_, _, loop, _⟩ := hears.heard
  have frame := (readLoop_spec _ _ _ _ _ loop).1
  rw [frame]

theorem Once.connect {worker : Worker} (once : Once worker) (fd : Nat) (clientIp : Bytes) :
    Once (worker.connect fd clientIp) where
  identified := once.identified.connect fd clientIp
  entitled := by
    intro other connection found
    have agree : Agree connection.serial worker.trace (worker.connect fd clientIp).trace := by
      simp [Agree, Worker.connect, Worker.emit, Effect.submits, Effect.answers]
    rcases lookup_connect worker fd other clientIp connection found with ⟨_, fresh, serial, _⟩ | ⟨_, old⟩
    · have none := once.upcoming connection.serial serial.ge
      rw [← agree.1, ← agree.2] at none
      exact ⟨fun _ => ⟨none.1, none.2, congrArg Connection.requestInFlight fresh⟩, fun _ => none.2⟩
    · have earlier := once.entitled other connection old
      exact ⟨by rw [agree.1, agree.2]; exact earlier.unfinished, by rw [agree.2]; exact earlier.inFlight⟩
  upcoming := by
    intro serial future
    have none := once.upcoming serial (Nat.le_of_succ_le future)
    simpa [Worker.connect, Worker.emit, Effect.submits, Effect.answers] using none
  once := by
    intro serial
    simpa [Worker.connect, Worker.emit, Effect.submits, Effect.answers] using once.once serial

theorem agree_refl (serial : Nat) (trace : List Effect) : Agree serial trace trace := ⟨rfl, rfl⟩

theorem agree_emit (serial : Nat) (trace : List Effect) (effect : Effect)
    (submits : Effect.submits serial effect = false) (answers : Effect.answers serial effect = false) :
    Agree serial trace (trace ++ [effect]) := by
  simp [Agree, submits, answers]

theorem Once.read {context : Context} {worker : Worker} (once : Once worker) (fd : Nat)
    (connection read : Connection) (ended : ReadEnd) (timely : context.permits.late = false)
    (identified : Identified (worker.put fd read)) (hears : context.Hears worker fd connection read ended) :
    Once (worker.put fd read) := by
  have live := hears.reaches.live
  have old := once.entitled fd connection live
  have serial := (hears_identity hears).serial
  by_cases unfinished : finished connection.parser
  · obtain ⟨reads, rest, loop, late | unread | silent⟩ := hears.heard
    · rw [timely] at late
      cases late
    · exact absurd unfinished unread
    · obtain ⟨_, same | same | same⟩ := readLoop_silent reads connection silent
      · cases loop.symm.trans same
        exact once.retain identified rfl fd connection connection live rfl rfl rfl rfl (agree_refl · _)
      · cases loop.symm.trans same
        exact once.retain identified rfl fd connection _ live rfl rfl rfl rfl (agree_refl · _)
      · cases loop.symm.trans same
        exact once.retain identified rfl fd connection connection live rfl rfl rfl rfl (agree_refl · _)
  · obtain ⟨submitted, answered, idle⟩ := old.unfinished unfinished
    apply once.replace identified rfl fd connection read live rfl (fun other _ => agree_refl other _)
    · rw [← serial] at submitted answered
      exact ⟨fun _ => ⟨submitted, answered, (hears_flag hears).trans idle⟩, fun _ => answered⟩
    · exact once.once connection.serial

/-- The parser finishes: the connection gets at most one task or one response, and one whose
task is under way gets no response. -/
theorem Once.conclude {context : Context} {worker after : Worker} (once : Once worker) (fd : Nat)
    (connection read concluded : Connection) (ended : ReadEnd) (timely : context.permits.late = false)
    (hears : context.Hears worker fd connection read ended) (final : ended = .refused ∨ ended = .complete)
    (identified : Identified after) (accepted : after.accepted = worker.accepted)
    (inserted : after.connections = worker.connections.insert fd concluded)
    (serial : concluded.serial = read.serial) (parser : concluded.parser = read.parser)
    (others : ∀ other, other ≠ read.serial → Agree other worker.trace after.trace)
    (submitted : submissions read.serial after.trace ≤ submissions read.serial worker.trace + 1)
    (answered : responses read.serial after.trace ≤
      responses read.serial worker.trace + if concluded.requestInFlight then 0 else 1) : Once after := by
  have live := hears.reaches.live
  have identity := (hears_identity hears).serial
  obtain ⟨unsubmitted, unanswered, _⟩ :=
    (once.entitled fd connection live).unfinished (hears_unfinished hears timely final)
  rw [identity, unsubmitted] at submitted
  rw [identity, unanswered] at answered
  apply once.replace identified accepted fd connection concluded live inserted (identity ▸ others)
  · constructor
    · intro unfinished
      rw [parser] at unfinished
      exact absurd (hears_finished hears final) unfinished
    · intro inFlight
      rw [inFlight] at answered
      rw [serial, identity]
      exact Nat.le_zero.mp answered
  · refine ⟨submitted, answered.trans ?_⟩
    split
    · exact Nat.zero_le _
    · exact le_rfl

theorem Once.drain {worker : Worker} (once : Once worker)
    (identified : Identified (Worker.retire worker.listenerFd { worker with draining := true, poolStopping := true })) :
    Once (Worker.retire worker.listenerFd { worker with draining := true, poolStopping := true }) := by
  revert identified
  cases worker.listenerFd with
  | none =>
    intro identified
    exact once.keep identified rfl (fun _ _ same => same) (agree_refl · _)
  | some fd =>
    intro identified
    exact once.keep identified rfl (fun _ _ same => same) fun serial => agree_emit serial _ _ rfl rfl

/-- No action takes a connection past one task and one response. -/
theorem action_once {context : Context} {before after : Worker} (action : Action context before after)
    (timely : context.permits.late = false) (once : Once before) : Once after := by
  have identified := action_identified action once.identified
  cases action with
  | connect fd clientIp unused running => exact once.connect fd clientIp
  | close fd connection live =>
    apply once.keep identified rfl
    · exact fun other found present => lookup_erase_some present
    · exact fun serial => agree_emit serial _ _ rfl rfl
  | watch fd events => exact once.keep identified rfl (fun _ _ same => same) (agree_refl · _)
  | advance fd connection offset reaches onward within =>
    exact once.retain identified rfl fd connection _ reaches.live rfl rfl rfl rfl
      fun serial => agree_emit serial _ _ rfl rfl
  | rewind fd connection reaches done =>
    exact once.retain identified rfl fd connection _ reaches.live rfl rfl rfl rfl (agree_refl · _)
  | hangUp fd connection reaches =>
    exact once.retain identified rfl fd connection _ reaches.live rfl rfl rfl rfl (agree_refl · _)
  | read fd connection read ended hears => exact once.read fd connection read ended timely identified hears
  | countError => exact once.keep identified rfl (fun _ _ same => same) (agree_refl · _)
  | refuse fd connection read hears fits =>
    apply once.conclude fd connection read _ _ timely hears (.inl rfl) identified rfl (AList.insert_insert _) rfl rfl
    · intro other different
      exact agree_emit other _ _ rfl (by simpa [Effect.answers] using different.symm)
    · simp [Worker.append, Worker.put, Worker.emit, Effect.submits]
    · have idle : read.requestInFlight = false :=
        (hears_flag hears).trans ((once.entitled fd connection hears.reaches.live).unfinished
          (hears_unfinished hears timely (.inl rfl))).2.2
      simp [Worker.append, Worker.put, Worker.emit, Effect.answers, Connection.answered, idle]
  | request fd connection read hears lost =>
    apply once.conclude fd connection read _ _ timely hears (.inr rfl) identified rfl (connections_requested _ _ _)
      rfl rfl (fun other _ => agree_refl other _)
    · exact Nat.le_succ _
    · exact Nat.le_add_right _ _
  | dispatch fd connection read hears running =>
    apply once.conclude fd connection read _ _ timely hears (.inr rfl) identified rfl (connections_requested _ _ _)
      rfl rfl
    · intro other different
      exact agree_emit other _ _ (by simpa [Effect.submits] using different.symm) rfl
    · simp [Worker.submit, Worker.emit, Effect.submits, Worker.watch, requested, Worker.put]
    · simp [Worker.submit, Worker.emit, Effect.answers, Worker.watch, requested, Worker.put]
  | overload fd connection read hears fits =>
    apply once.conclude fd connection read _ _ timely hears (.inr rfl) identified rfl (connections_overload _ _ _)
      rfl rfl
    · intro other different
      exact agree_emit other _ _ rfl (by simpa [Effect.answers] using different.symm)
    · simp [Worker.overload, Worker.append, Worker.emit, Effect.submits, Worker.watch, requested, Worker.put]
    · simp [Worker.overload, Worker.append, Worker.emit, Effect.answers, Worker.watch, requested, Worker.put,
        Connection.answered]
  | release fd connection live inFlight =>
    have old := once.entitled fd connection live
    apply once.replace identified rfl fd connection _ live rfl (fun other _ => agree_refl other _)
    · exact ⟨fun unfinished => absurd inFlight (by simp [(old.unfinished unfinished).2.2]),
        fun impossible => by cases impossible⟩
    · exact once.once connection.serial
  | answer completion connection popped live same inFlight fits =>
    have old := once.entitled _ connection live
    have unanswered := old.inFlight inFlight
    apply once.replace identified rfl _ connection _ live rfl
    · intro other different
      exact agree_emit other _ _ rfl (by simpa [Effect.answers] using different.symm)
    · exact ⟨fun unfinished => absurd inFlight (by simp [(old.unfinished unfinished).2.2]),
        fun impossible => by cases impossible⟩
    · simpa [Worker.append, Worker.emit, Worker.put, Effect.submits, Effect.answers, unanswered] using
        (once.once connection.serial).1
  | turnAway fd unused running =>
    apply once.keep identified rfl (fun _ _ same => same)
    intro serial
    have accepted := agree_emit serial before.trace (.accepted fd none) rfl rfl
    have closed := agree_emit serial (before.trace ++ [.accepted fd none]) (.closed fd) rfl rfl
    exact ⟨closed.1.trans accepted.1, closed.2.trans accepted.2⟩
  | drain noticed asked running => exact once.drain identified
  | forget iterating draining => exact once.keep identified rfl (fun _ _ same => same) (agree_refl · _)
  | fail => exact once.keep identified rfl (fun _ _ same => same) (agree_refl · _)

theorem Once.quiet {before after : Worker} (once : Once before) (quiet : Quiet before after) : Once after :=
  once.keep (once.identified.quiet quiet) quiet.accepted
    (fun fd _ found => by rwa [quiet.connections] at found) (agree_quiet quiet)

theorem transition_once {label : Label} {before after : Worker} (transition : Transition { late := false } label before after)
    (once : Once before) : Once after := by
  obtain ⟨first, last, quiet, moves, quiet'⟩ := transition.loop
  have begun := once.quiet quiet
  have ended := moves.preserves Once (fun _ _ _ permits action => action_once action (by rw [permits])) begun
  exact ended.quiet quiet'

theorem start_once (workerId listenerFd completionFd : Nat) : Once (start workerId listenerFd completionFd) where
  identified := start_identified workerId listenerFd completionFd
  entitled := nofun
  upcoming := fun _ _ => ⟨rfl, rfl⟩
  once := fun _ => ⟨Nat.zero_le _, Nat.zero_le _⟩

/-- As long as no bytes are read from a client whose parser has finished, a connection has at
most one task accepted by the pool and at most one response in its outbound buffer. -/
theorem dispatched_at_most_once (workerId listenerFd completionFd : Nat) (labels : List Label)
    (timely : Along step (OnHandle Timely) (start workerId listenerFd completionFd) labels) (serial : Nat) :
    submissions serial (run step (start workerId listenerFd completionFd) labels).trace ≤ 1 ∧
      responses serial (run step (start workerId listenerFd completionFd) labels).trace ≤ 1 := by
  have once := along_invariant step Once (OnHandle Timely)
    (fun worker label timely => transition_once (step_transition { late := false } worker label
      (timely.imp fun _ _ timely => ⟨.inr timely, .inl rfl, .inl rfl⟩)))
    (start workerId listenerFd completionFd) labels timely (start_once workerId listenerFd completionFd)
  exact once.once serial

def request : Bytes := text "GET / HTTP/1.1\r\nHost: a\r\n\r\n"

def iteration (script : Script) : List Label := [.iterate, .collect, .apply script, .apply {}, .finish {}, .test]

/-- A client connects and sends its request, the pool answers it, and the socket takes one
byte of the response. -/
def slowReader : List Label :=
  [.test, .wait (.ready [(5, { input := true })]),
    .handle { accepts := [.client 7 (some (text "10.0.0.1")) true true] }] ++ iteration {} ++
  [.wait (.ready [(7, { input := true })]), .handle { reads := [.bytes request] },
    .runHandler 0 (some {}), .push 0, .notify 0] ++ iteration { sends := [.sent 1] }

/-- The interest was renewed for the rest of the response, so a byte that follows the request
is read, and the finished parser says once more that the request is complete. -/
def lateByte : List Label :=
  [.wait (.ready [(7, { input := true })]), .handle { reads := [.bytes (text "x")] },
    .runHandler 1 (some {}), .push 1, .notify 1] ++ iteration {}

theorem dispatched_at_most_once_slow_reader :
    Along step (OnHandle Timely) (start 0 5 6) slowReader ∧
      submissions 0 (run step (start 0 5 6) slowReader).trace = 1 ∧
      submissions 0 (run step (start 0 5 6) slowReader).trace ≤ 1 ∧
      responses 0 (run step (start 0 5 6) slowReader).trace ≤ 1 :=
  ⟨by decide +kernel, by decide +kernel, dispatched_at_most_once 0 5 6 slowReader (by decide +kernel) 0⟩

/-- The late byte makes a second task of the same request, and its response follows the first. -/
theorem dispatched_twice :
    submissions 0 (run step (start 0 5 6) (slowReader ++ lateByte)).trace = 2 ∧
      responses 0 (run step (start 0 5 6) (slowReader ++ lateByte)).trace = 2 := by
  decide +kernel

end FleetGateway.Network.Dispatch
