import FleetGateway.Network.Descriptors
import FleetGateway.Network.Outstanding
import FleetGateway.Network.Stream
import FleetGateway.Network.Submission

/-! What the loop waits for. Between two callbacks every connection is registered for the events that
move it on, or a task is under way whose completion will find it, so none is ever forgotten. -/

namespace FleetGateway.Network.Interest
open Library Library.ByteStore Library.Run Http.Parser Http.Response Monitoring.Counters EventLoop Actions Transitions
open Identity Dispatch Lifetime Isolation Outstanding Descriptors

structure Suits (mask : Events) (connection : Connection) : Prop where
  hangup : mask.readHangup = true
  input : connection.requestInFlight = false → mask.input = true
  output : connection.requestInFlight = false → connection.pendingBytes ≠ 0 → mask.output = true

/-- A task of the connection whose completion was not applied yet. -/
def Owned (worker : Worker) (fd : Nat) (connection : Connection) : Prop :=
  ∃ (index : Nat) (task : Task), worker.tasks[index]? = some task ∧ task.clientFd = fd ∧ task.generation = connection.generation ∧
    processings index worker.trace = 0

structure Watched (worker : Worker) (fd : Nat) (connection : Connection) : Prop where
  mask : ∃ mask, worker.interest.lookup fd = some mask ∧ Suits mask connection
  /-- A connection that is only to be closed still has something to send. -/
  ending : connection.requestInFlight = false → connection.peerClosed = true → connection.pendingBytes ≠ 0
  owned : connection.requestInFlight = true → Owned worker fd connection

def Watches (worker : Worker) : Prop :=
  ∀ fd connection, worker.connections.lookup fd = some connection → Watched worker fd connection

def Elsewhere (fd : Nat) (worker : Worker) : Prop :=
  ∀ other connection, other ≠ fd → worker.connections.lookup other = some connection → Watched worker other connection

structure Tended (fd : Nat) (worker : Worker) : Prop where
  elsewhere : Elsewhere fd worker
  busy : ∀ connection, worker.connections.lookup fd = some connection → connection.requestInFlight = true →
    Watched worker fd connection

structure Keeps (before after : Worker) : Prop where
  tasks : ∀ (index : Nat) (task : Task), before.tasks[index]? = some task → ∃ progress,
    after.tasks[index]? = some { task with progress := progress }
  processings : ∀ index, processings index after.trace = processings index before.trace

theorem keeps_of_same {before after : Worker} (tasks : after.tasks = before.tasks)
    (unpopped : ∀ index, processings index after.trace = processings index before.trace) : Keeps before after where
  tasks index task found := by
    rw [tasks]
    exact ⟨task.progress, found⟩
  processings := unpopped

theorem Owned.keep {before after : Worker} {fd : Nat} {connection : Connection} (owned : Owned before fd connection)
    (keeps : Keeps before after) : Owned after fd connection := by
  obtain ⟨index, task, found, clientFd, generation, unpopped⟩ := owned
  obtain ⟨progress, later⟩ := keeps.tasks index task found
  have still : processings index after.trace = 0 := (keeps.processings index).trans unpopped
  exact ⟨index, { task with progress := progress }, later, clientFd, generation, still⟩

theorem Watched.keep {before after : Worker} {fd : Nat} {connection : Connection}
    (watched : Watched before fd connection) (interest : after.interest.lookup fd = before.interest.lookup fd)
    (keeps : Keeps before after) : Watched after fd connection where
  mask := by
    rw [interest]
    exact watched.mask
  ending := watched.ending
  owned busy := (watched.owned busy).keep keeps

section Frames

variable {before after : Worker} {fd : Nat}

theorem Watches.tended (watches : Watches before) (fd : Nat) : Tended fd before where
  elsewhere other connection _ live := watches other connection live
  busy connection live _ := watches fd connection live

theorem Elsewhere.watches (elsewhere : Elsewhere fd before)
    (own : ∀ connection, before.connections.lookup fd = some connection → Watched before fd connection) :
    Watches before := by
  intro other connection live
  by_cases here : other = fd
  · rw [here] at live ⊢
    exact own connection live
  · exact elsewhere other connection here live

theorem Watches.frame (watches : Watches before) (connections : after.connections = before.connections)
    (interest : ∀ fd, fd ∈ before.connections → after.interest.lookup fd = before.interest.lookup fd)
    (keeps : Keeps before after) : Watches after := by
  intro other connection live
  rw [connections] at live
  have present : other ∈ before.connections := AList.lookup_isSome.mp (by rw [live]; rfl)
  exact (watches other connection live).keep (interest other present) keeps

theorem Elsewhere.frame (elsewhere : Elsewhere fd before)
    (connections : ∀ other, other ≠ fd → after.connections.lookup other = before.connections.lookup other)
    (interest : ∀ other, other ≠ fd → after.interest.lookup other = before.interest.lookup other)
    (keeps : Keeps before after) : Elsewhere fd after := by
  intro other connection different live
  rw [connections other different] at live
  exact (elsewhere other connection different live).keep (interest other different) keeps

theorem Elsewhere.put (elsewhere : Elsewhere fd before) (connection : Connection)
    (connections : after.connections = before.connections.insert fd connection)
    (interest : after.interest = before.interest) (keeps : Keeps before after) : Elsewhere fd after := by
  apply elsewhere.frame _ _ keeps
  · intro other different
    rw [connections, AList.lookup_insert_ne different]
  · intro other _
    rw [interest]

theorem Watched.busy {earlier connection : Connection} (watched : Watched before fd earlier)
    (flying : earlier.requestInFlight = true) (flies : connection.requestInFlight = true)
    (same : earlier.generation = connection.generation) : Watched before fd connection := by
  have never : connection.requestInFlight ≠ false := by
    rw [flies]
    exact Bool.noConfusion
  obtain ⟨mask, listed, suits⟩ := watched.mask
  refine ⟨⟨mask, listed, suits.hangup, fun idle => absurd idle never, fun idle => absurd idle never⟩,
    fun idle => absurd idle never, fun _ => ?_⟩
  have owned := watched.owned flying
  unfold Owned at owned ⊢
  rw [← same]
  exact owned

theorem Tended.put (tended : Tended fd before) (connection : Connection)
    (busy : connection.requestInFlight = true → ∃ earlier, before.connections.lookup fd = some earlier ∧
      earlier.requestInFlight = true ∧ earlier.generation = connection.generation)
    (connections : after.connections = before.connections.insert fd connection)
    (interest : after.interest = before.interest) (keeps : Keeps before after) : Tended fd after where
  elsewhere := tended.elsewhere.put connection connections interest keeps
  busy found live flies := by
    rw [connections, AList.lookup_insert, Option.some.injEq] at live
    rw [← live] at flies ⊢
    obtain ⟨earlier, there, flying, same⟩ := busy flies
    have watched := tended.busy earlier there flying
    exact (watched.busy flying flies same).keep (by rw [interest]) keeps

end Frames

theorem closeClient_watches {fd : Nat} {machine : Machine} (elsewhere : Elsewhere fd machine.worker) :
    Watches (closeClient fd machine).worker := by
  have left : Elsewhere fd (closeClient fd machine).worker := by
    apply elsewhere.frame
    · exact fun other different => AList.lookup_erase_ne different
    · exact fun other different => AList.lookup_erase_ne different
    · exact keeps_of_same rfl fun index => processings_append index machine.worker.trace [.closed fd]
  apply left.watches
  intro connection live
  rw [show (closeClient fd machine).worker.connections.lookup fd = none from AList.lookup_erase _ _] at live
  exact absurd live (Option.some_ne_none connection).symm

theorem watchOrClose_watches {fd : Nat} {machine : Machine} {connection : Connection} (mask : Events)
    (tended : Tended fd machine.worker) (live : machine.worker.connections.lookup fd = some connection)
    (suits : Suits mask connection)
    (ending : connection.requestInFlight = false → connection.peerClosed = true → connection.pendingBytes ≠ 0) :
    Watches (watchOrClose fd mask machine).2.worker := by
  unfold watchOrClose
  split
  next watched call =>
    have same : watched.worker = machine.worker.watch fd mask := (modifyFd_spec _ _ _ _ _ call).1
    have keeps : Keeps machine.worker (machine.worker.watch fd mask) := keeps_of_same rfl fun _ => rfl
    have left : Elsewhere fd (machine.worker.watch fd mask) :=
      tended.elsewhere.frame (fun _ _ => rfl) (fun _ different => AList.lookup_insert_ne different) keeps
    dsimp only
    rw [same]
    apply left.watches
    intro found there
    rw [lookup_watch, live, Option.some.injEq] at there
    rw [← there]
    refine ⟨⟨mask, AList.lookup_insert _, suits⟩, ending, fun busy => ?_⟩
    exact ((tended.busy connection live busy).owned busy).keep keeps
  next unwatched call =>
    have same : unwatched.worker = machine.worker := (modifyFd_spec _ _ _ _ _ call).1
    apply closeClient_watches
    rw [same]
    exact tended.elsewhere

/-- Whatever the socket takes, a connection that is flushed is watched after it. -/
theorem flushClient_watches {fd : Nat} {machine : Machine} (tended : Tended fd machine.worker) :
    Watches (flushClient fd machine).2.worker := by
  unfold flushClient
  split
  next none =>
    apply tended.elsewhere.watches
    intro connection live
    rw [none] at live
    exact absurd live (Option.some_ne_none connection).symm
  next connection live =>
    split
    next ended sends left loop =>
    obtain ⟨frame, _, _, drained⟩ := sendLoop_spec _ _ _ _ _ loop
    have flies := congrArg Connection.requestInFlight frame
    have generation := congrArg Connection.generation frame
    have advanced : Tended fd (machine.worker.advance fd connection left.outboundOffset) := by
      refine tended.put { connection with outboundOffset := left.outboundOffset } ?_ rfl rfl ?_
      · exact fun busy => ⟨connection, live, busy, rfl⟩
      · exact keeps_of_same rfl fun index => processings_append index machine.worker.trace [_]
    dsimp only
    cases ended with
    | failed => exact closeClient_watches advanced.elsewhere
    | blocked =>
      apply watchOrClose_watches _ advanced (lookup_put _ _ _) ⟨rfl, fun _ => rfl, fun _ _ => rfl⟩
      have pending : left.pendingBytes ≠ 0 := by
        have ends := Stream.sendLoop_ends machine.script.sends connection
        rw [loop] at ends
        cases ends with
        | blocked _ _ pending => exact pending
      rw [frame] at pending
      exact fun _ _ => pending
    | drained =>
      have emptied : Tended fd ((machine.worker.advance fd connection left.outboundOffset).put fd
          { left with outbound := [], outboundOffset := 0 }) := by
        refine advanced.put { left with outbound := [], outboundOffset := 0 } ?_ rfl rfl (keeps_of_same rfl fun _ => rfl)
        exact fun busy => ⟨_, lookup_put _ _ _, flies.symm.trans busy, generation.symm⟩
      dsimp only
      split
      · exact closeClient_watches emptied.elsewhere
      next opened =>
        apply watchOrClose_watches _ emptied (lookup_put _ _ _) ⟨rfl, fun _ => rfl, fun _ some => absurd rfl some⟩
        exact fun _ closed => absurd closed opened

theorem flushIdle_watches {fd : Nat} {machine : Machine} (tended : Tended fd machine.worker) :
    Watches (flushIdle fd machine).worker := by
  unfold flushIdle
  split
  next none =>
    apply tended.elsewhere.watches
    intro connection live
    rw [none] at live
    exact absurd live (Option.some_ne_none connection).symm
  next connection live =>
    split
    next busy =>
      apply tended.elsewhere.watches
      intro found there
      rw [live, Option.some.injEq] at there
      rw [← there]
      exact tended.busy connection live busy
    next => exact flushClient_watches tended

theorem refuse_watches {fd : Nat} {connection : Connection} {machine : Machine} (tended : Tended fd machine.worker)
    (live : machine.worker.connections.lookup fd = some connection) :
    Watches (refuse fd connection machine).worker := by
  unfold refuse
  dsimp only
  split
  · apply closeClient_watches
    exact tended.elsewhere.frame (fun _ _ => rfl) (fun _ _ => rfl) (keeps_of_same rfl fun _ => rfl)
  · apply flushIdle_watches
    refine tended.put (connection.answered badRequest.toString) ?_ rfl rfl ?_
    · exact fun busy => ⟨connection, live, busy, rfl⟩
    · exact keeps_of_same rfl fun index => processings_append index machine.worker.trace [_]

theorem dispatch_watches {fd : Nat} {connection : Connection} {machine : Machine}
    (elsewhere : Elsewhere fd machine.worker)
    (unheard : processings machine.worker.tasks.length machine.worker.trace = 0) :
    Watches (dispatch fd connection machine).worker := by
  unfold dispatch
  dsimp only
  split
  next unwatched call =>
    apply closeClient_watches
    rw [(modifyFd_spec _ _ _ _ _ call).1]
    exact elsewhere.put { connection with requestInFlight := true } rfl rfl (keeps_of_same rfl fun _ => rfl)
  next watched call =>
    have same := (modifyFd_spec _ _ _ _ _ call).1
    rw [if_pos rfl] at same
    have begun : Elsewhere fd watched.worker := by
      rw [same]
      apply elsewhere.frame
      · exact fun other different => AList.lookup_insert_ne different
      · exact fun other different => AList.lookup_insert_ne different
      · exact keeps_of_same rfl fun _ => rfl
    have noted : processings watched.worker.tasks.length watched.worker.trace = 0 := by
      rw [same]
      exact unheard
    have masked : watched.worker.interest.lookup fd = some { readHangup := true } := by
      rw [same]
      exact AList.lookup_insert _
    have stands : watched.worker.connections.lookup fd = some { connection with requestInFlight := true } := by
      rw [same]
      exact AList.lookup_insert _
    split
    · apply flushIdle_watches
      have keeps : Keeps watched.worker (watched.worker.submit fd { connection with requestInFlight := true }) := by
        constructor
        · intro index task found
          refine ⟨task.progress, ?_⟩
          exact (List.getElem?_append_left (List.getElem?_eq_some_iff.mp found).1).trans found
        · exact fun index => processings_append index watched.worker.trace [_]
      refine ⟨begun.frame (fun _ _ => rfl) (fun _ _ => rfl) keeps, fun found live flies => ?_⟩
      have own : found = { connection with requestInFlight := true } := Option.some.inj (live.symm.trans stands)
      rw [own]
      refine ⟨⟨_, masked, rfl, Bool.noConfusion, Bool.noConfusion⟩, Bool.noConfusion, fun _ => ?_⟩
      refine ⟨watched.worker.tasks.length, _, List.getElem?_concat_length, rfl, rfl, ?_⟩
      exact (processings_append _ watched.worker.trace [_]).trans noted
    · apply flushIdle_watches
      apply Watches.tended
      apply flushClient_watches
      constructor
      · exact begun.put _ rfl rfl (keeps_of_same rfl fun index => processings_append index watched.worker.trace [_])
      · intro found live flies
        have own : found = Connection.answered overloaded.toString { connection with requestInFlight := false } :=
          Option.some.inj (live.symm.trans (AList.lookup_insert _))
        rw [own] at flies
        exact absurd flies Bool.noConfusion

theorem handleClient_watches {fd : Nat} {machine : Machine} (watches : Watches machine.worker)
    (unheard : processings machine.worker.tasks.length machine.worker.trace = 0) :
    Watches (handleClient fd machine).worker := by
  unfold handleClient
  split
  · exact watches
  next connection live =>
    split
    next ended reads read loop =>
    have frame := (readLoop_spec _ _ _ _ _ loop).1
    have flies := congrArg Connection.requestInFlight frame
    have generation := congrArg Connection.generation frame
    have heard : Tended fd (machine.worker.put fd read) := by
      refine (watches.tended fd).put read ?_ rfl rfl (keeps_of_same rfl fun _ => rfl)
      exact fun busy => ⟨connection, live, flies.symm.trans busy, generation.symm⟩
    dsimp only
    cases ended with
    | failed => exact closeClient_watches heard.elsewhere
    | complained => exact closeClient_watches heard.elsewhere
    | refused => exact refuse_watches heard (lookup_put _ _ _)
    | complete => exact dispatch_watches heard.elsewhere unheard
    | blocked => exact flushIdle_watches heard
    | peerClosed => exact flushIdle_watches heard

theorem turnAway_watches {worker : Worker} (fd : Nat) (watches : Watches worker) : Watches (worker.turnAway fd) := by
  refine watches.frame rfl (fun _ _ => rfl) (keeps_of_same rfl fun index => ?_)
  calc processings index ((worker.trace ++ [.accepted fd none]) ++ [.closed fd])
      = processings index (worker.trace ++ [.accepted fd none]) + 0 :=
        processings_append index (worker.trace ++ [.accepted fd none]) [.closed fd]
    _ = processings index worker.trace := processings_append index worker.trace [.accepted fd none]

theorem connect_watches {worker : Worker} (fd : Nat) (clientIp : Bytes) (watches : Watches worker) :
    Watches (worker.connect fd clientIp) := by
  have others : Elsewhere fd (worker.connect fd clientIp) := by
    refine (watches.tended fd).elsewhere.frame ?_ ?_ ?_
    · exact fun other different => AList.lookup_insert_ne different
    · exact fun other different => AList.lookup_insert_ne different
    · exact keeps_of_same rfl fun index => processings_append index worker.trace [_]
  apply others.watches
  intro connection live
  have listed : (worker.connect fd clientIp).interest.lookup fd = some { input := true, readHangup := true } :=
    AList.lookup_insert _
  have own : (worker.connect fd clientIp).connections.lookup fd = some
      { fd := fd, clientIp := clientIp, generation := worker.nextGeneration, serial := worker.accepted } :=
    AList.lookup_insert _
  rw [own, Option.some.injEq] at live
  rw [← live]
  exact ⟨⟨_, listed, rfl, fun _ => rfl, fun _ some => absurd rfl some⟩, fun _ => Bool.noConfusion, Bool.noConfusion⟩

theorem acceptClients_watches {worker : Worker} (outcomes : List AcceptOutcome) (watches : Watches worker) :
    Watches (acceptClients outcomes worker).2 := by
  induction outcomes generalizing worker with
  | nil => exact watches
  | cons outcome rest ih =>
    unfold acceptClients
    split
    · exact watches
    · cases outcome with
      | again => exact watches
      | failed => exact watches
      | interrupted => exact ih watches
      | client fd address nonblocking registered =>
        have turned := turnAway_watches fd watches
        dsimp only
        split
        · exact watches
        · split
          · exact ih turned
          · split
            · exact ih (connect_watches fd _ watches)
            · exact ih turned

theorem settle_watches {machine : Machine} (fd : Nat) (watches : Watches machine.worker) :
    Watches (settle machine fd).worker := by
  unfold settle
  split
  · exact watches
  · split
    · exact watches
    · split
      · exact flushClient_watches (watches.tended fd)
      · exact closeClient_watches (watches.tended fd).elsewhere

theorem foldl_watches {machine : Machine} (fds : List Nat) (watches : Watches machine.worker) :
    Watches (fds.foldl settle machine).worker := by
  induction fds generalizing machine with
  | nil => exact watches
  | cons fd rest ih => exact ih (settle_watches fd watches)

theorem sweep_watches {machine : Machine} (watches : Watches machine.worker) : Watches (sweep machine).worker :=
  foldl_watches _ watches

def Apart (listener : Option Nat) (worker : Worker) : Prop := ∀ fd, listener = some fd → fd ∉ worker.connections

theorem beginDrain_watches {machine : Machine} (listener : Option Nat) (apart : Apart listener machine.worker)
    (watches : Watches machine.worker) : Watches (beginDrain listener machine).2.worker := by
  unfold beginDrain
  split
  · exact watches
  · apply sweep_watches
    cases listener with
    | none => exact watches.frame rfl (fun _ _ => rfl) (keeps_of_same rfl fun _ => rfl)
    | some own =>
      refine watches.frame rfl ?_ (keeps_of_same rfl fun index => processings_append index machine.worker.trace [_])
      intro fd present
      have different : fd ≠ own := fun same => apart own rfl (same ▸ present)
      exact AList.lookup_erase_ne different

theorem noticeShutdown_watches {machine : Machine} (apart : Apart machine.worker.listenerFd machine.worker)
    (watches : Watches machine.worker) : Watches (noticeShutdown machine).2.worker := by
  unfold noticeShutdown
  split
  · exact beginDrain_watches _ apart watches
  · exact watches

theorem finishIteration_watches {machine : Machine} (apart : Apart machine.worker.listenerFd machine.worker)
    (watches : Watches machine.worker) : Watches (finishIteration machine) := by
  let begun := beginDrain machine.worker.listenerFd machine
  have drained : Watches (if machine.worker.shutdownRequested then
      { begun.2 with worker := { begun.2.worker with listenerFd := begun.1 } } else machine).worker := by
    split
    · exact (beginDrain_watches _ apart watches).frame rfl (fun _ _ => rfl) (keeps_of_same rfl fun _ => rfl)
    · exact watches
  have swept (left : Machine) (watched : Watches left.worker) :
      Watches { (if left.worker.draining then sweep left else left).worker with phase := .testing } := by
    split
    · exact (sweep_watches watched).frame rfl (fun _ _ => rfl) (keeps_of_same rfl fun _ => rfl)
    · exact watched.frame rfl (fun _ _ => rfl) (keeps_of_same rfl fun _ => rfl)
  exact swept _ drained

theorem handleListener_watches {machine : Machine} (events : Events) (watches : Watches machine.worker) :
    Watches (handleListener events machine).worker := by
  unfold handleListener
  split
  · exact watches
  · split
    · exact watches.frame rfl (fun _ _ => rfl) (keeps_of_same rfl fun _ => rfl)
    · split
      · exact acceptClients_watches _ watches
      · exact watches

theorem Watched.hangUp {worker : Worker} {fd : Nat} {connection : Connection} (watched : Watched worker fd connection)
    (pending : connection.requestInFlight = false → connection.pendingBytes ≠ 0) :
    Watched worker fd { connection with peerClosed := true } where
  mask := by
    obtain ⟨mask, listed, suits⟩ := watched.mask
    exact ⟨mask, listed, suits.hangup, suits.input, suits.output⟩
  ending idle _ := pending idle
  owned := watched.owned

/-- A client whose peer has closed is dropped once all was sent. -/
theorem handleReady_watches {fd : Nat} {machine : Machine} (events : Events) (watches : Watches machine.worker)
    (unheard : processings machine.worker.tasks.length machine.worker.trace = 0) :
    Watches (handleReady fd events machine).worker := by
  unfold handleReady
  split
  · exact closeClient_watches (watches.tended fd).elsewhere
  dsimp only
  generalize readEq : (if events.input = true then _ else machine) = read
  have heard : Watches read.worker := by
    rw [← readEq]
    split
    · exact handleClient_watches watches unheard
    · exact watches
  split
  · exact heard
  next connection live =>
  generalize hungEq : (if events.readHangup = true then _ else read) = hung
  have keeps : Keeps read.worker (read.worker.put fd { connection with peerClosed := true }) :=
    keeps_of_same rfl fun _ => rfl
  have hanging : Tended fd hung.worker := by
    rw [← hungEq]
    split
    · exact (heard.tended fd).put { connection with peerClosed := true } (fun busy => ⟨connection, live, busy, rfl⟩) rfl rfl keeps
    · exact heard.tended fd
  -- without a flush a closed connection may have nothing left to wait for, and is closed below
  have unflushed (found : Connection) (there : hung.worker.connections.lookup fd = some found)
      (stays : ¬(!found.requestInFlight && found.peerClosed && decide (found.pendingBytes = 0)) = true) :
      Watched hung.worker fd found := by
    rw [← hungEq] at there ⊢
    split at there
    next hangup =>
      rw [if_pos hangup]
      have own : found = { connection with peerClosed := true } := Option.some.inj (there.symm.trans (lookup_put _ _ _))
      rw [own] at stays ⊢
      refine ((heard fd connection live).hangUp fun idle nothing => stays ?_).keep rfl keeps
      unfold Connection.pendingBytes at nothing ⊢
      simp [idle, nothing]
    next steady =>
      rw [if_neg steady]
      exact heard fd found there
  generalize flushedEq : (if events.output = true then _ else hung) = flushed
  have flushing (stays : ∀ found, flushed.worker.connections.lookup fd = some found →
      ¬(!found.requestInFlight && found.peerClosed && decide (found.pendingBytes = 0)) = true) :
      Watches flushed.worker := by
    rw [← flushedEq] at stays ⊢
    split
    · exact flushClient_watches hanging
    next unwritable =>
      rw [if_neg unwritable] at stays
      exact hanging.elsewhere.watches fun found there => unflushed found there (stays found there)
  split
  next gone =>
    apply flushing
    intro found there
    rw [gone] at there
    exact absurd there (Option.some_ne_none found).symm
  next found there =>
    split
    next ended =>
      apply closeClient_watches
      rw [← flushedEq]
      split
      · exact ((flushClient_watches hanging).tended fd).elsewhere
      · exact hanging.elsewhere
    next stays =>
      apply flushing
      intro other same
      rw [there, Option.some.injEq] at same
      rw [← same]
      exact stays

/-- What one event leaves; the worker's own descriptors are none of the clients'. -/
theorem handleEvent_watches {machine : Machine} (ready : Ready) (rest : List Ready)
    (apart : Apart machine.worker.listenerFd machine.worker) (watches : Watches machine.worker)
    (unheard : processings machine.worker.tasks.length machine.worker.trace = 0) :
    Watches (handleEvent ready rest machine) := by
  have noticed := noticeShutdown_watches apart watches
  have still : processings (noticeShutdown machine).2.worker.tasks.length (noticeShutdown machine).2.worker.trace = 0 := by
    have chain := (noticeShutdown_chain { notice := .event } machine fun _ _ => by decide).1
    rw [(Submission.noticeShutdown_spares machine).tasks]
    exact chain.preserves (fun worker => processings machine.worker.tasks.length worker.trace = 0)
      (fun _ _ action none => (action_processings action _).trans none) unheard
  unfold handleEvent
  dsimp only
  split
  · exact noticed.frame rfl (fun _ _ => rfl) (keeps_of_same rfl fun _ => rfl)
  · split
    · exact (handleListener_watches ready.events noticed).frame rfl (fun _ _ => rfl) (keeps_of_same rfl fun _ => rfl)
    · split
      · exact (handleReady_watches ready.events noticed still).frame rfl (fun _ _ => rfl) (keeps_of_same rfl fun _ => rfl)
      · exact noticed.frame rfl (fun _ _ => rfl) (keeps_of_same rfl fun _ => rfl)

theorem Watched.pop {worker : Worker} {fd : Nat} {connection : Connection} (watched : Watched worker fd connection)
    (completion : Completion) (rest : List Completion) (genuine : Genuine worker.tasks completion)
    (other : fd ≠ completion.clientFd ∨ connection.generation ≠ completion.generation) :
    Watched (worker.pop completion rest) fd connection where
  mask := watched.mask
  ending := watched.ending
  owned busy := by
    obtain ⟨index, task, found, clientFd, generation, unpopped⟩ := watched.owned busy
    obtain ⟨popped, response, there, _, shape⟩ := genuine
    have different : index ≠ completion.task := by
      intro same
      rw [same, there, Option.some.injEq] at found
      rw [← found] at clientFd generation
      rcases other with elsewhere | later
      · exact elsewhere (clientFd.symm.trans (congrArg Completion.clientFd shape).symm)
      · exact later (generation.symm.trans (congrArg Completion.generation shape).symm)
    refine ⟨index, task, found, clientFd, generation, ?_⟩
    calc processings index (worker.trace ++ [.processed completion.task])
        = processings index worker.trace + processings index [.processed completion.task] := processings_append _ _ _
      _ = 0 := by
        rw [unpopped]
        simp [processings, Effect.processes, Ne.symm different]

/-- The completion of a task finds the connection that waits for it, if it still lives. -/
theorem deliver_watches (machine : Machine) (completion : Completion) (rest : List Completion)
    (genuine : Genuine machine.worker.tasks completion) (watches : Watches machine.worker) :
    Watches (deliver completion { machine with worker := machine.worker.pop completion rest }).worker := by
  have elsewhere : Elsewhere completion.clientFd (machine.worker.pop completion rest) :=
    fun other connection different live => (watches other connection live).pop completion rest genuine (.inl different)
  unfold deliver
  split
  next none =>
    apply elsewhere.watches
    intro connection live
    rw [none] at live
    exact absurd live (Option.some_ne_none connection).symm
  next connection live =>
    split
    next own =>
      dsimp only
      split
      · apply flushClient_watches
        constructor
        · exact elsewhere.put _ rfl rfl (keeps_of_same rfl fun index => processings_append index _ [_])
        · intro found there flies
          have landed := Option.some.inj (there.symm.trans (lookup_put _ _ _))
          rw [landed] at flies
          exact absurd flies Bool.noConfusion
      · apply closeClient_watches
        exact elsewhere.put _ rfl rfl (keeps_of_same rfl fun _ => rfl)
    next foreign =>
      apply elsewhere.watches
      intro found there
      rw [live, Option.some.injEq] at there
      rw [← there]
      have watched := watches completion.clientFd connection live
      by_cases busy : connection.requestInFlight = true
      · apply watched.pop completion rest genuine
        refine .inr fun same => foreign ?_
        simp [same, busy]
      · exact ⟨watched.mask, watched.ending, fun flies => absurd flies busy⟩

theorem exit_watches {worker : Worker} (completed : Bool) (watches : Watches worker) :
    Watches (worker.exit completed) := by
  obtain ⟨more, trace, unconcerned⟩ := exit_trace completed worker
  have keeps : Keeps worker (worker.exit completed) := by
    apply keeps_of_same (exit_frame completed worker).1
    intro index
    rw [trace, processings_append, (unconcerned index).1, Nat.add_zero]
  have same : (worker.exit completed).connections = worker.connections ∧
      (worker.exit completed).interest = worker.interest := by
    unfold Worker.exit
    dsimp only
    split
    · exact ⟨rfl, rfl⟩
    · exact ⟨rfl, rfl⟩
  exact watches.frame same.1 (fun _ _ => by rw [same.2]) keeps

theorem setTask_watches {worker after : Worker} (index : Nat) (task : Task) (progress : Progress)
    (watches : Watches worker) (found : worker.tasks[index]? = some task)
    (tasks : after.tasks = (worker.setTask index task progress).tasks) (connections : after.connections = worker.connections)
    (interest : after.interest = worker.interest) (trace : after.trace = worker.trace) : Watches after := by
  refine watches.frame connections (fun _ _ => by rw [interest]) ⟨fun other earlier present => ?_, fun _ => by rw [trace]⟩
  rw [tasks]
  show ∃ later, (worker.tasks.set index { task with progress := progress })[other]? = some { earlier with progress := later }
  by_cases here : index = other
  · rw [← here, found, Option.some.injEq] at present
    rw [← here, ← present]
    exact ⟨progress, List.getElem?_set_self (List.getElem?_eq_some_iff.mp found).1⟩
  · rw [List.getElem?_set_ne here]
    exact ⟨earlier.progress, present⟩

structure Fit (worker : Worker) : Prop where
  apart : Apart worker.listenerFd worker
  unheard : processings worker.tasks.length worker.trace = 0
  genuine : ∀ completion ∈ worker.completed, Genuine worker.tasks completion

theorem step_watches {worker : Worker} (label : Label) (fit : Fit worker) (watches : Watches worker) :
    Watches (step worker label) := by
  have calm {after : Worker} (connections : after.connections = worker.connections)
      (interest : after.interest = worker.interest) (tasks : after.tasks = worker.tasks)
      (trace : after.trace = worker.trace) : Watches after :=
    watches.frame connections (fun _ _ => by rw [interest]) (keeps_of_same tasks fun _ => by rw [trace])
  cases label with
  | requestShutdown => exact calm rfl rfl rfl rfl
  | test =>
    simp only [step]
    split
    · split
      · exact exit_watches true watches
      · exact calm rfl rfl rfl rfl
    · exact watches
  | wait outcome =>
    simp only [step]
    split
    · cases outcome with
      | ready batch =>
        dsimp only
        split
        · exact calm rfl rfl rfl rfl
        · exact watches
      | interrupted => exact calm rfl rfl rfl rfl
      | failed => exact exit_watches false watches
    · exact watches
  | handle script =>
    simp only [step]
    split
    next ready rest handled => exact handleEvent_watches ready rest fit.apart watches fit.unheard
    next => exact watches
  | iterate =>
    simp only [step]
    split
    · exact calm rfl rfl rfl rfl
    · exact watches
  | collect =>
    simp only [step]
    split
    · exact calm rfl rfl rfl rfl
    · exact watches
  | apply script =>
    simp only [step]
    split
    · split
      · exact calm rfl rfl rfl rfl
      next completion rest queued =>
        have genuine := fit.genuine completion (by rw [queued]; exact List.mem_cons_self)
        have delivered : Watches (deliver completion ⟨worker.pop completion rest, script⟩).worker :=
          deliver_watches ⟨worker, script⟩ completion rest genuine watches
        exact delivered.frame rfl (fun _ _ => rfl) (keeps_of_same rfl fun _ => rfl)
    · exact watches
  | finish script =>
    simp only [step]
    split
    · exact finishIteration_watches fit.apart watches
    · exact watches
  | runHandler index outcome =>
    simp only [step, Worker.runHandler]
    split
    next task found =>
      split
      · exact setTask_watches index task _ watches found rfl rfl rfl rfl
      · exact watches
    next => exact watches
  | push index =>
    simp only [step, Worker.pushCompletion]
    split
    next task found =>
      split
      next response _ => exact setTask_watches index task (.posted response) watches found rfl rfl rfl rfl
      next => exact watches
    next => exact watches
  | notify index =>
    simp only [step, Worker.notify]
    split
    next task found =>
      split
      next response _ => exact setTask_watches index task (.notified response) watches found rfl rfl rfl rfl
      next => exact watches
    next => exact watches

theorem fit_of_attended {listener completion : Nat} {worker : Worker} (attended : Attended listener completion worker)
    (isolated : Isolated worker) : Fit worker where
  apart fd own present := by
    have distinct := (attended.clients fd present).2.1
    rcases attended.listenerFd with gone | stays
    · rw [gone] at own
      exact absurd own (Option.some_ne_none fd).symm
    · rw [stays, Option.some.injEq] at own
      exact distinct own.symm
  unheard := Outstanding.Isolated.unheard isolated
  genuine pending member := isolated.genuine pending (List.mem_append_right _ member)

theorem run_watches (workerId listenerFd completionFd : Nat) (labels : List Label) :
    Watches (run step (start workerId listenerFd completionFd) labels) := by
  induction labels using List.reverseRecOn with
  | nil => exact fun fd connection live => absurd live (by simp [run, start])
  | append_singleton front label ih =>
    rw [run_append]
    apply step_watches label _ ih
    exact fit_of_attended (run_attended workerId listenerFd completionFd front)
      (run_isolated workerId listenerFd completionFd front)

end FleetGateway.Network.Interest
