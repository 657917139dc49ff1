import FleetGateway.Gateway.Delivery
import FleetGateway.Network.Hearing
import FleetGateway.Network.Stream

/-! What the server sends back for what it reads. The bytes a client has received are the beginning of
responses, each of them right for the bytes that were read from this client. -/

namespace FleetGateway.Gateway.Exchange
open Library Library.ByteStore Library.Run Http.Fragmentation Storage.Format Network Network.Submission Network.Identity
  Network.Stream Network.Isolation Routes Server Transitions Tasks Answers Service Delivery
open EventLoop (Worker Connection Origin Effect)

theorem action_speaks {context : Actions.Context} {before after : Worker} (action : Actions.Action context before after)
    (serial : Nat) : Even serial before.trace after.trace ∨
      ∃ fd connection, after.connections.lookup fd = some connection ∧ connection.serial = serial := by
  have one {effect : Effect} (sender : Nat) (trace : after.trace = before.trace ++ [effect])
      (others : ∀ other, other ≠ sender → Effect.takes other effect = [] ∧ Effect.adds other effect = [])
      (there : ∃ fd connection, after.connections.lookup fd = some connection ∧ connection.serial = sender) :
      Even serial before.trace after.trace ∨
        ∃ fd connection, after.connections.lookup fd = some connection ∧ connection.serial = serial := by
    by_cases own : serial = sender
    · rw [own]
      exact .inr there
    · rw [trace]
      exact .inl (even_emit serial _ _ (others serial own).1 (others serial own).2)
  cases action with
  | advance fd connection offset reaches onward within =>
    exact one connection.serial rfl (fun other different => ⟨if_neg different.symm, rfl⟩)
      ⟨fd, _, AList.lookup_insert _, rfl⟩
  | refuse fd connection read hears fits =>
    exact one read.serial rfl (fun other different => ⟨rfl, if_neg different.symm⟩) ⟨fd, _, AList.lookup_insert _, rfl⟩
  | overload fd connection read hears fits =>
    exact one read.serial rfl (fun other different => ⟨rfl, if_neg different.symm⟩) ⟨fd, _, AList.lookup_insert _, rfl⟩
  | answer completion connection popped live same inFlight fits =>
    exact one connection.serial rfl (fun other different => ⟨rfl, if_neg different.symm⟩)
      ⟨completion.clientFd, _, AList.lookup_insert _, rfl⟩
  | close fd connection live => exact .inl (even_emit serial _ _ rfl rfl)
  | connect fd clientIp unused running => exact .inl (even_emit serial _ _ rfl rfl)
  | dispatch fd connection read hears running => exact .inl (even_emit serial _ _ rfl rfl)
  | turnAway fd unused running =>
    have accepted := even_emit serial before.trace (.accepted fd none) rfl rfl
    have closed := even_emit serial (before.trace ++ [.accepted fd none]) (.closed fd) rfl rfl
    exact .inl ⟨closed.1.trans accepted.1, closed.2.trans accepted.2⟩
  | drain noticed asked running =>
    left
    cases before.listenerFd with
    | none => exact even_refl serial _
    | some fd => exact even_emit serial _ _ rfl rfl
  | _ => exact .inl (even_refl serial _)

/-- No socket took more than was appended for it, also of connections that are closed. -/
structure Trails (worker : Worker) : Prop where
  streams : Streams worker
  taken : ∀ serial, takenBy serial worker.trace <+: appendedTo serial worker.trace

theorem action_trails {context : Actions.Context} {before after : Worker} (action : Actions.Action context before after)
    (trails : Trails before) : Trails after where
  streams := action_streams action trails.streams
  taken serial := by
    rcases action_speaks action serial with ⟨taken, appended⟩ | ⟨fd, connection, there, own⟩
    · rw [taken, appended]
      exact trails.taken serial
    · rw [← own, ← ((action_streams action trails.streams).balanced fd connection there).equal]
      exact List.prefix_append _ _

theorem Trails.quiet {before after : Worker} (trails : Trails before) (quiet : Network.Transitions.Quiet before after) :
    Trails after where
  streams := trails.streams.keep (trails.streams.identified.quiet quiet) quiet.accepted
    (fun fd _ found => by rwa [quiet.connections] at found) (even_quiet quiet)
  taken serial := by
    obtain ⟨taken, appended⟩ := even_quiet quiet serial
    rw [taken, appended]
    exact trails.taken serial

theorem run_trails (loop : Loop) (labels : List EventLoop.Label) : Trails (run EventLoop.step loop.start labels) := by
  have initially : Trails loop.start :=
    ⟨⟨start_identified _ _ _, fun _ _ live => absurd live (Option.some_ne_none _).symm, fun _ _ => ⟨rfl, rfl⟩⟩,
      fun _ => List.nil_prefix⟩
  refine run_invariant EventLoop.step Trails (fun _ => True) (fun worker label _ trails => ?_) _ labels
    (fun _ _ => trivial) initially
  obtain ⟨first, last, quiet, moves, quiet'⟩ := (Network.Transitions.any_transition worker label).loop
  have moved := moves.preserves Trails (fun _ _ _ _ => action_trails) (trails.quiet quiet)
  exact moved.quiet quiet'

def hears (index : Nat) (server : TCPServer) : Label → List (Nat × Bytes)
  | .loop loop label =>
    if loop = index then
      match server.workers[index]? with
      | none => []
      | some worker =>
        if Label.isLoop label then
          Hearing.hears worker (Label.withRoom (server.pool.submit ⟨index, worker.tasks.length⟩).1 label)
        else []
    else []
  | _ => []

def heard (index : Nat) : TCPServer → List Label → List (Nat × Bytes)
  | _, [] => []
  | server, label :: rest => hears index server label ++ heard index (step server label) rest

inductive Turn (server : TCPServer) (label : Label) (after : List Worker) : Prop
  | still (same : after = server.workers) (silent : ∀ index, hears index server label = [])
  | moved (changed : Nat) (worker : Worker) (action : EventLoop.Label)
      (found : server.workers[changed]? = some worker)
      (set : after = server.workers.set changed (EventLoop.step worker action))
      (own : hears changed server label = Hearing.hears worker action)
      (others : ∀ index, index ≠ changed → hears index server label = [])

theorem loop_turn (server : TCPServer) (index : Nat) (label : EventLoop.Label) :
    Turn server (.loop index label) (server.loop index label).workers := by
  have others (other : Nat) (different : other ≠ index) : hears other server (.loop index label) = [] :=
    if_neg different.symm
  unfold TCPServer.loop
  cases found : server.workers[index]? with
  | none =>
    refine .still rfl fun other => ?_
    by_cases same : other = index
    · rw [hears, same, if_pos rfl, found]
    · exact others other same
  | some worker =>
    dsimp only
    split
    next own =>
      refine .moved index worker _ found rfl ?_ others
      rw [hears, if_pos rfl, found]
      exact if_pos own
    next foreign =>
      refine .still rfl fun other => ?_
      by_cases same : other = index
      · rw [hears, same, if_pos rfl, found]
        exact if_neg foreign
      · exact others other same

theorem step_turn (server : TCPServer) (label : Label) : Turn server label (step server label).workers := by
  cases label with
  | loop index label => exact loop_turn server index label
  | observe index =>
    simp only [step, TCPServer.observe]
    split
    · exact .still rfl fun _ => rfl
    next worker found =>
      split
      · exact .moved index worker .requestShutdown found rfl rfl fun _ _ => rfl
      · exact .still rfl fun _ => rfl
  | respond thread surroundings =>
    simp only [step, TCPServer.respond]
    split
    · exact .still rfl fun _ => rfl
    · split
      next task worker allowed known found returned =>
        split
        · exact .moved _ worker _ found rfl rfl fun _ _ => rfl
        · exact .still rfl fun _ => rfl
      next => exact .still rfl fun _ => rfl
  | push thread =>
    simp only [step, TCPServer.touch]
    split
    · exact .still rfl fun _ => rfl
    · split
      · exact .still rfl fun _ => rfl
      next worker found =>
        split
        · exact .still rfl fun _ => rfl
        · exact .moved _ worker _ found rfl rfl fun _ _ => rfl
  | notify thread =>
    simp only [step, TCPServer.touch]
    split
    · exact .still rfl fun _ => rfl
    · split
      · exact .still rfl fun _ => rfl
      next worker found =>
        split
        · exact .still rfl fun _ => rfl
        · exact .moved _ worker _ found rfl rfl fun _ _ => rfl
  | check thread =>
    refine .still ?_ fun _ => rfl
    simp only [step, TCPServer.check]
    split
    · rfl
    · split
      · rfl
      · rfl
  | lookup thread | insert thread | consume thread =>
    refine .still ?_ fun _ => rfl
    simp only [step, TCPServer.limit]
    split
    · rfl
    · rfl
  | finish thread =>
    refine .still ?_ fun _ => rfl
    simp only [step, TCPServer.finish]
    split
    · rfl
    · split
      · rfl
      · split
        · rfl
        · rfl
  | windDown =>
    refine .still ?_ fun _ => rfl
    simp only [step, TCPServer.windDown]
    split
    · rfl
    · rfl
  | _ => exact .still rfl fun _ => rfl

def Heeds (index : Nat) (record : List (Nat × Bytes)) (server : TCPServer) : Prop :=
  ∀ worker, server.workers[index]? = some worker → Hearing.Faithful record worker ∧ Identified worker

theorem step_heeds {index : Nat} {record : List (Nat × Bytes)} {server : TCPServer} (label : Label)
    (heeds : Heeds index record server) : Heeds index (record ++ hears index server label) (step server label) := by
  intro worker here
  cases step_turn server label with
  | still same silent =>
    rw [silent, List.append_nil]
    rw [same] at here
    exact heeds worker here
  | moved changed old action found set own others =>
    rw [set] at here
    by_cases turned : index = changed
    · subst turned
      rw [List.getElem?_set_self (List.getElem?_eq_some_iff.mp found).1, Option.some.injEq] at here
      obtain ⟨faithful, identified⟩ := heeds old found
      rw [← here, own]
      exact ⟨Hearing.step_faithful action faithful identified,
        transition_identified (Network.Transitions.any_transition old action) identified⟩
    · rw [List.getElem?_set_ne (Ne.symm turned)] at here
      rw [others index turned, List.append_nil]
      exact heeds worker here

theorem run_heeds {index : Nat} {record : List (Nat × Bytes)} {server : TCPServer} (labels : List Label)
    (heeds : Heeds index record server) : Heeds index (record ++ heard index server labels) (run step server labels) := by
  induction labels generalizing record server with
  | nil =>
    rw [heard, List.append_nil]
    exact heeds
  | cons label rest ih =>
    rw [heard, ← List.append_assoc, run_cons]
    exact ih (step_heeds label heeds)

theorem start_heeds (setup : Setup) (index : Nat) : Heeds index [] (start setup) := by
  intro worker here
  rw [show (start setup).workers = setup.loops.map Loop.start from rfl, List.getElem?_map] at here
  obtain ⟨loop, _, rfl⟩ := Option.map_eq_some_iff.mp here
  exact ⟨Hearing.start_faithful _ _ _, start_identified _ _ _⟩

/-- A response that is right for what a client sent. -/
inductive Right (server : TCPServer) (index : Nat) (said : Meaning) : Bytes → Prop
  | badRequest (rejected : said = .rejected) : Right server index said EventLoop.badRequest.toString
  | overloaded (request : Http.Parser.HttpRequest) (requested : said = .request request) :
      Right server index said EventLoop.overloaded.toString
  | answered (answer : Answer) (given : answer ∈ server.answers) (own : answer.ticket.worker = index)
      (requested : said = .request answer.request) : Right server index said answer.response.toString

def Effect.response (serial : Nat) : Effect → Option Bytes
  | .appended other _ bytes => if other = serial then some bytes else none
  | _ => none

def responses (serial : Nat) (trace : List Effect) : List Bytes := trace.filterMap (Effect.response serial)

theorem appendedTo_responses (serial : Nat) (trace : List Effect) :
    appendedTo serial trace = (responses serial trace).flatten := by
  induction trace with
  | nil => rfl
  | cons effect rest ih =>
    have head : appendedTo serial (effect :: rest) = Effect.adds serial effect ++ appendedTo serial rest :=
      List.flatMap_cons
    have same : Effect.adds serial effect = (Effect.response serial effect).getD [] := by
      cases effect with
      | appended other origin bytes =>
        by_cases own : other = serial
        · rw [Effect.adds, Effect.response, if_pos own, if_pos own]
          rfl
        · rw [Effect.adds, Effect.response, if_neg own, if_neg own]
          rfl
      | _ => rfl
    rw [head, ih, same, responses, responses]
    cases given : Effect.response serial effect with
    | none => rw [List.filterMap_cons_none given]; rfl
    | some bytes => rw [List.filterMap_cons_some given]; rfl

/-- In every run of the server, as long as a loop has accepted fewer than 2^64 connections, what the socket
of a connection took is the beginning of responses, and each of them is right for the bytes that were read
from this connection: 400 if they are no request, and otherwise 503 or the answer to the request that they
begin with. The answers are those of a service that answers one request after the other. -/
theorem exchanged (setup : Setup) (opens : setup.opened.result = .ok ()) (labels : List Label) (index : Nat)
    (worker : Worker) (here : (run step (start setup) labels).workers[index]? = some worker)
    (few : worker.accepted < 2 ^ 64) :
    let server := run step (start setup) labels
    let record := heard index (start setup) labels
    Serial setup.testMode setup.recentCapacity (recovered setup) server.answers ∧
      ∀ serial, takenBy serial worker.trace <+: (responses serial worker.trace).flatten ∧
        ∀ response ∈ responses serial worker.trace, Right server index (Hearing.meant serial record) response := by
  intro server record
  have orderly : Orderly setup server := run_orderly setup labels
  obtain ⟨loop, steps, _, ran⟩ := orderly.composed.workers index worker here
  have isolated : Isolated worker := by
    rw [ran]
    exact run_isolated loop.workerId loop.listenerFd loop.completionFd steps
  have trails : Trails worker := by
    rw [ran]
    exact run_trails loop steps
  have faithful : Hearing.Faithful record worker := (run_heeds labels (start_heeds setup index) worker here).1
  refine ⟨(run_stored setup opens labels).serial, fun serial => ⟨?_, fun response among => ?_⟩⟩
  · rw [← appendedTo_responses]
    exact trails.taken serial
  obtain ⟨effect, noted, given⟩ := List.mem_filterMap.mp among
  cases effect with
  | appended other origin bytes =>
    rw [Effect.response] at given
    split at given
    next own =>
      rw [own, Option.some.inj given] at noted
      cases origin with
      | badRequest =>
        obtain ⟨rfl, rejected⟩ := faithful.refused serial response noted
        exact .badRequest rejected
      | overloaded =>
        obtain ⟨rfl, request, requested⟩ := faithful.overloaded serial response noted
        exact .overloaded request requested
      | completion task =>
        obtain ⟨own, reply, found, published, rfl, same⟩ := isolated.addressed few serial task response noted
        have known : server.taskOf ⟨index, task⟩ = some own := (taskOf_worker ⟨index, task⟩ here).trans found
        obtain ⟨answer, listed, ticket, request, _, rfl⟩ :=
          orderly.answered.find _ own reply known (response_of_published published)
        have requested := faithful.submitted (Hearing.said own) (List.mem_map_of_mem (List.mem_of_getElem? found))
        refine .answered answer listed (congrArg Ticket.worker ticket) ?_
        rw [request, ← same]
        exact requested
    next => cases given
  | _ => cases given

theorem exchanged_exchange :
    ∃ worker, (run step (start small) exchange).workers[0]? = some worker ∧
      (responses 0 worker.trace).length = 1 ∧ takenBy 0 worker.trace ≠ [] ∧
      ∀ response ∈ responses 0 worker.trace,
        Right (run step (start small) exchange) 0 (Hearing.meant 0 (heard 0 (start small) exchange)) response := by
  have known : ((run step (start small) exchange).workers[0]?).map (fun worker => (worker.accepted,
      (responses 0 worker.trace).length, decide (takenBy 0 worker.trace = []))) = some (2, 1, false) := by
    decide +kernel
  obtain ⟨worker, here, facts⟩ := Option.map_eq_some_iff.mp known
  rw [Prod.mk.injEq, Prod.mk.injEq] at facts
  have few : worker.accepted < 2 ^ 64 := by omega
  exact ⟨worker, here, facts.2.1, of_decide_eq_false facts.2.2,
    ((exchanged small (by decide +kernel) exchange 0 worker here few).2 0).2⟩

end FleetGateway.Gateway.Exchange
