import FleetGateway.Library.ByteStore
import FleetGateway.Library.Run
import FleetGateway.Security.Bucket
import Mathlib.Data.List.AList

/-! `RateLimiter`: one bucket for each address, looked up and made under a shared mutex.

What a call does under one mutex is one step: the lookup under the shared lock, the second
lookup and the insertion under the exclusive one, and the consumption under the entry's own. -/

namespace FleetGateway.Security.Limiter
open Library.Binary64 Library.ByteStore Library.Run Bucket

/-- Where a caller stands in `check`. An entry is the number of entries made before it. -/
inductive Stage where
  | outside
  | looking (ip : Bytes)
  | missed (ip : Bytes)
  | holding (ip : Bytes) (entry : Nat)
  | returned (allowed : Bool)
  deriving DecidableEq

inductive Event where
  | created (ip : Bytes) (time : Time)
  | consumed (caller : Nat) (ip : Bytes) (time : Time) (allowed : Bool)
  deriving DecidableEq

structure RateLimiter where
  capacity : Float
  refillRate : Float
  /-- What the next reading of the clock gives. -/
  clock : Time
  buckets : AList (fun _ : Bytes => Nat) := ∅
  /-- Every `BucketEntry` that was ever made. -/
  entries : List TokenBucket := []
  callers : Nat → Stage := fun _ => .outside
  /-- The insertions and the consumptions in their order; the code does not have it. -/
  history : List Event := []

def start (capacity refillRate : Float) (clock : Time) : RateLimiter where
  capacity := capacity
  refillRate := refillRate
  clock := clock

def RateLimiter.move (caller : Nat) (stage : Stage) (limiter : RateLimiter) : RateLimiter :=
  { limiter with callers := Function.update limiter.callers caller stage }

/-- The clock never goes back. -/
def RateLimiter.advance (now : Time) (limiter : RateLimiter) : RateLimiter :=
  if limiter.clock ≤ now then { limiter with clock := now } else limiter

def RateLimiter.check (caller : Nat) (ip : Bytes) (limiter : RateLimiter) : RateLimiter :=
  match limiter.callers caller with
  | .outside | .returned _ => limiter.move caller (.looking ip)
  | _ => limiter

/-- The lookup under the shared lock. -/
def RateLimiter.lookup (caller : Nat) (limiter : RateLimiter) : RateLimiter :=
  match limiter.callers caller with
  | .looking ip =>
    match limiter.buckets.lookup ip with
    | some entry => limiter.move caller (.holding ip entry)
    | none => limiter.move caller (.missed ip)
  | _ => limiter

/-- The second lookup, and the insertion, under the exclusive lock. -/
def RateLimiter.insert (caller : Nat) (limiter : RateLimiter) : RateLimiter :=
  match limiter.callers caller with
  | .missed ip =>
    match limiter.buckets.lookup ip with
    | some entry => limiter.move caller (.holding ip entry)
    | none =>
      let entry := limiter.entries.length
      { limiter.move caller (.holding ip entry) with
        buckets := limiter.buckets.insert ip entry
        entries := limiter.entries ++ [create limiter.capacity limiter.refillRate limiter.clock]
        history := limiter.history ++ [.created ip limiter.clock] }
  | _ => limiter

/-- The consumption under the entry's mutex; its result is what `check` returns. -/
def RateLimiter.consume (caller : Nat) (limiter : RateLimiter) : RateLimiter :=
  match limiter.callers caller with
  | .holding ip entry =>
    match limiter.entries[entry]? with
    | none => limiter
    | some bucket =>
      let (allowed, left) := Bucket.consume limiter.clock bucket
      { limiter.move caller (.returned allowed) with
        entries := limiter.entries.set entry left
        history := limiter.history ++ [.consumed caller ip limiter.clock allowed] }
  | _ => limiter

inductive Action where
  | advance (now : Time)
  | check (caller : Nat) (ip : Bytes)
  | lookup (caller : Nat)
  | insert (caller : Nat)
  | consume (caller : Nat)
  deriving DecidableEq

def step (limiter : RateLimiter) : Action → RateLimiter
  | .advance now => limiter.advance now
  | .check caller ip => limiter.check caller ip
  | .lookup caller => limiter.lookup caller
  | .insert caller => limiter.insert caller
  | .consume caller => limiter.consume caller

def Stage.ip : Stage → Option Bytes
  | .looking ip | .missed ip | .holding ip _ => some ip
  | .outside | .returned _ => none

def Serves (limiter : RateLimiter) (ip : Bytes) : Action → Prop
  | .advance _ => False
  | .check _ other => other = ip
  | .lookup caller | .insert caller | .consume caller => (limiter.callers caller).ip = some ip

/-- The effect of a step, with the address whose bucket or history it touches. -/
inductive Transition (limiter : RateLimiter) : Option Bytes → RateLimiter → Prop
  | idle : Transition limiter none limiter
  | clock (now : Time) : Transition limiter none { limiter with clock := now }
  | move (caller : Nat) (stage : Stage)
      (held : ∀ ip entry, stage = .holding ip entry → limiter.buckets.lookup ip = some entry) :
      Transition limiter none (limiter.move caller stage)
  | create (caller : Nat) (ip : Bytes) (absent : limiter.buckets.lookup ip = none) :
      Transition limiter (some ip) { limiter.move caller (.holding ip limiter.entries.length) with
        buckets := limiter.buckets.insert ip limiter.entries.length
        entries := limiter.entries ++ [create limiter.capacity limiter.refillRate limiter.clock]
        history := limiter.history ++ [.created ip limiter.clock] }
  | consume (caller entry : Nat) (ip : Bytes) (bucket : TokenBucket)
      (holds : limiter.callers caller = .holding ip entry) (here : limiter.entries[entry]? = some bucket) :
      Transition limiter (some ip) { limiter.move caller (.returned (Bucket.consume limiter.clock bucket).1) with
        entries := limiter.entries.set entry (Bucket.consume limiter.clock bucket).2
        history := limiter.history ++ [.consumed caller ip limiter.clock (Bucket.consume limiter.clock bucket).1] }

theorem step_transition (limiter : RateLimiter) (action : Action) :
    ∃ touched, Transition limiter touched (step limiter action) ∧ ∀ ip, touched = some ip → Serves limiter ip action := by
  cases action with
  | advance now =>
    refine ⟨none, ?_, nofun⟩
    rw [step, RateLimiter.advance]
    split
    · exact .clock now
    · exact .idle
  | check caller ip =>
    refine ⟨none, ?_, nofun⟩
    rw [step, RateLimiter.check]
    split
    · exact .move caller (.looking ip) (fun _ _ held => Stage.noConfusion held)
    · exact .move caller (.looking ip) (fun _ _ held => Stage.noConfusion held)
    · exact .idle
  | lookup caller =>
    refine ⟨none, ?_, nofun⟩
    rw [step, RateLimiter.lookup]
    split
    next ip looking =>
      split
      next entry found =>
        refine .move caller (.holding ip entry) ?_
        rintro other index ⟨⟩
        exact found
      next => exact .move caller (.missed ip) (fun _ _ held => Stage.noConfusion held)
    next => exact .idle
  | insert caller =>
    rw [step, RateLimiter.insert]
    split
    next ip missed =>
      split
      next entry found =>
        refine ⟨none, .move caller (.holding ip entry) ?_, nofun⟩
        rintro other index ⟨⟩
        exact found
      next absent =>
        refine ⟨some ip, .create caller ip absent, ?_⟩
        rintro other ⟨⟩
        rw [Serves, missed, Stage.ip]
    next => exact ⟨none, .idle, nofun⟩
  | consume caller =>
    rw [step, RateLimiter.consume]
    split
    next ip entry holds =>
      split
      next => exact ⟨none, .idle, nofun⟩
      next bucket here =>
        refine ⟨some ip, .consume caller entry ip bucket holds here, ?_⟩
        rintro other ⟨⟩
        rw [Serves, holds, Stage.ip]
    next => exact ⟨none, .idle, nofun⟩

def Event.ip : Event → Bytes
  | .created ip _ => ip
  | .consumed _ ip _ _ => ip

def about (ip : Bytes) (history : List Event) : List Event := history.filter fun event => event.ip = ip

def creations (ip : Bytes) (history : List Event) : List Time :=
  (about ip history).filterMap fun event => match event with
    | .created _ time => some time
    | .consumed .. => none

/-- The readings of the clock with which the calls for the address consumed, in their order. -/
def readings (ip : Bytes) (history : List Event) : List Time :=
  (about ip history).filterMap fun event => match event with
    | .created .. => none
    | .consumed _ _ time _ => some time

def results (ip : Bytes) (history : List Event) : List Bool :=
  (about ip history).filterMap fun event => match event with
    | .created .. => none
    | .consumed _ _ _ allowed => some allowed

def RateLimiter.bucketOf (ip : Bytes) (limiter : RateLimiter) : Option TokenBucket :=
  (limiter.buckets.lookup ip).bind fun entry => limiter.entries[entry]?

theorem about_append (ip : Bytes) (front back : List Event) : about ip (front ++ back) = about ip front ++ about ip back :=
  List.filter_append ..

theorem about_own (ip : Bytes) (event : Event) (same : event.ip = ip) : about ip [event] = [event] := by
  simp [about, same]

theorem about_other (ip : Bytes) (event : Event) (different : event.ip ≠ ip) : about ip [event] = [] := by
  simp [about, different]

inductive Replays (capacity refillRate : Float) (ip : Bytes) (limiter : RateLimiter) : Prop
  | absent (missing : limiter.buckets.lookup ip = none) (nothing : about ip limiter.history = [])
  | kept (entry : Nat) (time : Time) (found : limiter.buckets.lookup ip = some entry)
      (once : creations ip limiter.history = [time])
      (here : limiter.entries[entry]? =
        some (afterAll (readings ip limiter.history) (Bucket.create capacity refillRate time)))
      (same : results ip limiter.history =
        consumeAll (readings ip limiter.history) (Bucket.create capacity refillRate time))

/-- The state between steps. -/
structure Linear (capacity refillRate : Float) (limiter : RateLimiter) : Prop where
  parameters : limiter.capacity = capacity ∧ limiter.refillRate = refillRate
  holders : ∀ caller ip entry, limiter.callers caller = .holding ip entry → limiter.buckets.lookup ip = some entry
  inside : ∀ ip entry, limiter.buckets.lookup ip = some entry → entry < limiter.entries.length
  apart : ∀ first second entry, limiter.buckets.lookup first = some entry →
    limiter.buckets.lookup second = some entry → first = second
  replays : ∀ ip, Replays capacity refillRate ip limiter

section Step

variable {capacity refillRate : Float} {limiter next : RateLimiter} {ip : Bytes}

structure Untouched (ip : Bytes) (limiter next : RateLimiter) : Prop where
  lookup : next.buckets.lookup ip = limiter.buckets.lookup ip
  entry : ∀ entry, limiter.buckets.lookup ip = some entry → next.entries[entry]? = limiter.entries[entry]?
  history : about ip next.history = about ip limiter.history

theorem Transition.untouched (linear : Linear capacity refillRate limiter) {touched : Option Bytes}
    (transition : Transition limiter touched next) (other : touched ≠ some ip) : Untouched ip limiter next := by
  cases transition with
  | idle => exact ⟨rfl, fun _ _ => rfl, rfl⟩
  | clock now => exact ⟨rfl, fun _ _ => rfl, rfl⟩
  | move caller stage held => exact ⟨rfl, fun _ _ => rfl, rfl⟩
  | create caller made absent =>
    have different : made ≠ ip := fun same => other (by rw [same])
    refine ⟨AList.lookup_insert_ne different.symm, fun entry found => ?_, ?_⟩
    · exact List.getElem?_append_left (linear.inside ip entry found)
    · dsimp only
      rw [about_append, about_other ip (.created made limiter.clock) different, List.append_nil]
  | consume caller entry used bucket holds here =>
    have different : used ≠ ip := fun same => other (by rw [same])
    refine ⟨rfl, fun index found => ?_, ?_⟩
    · have elsewhere : entry ≠ index := by
        rintro rfl
        exact different (linear.apart used ip entry (linear.holders caller used entry holds) found)
      exact List.getElem?_set_ne elsewhere
    · dsimp only
      rw [about_append, about_other ip (.consumed caller used limiter.clock _) different, List.append_nil]

theorem Replays.of_untouched (replays : Replays capacity refillRate ip limiter)
    (untouched : Untouched ip limiter next) : Replays capacity refillRate ip next := by
  obtain ⟨lookup, entry, history⟩ := untouched
  have readings_eq : readings ip next.history = readings ip limiter.history := by rw [readings, history, readings]
  cases replays with
  | absent missing nothing => exact .absent (lookup.trans missing) (history.trans nothing)
  | kept index time found once here same =>
    refine .kept index time (lookup.trans found) ?_ ?_ ?_
    · rwa [creations, history]
    · rw [entry index found, readings_eq]
      exact here
    · rw [readings_eq, results, history]
      exact same

/-- What the own step of an address does to its history. -/
theorem Transition.replays (linear : Linear capacity refillRate limiter) {touched : Option Bytes}
    (transition : Transition limiter touched next) (ip : Bytes) : Replays capacity refillRate ip next := by
  by_cases other : touched = some ip
  swap
  · exact (linear.replays ip).of_untouched (transition.untouched linear other)
  cases transition with
  | idle => cases other
  | clock now => cases other
  | move caller stage held => cases other
  | create caller made absent =>
    cases other
    have nothing : about ip limiter.history = [] := by
      cases linear.replays ip with
      | absent _ nothing => exact nothing
      | kept entry _ found _ _ _ =>
        rw [absent] at found
        cases found
    have after : about ip (limiter.history ++ [.created ip limiter.clock]) = [.created ip limiter.clock] := by
      rw [about_append, nothing, List.nil_append, about_own ip (.created ip limiter.clock) rfl]
    obtain ⟨rfl, rfl⟩ := linear.parameters
    refine .kept limiter.entries.length limiter.clock (AList.lookup_insert _) ?_ ?_ ?_
    · dsimp only
      rw [creations, after]
      rfl
    · dsimp only
      rw [readings, after, List.getElem?_concat_length]
      rfl
    · dsimp only
      rw [results, readings, after]
      rfl
  | consume caller entry used bucket holds here =>
    cases other
    have found := linear.holders caller ip entry holds
    cases linear.replays ip with
    | absent missing _ =>
      rw [missing] at found
      cases found
    | kept kept time found' once stored same =>
      obtain rfl : kept = entry := Option.some.inj (found'.symm.trans found)
      obtain rfl := Option.some.inj (stored.symm.trans here)
      generalize allowed : (Bucket.consume limiter.clock _).1 = result
      generalize remaining : (Bucket.consume limiter.clock _).2 = left
      have own := about_own ip (.consumed caller ip limiter.clock result) rfl
      have calls : readings ip (limiter.history ++ [.consumed caller ip limiter.clock result]) =
          readings ip limiter.history ++ [limiter.clock] := by
        rw [readings, about_append, own, List.filterMap_append, ← readings]
        rfl
      have answers : results ip (limiter.history ++ [.consumed caller ip limiter.clock result]) =
          results ip limiter.history ++ [result] := by
        rw [results, about_append, own, List.filterMap_append, ← results]
        rfl
      refine .kept kept time found ?_ ?_ ?_
      · dsimp only
        rw [creations, about_append, own, List.filterMap_append, ← creations, once]
        rfl
      · dsimp only
        rw [calls, afterAll, List.foldl_append, ← afterAll, ← remaining]
        exact List.getElem?_set_self (List.getElem?_eq_some_iff.mp here).1
      · dsimp only
        rw [answers, calls, consumeAll_append, ← same, ← allowed]
        rfl

theorem holding_moved (caller other entry : Nat) (stage : Stage)
    (holds : (limiter.move caller stage).callers other = .holding ip entry) :
    stage = .holding ip entry ∨ limiter.callers other = .holding ip entry := by
  have moved : (limiter.move caller stage).callers other = Function.update limiter.callers caller stage other := rfl
  rw [moved] at holds
  by_cases same : other = caller
  · subst same
    rw [Function.update_self] at holds
    exact Or.inl holds
  · rw [Function.update_of_ne same] at holds
    exact Or.inr holds

theorem Transition.linear (linear : Linear capacity refillRate limiter) {touched : Option Bytes}
    (transition : Transition limiter touched next) : Linear capacity refillRate next := by
  have replays := transition.replays linear
  obtain ⟨parameters, holders, inside, apart, _⟩ := linear
  cases transition with
  | idle => exact ⟨parameters, holders, inside, apart, replays⟩
  | clock now => exact ⟨parameters, holders, inside, apart, replays⟩
  | move caller stage held =>
    refine ⟨parameters, fun other ip entry holds => ?_, inside, apart, replays⟩
    rcases holding_moved caller other entry stage holds with same | before
    · exact held ip entry same
    · exact holders other ip entry before
  | create caller made absent =>
    -- the new entry lies behind all entries that are known
    have lookup : ∀ ip entry, (limiter.buckets.insert made limiter.entries.length).lookup ip = some entry →
        ip = made ∧ entry = limiter.entries.length ∨ limiter.buckets.lookup ip = some entry := by
      intro ip entry found
      by_cases same : ip = made
      · subst same
        rw [AList.lookup_insert] at found
        exact Or.inl ⟨rfl, (Option.some.inj found).symm⟩
      · rw [AList.lookup_insert_ne same] at found
        exact Or.inr found
    refine ⟨parameters, fun other ip entry holds => ?_, fun ip entry found => ?_,
      fun first second entry one two => ?_, replays⟩
    · rcases holding_moved caller other entry _ holds with same | before
      · cases same
        exact AList.lookup_insert _
      · have found := holders other ip entry before
        have different : ip ≠ made := by
          rintro rfl
          rw [absent] at found
          cases found
        exact (AList.lookup_insert_ne different).trans found
    · rw [List.length_append, List.length_singleton]
      rcases lookup ip entry found with ⟨_, rfl⟩ | before
      · omega
      · have := inside ip entry before
        omega
    · rcases lookup first entry one with ⟨rfl, rfl⟩ | before
      · rcases lookup second _ two with ⟨rfl, _⟩ | other
        · rfl
        · exact absurd (inside second _ other) (Nat.lt_irrefl _)
      · rcases lookup second entry two with ⟨rfl, rfl⟩ | other
        · exact absurd (inside first _ before) (Nat.lt_irrefl _)
        · exact apart first second entry before other
  | consume caller entry used bucket holds here =>
    refine ⟨parameters, fun other ip index holding => ?_, fun ip index found => ?_, apart, replays⟩
    · rcases holding_moved caller other index _ holding with returned | before
      · cases returned
      · exact holders other ip index before
    · rw [List.length_set]
      exact inside ip index found

end Step

theorem start_linear (capacity refillRate : Float) (clock : Time) :
    Linear capacity refillRate (start capacity refillRate clock) where
  parameters := ⟨rfl, rfl⟩
  holders _ _ _ holds := nomatch holds
  inside _ _ found := nomatch found
  apart _ _ _ found := nomatch found
  replays _ := .absent rfl rfl

theorem run_linear (capacity refillRate : Float) (clock : Time) (actions : List Action) :
    Linear capacity refillRate (run step (start capacity refillRate clock) actions) := by
  apply run_invariant step (Linear capacity refillRate) (fun _ => True) _ _ _ (fun _ _ => trivial)
  · exact start_linear capacity refillRate clock
  · intro limiter action _ linear
    obtain ⟨touched, transition, _⟩ := step_transition limiter action
    exact transition.linear linear

theorem Untouched.bucketOf {ip : Bytes} {limiter next : RateLimiter} (untouched : Untouched ip limiter next) :
    next.bucketOf ip = limiter.bucketOf ip := by
  rw [RateLimiter.bucketOf, RateLimiter.bucketOf, untouched.lookup]
  cases found : limiter.buckets.lookup ip with
  | none => rfl
  | some entry => exact untouched.entry entry found

/-- Whatever the callers do and in whatever order, an address has one bucket at most, its
calls are answered as by a single bucket that was made at the insertion and called at the
same readings of the clock, and no call for another address touches the bucket or the
history. Without a refill as many calls succeed as the capacity has whole permits. -/
theorem limiter_linear (capacity refillRate : Float) (clock : Time) (actions : List Action) (ip : Bytes) :
    let limiter := run step (start capacity refillRate clock) actions
    (creations ip limiter.history).length ≤ 1 ∧
      (creations ip limiter.history = [] → about ip limiter.history = []) ∧
      (∀ time ∈ creations ip limiter.history, results ip limiter.history =
        consumeAll (readings ip limiter.history) (Bucket.create capacity refillRate time)) ∧
      (∀ action, ¬ Serves limiter ip action →
        (step limiter action).bucketOf ip = limiter.bucketOf ip ∧
          about ip (step limiter action).history = about ip limiter.history) ∧
      ((refillRate == 0.0) = true → capacity.isFinite = true → capacity ≤ largest →
        (results ip limiter.history).count true = min (readings ip limiter.history).length (floor capacity)) := by
  intro limiter
  have linear := run_linear capacity refillRate clock actions
  have isolated : ∀ action, ¬ Serves limiter ip action →
      (step limiter action).bucketOf ip = limiter.bucketOf ip ∧
        about ip (step limiter action).history = about ip limiter.history := by
    intro action other
    obtain ⟨touched, transition, serves⟩ := step_transition limiter action
    have untouched := transition.untouched linear (fun same => other (serves ip same))
    exact ⟨untouched.bucketOf, untouched.history⟩
  cases linear.replays ip with
  | absent missing nothing =>
    have none : creations ip limiter.history = [] := by rw [creations, nothing]; rfl
    refine ⟨by rw [none]; exact Nat.zero_le 1, fun _ => nothing, ?_, isolated, fun _ _ _ => ?_⟩
    · rw [none]
      exact fun _ member => absurd member List.not_mem_nil
    · rw [results, readings, nothing]
      exact (Nat.zero_min _).symm
  | kept entry time found once here same =>
    refine ⟨by rw [once]; exact Nat.le_refl 1, fun empty => ?_, ?_, isolated, fun rate finite small => ?_⟩
    · rw [once] at empty
      cases empty
    · rw [once]
      rintro other member
      rw [List.mem_singleton.mp member]
      exact same
    · rw [same]
      exact create_successes capacity refillRate time _ rate finite small

/-- Two callers race to insert, a third address is served in between, and of three calls
on a capacity of two one is refused. -/
theorem limiter_linear_race :
    let actions := [.check 0 (text "a"), .check 1 (text "a"), .lookup 0, .lookup 1, .insert 1, .advance 5, .insert 0,
      .check 2 (text "b"), .lookup 2, .insert 2, .consume 2, .consume 0, .consume 1, .check 0 (text "a"), .lookup 0,
      .consume 0]
    let limiter := run step (start 2.5 0.0 3) actions
    (readings (text "a") limiter.history).length = 3 ∧ (results (text "a") limiter.history).count true = 2 ∧
      (creations (text "a") limiter.history).length ≤ 1 := by
  intro actions limiter
  have linear := limiter_linear 2.5 0.0 3 actions (text "a")
  have calls : (readings (text "a") limiter.history).length = 3 := by decide +kernel
  have whole : floor 2.5 = 2 := by decide +kernel
  have count := linear.2.2.2.2 (by decide +kernel) (by decide +kernel) (by decide +kernel)
  rw [calls, whole] at count
  exact ⟨calls, count, linear.1⟩

section Call

variable {capacity refillRate : Float} {limiter : RateLimiter} {caller : Nat} {ip : Bytes}

theorem move_self (stage : Stage) : (limiter.move caller stage).callers caller = stage := by
  rw [RateLimiter.move]
  exact Function.update_self ..

theorem check_looks (ip : Bytes)
    (free : limiter.callers caller = .outside ∨ ∃ allowed, limiter.callers caller = .returned allowed) :
    (limiter.check caller ip).callers caller = .looking ip ∧ (limiter.check caller ip).history = limiter.history := by
  unfold RateLimiter.check
  rcases free with outside | ⟨allowed, returned⟩
  · rw [outside]
    exact ⟨move_self _, rfl⟩
  · rw [returned]
    exact ⟨move_self _, rfl⟩

theorem lookup_ends (looks : limiter.callers caller = .looking ip) :
    ((limiter.lookup caller).callers caller = .missed ip ∨
        ∃ entry, (limiter.lookup caller).callers caller = .holding ip entry) ∧
      (limiter.lookup caller).history = limiter.history := by
  unfold RateLimiter.lookup
  rw [looks]
  dsimp only
  split
  next entry _ => exact ⟨Or.inr ⟨entry, move_self _⟩, rfl⟩
  next => exact ⟨Or.inl (move_self _), rfl⟩

theorem insert_holds (before : limiter.callers caller = .missed ip ∨
      ∃ entry, limiter.callers caller = .holding ip entry) :
    (∃ entry, (limiter.insert caller).callers caller = .holding ip entry) ∧
      readings ip (limiter.insert caller).history = readings ip limiter.history := by
  unfold RateLimiter.insert
  rcases before with missed | ⟨entry, holds⟩
  · rw [missed]
    dsimp only
    split
    next entry _ => exact ⟨⟨entry, move_self _⟩, rfl⟩
    next =>
      refine ⟨⟨limiter.entries.length, move_self _⟩, ?_⟩
      dsimp only
      rw [readings, about_append, about_own ip (.created ip limiter.clock) rfl, List.filterMap_append, ← readings]
      exact List.append_nil _
  · rw [holds]
    exact ⟨⟨entry, holds⟩, rfl⟩

theorem consume_returns (linear : Linear capacity refillRate limiter) (entry : Nat)
    (holds : limiter.callers caller = .holding ip entry) :
    (∃ allowed, (limiter.consume caller).callers caller = .returned allowed) ∧
      (readings ip (limiter.consume caller).history).length = (readings ip limiter.history).length + 1 := by
  have inside := linear.inside ip entry (linear.holders caller ip entry holds)
  unfold RateLimiter.consume
  rw [holds]
  dsimp only
  rw [List.getElem?_eq_getElem inside]
  refine ⟨⟨_, move_self _⟩, ?_⟩
  dsimp only
  rw [readings, about_append, about_own ip (.consumed caller ip limiter.clock _) rfl, List.filterMap_append, ← readings,
    List.length_append]
  rfl

end Call

theorem calls_possible (capacity refillRate : Float) (clock : Time) (ip : Bytes) (count : Nat) :
    ∃ actions, (readings ip (run step (start capacity refillRate clock) actions).history).length = count ∧
      ((run step (start capacity refillRate clock) actions).callers 0 = .outside ∨
        ∃ allowed, (run step (start capacity refillRate clock) actions).callers 0 = .returned allowed) := by
  induction count with
  | zero => exact ⟨[], rfl, Or.inl rfl⟩
  | succ count ih =>
    obtain ⟨actions, length, free⟩ := ih
    let holding : List Action := [.check 0 ip, .lookup 0, .insert 0]
    refine ⟨actions ++ (holding ++ [.consume 0]), ?_⟩
    have linear := run_linear capacity refillRate clock (actions ++ holding)
    rw [run_append] at linear ⊢
    generalize run step (start capacity refillRate clock) actions = limiter at length free linear ⊢
    obtain ⟨looks, first⟩ := check_looks ip free
    obtain ⟨found, second⟩ := lookup_ends looks
    obtain ⟨⟨entry, holds⟩, third⟩ := insert_holds found
    obtain ⟨returned, fourth⟩ := consume_returns linear entry holds
    refine ⟨fourth.trans ?_, Or.inr returned⟩
    have same : readings ip (((limiter.check 0 ip).lookup 0).insert 0).history = readings ip limiter.history := by
      rw [third, second, first]
    rw [← length, ← same]
    rfl

/-- With a capacity of `2 ^ 53 + 2` the first call takes two permits away. -/
theorem limiter_linear_overfull :
    ¬ ∀ (capacity refillRate : Float) (clock : Time) (actions : List Action) (ip : Bytes),
      let limiter := run step (start capacity refillRate clock) actions
      (refillRate == 0.0) = true → capacity.isFinite = true →
        floor capacity < (readings ip limiter.history).length →
          (results ip limiter.history).count true = floor capacity := by
  intro always
  obtain ⟨actions, length, _⟩ := calls_possible beyond 0.0 0 [] (2 ^ 53 + 3)
  have whole : floor beyond = 2 ^ 53 + 2 := by decide +kernel
  have count := always beyond 0.0 0 actions [] (by decide +kernel) (by decide +kernel) (by rw [length, whole]; omega)
  have linear := run_linear beyond 0.0 0 actions
  cases linear.replays [] with
  | absent missing nothing =>
    rw [readings, nothing, List.filterMap_nil, List.length_nil] at length
    omega
  | kept entry time found once here same =>
    rw [same, whole] at count
    generalize readings [] (run step (start beyond 0.0 0) actions).history = calls at length count
    cases calls with
    | nil =>
      rw [List.length_nil] at length
      omega
    | cons now later =>
      rw [List.length_cons] at length
      rw [beyond_successes] at count
      omega

end FleetGateway.Security.Limiter
