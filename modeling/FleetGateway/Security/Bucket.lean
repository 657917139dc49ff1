import FleetGateway.Library.Binary64

/-! `TokenBucket`: permits that come back with time, counted in double precision. -/

namespace FleetGateway.Security.Bucket
open Library.Binary64

abbrev Time := Int64

structure TokenBucket where
  capacity : Float
  tokens : Float
  refillRate : Float
  lastRefillTime : Time

/-- The constructor, at its reading of the clock. -/
def create (capacity refillRate : Float) (now : Time) : TokenBucket where
  capacity := capacity
  tokens := capacity
  refillRate := refillRate
  lastRefillTime := now

def seconds (elapsed : Int64) : Float := ofInt64 elapsed / 1000000000.0

def consume (now : Time) (bucket : TokenBucket) : Bool × TokenBucket :=
  let elapsed := seconds (now - bucket.lastRefillTime)
  let refilled := bucket.tokens + elapsed * bucket.refillRate
  let tokens := if refilled < bucket.capacity then refilled else bucket.capacity
  let bucket := { bucket with tokens := tokens, lastRefillTime := now }
  if tokens < 1.0 then (false, bucket)
  else (true, { bucket with tokens := tokens - 1.0 })

def consumeAll : List Time → TokenBucket → List Bool
  | [], _ => []
  | now :: later, bucket => (consume now bucket).1 :: consumeAll later (consume now bucket).2

def afterAll (times : List Time) (bucket : TokenBucket) : TokenBucket :=
  times.foldl (fun bucket now => (consume now bucket).2) bucket

theorem consumeAll_append (front back : List Time) (bucket : TokenBucket) :
    consumeAll (front ++ back) bucket = consumeAll front bucket ++ consumeAll back (afterAll front bucket) := by
  induction front generalizing bucket with
  | nil => rfl
  | cons now later ih =>
    rw [List.cons_append, consumeAll, consumeAll, ih, List.cons_append]
    rfl

theorem finite_seconds (elapsed : Int64) : IsFinite (seconds elapsed) :=
  (moderate_quotient elapsed 1000000000.0 8388608000000000 (by decide) rfl (by decide) (by decide)).isFinite

structure Draining (bucket : TokenBucket) : Prop where
  rate : (bucket.refillRate == 0.0) = true
  capacity : IsFinite bucket.capacity
  tokens : IsFinite bucket.tokens
  within : units bucket.tokens.toModel.unpack ≤ units bucket.capacity.toModel.unpack

theorem Draining.refill_sum {bucket : TokenBucket} (draining : Draining bucket) (now : Time) :
    let refilled := bucket.tokens + seconds (now - bucket.lastRefillTime) * bucket.refillRate
    IsFinite refilled ∧ units refilled.toModel.unpack = units bucket.tokens.toModel.unpack := by
  obtain ⟨sign, zero⟩ := unpack_zero_of_beq bucket.refillRate draining.rate
  obtain ⟨product, nothing⟩ := mul_zero_unpack (seconds (now - bucket.lastRefillTime)) bucket.refillRate sign
    (finite_seconds _) zero
  exact add_zero_units bucket.tokens _ product draining.tokens nothing

theorem Draining.refill {bucket : TokenBucket} (draining : Draining bucket) (now : Time) :
    ∃ tokens, IsFinite tokens ∧ units tokens.toModel.unpack = units bucket.tokens.toModel.unpack ∧
      consume now bucket =
        if tokens < 1.0 then (false, { bucket with tokens := tokens, lastRefillTime := now })
        else (true, { bucket with tokens := tokens - 1.0, lastRefillTime := now }) := by
  obtain ⟨finite, same⟩ := draining.refill_sum now
  have within := draining.within
  have lesser := units_min bucket.capacity _ draining.capacity finite
  rw [same, Nat.min_eq_right within] at lesser
  refine ⟨_, ?_, lesser, rfl⟩
  split_ifs
  · exact finite
  · exact draining.capacity

theorem Draining.allowed {bucket : TokenBucket} (draining : Draining bucket) (now : Time)
    (enough : whole ≤ units bucket.tokens.toModel.unpack)
    (small : units bucket.tokens.toModel.unpack ≤ 2 ^ 53 * whole) :
    Draining (consume now bucket).2 ∧ (consume now bucket).1 = true ∧
      units (consume now bucket).2.tokens.toModel.unpack + whole = units bucket.tokens.toModel.unpack := by
  obtain ⟨tokens, finite, same, consumed⟩ := draining.refill now
  obtain ⟨left, less⟩ := sub_one_units tokens (by omega) (by omega)
  have order := lt_one_iff tokens finite
  have within := draining.within
  have fewer : units (tokens - 1.0).toModel.unpack ≤ units bucket.capacity.toModel.unpack := by omega
  rw [consumed, if_neg (order.not.mpr (by omega))]
  exact ⟨⟨draining.rate, draining.capacity, left, fewer⟩, rfl, less.trans same⟩

theorem Draining.refused {bucket : TokenBucket} (draining : Draining bucket) (now : Time)
    (few : units bucket.tokens.toModel.unpack < whole) :
    Draining (consume now bucket).2 ∧ (consume now bucket).1 = false ∧
      units (consume now bucket).2.tokens.toModel.unpack = units bucket.tokens.toModel.unpack := by
  obtain ⟨tokens, finite, same, consumed⟩ := draining.refill now
  have order := lt_one_iff tokens finite
  have within := draining.within
  have fewer : units tokens.toModel.unpack ≤ units bucket.capacity.toModel.unpack := by omega
  rw [consumed, if_pos (order.mpr (by omega))]
  exact ⟨⟨draining.rate, draining.capacity, finite, fewer⟩, rfl, same⟩

theorem Draining.successes (times : List Time) (bucket : TokenBucket) (draining : Draining bucket)
    (small : units bucket.tokens.toModel.unpack ≤ 2 ^ 53 * whole) :
    (consumeAll times bucket).count true = min times.length (floor bucket.tokens) := by
  induction times generalizing bucket with
  | nil => rw [consumeAll, List.count_nil, List.length_nil, Nat.zero_min]
  | cons now later ih =>
    rw [consumeAll, List.length_cons]
    rcases Nat.lt_or_ge (units bucket.tokens.toModel.unpack) whole with few | enough
    · obtain ⟨next, refused, same⟩ := draining.refused now few
      rw [refused, List.count_cons_of_ne (by decide), ih _ next (by omega), floor, floor, same, Nat.div_eq_of_lt few]
      omega
    · obtain ⟨next, allowed, less⟩ := draining.allowed now enough small
      rw [allowed, List.count_cons_self, ih _ next (by omega), floor, floor, Nat.div_eq_sub_div whole_pos enough,
        ← less, Nat.add_sub_cancel]
      omega

theorem create_draining (capacity refillRate : Float) (now : Time) (rate : (refillRate == 0.0) = true)
    (finite : IsFinite capacity) : Draining (create capacity refillRate now) :=
  ⟨rate, finite, finite, Nat.le_refl _⟩

/-- Up to this capacity every whole number of tokens is a double. -/
def largest : Float := 9007199254740992.0

theorem units_largest : units largest.toModel.unpack = 2 ^ 53 * whole := by
  have unpacked : largest.toModel.unpack = .finite .positive (2 ^ 52) 1 (by decide) := rfl
  have sum : 52 + ((1 : Int) + 1074).toNat = 53 + 1074 := rfl
  rw [unpacked, units, ← pow_add, sum, pow_add, whole]

theorem create_successes (capacity refillRate : Float) (start : Time) (times : List Time)
    (rate : (refillRate == 0.0) = true) (finite : IsFinite capacity) (small : capacity ≤ largest) :
    (consumeAll times (create capacity refillRate start)).count true = min times.length (floor capacity) := by
  have bounded := units_le_of_le capacity largest (by rw [units_largest]; exact Nat.mul_pos (by decide) whole_pos) small
  rw [units_largest] at bounded
  exact (create_draining capacity refillRate start rate finite).successes times _ bounded

theorem Draining.refill_full {bucket : TokenBucket} (draining : Draining bucket) (now : Time)
    (full : bucket.tokens = bucket.capacity) (positive : 0 < units bucket.capacity.toModel.unpack) :
    consume now bucket =
      if bucket.capacity < 1.0 then (false, { bucket with tokens := bucket.capacity, lastRefillTime := now })
      else (true, { bucket with tokens := bucket.capacity - 1.0, lastRefillTime := now }) := by
  obtain ⟨finite, same⟩ := draining.refill_sum now
  have order := lt_iff_units _ bucket.capacity finite positive
  rw [same, full] at order
  unfold consume
  dsimp only
  rw [full, if_neg (order.not.mpr (Nat.lt_irrefl _))]

def beyond : Float := 9007199254740994.0

/-- From `2 ^ 53 + 2` the first call takes two, since one less is no double. -/
theorem beyond_successes (start now : Time) (later : List Time) :
    (consumeAll (now :: later) (create beyond 0.0 start)).count true = min later.length (2 ^ 53) + 1 := by
  have some : 0 < units beyond.toModel.unpack := by decide +kernel
  have more : ¬ beyond < 1.0 := by decide +kernel
  have less : beyond - 1.0 = largest := by decide +kernel
  have within : units largest.toModel.unpack ≤ units beyond.toModel.unpack := by decide +kernel
  have count : floor largest = 2 ^ 53 := by decide +kernel
  have draining := create_draining beyond 0.0 start (by decide +kernel) rfl
  have first := draining.refill_full now rfl some
  have finite : IsFinite largest := rfl
  have next : Draining ⟨beyond, largest, 0.0, now⟩ := ⟨draining.rate, draining.capacity, finite, within⟩
  rw [create, if_neg more, less] at first
  rw [consumeAll, create, first, List.count_cons_self, next.successes later _ units_largest.le, count]

end FleetGateway.Security.Bucket
