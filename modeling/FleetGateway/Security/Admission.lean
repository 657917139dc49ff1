import FleetGateway.Library.CappedBalance
import Mathlib.Algebra.BigOperators.Ring.Finset
import Mathlib.Algebra.Order.Field.Rat
import Mathlib.Tactic.Linarith
import Mathlib.Tactic.Ring

/-! `TokenBucket` with its doubles read as rationals: which calls it admits. The balance
it keeps is the least allowance over all windows that end at the call. -/

namespace FleetGateway.Security.Admission
open Library Finset

structure TokenBucket where
  capacity : ℚ
  tokens : ℚ
  refillRate : ℚ
  lastRefillTime : ℤ
  deriving DecidableEq

/-- The constructor, at its reading of the clock in nanoseconds. -/
def create (capacity refillRate : ℚ) (now : ℤ) : TokenBucket where
  capacity := capacity
  tokens := capacity
  refillRate := refillRate
  lastRefillTime := now

def seconds (elapsed : ℤ) : ℚ := elapsed / 1000000000

def consume (now : ℤ) (bucket : TokenBucket) : Bool × TokenBucket :=
  let elapsed := seconds (now - bucket.lastRefillTime)
  let tokens := min bucket.capacity (bucket.tokens + elapsed * bucket.refillRate)
  let bucket := { bucket with tokens := tokens, lastRefillTime := now }
  if tokens < 1 then (false, bucket)
  else (true, { bucket with tokens := tokens - 1 })

theorem seconds_sub (first second : ℤ) : seconds (first - second) = seconds first - seconds second := by
  rw [seconds, seconds, seconds, Int.cast_sub, sub_div]

theorem seconds_nonneg {elapsed : ℤ} (forward : 0 ≤ elapsed) : 0 ≤ seconds elapsed :=
  div_nonneg (Int.cast_nonneg forward) (by norm_num)

section Calls

variable (capacity refillRate : ℚ) (clock : ℕ → ℤ)

/-- The bucket after a number of calls, which read the clock one after the other. The
reading with number zero is that of the constructor. -/
def bucketAfter : ℕ → TokenBucket
  | 0 => create capacity refillRate (clock 0)
  | n + 1 => (consume (clock (n + 1)) (bucketAfter n)).2

def admitted : ℕ → Bool
  | 0 => false
  | n + 1 => (consume (clock (n + 1)) (bucketAfter capacity refillRate clock n)).1

def admissions (calls : Finset ℕ) : ℕ := (calls.filter fun call => admitted capacity refillRate clock call = true).card

def supply (call : ℕ) : ℚ := refillRate * seconds (clock call)

def cost (call : ℕ) : ℚ := if admitted capacity refillRate clock call = true then 1 else 0

/-- The tokens that a call finds after its refill. -/
def available (call : ℕ) : ℚ :=
  CappedBalance.before capacity (supply refillRate clock) (cost capacity refillRate clock) call

theorem available_succ (n : ℕ) : available capacity refillRate clock (n + 1) =
    min capacity (available capacity refillRate clock n - cost capacity refillRate clock n +
      refillRate * seconds (clock (n + 1) - clock n)) := by
  rw [available, CappedBalance.before, seconds_sub, mul_sub]
  rfl

def refilled (now : ℤ) (bucket : TokenBucket) : ℚ :=
  min bucket.capacity (bucket.tokens + bucket.refillRate * seconds (now - bucket.lastRefillTime))

theorem consume_eq (now : ℤ) (bucket : TokenBucket) :
    consume now bucket = (decide (1 ≤ refilled now bucket), { bucket with
      tokens := refilled now bucket - (if 1 ≤ refilled now bucket then 1 else 0)
      lastRefillTime := now }) := by
  unfold consume
  dsimp only
  rw [mul_comm (seconds _)]
  change (if refilled now bucket < 1 then _ else _) = _
  split_ifs with short enough enough
  · exact absurd enough (not_le.mpr short)
  · rw [decide_eq_false enough, sub_zero]
    rfl
  · rw [decide_eq_true enough]
    rfl
  · exact absurd (not_lt.mp short) enough

/-- What a call finds in the bucket that the calls before it left. -/
theorem refilled_next (n : ℕ) (left : bucketAfter capacity refillRate clock n =
    ⟨capacity, available capacity refillRate clock n - cost capacity refillRate clock n, refillRate, clock n⟩) :
    refilled (clock (n + 1)) (bucketAfter capacity refillRate clock n) =
      available capacity refillRate clock (n + 1) := by
  rw [left, available_succ]
  rfl

theorem bucketAfter_eq (n : ℕ) : bucketAfter capacity refillRate clock n =
    ⟨capacity, available capacity refillRate clock n - cost capacity refillRate clock n, refillRate, clock n⟩ := by
  induction n with
  | zero =>
    have nothing : cost capacity refillRate clock 0 = 0 := rfl
    rw [nothing, sub_zero]
    rfl
  | succ n ih =>
    have found := refilled_next capacity refillRate clock n ih
    have own : cost capacity refillRate clock (n + 1) =
        if 1 ≤ available capacity refillRate clock (n + 1) then 1 else 0 := by
      rw [cost, admitted, consume_eq, found]
      simp only [decide_eq_true_eq]
    rw [own, bucketAfter, consume_eq, found, ih]

theorem admitted_iff_available (n : ℕ) :
    admitted capacity refillRate clock (n + 1) = true ↔ 1 ≤ available capacity refillRate clock (n + 1) := by
  have found := refilled_next capacity refillRate clock n (bucketAfter_eq capacity refillRate clock n)
  rw [admitted, consume_eq, found, decide_eq_true_eq]

theorem sum_cost (i j : ℕ) :
    ∑ k ∈ Ico i j, cost capacity refillRate clock k = admissions capacity refillRate clock (Ico (max i 1) j) := by
  have same : ((Ico i j).filter fun call => admitted capacity refillRate clock call = true) =
      (Ico (max i 1) j).filter fun call => admitted capacity refillRate clock call = true := by
    ext call
    simp only [mem_filter, mem_Ico, max_le_iff]
    constructor
    · rintro ⟨⟨low, high⟩, granted⟩
      refine ⟨⟨⟨low, Nat.one_le_iff_ne_zero.mpr ?_⟩, high⟩, granted⟩
      rintro rfl
      cases granted
    · rintro ⟨⟨⟨low, _⟩, high⟩, granted⟩
      exact ⟨⟨low, high⟩, granted⟩
  simp only [cost, sum_boole, admissions, same]

theorem admitted_iff (j : ℕ) (call : 1 ≤ j) :
    admitted capacity refillRate clock j = true ↔
      ∀ i ≤ j, (admissions capacity refillRate clock (Ico (max i 1) j) : ℚ) + 1 ≤
        capacity + refillRate * seconds (clock j - clock i) := by
  obtain ⟨n, rfl⟩ : ∃ n, j = n + 1 := ⟨j - 1, by omega⟩
  rw [admitted_iff_available, available, CappedBalance.le_before_iff]
  refine forall₂_congr fun i low => ?_
  rw [sum_cost, supply, supply, seconds_sub, mul_sub, add_comm]

end Calls

section Forward

variable {capacity refillRate : ℚ} {clock : ℕ → ℤ} (rate : 0 ≤ refillRate)
  (forward : ∀ n, clock n ≤ clock (n + 1))

include rate forward

theorem refill_nonneg {i j : ℕ} (order : i ≤ j) : 0 ≤ refillRate * seconds (clock j - clock i) :=
  mul_nonneg rate (seconds_nonneg (sub_nonneg.mpr (monotone_nat_of_le_succ forward order)))

/-- The last admitted call of a stretch bounds the whole stretch. -/
theorem admissions_stretch (i j : ℕ) (first : 1 ≤ i) :
    (admissions capacity refillRate clock (Icc i j) : ℚ) ≤
      max 0 (capacity + refillRate * seconds (clock j - clock i)) := by
  unfold admissions
  rcases ((Icc i j).filter fun call => admitted capacity refillRate clock call = true).eq_empty_or_nonempty with
    none | some
  · rw [none, card_empty, Nat.cast_zero]
    exact le_max_left _ _
  · set granted := (Icc i j).filter fun call => admitted capacity refillRate clock call = true
    set last := granted.max' some
    have inside := mem_filter.mp (granted.max'_mem some)
    obtain ⟨low, high⟩ := mem_Icc.mp inside.1
    have allowed := (admitted_iff capacity refillRate clock last (le_trans first low)).mp inside.2 i low
    rw [Nat.max_eq_left first] at allowed
    have covered : granted ⊆
        insert last ((Ico i last).filter fun call => admitted capacity refillRate clock call = true) := by
      intro call member
      obtain ⟨range, yes⟩ := mem_filter.mp member
      rcases (granted.le_max' call member).eq_or_lt with same | before
      · exact mem_insert.mpr (Or.inl same)
      · exact mem_insert_of_mem (mem_filter.mpr ⟨mem_Ico.mpr ⟨(mem_Icc.mp range).1, before⟩, yes⟩)
    have count : (granted.card : ℚ) ≤ admissions capacity refillRate clock (Ico i last) + 1 := by
      have bound := (card_le_card covered).trans (card_insert_le _ _)
      exact_mod_cast bound
    have later := refill_nonneg rate forward high
    have split : seconds (clock j - clock i) = seconds (clock j - clock last) + seconds (clock last - clock i) := by
      rw [seconds_sub, seconds_sub, seconds_sub]
      ring
    rw [split, mul_add]
    refine le_trans ?_ (le_max_right _ _)
    linarith

theorem tokens_within (wide : 0 ≤ capacity) (n : ℕ) :
    0 ≤ (bucketAfter capacity refillRate clock n).tokens ∧
      (bucketAfter capacity refillRate clock n).tokens ≤ capacity := by
  rw [bucketAfter_eq]
  dsimp only
  induction n with
  | zero =>
    have nothing : cost capacity refillRate clock 0 = 0 := rfl
    rw [nothing, sub_zero]
    exact ⟨wide, le_refl _⟩
  | succ n ih =>
    have refill := refill_nonneg rate forward (Nat.le_succ n)
    have enough : 0 ≤ available capacity refillRate clock (n + 1) := by
      rw [available_succ]
      exact le_min wide (add_nonneg ih.1 refill)
    have capped : available capacity refillRate clock (n + 1) ≤ capacity := by
      rw [available_succ]
      exact min_le_left _ _
    rw [cost]
    split_ifs with granted
    · have whole := (admitted_iff_available capacity refillRate clock n).mp granted
      exact ⟨by linarith, by linarith⟩
    · exact ⟨by linarith, by linarith⟩

/-- A whole token comes back between two calls that are far enough apart. -/
theorem admitted_spaced (wide : 1 ≤ capacity) (positive : 0 < refillRate) (n : ℕ)
    (spaced : 1 / refillRate ≤ seconds (clock (n + 1) - clock n)) :
    admitted capacity refillRate clock (n + 1) = true := by
  have left := (tokens_within rate forward (by linarith : 0 ≤ capacity) n).1
  rw [bucketAfter_eq] at left
  have refill : 1 ≤ refillRate * seconds (clock (n + 1) - clock n) := by
    have product := mul_le_mul_of_nonneg_left spaced rate
    rwa [mul_one_div_cancel (ne_of_gt positive)] at product
  rw [admitted_iff_available, available_succ, le_min_iff]
  exact ⟨wide, by dsimp only at left; linarith⟩

end Forward

/-- Which calls a bucket admits, for every capacity, rate and sequence of readings; and
for a clock that does not run backwards, how many in a stretch, how many tokens are
stored, and how far apart calls are always admitted. -/
theorem bucket_admission (capacity refillRate : ℚ) (clock : ℕ → ℤ) (rate : 0 ≤ refillRate)
    (forward : ∀ n, clock n ≤ clock (n + 1)) :
    (∀ j, 1 ≤ j → (admitted capacity refillRate clock j = true ↔
      ∀ i ≤ j, (admissions capacity refillRate clock (Ico (max i 1) j) : ℚ) + 1 ≤
        capacity + refillRate * seconds (clock j - clock i))) ∧
    (∀ i j, 1 ≤ i → i ≤ j → (admissions capacity refillRate clock (Icc i j) : ℚ) ≤
      max 0 (capacity + refillRate * seconds (clock j - clock i))) ∧
    (0 ≤ capacity → ∀ n, 0 ≤ (bucketAfter capacity refillRate clock n).tokens ∧
      (bucketAfter capacity refillRate clock n).tokens ≤ capacity) ∧
    (1 ≤ capacity → 0 < refillRate → ∀ n, 1 / refillRate ≤ seconds (clock (n + 1) - clock n) →
      admitted capacity refillRate clock (n + 1) = true) :=
  ⟨admitted_iff capacity refillRate clock, fun i j first _ => admissions_stretch rate forward i j first,
    tokens_within rate forward, admitted_spaced rate forward⟩

/-- A burst that empties the bucket, and one token back after a tenth of a second. -/
theorem bucket_admission_burst :
    let clock : ℕ → ℤ := fun n => if n ≤ 3 then 0 else 100000000
    ((List.range 6).map (admitted 2 10 clock) = [false, true, true, false, true, false]) ∧
    (∀ j, 1 ≤ j → (admitted 2 10 clock j = true ↔
      ∀ i ≤ j, (admissions 2 10 clock (Ico (max i 1) j) : ℚ) + 1 ≤ 2 + 10 * seconds (clock j - clock i))) ∧
    (∀ i j, 1 ≤ i → i ≤ j → (admissions 2 10 clock (Icc i j) : ℚ) ≤
      max 0 (2 + 10 * seconds (clock j - clock i))) ∧
    ((0 : ℚ) ≤ 2 → ∀ n, 0 ≤ (bucketAfter 2 10 clock n).tokens ∧ (bucketAfter 2 10 clock n).tokens ≤ 2) ∧
    ((1 : ℚ) ≤ 2 → (0 : ℚ) < 10 → ∀ n, 1 / 10 ≤ seconds (clock (n + 1) - clock n) →
      admitted 2 10 clock (n + 1) = true) := by
  intro clock
  have forward : ∀ n, clock n ≤ clock (n + 1) := by
    intro n
    simp only [clock]
    split_ifs
    · exact le_refl _
    · decide
    · omega
    · exact le_refl _
  exact ⟨by decide +kernel, bucket_admission 2 10 clock (by norm_num) forward⟩

/-- With a negative capacity even a stretch without admissions has too many. -/
theorem negative_capacity_stretch :
    ¬ ∀ (capacity refillRate : ℚ) (clock : ℕ → ℤ), 0 ≤ refillRate → (∀ n, clock n ≤ clock (n + 1)) →
      ∀ i j, 1 ≤ i → i ≤ j →
        (admissions capacity refillRate clock (Icc i j) : ℚ) ≤
          capacity + refillRate * seconds (clock j - clock i) := by
  intro always
  have bound := always (-1) 0 (fun _ => 0) (le_refl 0) (fun _ => le_refl _) 1 1 (le_refl 1) (le_refl 1)
  have least : (0 : ℚ) ≤ (admissions (-1) 0 (fun _ => 0) (Icc 1 1) : ℚ) := Nat.cast_nonneg _
  linarith

end FleetGateway.Security.Admission
