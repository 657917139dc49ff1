import Mathlib.Algebra.BigOperators.Intervals
import Mathlib.Algebra.Order.Group.MinMax
import Mathlib.Tactic.Abel

/-! A balance that grows with a supply, is capped, and is spent from. It is the least
allowance over all earlier moments at which it could have been full. -/

namespace FleetGateway.Library.CappedBalance
open Finset

variable {α : Type} [AddCommGroup α] [LinearOrder α] [IsOrderedAddMonoid α]

def before (cap : α) (supply cost : ℕ → α) : ℕ → α
  | 0 => cap
  | n + 1 => min cap (before cap supply cost n - cost n + (supply (n + 1) - supply n))

/-- What the balance suffices for is what every window that ends here allows. -/
theorem le_before_iff (cap wanted : α) (supply cost : ℕ → α) (n : ℕ) :
    wanted ≤ before cap supply cost n ↔
      ∀ i ≤ n, wanted + ∑ k ∈ Ico i n, cost k ≤ cap + (supply n - supply i) := by
  induction n generalizing wanted with
  | zero => simp [before]
  | succ n ih =>
    have shifted : wanted ≤ before cap supply cost n - cost n + (supply (n + 1) - supply n) ↔
        wanted - (supply (n + 1) - supply n) + cost n ≤ before cap supply cost n := by
      rw [← sub_le_iff_le_add, le_sub_iff_add_le]
    have window : ∀ i ≤ n, (wanted - (supply (n + 1) - supply n) + cost n + ∑ k ∈ Ico i n, cost k ≤
        cap + (supply n - supply i) ↔
        wanted + ∑ k ∈ Ico i (n + 1), cost k ≤ cap + (supply (n + 1) - supply i)) := by
      intro i low
      rw [sum_Ico_succ_top low, ← sub_nonneg, ← sub_nonneg (b := wanted + _)]
      have same : cap + (supply n - supply i) - (wanted - (supply (n + 1) - supply n) + cost n +
          ∑ k ∈ Ico i n, cost k) =
          cap + (supply (n + 1) - supply i) - (wanted + (∑ k ∈ Ico i n, cost k + cost n)) := by abel
      rw [same]
    rw [before, le_min_iff, shifted, ih]
    constructor
    · rintro ⟨full, earlier⟩ i low
      rcases Nat.lt_or_ge n i with last | low
      · obtain rfl : i = n + 1 := by omega
        simpa using full
      · exact (window i low).mp (earlier i low)
    · intro all
      refine ⟨?_, fun i low => (window i low).mpr (all i (by omega))⟩
      simpa using all (n + 1) le_rfl

end FleetGateway.Library.CappedBalance
