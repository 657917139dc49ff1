import FleetGateway.Library.Run
import Mathlib

/-! Runs that come to an end. A rank that goes down with every step bounds the length of a run,
and where some step can always be taken it leads to a state in which nothing is left to do. -/

namespace FleetGateway.Library.Ranking
open Library.Run

variable {State Label : Type}

theorem sum_map_set {Item : Type} (items : List Item) (measure : Item → Nat) (index : Nat) (old new : Item)
    (found : items[index]? = some old) :
    ((items.set index new).map measure).sum + measure old = (items.map measure).sum + measure new := by
  induction items generalizing index with
  | nil => cases found
  | cons item rest ih =>
    cases index with
    | zero =>
      rw [List.getElem?_cons_zero, Option.some.injEq] at found
      rw [found, List.set_cons_zero]
      simp only [List.map_cons, List.sum_cons]
      omega
    | succ index =>
      have moved := ih index found
      rw [List.set_cons_succ]
      simp only [List.map_cons, List.sum_cons]
      omega

def Effective (step : State → Label → State) : State → List Label → Prop :=
  Along step fun state label => step state label ≠ state

/-- A label may raise the rank by its price less one; every run that changes something at each
step is then no longer than the rank and the prices allow. -/
theorem length_le_rank (step : State → Label → State) (invariant : State → Prop) (rank : State → Nat)
    (price : Label → Nat) (preserved : ∀ state label, invariant state → invariant (step state label))
    (lowered : ∀ state label, invariant state → step state label ≠ state →
      rank (step state label) + 1 ≤ rank state + price label)
    (start : State) (labels : List Label) (initially : invariant start) (effective : Effective step start labels) :
    labels.length + rank (run step start labels) ≤ rank start + (labels.map price).sum := by
  induction labels generalizing start with
  | nil => exact Nat.le_of_eq (Nat.zero_add _)
  | cons label rest ih =>
    have first := lowered start label initially effective.1
    have later := ih (step start label) (preserved start label initially) effective.2
    rw [run_cons, List.length_cons, List.map_cons, List.sum_cons]
    omega

/-- Where a state that is not settled has a step that lowers the rank, some run settles. -/
theorem exists_settled (step : State → Label → State) (invariant settled : State → Prop) (allowed : Label → Prop)
    (rank : State → Nat) (preserved : ∀ state label, invariant state → allowed label → invariant (step state label))
    (lowered : ∀ state, invariant state → ¬ settled state →
      ∃ label, allowed label ∧ rank (step state label) < rank state)
    (start : State) (initially : invariant start) :
    ∃ labels, (∀ label ∈ labels, allowed label) ∧ settled (run step start labels) := by
  induction bound : rank start using Nat.strongRecOn generalizing start with
  | ind bound' ih =>
    by_cases done : settled start
    · exact ⟨[], fun _ member => absurd member List.not_mem_nil, done⟩
    · obtain ⟨label, permitted, lower⟩ := lowered start initially done
      rw [bound] at lower
      obtain ⟨rest, within, ends⟩ :=
        ih (rank (step start label)) lower (step start label) (preserved start label initially permitted) rfl
      refine ⟨label :: rest, ?_, ends⟩
      intro other member
      rcases List.mem_cons.mp member with same | later
      · rw [same]
        exact permitted
      · exact within other later

end FleetGateway.Library.Ranking
