import Mathlib.Data.List.Basic

/-! Runs of a labelled machine: a step function folded over the labels of a run,
and the rule that what every step preserves holds along every run. -/

namespace FleetGateway.Library.Run

variable {State Label : Type}

def run (step : State → Label → State) (start : State) (labels : List Label) : State :=
  labels.foldl step start

theorem run_cons (step : State → Label → State) (start : State) (label : Label) (rest : List Label) :
    run step start (label :: rest) = run step (step start label) rest := rfl

theorem run_append (step : State → Label → State) (start : State) (front back : List Label) :
    run step start (front ++ back) = run step (run step start front) back :=
  List.foldl_append

/-- An invariant that the allowed labels preserve holds after every run of them. -/
theorem run_invariant (step : State → Label → State) (invariant : State → Prop) (allowed : Label → Prop)
    (preserved : ∀ state label, allowed label → invariant state → invariant (step state label))
    (start : State) (labels : List Label) (within : ∀ label ∈ labels, allowed label)
    (initially : invariant start) : invariant (run step start labels) := by
  induction labels generalizing start with
  | nil => exact initially
  | cons label rest ih =>
    rw [run_cons]
    apply ih
    · exact fun other member => within other (List.mem_cons_of_mem _ member)
    · exact preserved start label (within label List.mem_cons_self) initially

def Along (step : State → Label → State) (allowed : State → Label → Prop) : State → List Label → Prop
  | _, [] => True
  | state, label :: rest => allowed state label ∧ Along step allowed (step state label) rest

instance decidableAlong (step : State → Label → State) (allowed : State → Label → Prop)
    [∀ state label, Decidable (allowed state label)] :
    (start : State) → (labels : List Label) → Decidable (Along step allowed start labels)
  | _, [] => inferInstanceAs (Decidable True)
  | state, label :: rest =>
    have := decidableAlong step allowed (step state label) rest
    inferInstanceAs (Decidable (allowed state label ∧ Along step allowed (step state label) rest))

theorem along_invariant (step : State → Label → State) (invariant : State → Prop)
    (allowed : State → Label → Prop)
    (preserved : ∀ state label, allowed state label → invariant state → invariant (step state label))
    (start : State) (labels : List Label) (along : Along step allowed start labels)
    (initially : invariant start) : invariant (run step start labels) := by
  induction labels generalizing start with
  | nil => exact initially
  | cons label rest ih =>
    rw [run_cons]
    exact ih _ along.2 (preserved start label along.1 initially)

/-- Where a step keeps what is good just when it is allowed, a run keeps it just when all of its
labels are allowed. -/
theorem along_iff (step : State → Label → State) (invariant good : State → Prop)
    (allowed : State → Label → Prop)
    (preserved : ∀ state label, invariant state → invariant (step state label))
    (kept : ∀ state label, invariant state → (good (step state label) ↔ good state ∧ allowed state label))
    (start : State) (labels : List Label) (initially : invariant start) :
    good (run step start labels) ↔ good start ∧ Along step allowed start labels := by
  induction labels generalizing start with
  | nil => exact (and_iff_left trivial).symm
  | cons label rest ih =>
    rw [run_cons, ih _ (preserved start label initially), kept start label initially, and_assoc]
    rfl

end FleetGateway.Library.Run
