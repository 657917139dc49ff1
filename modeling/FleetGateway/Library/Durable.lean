import Mathlib.Data.List.Infix
import Mathlib.Logic.Relation

/-! A ledger whose newest entries a crash may take away or replace. What was once made durable
stays where it was, however many crashes follow. -/

namespace FleetGateway.Library.Durable

variable {Entry State : Type}

/-- The entries accepted so far, and the front of them that a crash cannot touch. -/
structure Ledger (Entry : Type) where
  entries : List Entry
  durable : List Entry
  kept : durable <+: entries

/-- What can happen to a ledger. A crash leaves the durable entries and whatever may follow them. -/
inductive Step (before after : Ledger Entry) : Prop
  | write (more : List Entry) (entries : after.entries = before.entries ++ more)
      (durable : after.durable = before.durable)
  | sync (entries : after.entries = before.entries) (durable : before.durable <+: after.durable)
  | crash (durable : after.durable = before.durable)

def Later : Ledger Entry → Ledger Entry → Prop := Relation.ReflTransGen Step

theorem Later.durable {before after : Ledger Entry} (later : Later before after) : before.durable <+: after.durable := by
  induction later with
  | refl => exact List.prefix_rfl
  | tail _ step ih =>
    cases step with
    | write more entries durable => exact durable ▸ ih
    | sync entries durable => exact ih.trans durable
    | crash durable => exact durable ▸ ih

theorem Later.entry {before after : Ledger Entry} (later : Later before after) (index : Nat)
    (inside : index < before.durable.length) : after.entries[index]? = before.entries[index]? := by
  have still : before.durable <+: after.entries := later.durable.trans after.kept
  calc after.entries[index]?
      = some before.durable[index] := List.prefix_iff_getElem?.mp still index inside
    _ = before.entries[index]? := (List.prefix_iff_getElem?.mp before.kept index inside).symm

/-- Where every step of a system is matched by the ledger, every run is. -/
theorem Later.simulates (step : State → State → Prop) (shows : State → Ledger Entry → Prop)
    (simulated : ∀ before after ledger, step before after → shows before ledger →
      ∃ next, Later ledger next ∧ shows after next)
    (start final : State) (ledger : Ledger Entry) (run : Relation.ReflTransGen step start final)
    (initially : shows start ledger) : ∃ next, Later ledger next ∧ shows final next := by
  induction run with
  | refl => exact ⟨ledger, .refl, initially⟩
  | tail _ moves ih =>
    obtain ⟨middle, later, holds⟩ := ih
    obtain ⟨next, onward, shown⟩ := simulated _ _ middle moves holds
    exact ⟨next, later.trans onward, shown⟩

end FleetGateway.Library.Durable
