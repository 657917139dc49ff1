import Mathlib.Algebra.Group.Nat.Defs
import Mathlib.Data.List.Count

/-! Counting the members of a list with a property when one member changes, and the counter that keeps the number. -/

namespace FleetGateway.Library.Counting

/-- `fetch_sub(1)` on a `size_t`. -/
def fetchSub (count : Nat) : Nat := if count = 0 then 2 ^ 64 - 1 else count - 1

variable {Item : Type}

theorem countP_set (items : List Item) (index : Nat) (old new : Item) (property : Item → Bool)
    (found : items[index]? = some old) :
    (items.set index new).countP property + (if property old then 1 else 0) =
      items.countP property + if property new then 1 else 0 := by
  obtain ⟨inside, same⟩ := List.getElem?_eq_some_iff.mp found
  have counted := List.boole_getElem_le_countP (p := property) (l := items) inside
  rw [List.countP_set inside]
  rw [same] at counted ⊢
  omega

theorem countP_set_same (items : List Item) (index : Nat) (old new : Item) (property : Item → Bool)
    (found : items[index]? = some old) (alike : property new = property old) :
    (items.set index new).countP property = items.countP property := by
  have moved := countP_set items index old new property found
  rw [alike] at moved
  omega

theorem forall_mem_set {items : List Item} {index : Nat} {new : Item} {property : Item → Prop}
    (others : ∀ item ∈ items, property item) (also : property new) : ∀ item ∈ items.set index new, property item := by
  intro item member
  rcases List.mem_or_eq_of_mem_set member with old | rfl
  · exact others item old
  · exact also

end FleetGateway.Library.Counting
