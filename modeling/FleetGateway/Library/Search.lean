import Mathlib.Data.List.Infix
import Mathlib.Data.Nat.Find

/-! The first occurrence of a pattern in a list. It stays where it is when the list
grows at its end. -/

namespace FleetGateway.Library.Search

variable {α : Type} [DecidableEq α]

def find (pattern : List α) : List α → Option Nat
  | [] => if pattern = [] then some 0 else none
  | first :: rest => if pattern <+: first :: rest then some 0 else (find pattern rest).map (· + 1)

def findFrom (pattern source : List α) (start : Nat) : Option Nat :=
  (find pattern (source.drop start)).map (start + ·)

theorem find_eq_some_iff (pattern source : List α) (index : Nat) :
    find pattern source = some index ↔
      pattern <+: source.drop index ∧ ∀ before < index, ¬ pattern <+: source.drop before := by
  induction source generalizing index with
  | nil =>
    simp only [find, List.drop_nil, List.prefix_nil]
    split_ifs with empty
    · simp only [Option.some.injEq, empty, true_and, not_true_eq_false, imp_false, Nat.not_lt]
      constructor
      · rintro rfl
        exact fun _ => Nat.zero_le _
      · intro least
        have zero := least 0
        omega
    · simp [empty]
  | cons first rest ih =>
    rw [find]
    split_ifs with here
    · rw [Option.some.injEq]
      constructor
      · rintro rfl
        exact ⟨here, fun before low => absurd low (Nat.not_lt_zero before)⟩
      · rintro ⟨_, least⟩
        by_contra different
        exact least 0 (by omega) here
    · rw [Option.map_eq_some_iff]
      constructor
      · rintro ⟨inner, found, rfl⟩
        obtain ⟨there, least⟩ := (ih inner).mp found
        refine ⟨there, fun before low => ?_⟩
        cases before with
        | zero => exact here
        | succ before => exact least before (by omega)
      · rintro ⟨there, least⟩
        cases index with
        | zero => exact absurd there here
        | succ index =>
          refine ⟨index, (ih index).mpr ⟨there, fun before low => ?_⟩, rfl⟩
          exact least (before + 1) (by omega)

theorem find_eq_none_iff (pattern source : List α) :
    find pattern source = none ↔ ∀ index, ¬ pattern <+: source.drop index := by
  constructor
  · intro absent index occurs
    have least := Nat.find_spec (p := fun place => pattern <+: source.drop place) ⟨index, occurs⟩
    have found := (find_eq_some_iff pattern source _).mpr
      ⟨least, fun before low => Nat.find_min (p := fun place => pattern <+: source.drop place) ⟨index, occurs⟩ low⟩
    rw [absent] at found
    cases found
  · intro never
    cases found : find pattern source with
    | none => rfl
    | some index => exact absurd ((find_eq_some_iff pattern source index).mp found).1 (never index)

theorem find_none_infix (pattern source : List α) (absent : find pattern source = none) : ¬ pattern <:+: source := by
  rintro ⟨front, back, rfl⟩
  apply (find_eq_none_iff pattern _).mp absent front.length
  rw [List.append_assoc, List.drop_left]
  exact List.prefix_append pattern back

theorem find_bound (pattern source : List α) (index : Nat) (found : find pattern source = some index) :
    index + pattern.length ≤ source.length := by
  obtain ⟨here, least⟩ := (find_eq_some_iff pattern source index).mp found
  have length := here.length_le
  rw [List.length_drop] at length
  by_contra outside
  have empty : pattern = [] := List.eq_nil_of_length_eq_zero (by omega)
  exact least 0 (by rw [empty, List.length_nil] at outside; omega) (by rw [empty]; exact List.nil_prefix)

omit [DecidableEq α] in
theorem prefix_drop_append (pattern source rest : List α) (index : Nat)
    (inside : index + pattern.length ≤ source.length) :
    pattern <+: (source ++ rest).drop index ↔ pattern <+: source.drop index := by
  rw [List.drop_append_of_le_length (by omega)]
  constructor
  · intro longer
    exact List.prefix_of_prefix_length_le longer (List.prefix_append _ _) (by rw [List.length_drop]; omega)
  · exact fun here => here.trans (List.prefix_append _ _)

theorem find_append (pattern source rest : List α) (index : Nat) (found : find pattern source = some index) :
    find pattern (source ++ rest) = some index := by
  have bound := find_bound pattern source index found
  obtain ⟨here, least⟩ := (find_eq_some_iff pattern source index).mp found
  rw [find_eq_some_iff]
  refine ⟨(prefix_drop_append pattern source rest index bound).mpr here, fun before low longer => ?_⟩
  exact least before low ((prefix_drop_append pattern source rest before (by omega)).mp longer)

/-- An occurrence that appears with a continuation reaches into it. -/
theorem find_append_new (pattern source rest : List α) (index : Nat) (absent : find pattern source = none)
    (found : find pattern (source ++ rest) = some index) : source.length < index + pattern.length := by
  by_contra inside
  have here := ((find_eq_some_iff pattern (source ++ rest) index).mp found).1
  exact (find_eq_none_iff pattern source).mp absent index
    ((prefix_drop_append pattern source rest index (by omega)).mp here)

theorem find_take (pattern source : List α) (index length : Nat) (found : find pattern source = some index) :
    find pattern (source.take length) = if index + pattern.length ≤ length then some index else none := by
  have bound := find_bound pattern source index found
  have whole : find pattern (source.take length ++ source.drop length) = some index := by
    rwa [List.take_append_drop]
  cases short : find pattern (source.take length) with
  | none =>
    have behind := find_append_new pattern _ _ index short whole
    rw [List.length_take] at behind
    rw [if_neg (by omega)]
  | some first =>
    have same := (find_append pattern _ (source.drop length) first short).symm.trans whole
    have inside := find_bound pattern _ first short
    rw [List.length_take] at inside
    rw [if_pos (by cases same; omega), same]

theorem find_of_prefix (pattern source : List α) (index : Nat) (here : pattern <+: source.drop index) :
    ∃ first ≤ index, find pattern source = some first := by
  cases found : find pattern source with
  | none => exact absurd here ((find_eq_none_iff pattern source).mp found index)
  | some first =>
    refine ⟨first, ?_, rfl⟩
    by_contra behind
    exact ((find_eq_some_iff pattern source first).mp found).2 index (by omega) here

theorem findFrom_of_prefix (pattern source : List α) (start index : Nat) (before : start ≤ index)
    (here : pattern <+: source.drop index) : ∃ first ≤ index, findFrom pattern source start = some first := by
  have shifted : pattern <+: (source.drop start).drop (index - start) := by
    rwa [List.drop_drop, Nat.add_sub_cancel' before]
  obtain ⟨first, low, found⟩ := find_of_prefix pattern (source.drop start) (index - start) shifted
  exact ⟨start + first, by omega, by rw [findFrom, found, Option.map_some]⟩

theorem findFrom_occurs (pattern source : List α) (start index : Nat)
    (found : findFrom pattern source start = some index) : start ≤ index ∧ pattern <+: source.drop index := by
  rw [findFrom, Option.map_eq_some_iff] at found
  obtain ⟨inner, found, rfl⟩ := found
  rw [← List.drop_drop]
  exact ⟨Nat.le_add_right start inner, ((find_eq_some_iff pattern _ inner).mp found).1⟩

theorem findFrom_append (pattern source rest : List α) (start index : Nat) (inside : start ≤ source.length)
    (found : findFrom pattern source start = some index) : findFrom pattern (source ++ rest) start = some index := by
  rw [findFrom, Option.map_eq_some_iff] at found ⊢
  obtain ⟨inner, found, same⟩ := found
  refine ⟨inner, ?_, same⟩
  rw [List.drop_append_of_le_length inside]
  exact find_append pattern _ rest inner found

theorem find_skip (pattern front rest : List α)
    (nowhere : ∀ index < front.length, ¬ pattern <+: (front ++ rest).drop index) :
    find pattern (front ++ rest) = (find pattern rest).map (front.length + ·) := by
  induction front with
  | nil => simp
  | cons first others ih =>
    have here : ¬ pattern <+: first :: (others ++ rest) := nowhere 0 (Nat.zero_lt_succ _)
    have later := ih fun index low => nowhere (index + 1) (Nat.succ_lt_succ low)
    rw [List.cons_append, find, if_neg here, later, Option.map_map, List.length_cons]
    congr 1
    funext place
    simp only [Function.comp_apply]
    omega

theorem find_skip_clean (symbol : α) (behind front rest : List α) (absent : symbol ∉ front) :
    find (symbol :: behind) (front ++ rest) = (find (symbol :: behind) rest).map (front.length + ·) := by
  apply find_skip
  intro index low here
  rw [List.drop_append_of_le_length (by omega), List.drop_eq_getElem_cons low, List.cons_append,
    List.cons_prefix_cons] at here
  exact absent (here.1 ▸ List.getElem_mem low)

section Symbol

variable (symbol : α)

theorem find_symbol_append (front back : List α) (absent : symbol ∉ front) :
    find [symbol] (front ++ symbol :: back) = some front.length := by
  rw [find_eq_some_iff, List.drop_left]
  refine ⟨by simp, fun before low here => ?_⟩
  rw [List.drop_append_of_le_length (by omega), List.drop_eq_getElem_cons low, List.cons_append,
    List.cons_prefix_cons] at here
  exact absent (here.1 ▸ List.getElem_mem low)

theorem find_symbol_none (source : List α) : find [symbol] source = none ↔ symbol ∉ source := by
  constructor
  · intro none member
    obtain ⟨front, back, rfl, absent⟩ := List.eq_append_cons_of_mem member
    rw [find_symbol_append symbol front back absent] at none
    cases none
  · intro absent
    rw [find_eq_none_iff]
    intro index here
    exact absent (List.mem_of_mem_drop (here.subset (List.mem_singleton.mpr rfl)))

theorem find_symbol_some (source : List α) (index : Nat) (found : find [symbol] source = some index) :
    source = source.take index ++ symbol :: source.drop (index + 1) ∧ symbol ∉ source.take index := by
  obtain ⟨⟨rest, here⟩, least⟩ := (find_eq_some_iff [symbol] source index).mp found
  have behind : source.drop (index + 1) = rest := by
    rw [← List.drop_drop, ← here]
    rfl
  constructor
  · rw [behind]
    exact ((congrArg (source.take index ++ ·) here).trans (List.take_append_drop index source)).symm
  · intro member
    obtain ⟨before, inside, same⟩ := List.getElem_of_mem member
    rw [List.length_take] at inside
    refine least before (by omega) ?_
    rw [List.drop_eq_getElem_cons (by omega), List.cons_prefix_cons]
    rw [List.getElem_take] at same
    exact ⟨same.symm, List.nil_prefix⟩

end Symbol

end FleetGateway.Library.Search
