import Mathlib.Data.List.DropRight

/-! A list that keeps the latest values, no more of them than its capacity. -/

namespace FleetGateway.Library.Window

variable {α : Type}

theorem length_rtake (values : List α) (count : Nat) : (values.rtake count).length = min count values.length := by
  rw [List.rtake, List.length_drop]
  omega

theorem rtake_rtake (values : List α) (outer inner : Nat) :
    (values.rtake inner).rtake outer = values.rtake (min outer inner) := by
  rw [List.rtake_eq_reverse_take_reverse, List.rtake_eq_reverse_take_reverse, List.reverse_reverse, List.take_take,
    ← List.rtake_eq_reverse_take_reverse]

theorem rtake_rtake_concat (values : List α) (value : α) (count : Nat) :
    (values.rtake count ++ [value]).rtake count = (values ++ [value]).rtake count := by
  cases count with
  | zero => rw [List.rtake_zero, List.rtake_zero]
  | succ count => rw [List.rtake_concat_succ, List.rtake_concat_succ, rtake_rtake, Nat.min_eq_left (Nat.le_succ count)]

structure Latest (α : Type) (capacity : Nat) where
  values : List α
  bounded : values.length ≤ capacity

namespace Latest

variable {capacity : Nat}

def empty : Latest α capacity := ⟨[], Nat.zero_le capacity⟩

def push (window : Latest α capacity) (value : α) : Latest α capacity where
  values := (window.values ++ [value]).rtake capacity
  bounded := by
    rw [length_rtake]
    exact Nat.min_le_left _ _

def pushAll (window : Latest α capacity) (values : List α) : Latest α capacity := values.foldl push window

def recent (window : Latest α capacity) (count : Nat) : List α := window.values.rtake count

theorem pushAll_values (values : List α) :
    ((empty : Latest α capacity).pushAll values).values = values.rtake capacity := by
  induction values using List.reverseRecOn with
  | nil => exact (List.rtake_nil capacity).symm
  | append_singleton values last ih =>
    rw [pushAll, List.foldl_append]
    change (((empty : Latest α capacity).pushAll values).values ++ [last]).rtake capacity = _
    rw [ih, rtake_rtake_concat]

theorem recent_pushAll (values : List α) (count : Nat) :
    ((empty : Latest α capacity).pushAll values).recent count = values.rtake (min count capacity) := by
  rw [recent, pushAll_values, rtake_rtake]

end Latest

end FleetGateway.Library.Window
