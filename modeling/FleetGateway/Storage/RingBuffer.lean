import Mathlib.Data.List.DropRight
import Mathlib.Data.List.GetD
import Mathlib.Data.Int.ModEq

/-! `CircularBuffer<T>`: a ring of fixed capacity that keeps the latest values. -/

namespace FleetGateway.Storage.RingBuffer

variable {α : Type}

structure CircularBuffer (α : Type) where
  entries : List α
  writeIndex : Nat := 0
  count : Nat := 0
  deriving DecidableEq, Repr

/-- The constructor; its check for a positive capacity is made by every caller. -/
def ofCapacity [Inhabited α] (capacity : Nat) : CircularBuffer α := ⟨List.replicate capacity default, 0, 0⟩

def push (buffer : CircularBuffer α) (value : α) : CircularBuffer α where
  entries := buffer.entries.set buffer.writeIndex value
  writeIndex := (buffer.writeIndex + 1) % buffer.entries.length
  count := if buffer.count < buffer.entries.length then buffer.count + 1 else buffer.count

def getRecent [Inhabited α] (buffer : CircularBuffer α) (count : Nat) : List α :=
  let resultSize := if count < buffer.count then count else buffer.count
  let first := (buffer.writeIndex + buffer.entries.length - resultSize) % buffer.entries.length
  (List.range resultSize).map fun index =>
    buffer.entries.getD ((first + index) % buffer.entries.length) default

def pushAll (buffer : CircularBuffer α) (values : List α) : CircularBuffer α := values.foldl push buffer

/-- The ring after the pushes in `history`: the value pushed as number `index` stays
in slot `index % capacity` until `capacity` more values have been pushed. -/
structure Keeps (buffer : CircularBuffer α) (capacity : Nat) (history : List α) : Prop where
  positive : 0 < capacity
  slots : buffer.entries.length = capacity
  writeIndex : buffer.writeIndex = history.length % capacity
  count : buffer.count = min history.length capacity
  stored : ∀ index, index < history.length → history.length ≤ index + capacity →
    buffer.entries[index % capacity]? = history[index]?

theorem keeps_ofCapacity [Inhabited α] (capacity : Nat) (positive : 0 < capacity) :
    Keeps (ofCapacity capacity : CircularBuffer α) capacity [] where
  positive := positive
  slots := by simp [ofCapacity]
  writeIndex := by simp [ofCapacity]
  count := by simp [ofCapacity]
  stored := by simp

private theorem slot_ne (index length capacity : Nat) (before : index < length)
    (recent : length + 1 ≤ index + capacity) : index % capacity ≠ length % capacity := by
  intro same
  have step : capacity ∣ length - index := (Nat.modEq_iff_dvd' (by omega)).mp same
  have large := Nat.le_of_dvd (by omega) step
  omega

theorem Keeps.push {buffer : CircularBuffer α} {capacity : Nat} {history : List α}
    (keeps : Keeps buffer capacity history) (value : α) :
    Keeps (push buffer value) capacity (history ++ [value]) where
  positive := keeps.positive
  slots := by simp [RingBuffer.push, keeps.slots]
  writeIndex := by
    simp only [RingBuffer.push, keeps.slots, keeps.writeIndex, List.length_append, List.length_singleton]
    rw [Nat.mod_add_mod]
  count := by
    simp only [RingBuffer.push, keeps.slots, keeps.count, List.length_append, List.length_singleton]
    split_ifs <;> omega
  stored := by
    intro index inside recent
    simp only [List.length_append, List.length_singleton] at inside recent
    simp only [RingBuffer.push, keeps.writeIndex]
    by_cases last : index = history.length
    · have bound : index % capacity < buffer.entries.length := by
        rw [keeps.slots]
        exact Nat.mod_lt _ keeps.positive
      rw [last] at bound ⊢
      rw [List.getElem?_set_self bound]
      simp
    · rw [List.getElem?_set_ne (slot_ne index history.length capacity (by omega) (by omega)).symm,
        keeps.stored index (by omega) (by omega), List.getElem?_append_left (by omega)]

theorem Keeps.pushAll {buffer : CircularBuffer α} {capacity : Nat} {history : List α}
    (keeps : Keeps buffer capacity history) (values : List α) :
    Keeps (pushAll buffer values) capacity (history ++ values) := by
  induction values generalizing buffer history with
  | nil => simpa [RingBuffer.pushAll] using keeps
  | cons value rest ih =>
    have next := ih (keeps.push value)
    rwa [List.append_assoc] at next

theorem first_slot (length capacity size : Nat) (positive : 0 < capacity) (small : size ≤ capacity)
    (enough : size ≤ length) : (length % capacity + capacity - size) % capacity = (length - size) % capacity := by
  have split := Nat.mod_add_div length capacity
  have low := Nat.mod_lt length positive
  have shifted : length % capacity + capacity - size + capacity * (length / capacity) =
      length - size + capacity := by omega
  rw [← Nat.add_mul_mod_self_left (length % capacity + capacity - size) capacity (length / capacity), shifted,
    Nat.add_mod_right]

theorem Keeps.getRecent [Inhabited α] {buffer : CircularBuffer α} {capacity : Nat} {history : List α}
    (keeps : Keeps buffer capacity history) (count : Nat) :
    getRecent buffer count = history.rtake (min count capacity) := by
  have positive := keeps.positive
  simp only [RingBuffer.getRecent, keeps.slots, keeps.count, keeps.writeIndex]
  have chosen : (if count < min history.length capacity then count else min history.length capacity) =
      min (min count capacity) history.length := by split_ifs <;> omega
  rw [chosen]
  generalize sized : min (min count capacity) history.length = size
  have start : history.length - min count capacity = history.length - size := by omega
  rw [first_slot history.length capacity size keeps.positive (by omega) (by omega), List.rtake, start]
  apply List.ext_getElem?
  intro index
  by_cases inside : index < size
  · have slot := keeps.stored (history.length - size + index) (by omega) (by omega)
    have present : history[history.length - size + index]? = some (history[history.length - size + index]) :=
      List.getElem?_eq_getElem (by omega)
    rw [present] at slot
    rw [List.getElem?_map, List.getElem?_range inside, Option.map_some, List.getElem?_drop, present,
      Nat.mod_add_mod, List.getD_eq_getElem?_getD, slot]
    rfl
  · rw [List.getElem?_eq_none (by simp; omega), List.getElem?_eq_none (by simp; omega)]

def readSlots (buffer : CircularBuffer α) (count : Nat) : List Nat :=
  let resultSize := if count < buffer.count then count else buffer.count
  let first := (buffer.writeIndex + buffer.entries.length - resultSize) % buffer.entries.length
  (List.range resultSize).map fun index => (first + index) % buffer.entries.length

theorem getRecent_eq_map [Inhabited α] (buffer : CircularBuffer α) (count : Nat) :
    getRecent buffer count = (readSlots buffer count).map fun slot => buffer.entries.getD slot default := by
  simp only [getRecent, readSlots, List.map_map]
  rfl

section Slots

variable {buffer : CircularBuffer α} {capacity : Nat} {history : List α}

theorem Keeps.writeIndex_lt (keeps : Keeps buffer capacity history) : buffer.writeIndex < capacity := by
  rw [keeps.writeIndex]
  exact Nat.mod_lt _ keeps.positive

/-- The largest sum of the source is below twice the capacity. -/
theorem Keeps.sum_lt (keeps : Keeps buffer capacity history) :
    buffer.writeIndex + buffer.entries.length < 2 * capacity := by
  have low := keeps.writeIndex_lt
  rw [keeps.slots]
  omega

theorem Keeps.readSlots (keeps : Keeps buffer capacity history) (count slot : Nat)
    (read : slot ∈ readSlots buffer count) :
    ∃ index, index < history.length ∧ history.length ≤ index + capacity ∧ slot = index % capacity := by
  simp only [RingBuffer.readSlots, keeps.slots, keeps.count, keeps.writeIndex, List.mem_map, List.mem_range] at read
  obtain ⟨offset, inside, rfl⟩ := read
  have chosen : (if count < min history.length capacity then count else min history.length capacity) =
      min count (min history.length capacity) := by split_ifs <;> omega
  rw [chosen] at inside ⊢
  generalize sized : min count (min history.length capacity) = size at inside
  refine ⟨history.length - size + offset, by omega, by omega, ?_⟩
  rw [first_slot history.length capacity size keeps.positive (by omega) (by omega), Nat.mod_add_mod]

end Slots

end FleetGateway.Storage.RingBuffer
