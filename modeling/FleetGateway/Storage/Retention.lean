import FleetGateway.Library.Window
import FleetGateway.Storage.RingBuffer

/-! The ring as a list of the latest values: each operation does to the ring what it does to the
list, and only slots that a push has filled are read. -/

namespace FleetGateway.Storage.Retention
open Library.Window RingBuffer

variable {α : Type} {capacity : Nat}

def Represents (buffer : CircularBuffer α) (latest : Latest α capacity) : Prop :=
  ∃ history, Keeps buffer capacity history ∧ latest.values = history.rtake capacity

theorem represents_ofCapacity [Inhabited α] (positive : 0 < capacity) :
    Represents (ofCapacity capacity) (Latest.empty : Latest α capacity) :=
  ⟨[], keeps_ofCapacity capacity positive, (List.rtake_nil capacity).symm⟩

section Steps

variable {buffer : CircularBuffer α} {latest : Latest α capacity}

theorem Represents.push (represents : Represents buffer latest) (value : α) :
    Represents (push buffer value) (latest.push value) := by
  obtain ⟨history, keeps, same⟩ := represents
  refine ⟨history ++ [value], keeps.push value, ?_⟩
  change (latest.values ++ [value]).rtake capacity = _
  rw [same, rtake_rtake_concat]

theorem Represents.pushAll (represents : Represents buffer latest) (values : List α) :
    Represents (pushAll buffer values) (latest.pushAll values) := by
  induction values generalizing buffer latest with
  | nil => exact represents
  | cons value rest ih => exact ih (represents.push value)

theorem Represents.recent [Inhabited α] (represents : Represents buffer latest) (count : Nat) :
    getRecent buffer count = latest.recent count := by
  obtain ⟨history, keeps, same⟩ := represents
  rw [keeps.getRecent, Latest.recent, same, rtake_rtake]

theorem Represents.size (represents : Represents buffer latest) : buffer.count = latest.values.length := by
  obtain ⟨history, keeps, same⟩ := represents
  rw [keeps.count, same, length_rtake, Nat.min_comm]

end Steps

/-- A ring of any capacity is a list of the latest values: it gives back the last of what was pushed, in
order, and reads nothing but slots that one of these pushes has filled. -/
theorem keeps_latest [Inhabited α] (capacity : Nat) (positive : 0 < capacity) (values : List α) (count : Nat) :
    let buffer : CircularBuffer α := pushAll (ofCapacity capacity) values
    let latest : Latest α capacity := Latest.empty.pushAll values
    let kept := min count (min capacity values.length)
    (getRecent buffer count = latest.recent count ∧ getRecent buffer count = values.drop (values.length - kept)) ∧
    (buffer.count = latest.values.length ∧ buffer.count = min values.length capacity) ∧
    (buffer.writeIndex < capacity ∧ buffer.writeIndex + buffer.entries.length < 2 * capacity) ∧
    (getRecent buffer count = (readSlots buffer count).map fun slot => buffer.entries.getD slot default) ∧
    ∀ slot ∈ readSlots buffer count, ∃ index value, values[index]? = some value ∧
      slot = (pushAll (ofCapacity capacity) (values.take index)).writeIndex ∧ buffer.entries[slot]? = some value := by
  intro buffer latest kept
  have represents : Represents buffer latest := (represents_ofCapacity positive).pushAll values
  have history : ∀ pushed : List α, Keeps (pushAll (ofCapacity capacity) pushed) capacity pushed :=
    fun pushed => (keeps_ofCapacity capacity positive).pushAll pushed
  have keeps : Keeps buffer capacity values := history values
  have recent : getRecent buffer count = latest.recent count := represents.recent count
  refine ⟨⟨recent, ?_⟩, ⟨represents.size, keeps.count⟩, ⟨keeps.writeIndex_lt, keeps.sum_lt⟩,
    getRecent_eq_map buffer count, ?_⟩
  · have same : values.length - min count capacity = values.length - kept := by omega
    rw [recent, Latest.recent_pushAll, List.rtake, same]
  · intro slot read
    obtain ⟨index, inside, held, rfl⟩ := keeps.readSlots count slot read
    refine ⟨index, values[index], List.getElem?_eq_getElem inside, ?_, ?_⟩
    · rw [(history (values.take index)).writeIndex, List.length_take, Nat.min_eq_left (Nat.le_of_lt inside)]
    · rw [keeps.stored index inside held, List.getElem?_eq_getElem inside]

/-- Behind a wrap, with some of the values and with more than there are. -/
theorem keeps_latest_wrapped :
    let values := [1, 2, 3, 4, 5]
    let buffer : CircularBuffer Nat := pushAll (ofCapacity 3) values
    let latest : Latest Nat 3 := Latest.empty.pushAll values
    let kept := min 2 (min 3 values.length)
    getRecent buffer 2 = [4, 5] ∧ getRecent buffer 20 = [3, 4, 5] ∧
    (getRecent buffer 2 = latest.recent 2 ∧ getRecent buffer 2 = values.drop (values.length - kept)) ∧
    (buffer.count = latest.values.length ∧ buffer.count = min values.length 3) ∧
    (buffer.writeIndex < 3 ∧ buffer.writeIndex + buffer.entries.length < 2 * 3) ∧
    (getRecent buffer 2 = (readSlots buffer 2).map fun slot => buffer.entries.getD slot default) ∧
    ∀ slot ∈ readSlots buffer 2, ∃ index value, values[index]? = some value ∧
      slot = (pushAll (ofCapacity 3) (values.take index)).writeIndex ∧ buffer.entries[slot]? = some value :=
  ⟨by decide, by decide, keeps_latest 3 (by decide) [1, 2, 3, 4, 5] 2⟩

end FleetGateway.Storage.Retention
