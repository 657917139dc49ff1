import Mathlib.Data.List.Basic
import Mathlib.Data.List.TakeDrop

/-! Flat byte stores: the reads, overwrites and length changes a file system
offers on one file, and how they act on a store that is cut into known pieces. -/

namespace FleetGateway.Library.ByteStore

abbrev Bytes := List UInt8

/-- The bytes of a literal, one per character; used for ASCII text only. -/
def text (literal : String) : Bytes :=
  literal.toList.map fun character => UInt8.ofNat character.toNat

def zeros (count : Nat) : Bytes := List.replicate count 0

/-- At most `length` bytes from `position` on; fewer at the end of the store. -/
def slice (bytes : Bytes) (position length : Nat) : Bytes :=
  (bytes.drop position).take length

def overwrite (bytes : Bytes) (position : Nat) (data : Bytes) : Bytes :=
  bytes.take position ++ data ++ bytes.drop (position + data.length)

def resize (bytes : Bytes) (size : Nat) : Bytes :=
  bytes.take size ++ zeros (size - bytes.length)

def isZero (bytes : Bytes) : Bool := bytes.all (· == 0)

theorem isZero_iff (bytes : Bytes) : isZero bytes = true ↔ bytes = zeros bytes.length := by
  rw [isZero, List.all_eq_true, zeros, List.eq_replicate_iff]
  simp

@[simp] theorem isZero_zeros (count : Nat) : isZero (zeros count) = true := by
  rw [isZero_iff]
  simp [zeros]

@[simp] theorem length_zeros (count : Nat) : (zeros count).length = count := by
  simp [zeros]

theorem zeros_add (first second : Nat) : zeros (first + second) = zeros first ++ zeros second := by
  simp [zeros]

theorem take_zeros (count total : Nat) : (zeros total).take count = zeros (min count total) := by
  simp [zeros]

theorem drop_zeros (count total : Nat) : (zeros total).drop count = zeros (total - count) := by
  simp [zeros]

theorem slice_zeros (total position length : Nat) :
    slice (zeros total) position length = zeros (min length (total - position)) := by
  rw [slice, drop_zeros, take_zeros]

@[simp] theorem length_resize (bytes : Bytes) (size : Nat) : (resize bytes size).length = size := by
  simp only [resize, List.length_append, List.length_take, length_zeros]
  omega

theorem length_overwrite (bytes : Bytes) (position : Nat) (data : Bytes)
    (fits : position + data.length ≤ bytes.length) :
    (overwrite bytes position data).length = bytes.length := by
  simp only [overwrite, List.length_append, List.length_take, List.length_drop]
  omega

theorem take_overwrite (bytes : Bytes) (position : Nat) (data : Bytes) (count : Nat)
    (before : count ≤ position) (inside : position ≤ bytes.length) :
    (overwrite bytes position data).take count = bytes.take count := by
  have short : count ≤ (bytes.take position).length := by simp; omega
  rw [overwrite, List.append_assoc, List.take_append_of_le_length short, List.take_take,
    Nat.min_eq_left before]

theorem overwrite_padding (front data : Bytes) (room : Nat) :
    overwrite (front ++ zeros room) front.length data = front ++ data ++ zeros (room - data.length) := by
  simp [overwrite, drop_zeros]

theorem resize_take (bytes : Bytes) (size : Nat) (inside : size ≤ bytes.length) :
    resize bytes size = bytes.take size := by
  simp [resize, zeros, Nat.sub_eq_zero_of_le inside]

theorem take_resize (bytes : Bytes) (count size : Nat) (inside : count ≤ bytes.length) (fits : count ≤ size) :
    (resize bytes size).take count = bytes.take count := by
  have short : count ≤ (bytes.take size).length := by simp; omega
  rw [resize, List.take_append_of_le_length short, List.take_take, Nat.min_eq_left fits]

theorem split_window (bytes : Bytes) (position length : Nat) :
    bytes = bytes.take position ++ slice bytes position length ++ bytes.drop (position + length) := by
  rw [slice, List.append_assoc, ← List.drop_drop, List.take_append_drop, List.take_append_drop]

theorem overwrite_append_left (front back : Bytes) (position : Nat) (data : Bytes)
    (inside : position + data.length ≤ front.length) :
    overwrite (front ++ back) position data = overwrite front position data ++ back := by
  rw [overwrite, overwrite, List.take_append_of_le_length (by omega), List.drop_append_of_le_length inside]
  simp only [List.append_assoc]

theorem overwrite_append_right (front back : Bytes) (position : Nat) (data : Bytes) :
    overwrite (front ++ back) (front.length + position) data = front ++ overwrite back position data := by
  simp only [overwrite, Nat.add_assoc, List.take_length_add_append, List.drop_length_add_append,
    List.append_assoc]

theorem drop_overwrite (bytes : Bytes) (start position : Nat) (data : Bytes)
    (inside : start + position ≤ bytes.length) :
    (overwrite bytes (start + position) data).drop start = overwrite (bytes.drop start) position data := by
  have front : (bytes.take start).length = start := by rw [List.length_take]; omega
  have moved := overwrite_append_right (bytes.take start) (bytes.drop start) position data
  rw [List.take_append_drop, front] at moved
  rw [moved, List.drop_left' front]

theorem getElem?_overwrite_before (bytes : Bytes) (position index : Nat) (data : Bytes) (before : index < position)
    (inside : position ≤ bytes.length) : (overwrite bytes position data)[index]? = bytes[index]? := by
  rw [overwrite, List.append_assoc, List.getElem?_append_left (by rw [List.length_take]; omega),
    List.getElem?_take_of_lt before]

theorem drop_overwrite_behind (bytes : Bytes) (position count : Nat) (data : Bytes)
    (behind : position + data.length ≤ count) (inside : position ≤ bytes.length) :
    (overwrite bytes position data).drop count = bytes.drop count := by
  have front : (bytes.take position ++ data).length = position + data.length := by
    rw [List.length_append, List.length_take, Nat.min_eq_left inside]
  have rest : count = (bytes.take position ++ data).length + (count - (position + data.length)) := by
    rw [front]
    omega
  rw [overwrite, rest, ← List.drop_drop, List.drop_left, List.drop_drop, front]

theorem getElem?_overwrite_behind (bytes : Bytes) (position index : Nat) (data : Bytes)
    (behind : position + data.length ≤ index) (inside : position ≤ bytes.length) :
    (overwrite bytes position data)[index]? = bytes[index]? := by
  have same := congrArg (fun rest => rest[0]?) (drop_overwrite_behind bytes position index data behind inside)
  simpa only [List.getElem?_drop, Nat.add_zero] using same

theorem slice_overwrite (bytes : Bytes) (position : Nat) (data : Bytes) (inside : position ≤ bytes.length) :
    slice (overwrite bytes position data) position data.length = data := by
  have front : (bytes.take position).length = position := by rw [List.length_take]; omega
  rw [slice, overwrite, List.append_assoc, List.drop_left' front, List.take_left]

theorem slice_append_left (front back : Bytes) (position length : Nat)
    (inside : position + length ≤ front.length) :
    slice (front ++ back) position length = slice front position length := by
  rw [slice, slice, List.drop_append_of_le_length (by omega),
    List.take_append_of_le_length (by rw [List.length_drop]; omega)]

theorem slice_append_length (front back : Bytes) (position length : Nat) :
    slice (front ++ back) (front.length + position) length = slice back position length := by
  rw [slice, slice, List.drop_length_add_append]

theorem slice_drop (bytes : Bytes) (start position length : Nat) :
    slice (bytes.drop start) position length = slice bytes (start + position) length := by
  rw [slice, slice, List.drop_drop]

theorem getElem?_of_isZero (bytes : Bytes) (index : Nat) (byte : UInt8) (zero : isZero bytes = true)
    (found : bytes[index]? = some byte) : byte = 0 := by
  rw [isZero_iff] at zero
  rw [zero] at found
  exact List.eq_of_mem_replicate (List.mem_of_getElem? found)

end FleetGateway.Library.ByteStore
