import FleetGateway.Library.ByteStore
import Mathlib.Data.Nat.Digits.Lemmas

/-! Decimal numbers as ASCII bytes: the zero-padded rendering of a number and the
digit-by-digit reading of one, which invert each other at a fixed width. -/

namespace FleetGateway.Library.Decimal
open ByteStore

def digitByte (digit : Nat) : UInt8 := UInt8.ofNat (48 + digit)

def isDigit (byte : UInt8) : Bool := decide (48 ≤ byte.toNat) && decide (byte.toNat ≤ 57)

def digitOf (byte : UInt8) : Nat := byte.toNat - 48

def padded (width value : Nat) : Bytes :=
  let digits := (Nat.digits 10 value).reverse.map digitByte
  List.replicate (width - digits.length) (digitByte 0) ++ digits

def value (bytes : Bytes) : Nat :=
  bytes.foldl (fun parsed byte => parsed * 10 + digitOf byte) 0

theorem digitOf_digitByte (digit : Nat) (small : digit < 10) : digitOf (digitByte digit) = digit := by
  simp only [digitOf, digitByte, UInt8.toNat_ofNat']
  omega

theorem isDigit_digitByte (digit : Nat) (small : digit < 10) : isDigit (digitByte digit) = true := by
  simp only [isDigit, digitByte, UInt8.toNat_ofNat', Bool.and_eq_true, decide_eq_true_eq]
  omega

theorem digitByte_digitOf (byte : UInt8) (digit : isDigit byte = true) : digitByte (digitOf byte) = byte := by
  simp only [isDigit, Bool.and_eq_true, decide_eq_true_eq] at digit
  apply UInt8.toNat_inj.mp
  simp only [digitByte, digitOf, UInt8.toNat_ofNat']
  omega

theorem digitOf_lt (byte : UInt8) (digit : isDigit byte = true) : digitOf byte < 10 := by
  simp only [isDigit, Bool.and_eq_true, decide_eq_true_eq] at digit
  simp only [digitOf]
  omega

private theorem fold_eq_ofDigits (bytes : Bytes) (start : Nat) :
    bytes.foldl (fun parsed byte => parsed * 10 + digitOf byte) start =
      Nat.ofDigits 10 ((bytes.map digitOf).reverse ++ [start]) := by
  induction bytes generalizing start with
  | nil => simp
  | cons byte rest ih =>
    rw [List.foldl_cons, ih]
    simp only [List.map_cons, List.reverse_cons, List.append_assoc, Nat.ofDigits_append]
    congr 1
    simp [Nat.ofDigits_cons]
    ring

theorem value_eq_ofDigits (bytes : Bytes) : value bytes = Nat.ofDigits 10 (bytes.map digitOf).reverse := by
  rw [value, fold_eq_ofDigits, Nat.ofDigits_append]
  simp

theorem map_digitOf_padded (width number : Nat) :
    (padded width number).map digitOf =
      List.replicate (width - (Nat.digits 10 number).length) 0 ++ (Nat.digits 10 number).reverse := by
  have digits : ((Nat.digits 10 number).reverse.map digitByte).map digitOf = (Nat.digits 10 number).reverse := by
    rw [List.map_map, List.map_congr_left (g := id), List.map_id]
    intro digit member
    exact digitOf_digitByte digit (Nat.digits_lt_base (by decide) (List.mem_reverse.mp member))
  simp only [padded, List.map_append, List.map_replicate, digits, List.length_map, List.length_reverse]
  rfl

theorem value_padded (width number : Nat) : value (padded width number) = number := by
  rw [value_eq_ofDigits, map_digitOf_padded, List.reverse_append, List.reverse_reverse,
    List.reverse_replicate, Nat.ofDigits_append, Nat.ofDigits_digits, Nat.ofDigits_replicate_zero,
    Nat.mul_zero, Nat.add_zero]

theorem isDigit_padded (width number : Nat) : (padded width number).all isDigit = true := by
  rw [List.all_eq_true]
  intro byte member
  simp only [padded, List.mem_append, List.mem_replicate, List.mem_map, List.mem_reverse] at member
  rcases member with ⟨_, rfl⟩ | ⟨digit, inside, rfl⟩
  · decide
  · exact isDigit_digitByte digit (Nat.digits_lt_base (by decide) inside)

theorem length_padded (width number : Nat) (fits : number < 10 ^ width) : (padded width number).length = width := by
  have short := (Nat.digits_length_le_iff (by decide : 1 < 10) number).mpr fits
  simp only [padded, List.length_append, List.length_replicate, List.length_map, List.length_reverse]
  omega

private theorem digits_small (bytes : Bytes) (digits : bytes.all isDigit = true) :
    ∀ digit ∈ (bytes.map digitOf).reverse, digit < 10 := by
  intro digit member
  rw [List.mem_reverse, List.mem_map] at member
  obtain ⟨byte, inside, rfl⟩ := member
  exact digitOf_lt byte (List.all_eq_true.mp digits byte inside)

theorem value_lt (bytes : Bytes) (digits : bytes.all isDigit = true) : value bytes < 10 ^ bytes.length := by
  rw [value_eq_ofDigits]
  simpa using Nat.ofDigits_lt_base_pow_length (by decide : 1 < 10) (digits_small bytes digits)

theorem map_digitByte (bytes : Bytes) (digits : bytes.all isDigit = true) :
    (bytes.map digitOf).map digitByte = bytes := by
  rw [List.map_map, List.map_congr_left (g := id), List.map_id]
  intro byte inside
  exact digitByte_digitOf byte (List.all_eq_true.mp digits byte inside)

theorem value_injective (first second : Bytes) (lengths : first.length = second.length)
    (firstDigits : first.all isDigit = true) (secondDigits : second.all isDigit = true)
    (same : value first = value second) : first = second := by
  rw [value_eq_ofDigits, value_eq_ofDigits] at same
  have reversed := Nat.ofDigits_inj_of_len_eq (by decide : 1 < 10) (by simp [lengths])
    (digits_small first firstDigits) (digits_small second secondDigits) same
  rw [← map_digitByte first firstDigits, ← map_digitByte second secondDigits,
    List.reverse_injective reversed]

theorem padded_value (bytes : Bytes) (digits : bytes.all isDigit = true) :
    padded bytes.length (value bytes) = bytes :=
  value_injective _ _ (length_padded _ _ (value_lt bytes digits)) (isDigit_padded _ _) digits
    (value_padded _ _)

end FleetGateway.Library.Decimal
