import Mathlib.Data.List.Basic
import Mathlib.Tactic.Ring

/-! Fixed-width little-endian numbers as byte lists. Encoding keeps the low
bytes of any number; decoding a list of that width is its inverse. -/

namespace FleetGateway.Library.LittleEndian

def encode : Nat → Nat → List UInt8
  | 0, _ => []
  | width + 1, value => UInt8.ofNat value :: encode width (value / 256)

def decode : List UInt8 → Nat
  | [] => 0
  | byte :: rest => byte.toNat + 256 * decode rest

@[simp] theorem length_encode (width value : Nat) : (encode width value).length = width := by
  induction width generalizing value with
  | zero => rfl
  | succ width ih => simp [encode, ih]

theorem decode_encode (width value : Nat) : decode (encode width value) = value % 256 ^ width := by
  induction width generalizing value with
  | zero => simp [encode, decode, Nat.mod_one]
  | succ width ih =>
    have low : (UInt8.ofNat value).toNat = value % 256 := by simp
    rw [encode, decode, ih, low, pow_succ, Nat.mul_comm (256 ^ width) 256, Nat.mod_mul]

theorem decode_encode_of_lt (width value : Nat) (bound : value < 256 ^ width) :
    decode (encode width value) = value := by
  rw [decode_encode, Nat.mod_eq_of_lt bound]

theorem decode_lt (bytes : List UInt8) : decode bytes < 256 ^ bytes.length := by
  induction bytes with
  | nil => simp [decode]
  | cons byte rest ih =>
    have small := byte.toNat_lt
    rw [decode, List.length_cons, pow_succ]
    omega

theorem encode_decode (bytes : List UInt8) : encode bytes.length (decode bytes) = bytes := by
  induction bytes with
  | nil => rfl
  | cons byte rest ih =>
    have small := byte.toNat_lt
    have head : UInt8.ofNat (byte.toNat + 256 * decode rest) = byte := by
      apply UInt8.toNat_inj.mp
      simp only [UInt8.toNat_ofNat']
      omega
    have tail : (byte.toNat + 256 * decode rest) / 256 = decode rest := by omega
    rw [List.length_cons, decode, encode, head, tail, ih]

theorem eq_encode_of_decode (width value : Nat) (bytes : List UInt8) (length : bytes.length = width)
    (decoded : decode bytes = value) : bytes = encode width value := by
  rw [← decoded, ← length, encode_decode]

theorem decode_eq_zero_iff (bytes : List UInt8) : decode bytes = 0 ↔ ∀ byte ∈ bytes, byte = 0 := by
  induction bytes with
  | nil => simp [decode]
  | cons byte rest ih =>
    have zero : byte.toNat = 0 ↔ byte = 0 := by
      rw [← UInt8.toNat_inj]
      rfl
    rw [decode, List.forall_mem_cons, ← ih, ← zero]
    omega

end FleetGateway.Library.LittleEndian
