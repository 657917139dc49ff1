import FleetGateway.Library.LittleEndian
import Mathlib.Logic.Function.Iterate
import Mathlib.Data.Nat.Bitwise

/-! Reflected linear feedback shift registers of any width, fed a byte at a
time. One shift is linear in exclusive or, and it loses nothing when the feedback
polynomial has its top bit, so a register tells apart any two inputs that differ
inside one window no wider than the register. -/

namespace FleetGateway.Library.ShiftRegister
open LittleEndian

variable {w : Nat}

/-- One shift towards the low end; the bit shifted out selects the feedback. -/
def shift (poly register : BitVec w) : BitVec w :=
  (register >>> 1) ^^^ (if register.getLsbD 0 then poly else 0#w)

theorem shift_xor (poly left right : BitVec w) :
    shift poly (left ^^^ right) = shift poly left ^^^ shift poly right := by
  apply BitVec.eq_of_getLsbD_eq
  intro i _
  simp only [shift, BitVec.getLsbD_xor, BitVec.ushiftRight_xor_distrib]
  cases left.getLsbD 0 <;> cases right.getLsbD 0 <;>
    simp <;> grind

theorem shift_eq_zero (poly register : BitVec w) (top : poly.getLsbD (w - 1) = true)
    (gone : shift poly register = 0#w) : register = 0#w := by
  have bits : ∀ i, (shift poly register).getLsbD i = false := by
    intro i
    rw [gone]
    exact BitVec.getLsbD_zero
  by_cases low : register.getLsbD 0 = true
  · -- the top bit of the result is the polynomial's own: nothing was shifted into it
    have last := bits (w - 1)
    have empty : register.getLsbD (1 + (w - 1)) = false :=
      BitVec.getLsbD_of_ge register _ (by omega)
    simp [shift, low, BitVec.getLsbD_xor, BitVec.getLsbD_ushiftRight, empty, top] at last
  · apply BitVec.eq_of_getLsbD_eq
    intro i _
    rw [BitVec.getLsbD_zero]
    cases i with
    | zero => simpa using low
    | succ i =>
      have here := bits i
      simp only [shift, low, BitVec.getLsbD_xor, BitVec.getLsbD_ushiftRight] at here
      simpa [Nat.add_comm 1 i] using here

theorem shift_injective (poly : BitVec w) (top : poly.getLsbD (w - 1) = true) :
    Function.Injective (shift poly) := by
  intro left right same
  have difference : shift poly (left ^^^ right) = 0#w := by
    rw [shift_xor, same]
    exact BitVec.xor_self
  exact BitVec.xor_eq_zero_iff.mp (shift_eq_zero poly _ top difference)

theorem shifts_xor (poly left right : BitVec w) (count : Nat) :
    (shift poly)^[count] (left ^^^ right) = (shift poly)^[count] left ^^^ (shift poly)^[count] right := by
  induction count generalizing left right with
  | zero => rfl
  | succ count ih => simp only [Function.iterate_succ_apply, shift_xor, ih]

/-- Zero low bits are only moved out: no feedback is taken on the way. -/
theorem shifts_scaled (poly : BitVec w) (count value : Nat) (fits : 2 ^ count * value < 2 ^ w) :
    (shift poly)^[count] (BitVec.ofNat w (2 ^ count * value)) = BitVec.ofNat w value := by
  induction count with
  | zero => simp
  | succ count ih =>
    have double : 2 ^ (count + 1) * value = 2 * (2 ^ count * value) := by ring
    rw [double] at fits ⊢
    have even : (BitVec.ofNat w (2 * (2 ^ count * value))).getLsbD 0 = false := by
      simp [BitVec.getLsbD_ofNat]
    have halved : shift poly (BitVec.ofNat w (2 * (2 ^ count * value))) =
        BitVec.ofNat w (2 ^ count * value) := by
      apply BitVec.eq_of_toNat_eq
      simp only [shift, even, Bool.false_eq_true, ↓reduceIte]
      rw [BitVec.xor_zero, BitVec.toNat_ushiftRight, BitVec.toNat_ofNat, BitVec.toNat_ofNat,
        Nat.mod_eq_of_lt fits, Nat.mod_eq_of_lt (by omega), Nat.shiftRight_eq_div_pow]
      omega
    rw [Function.iterate_succ_apply, halved]
    exact ih (by omega)

def absorb (poly register : BitVec w) (byte : UInt8) : BitVec w :=
  (shift poly)^[8] (register ^^^ BitVec.ofNat w byte.toNat)

def absorbAll (poly register : BitVec w) (bytes : List UInt8) : BitVec w :=
  bytes.foldl (absorb poly) register

theorem absorbAll_append (poly register : BitVec w) (front back : List UInt8) :
    absorbAll poly register (front ++ back) = absorbAll poly (absorbAll poly register front) back :=
  List.foldl_append

theorem absorbAll_injective (poly : BitVec w) (top : poly.getLsbD (w - 1) = true) (bytes : List UInt8) :
    Function.Injective (fun register => absorbAll poly register bytes) := by
  induction bytes with
  | nil => exact fun _ _ same => same
  | cons byte rest ih =>
    intro left right same
    have first : absorb poly left byte = absorb poly right byte := ih same
    have inner := (shift_injective poly top).iterate 8 first
    simpa using inner

private theorem ofNat_cons (byte rest : Nat) (small : byte < 2 ^ 8) :
    BitVec.ofNat w (byte + 256 * rest) = BitVec.ofNat w byte ^^^ BitVec.ofNat w (2 ^ 8 * rest) := by
  apply BitVec.eq_of_getLsbD_eq
  intro i bound
  have sum : byte + 256 * rest = 2 ^ 8 * rest + byte := by omega
  rw [BitVec.getLsbD_xor, BitVec.getLsbD_ofNat, BitVec.getLsbD_ofNat, BitVec.getLsbD_ofNat, sum,
    Nat.testBit_two_pow_mul_add rest small, Nat.testBit_two_pow_mul]
  by_cases low : i < 8
  · simp [bound, low, show ¬ 8 ≤ i by omega]
  · have high : byte.testBit i = false :=
      Nat.testBit_lt_two_pow (lt_of_lt_of_le small (Nat.pow_le_pow_right (by decide) (by omega)))
    simp [bound, low, high, show 8 ≤ i by omega]

theorem absorbAll_eq_shifts (poly register : BitVec w) (bytes : List UInt8) (fits : 8 * bytes.length ≤ w) :
    absorbAll poly register bytes =
      (shift poly)^[8 * bytes.length] (register ^^^ BitVec.ofNat w (decode bytes)) := by
  induction bytes generalizing register with
  | nil => simp [absorbAll, decode]
  | cons byte rest ih =>
    simp only [List.length_cons] at fits ⊢
    have value := decode_lt rest
    have scaled : 2 ^ 8 * decode rest < 2 ^ w := by
      calc
        2 ^ 8 * decode rest < 2 ^ 8 * 256 ^ rest.length := by omega
        _ = 2 ^ (8 + 8 * rest.length) := by
          rw [show (256 : Nat) = 2 ^ 8 by decide, ← pow_mul, ← pow_add]
        _ ≤ 2 ^ w := Nat.pow_le_pow_right (by decide) (by omega)
    have split : (shift poly)^[8] (register ^^^ BitVec.ofNat w (decode (byte :: rest))) =
        absorb poly register byte ^^^ BitVec.ofNat w (decode rest) := by
      rw [decode, ofNat_cons _ _ byte.toNat_lt, ← BitVec.xor_assoc, shifts_xor,
        shifts_scaled poly 8 _ scaled]
      rfl
    rw [show 8 * (rest.length + 1) = 8 * rest.length + 8 by ring, Function.iterate_add_apply, split]
    exact ih (absorb poly register byte) (by omega)

theorem absorbAll_window_injective (poly register : BitVec w) (top : poly.getLsbD (w - 1) = true)
    (window other : List UInt8) (lengths : window.length = other.length) (fits : 8 * window.length ≤ w)
    (same : absorbAll poly register window = absorbAll poly register other) : window = other := by
  rw [absorbAll_eq_shifts poly register window fits,
    absorbAll_eq_shifts poly register other (lengths ▸ fits), lengths] at same
  have inner := (shift_injective poly top).iterate _ same
  have words : BitVec.ofNat w (decode window) = BitVec.ofNat w (decode other) := by simpa using inner
  have bound : 256 ^ window.length ≤ 2 ^ w := by
    rw [show (256 : Nat) = 2 ^ 8 by decide, ← pow_mul]
    exact Nat.pow_le_pow_right (by decide) fits
  have values := congrArg BitVec.toNat words
  rw [BitVec.toNat_ofNat, BitVec.toNat_ofNat,
    Nat.mod_eq_of_lt (lt_of_lt_of_le (decode_lt window) bound),
    Nat.mod_eq_of_lt (lt_of_lt_of_le (decode_lt other) (lengths ▸ bound))] at values
  rw [← encode_decode window, ← encode_decode other, values, lengths]

/-- Burst detection: inputs that differ only inside one window of at most the
register's width leave different registers, whatever surrounds the window. -/
theorem absorbAll_burst (poly register : BitVec w) (top : poly.getLsbD (w - 1) = true)
    (front window other back : List UInt8) (lengths : window.length = other.length)
    (fits : 8 * window.length ≤ w) (different : window ≠ other) :
    absorbAll poly register (front ++ window ++ back) ≠ absorbAll poly register (front ++ other ++ back) := by
  intro same
  rw [absorbAll_append, absorbAll_append, absorbAll_append, absorbAll_append] at same
  exact different (absorbAll_window_injective poly _ top window other lengths fits
    (absorbAll_injective poly top back same))

end FleetGateway.Library.ShiftRegister
