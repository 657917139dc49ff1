import FleetGateway.Library.ShiftRegister
import Mathlib

/-! What a reflected shift register computes: the remainder of a polynomial over the field of two
elements. The top bit of a register is its constant coefficient, and of a byte the lowest bit
comes first. -/

namespace FleetGateway.Library.Remainder
open Polynomial ShiftRegister

variable {w : Nat}

noncomputable def ofRegister (register : BitVec w) : (ZMod 2)[X] :=
  Polynomial.ofFn w fun degree => if register.getMsbD degree then 1 else 0

theorem coeff_ofRegister (register : BitVec w) (degree : Nat) :
    (ofRegister register).coeff degree = if register.getMsbD degree then 1 else 0 := by
  by_cases inside : degree < w
  · exact ofFn_coeff_eq_val_of_lt _ inside
  · rw [BitVec.getMsbD_of_ge register degree (by omega)]
    exact ofFn_coeff_eq_zero_of_ge _ (by omega)

theorem degree_ofRegister_lt (register : BitVec w) : (ofRegister register).degree < w := ofFn_degree_lt _

theorem ofRegister_xor (left right : BitVec w) :
    ofRegister (left ^^^ right) = ofRegister left + ofRegister right := by
  ext degree
  rw [coeff_add, coeff_ofRegister, coeff_ofRegister, coeff_ofRegister, BitVec.getMsbD_xor]
  cases left.getMsbD degree <;> cases right.getMsbD degree <;> decide

theorem ofRegister_eq_sum (register : BitVec w) :
    ofRegister register = ∑ degree ∈ Finset.range w with register.getMsbD degree = true, X ^ degree := by
  ext degree
  simp only [coeff_ofRegister, finsetSum_coeff, coeff_X_pow, Finset.sum_ite_eq, Finset.mem_filter, Finset.mem_range]
  by_cases inside : degree < w
  · simp only [inside, true_and]
  · rw [BitVec.getMsbD_of_ge register degree (by omega)]
    simp only [Bool.false_eq_true, and_false, if_false]

theorem ofRegister_zero : ofRegister (0#w) = 0 := by
  ext degree
  rw [coeff_ofRegister, BitVec.getMsbD_zero]
  rfl

def ofCoefficients : (w : Nat) → (Nat → Bool) → BitVec w
  | 0, _ => 0#0
  | w + 1, bits => BitVec.cons (bits 0) (ofCoefficients w fun degree => bits (degree + 1))

theorem getMsbD_ofCoefficients (bits : Nat → Bool) (degree : Nat) (inside : degree < w) :
    (ofCoefficients w bits).getMsbD degree = bits degree := by
  induction w generalizing bits degree with
  | zero => omega
  | succ w ih =>
    rw [ofCoefficients, BitVec.getMsbD_eq_getLsbD, BitVec.getLsbD_cons, decide_eq_true inside, Bool.true_and]
    cases degree with
    | zero => exact if_pos rfl
    | succ degree =>
      have below := ih (fun degree => bits (degree + 1)) degree (by omega)
      rw [BitVec.getMsbD_eq_getLsbD, decide_eq_true (by omega), Bool.true_and] at below
      rw [if_neg (by omega), ← below, show w + 1 - 1 - (degree + 1) = w - 1 - degree by omega]

noncomputable def reflected (w : Nat) (polynomial : (ZMod 2)[X]) : BitVec w :=
  ofCoefficients w fun degree => decide (polynomial.coeff degree = 1)

theorem reflected_ofRegister (register : BitVec w) : reflected w (ofRegister register) = register := by
  apply BitVec.eq_of_getMsbD_eq
  intro degree inside
  rw [reflected, getMsbD_ofCoefficients _ _ inside, coeff_ofRegister]
  cases register.getMsbD degree <;> decide

noncomputable def ofBits : List Bool → (ZMod 2)[X]
  | [] => 0
  | bit :: rest => (if bit then X ^ rest.length else 0) + ofBits rest

theorem ofBits_append (front back : List Bool) :
    ofBits (front ++ back) = X ^ back.length * ofBits front + ofBits back := by
  induction front with
  | nil => rw [List.nil_append, ofBits, mul_zero, zero_add]
  | cons bit rest ih =>
    rw [List.cons_append, ofBits, ofBits, ih, List.length_append, mul_add, add_assoc, mul_ite, mul_zero, ← pow_add,
      Nat.add_comm rest.length]

theorem coeff_ofBits (bits : List Bool) (degree : Nat) :
    (ofBits bits).coeff degree = if bits.reverse[degree]? = some true then 1 else 0 := by
  induction bits with
  | nil => rfl
  | cons bit rest ih =>
    have power : (if bit then (X : (ZMod 2)[X]) ^ rest.length else 0).coeff degree =
        if bit = true ∧ degree = rest.length then 1 else 0 := by
      cases bit with
      | false => rfl
      | true =>
        rw [if_pos rfl, coeff_X_pow]
        simp only [true_and]
    rw [ofBits, coeff_add, power, ih, List.reverse_cons]
    by_cases inside : degree < rest.length
    · rw [List.getElem?_append_left (by rw [List.length_reverse]; exact inside), if_neg (by omega), zero_add]
    · rw [List.getElem?_append_right (by rw [List.length_reverse]; omega), List.length_reverse,
        List.getElem?_eq_none (by rw [List.length_reverse]; omega)]
      simp only [reduceCtorEq, if_false, add_zero]
      by_cases last : degree = rest.length
      · rw [last, Nat.sub_self, List.getElem?_cons_zero]
        simp only [and_true, Option.some.injEq]
      · rw [if_neg (fun both => last both.2), List.getElem?_eq_none (by rw [List.length_singleton]; omega)]
        simp only [reduceCtorEq, if_false]

def bitsOf (bytes : List UInt8) : List Bool :=
  bytes.flatMap fun byte => (List.range 8).map byte.toNat.testBit

theorem length_bitsOf (bytes : List UInt8) : (bitsOf bytes).length = 8 * bytes.length := by
  induction bytes with
  | nil => rfl
  | cons byte rest ih =>
    rw [bitsOf, List.flatMap_cons, List.length_append, List.length_map, List.length_range, List.length_cons]
    change 8 + (bitsOf rest).length = _
    omega

theorem bitsOf_append (front back : List UInt8) : bitsOf (front ++ back) = bitsOf front ++ bitsOf back :=
  List.flatMap_append

theorem ofRegister_byte (wide : 8 ≤ w) (byte : UInt8) :
    ofRegister (BitVec.ofNat w byte.toNat) = X ^ (w - 8) * ofBits (bitsOf [byte]) := by
  ext degree
  rw [coeff_ofRegister, coeff_X_pow_mul', coeff_ofBits, BitVec.getMsbD_eq_getLsbD, BitVec.getLsbD_ofNat]
  have bits : bitsOf [byte] = (List.range 8).map byte.toNat.testBit := List.append_nil _
  have length : (bitsOf [byte]).length = 8 := length_bitsOf [byte]
  have high : ∀ index, 8 ≤ index → byte.toNat.testBit index = false := fun index above =>
    Nat.testBit_lt_two_pow (lt_of_lt_of_le byte.toNat_lt (Nat.pow_le_pow_right (by decide) above))
  by_cases inside : w - 8 ≤ degree ∧ degree < w
  · have place : (bitsOf [byte]).reverse[degree - (w - 8)]? = some (byte.toNat.testBit (w - 1 - degree)) := by
      rw [List.getElem?_reverse (by omega), length, bits, List.getElem?_map, List.getElem?_range (by omega),
        Option.map_some, show 8 - 1 - (degree - (w - 8)) = w - 1 - degree by omega]
    rw [if_pos inside.1, place]
    simp only [inside.2, show w - 1 - degree < w by omega, decide_true, Bool.true_and, Option.some.injEq]
  · by_cases above : w - 8 ≤ degree
    · rw [if_pos above, List.getElem?_eq_none (by rw [List.length_reverse]; omega)]
      simp only [show ¬ degree < w by omega, decide_false, Bool.false_and, Bool.false_eq_true, reduceCtorEq, if_false]
    · rw [if_neg above, high _ (by omega)]
      simp only [Bool.and_false, Bool.false_eq_true, if_false]

/-- The divisor of a register: its feedback below the power that is shifted out. -/
noncomputable def generator (poly : BitVec w) : (ZMod 2)[X] := X ^ w + ofRegister poly

theorem generator_monic (poly : BitVec w) : (generator poly).Monic := monic_X_pow_add (degree_ofRegister_lt poly)

theorem degree_generator (poly : BitVec w) : (generator poly).degree = w := by
  have below : (ofRegister poly).degree < ((X : (ZMod 2)[X]) ^ w).degree := by
    rw [degree_X_pow]
    exact degree_ofRegister_lt poly
  rw [generator, degree_add_eq_left_of_degree_lt below, degree_X_pow]

/-- One shift multiplies by the indeterminate and takes away the divisor where the product has its degree. -/
theorem ofRegister_shift (positive : 0 < w) (poly register : BitVec w) :
    ofRegister (shift poly register) = X * ofRegister register + if register.getLsbD 0 then generator poly else 0 := by
  have top : register.getMsbD (w - 1) = register.getLsbD 0 := by
    rw [BitVec.getMsbD_eq_getLsbD, decide_eq_true (by omega), Bool.true_and, Nat.sub_self]
  have shifted : ofRegister (register >>> 1) = X * ofRegister register + if register.getLsbD 0 then X ^ w else 0 := by
    ext degree
    rw [coeff_add, coeff_ofRegister, BitVec.getMsbD_ushiftRight]
    cases degree with
    | zero =>
      rw [mul_coeff_zero, coeff_X_zero, zero_mul, zero_add]
      cases register.getLsbD 0 with
      | false => simp
      | true => simp [coeff_X_pow, show 0 ≠ w by omega]
    | succ degree =>
      rw [coeff_X_mul, coeff_ofRegister, Nat.add_sub_cancel]
      by_cases last : degree = w - 1
      · rw [last, top]
        cases register.getLsbD 0 with
        | false => simp
        | true =>
          simp [coeff_X_pow, show w - 1 + 1 = w by omega]
          decide
      · have power : (if register.getLsbD 0 then (X : (ZMod 2)[X]) ^ w else 0).coeff (degree + 1) = 0 := by
          cases register.getLsbD 0 with
          | false => rfl
          | true =>
            rw [if_pos rfl, coeff_X_pow, if_neg (by omega)]
        rw [power, add_zero]
        by_cases inside : degree + 1 < w
        · simp [inside]
        · simp [inside, BitVec.getMsbD_of_ge register degree (by omega)]
  rw [shift, ofRegister_xor, shifted, add_assoc]
  cases register.getLsbD 0 with
  | false => simp [ofRegister_zero]
  | true => rfl

section Residues

variable (poly register : BitVec w)

noncomputable def residue : (ZMod 2)[X] →+* AdjoinRoot (generator poly) := AdjoinRoot.mk (generator poly)

theorem residue_shift (positive : 0 < w) :
    residue poly (ofRegister (shift poly register)) = residue poly (X * ofRegister register) := by
  rw [ofRegister_shift positive, map_add]
  cases register.getLsbD 0 with
  | false => simp only [Bool.false_eq_true, if_false, map_zero, add_zero]
  | true =>
    rw [if_pos rfl]
    simp only [residue, AdjoinRoot.mk_self, add_zero]

theorem residue_shifts (positive : 0 < w) (count : Nat) :
    residue poly (ofRegister ((shift poly)^[count] register)) = residue poly (X ^ count * ofRegister register) := by
  induction count generalizing register with
  | zero => rw [Function.iterate_zero_apply, pow_zero, one_mul]
  | succ count ih =>
    rw [Function.iterate_succ_apply, ih, map_mul, residue_shift poly register positive, ← map_mul, ← mul_assoc,
      ← pow_succ]

theorem residue_absorb (wide : 8 ≤ w) (byte : UInt8) :
    residue poly (ofRegister (absorb poly register byte)) =
      residue poly (X ^ 8 * ofRegister register + X ^ w * ofBits (bitsOf [byte])) := by
  rw [absorb, residue_shifts poly _ (by omega), ofRegister_xor, ofRegister_byte wide, mul_add, ← mul_assoc (X ^ 8),
    ← pow_add, Nat.add_sub_cancel' wide]

theorem residue_absorbAll (wide : 8 ≤ w) (bytes : List UInt8) :
    residue poly (ofRegister (absorbAll poly register bytes)) =
      residue poly (X ^ w * ofBits (bitsOf bytes) + X ^ (bitsOf bytes).length * ofRegister register) := by
  induction bytes generalizing register with
  | nil =>
    change residue poly (ofRegister register) = residue poly (X ^ w * 0 + X ^ 0 * ofRegister register)
    rw [mul_zero, zero_add, pow_zero, one_mul]
  | cons byte rest ih =>
    have bits : bitsOf (byte :: rest) = bitsOf [byte] ++ bitsOf rest := bitsOf_append [byte] rest
    have eight : (bitsOf [byte]).length = 8 := length_bitsOf [byte]
    have parts : X ^ w * ofBits (bitsOf rest) + X ^ (bitsOf rest).length *
        (X ^ 8 * ofRegister register + X ^ w * ofBits (bitsOf [byte])) =
          X ^ w * ofBits (bitsOf (byte :: rest)) + X ^ (bitsOf (byte :: rest)).length * ofRegister register := by
      rw [bits, ofBits_append, List.length_append, eight]
      ring
    calc
      residue poly (ofRegister (absorbAll poly register (byte :: rest)))
      _ = residue poly (ofRegister (absorbAll poly (absorb poly register byte) rest)) := rfl
      _ = residue poly (X ^ w * ofBits (bitsOf rest)) +
          residue poly (X ^ (bitsOf rest).length) * residue poly (ofRegister (absorb poly register byte)) := by
        rw [ih, map_add, map_mul _ (X ^ (bitsOf rest).length)]
      _ = residue poly (X ^ w * ofBits (bitsOf (byte :: rest)) +
          X ^ (bitsOf (byte :: rest)).length * ofRegister register) := by
        rw [residue_absorb poly register wide, ← map_mul, ← map_add, parts]

/-- After any bytes a register is what is left of them, behind what it held before, on division. -/
theorem ofRegister_absorbAll (wide : 8 ≤ w) (bytes : List UInt8) :
    ofRegister (absorbAll poly register bytes) =
      (X ^ w * ofBits (bitsOf bytes) + X ^ (bitsOf bytes).length * ofRegister register) %ₘ generator poly := by
  have monic := generator_monic poly
  have small : (ofRegister (absorbAll poly register bytes)).degree < (generator poly).degree := by
    rw [degree_generator]
    exact degree_ofRegister_lt _
  have congruent := AdjoinRoot.mk_eq_mk.mp (residue_absorbAll poly register wide bytes)
  rw [← modByMonic_eq_of_dvd_sub monic congruent, (modByMonic_eq_self_iff monic).mpr small]

end Residues

end FleetGateway.Library.Remainder
