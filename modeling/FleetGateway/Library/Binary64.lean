import Mathlib

/-! Double-precision numbers. A positive number is a multiple of the least one, and
`units` says of which; up to `2 ^ 53` whole numbers are taken away without rounding. -/

namespace FleetGateway.Library.Binary64
open Float.Model Float.Model.UnpackedFloat

structure Canonical (mantissa : Nat) (exponent : Int) : Prop where
  short : mantissa < 2 ^ 53
  low : -1074 ≤ exponent
  high : exponent ≤ 971
  full : 2 ^ 52 ≤ mantissa ∨ exponent = -1074

theorem implicit_bit (fraction : BitVec 52) : (1#1 ++ fraction).toNat = 2 ^ 52 + fraction.toNat := by
  rw [BitVec.toNat_append, ← Nat.shiftLeft_add_eq_or_of_lt fraction.isLt]
  rfl

theorem unpack_canonical (number : Float.Model) (sign : Sign) (mantissa : Nat) (exponent : Int) (positive : 0 < mantissa)
    (unpacked : number.unpack = .finite sign mantissa exponent positive) : Canonical mantissa exponent := by
  unfold Float.Model.unpack UnpackedFloat.unpack at unpacked
  dsimp only at unpacked
  have small : (@unpackMantissa Format.binary64 number.toBits.toBitVec).toNat < 2 ^ 52 := BitVec.isLt _
  have narrow : (@unpackExponent Format.binary64 number.toBits.toBitVec).toNat < 2 ^ 11 := BitVec.isLt _
  have bias : Format.binary64.exponentBias = 1023 := rfl
  rw [bias] at unpacked
  split_ifs at unpacked with ones zero subnormal normal
  · cases unpacked
    have least : (@unpackExponent Format.binary64 number.toBits.toBitVec).toNat = 0 := by rw [subnormal]; rfl
    exact ⟨by omega, by omega, by omega, Or.inr (by omega)⟩
  · cases unpacked
    have large : (@unpackExponent Format.binary64 number.toBits.toBitVec).toNat ≠ 2047 :=
      fun same => ones (BitVec.eq_of_toNat_eq same)
    have positive : (@unpackExponent Format.binary64 number.toBits.toBitVec).toNat ≠ 0 :=
      fun same => subnormal (BitVec.eq_of_toNat_eq same)
    rw [implicit_bit]
    exact ⟨by omega, by omega, by omega, Or.inl (by omega)⟩

theorem unpack_components (sign : Sign) (biased : BitVec 11) (fraction : BitVec 52) (finite : biased.toNat ≠ 2047) :
    UnpackedFloat.unpack Format.binary64 (packComponents Format.binary64 sign biased fraction) =
      if biased.toNat = 0 then
        if positive : 0 < fraction.toNat then .finite sign fraction.toNat (-1074) positive else .zero sign
      else .finite sign (2 ^ 52 + fraction.toNat) (biased.toNat - 1075) (by omega) := by
  have ones : biased ≠ -1#11 := by
    rintro rfl
    exact finite rfl
  have zero : biased.toNat = 0 ↔ biased = 0#11 := ⟨fun same => BitVec.eq_of_toNat_eq same, fun same => by rw [same]; rfl⟩
  have empty : 0 < fraction.toNat ↔ ¬ fraction = 0#52 := by
    rw [Nat.pos_iff_ne_zero, not_iff_not]
    exact ⟨fun same => BitVec.eq_of_toNat_eq same, fun same => by rw [same]; rfl⟩
  have bias : (Format.binary64.exponentBias : Int) = 1023 := rfl
  unfold UnpackedFloat.unpack
  simp only [unpackMantissa_packComponents, unpackExponent_packComponents, unpackSign_packComponents,
    Sign.ofBitVec_toBitVec, implicit_bit, zero, empty, bias, ones, if_false]
  split_ifs with least none
  · rfl
  · rw [zero.mpr least]
    rfl
  · rfl

theorem log2_eq (mantissa : Nat) (short : mantissa < 2 ^ 53) (full : 2 ^ 52 ≤ mantissa) : mantissa.log2 = 52 := by
  have nonzero : mantissa ≠ 0 := by omega
  have upper := (Nat.log2_lt nonzero).mpr short
  have lower := (Nat.le_log2 nonzero).mpr full
  omega

theorem unpack_pack_eq (sign : Sign) (mantissa : Nat) (exponent : Int) (positive : 0 < mantissa)
    (high : exponent ≤ 971) :
    (Float.Model.pack (.finite sign mantissa exponent positive)).unpack =
      UnpackedFloat.unpack Format.binary64 (packComponents Format.binary64 sign
        (BitVec.ofNat 11 (if mantissa.log2 = 52 then (exponent + 1075).toNat else 0)) (BitVec.ofNat 52 mantissa)) := by
  have bias : (Format.binary64.exponentBias : Int) = 1023 := rfl
  have bits : Format.binary64.mantissaBits = 53 := rfl
  have sum : exponent + 1023 + ((52 : Nat) : Int) = exponent + 1075 := by omega
  unfold Float.Model.unpack Float.Model.pack UnpackedFloat.pack
  dsimp only
  rw [bias, bits, sum, if_neg (by omega)]
  by_cases normal : mantissa.log2 = 52
  · rw [if_pos (by omega), if_pos normal]
  · rw [if_neg (by omega), if_neg normal]

/-- Packing loses nothing of a number in the form of the format. -/
theorem unpack_pack (sign : Sign) (mantissa : Nat) (exponent : Int) (positive : 0 < mantissa)
    (canonical : Canonical mantissa exponent) :
    (Float.Model.pack (.finite sign mantissa exponent positive)).unpack =
      .finite sign mantissa exponent positive := by
  obtain ⟨short, low, high, full⟩ := canonical
  have fraction : (BitVec.ofNat 52 mantissa).toNat = mantissa % 2 ^ 52 := BitVec.toNat_ofNat ..
  rw [unpack_pack_eq sign mantissa exponent positive high]
  by_cases large : 2 ^ 52 ≤ mantissa
  · have biased : (BitVec.ofNat 11 (exponent + 1075).toNat).toNat = (exponent + 1075).toNat := by
      rw [BitVec.toNat_ofNat, Nat.mod_eq_of_lt (by omega)]
    rw [if_pos (log2_eq mantissa short large), unpack_components _ _ _ (by omega), if_neg (by omega), finite.injEq]
    exact ⟨rfl, by omega, by omega⟩
  · have least : exponent = -1074 := full.resolve_left large
    have few : mantissa.log2 ≠ 52 := by
      have := (Nat.log2_lt positive.ne').mpr (Nat.lt_of_not_le large)
      omega
    have zero : (BitVec.ofNat 11 0).toNat = 0 := rfl
    rw [if_neg few, unpack_components _ _ _ (by omega), if_pos zero, dif_pos (by omega), finite.injEq]
    exact ⟨rfl, by omega, least.symm⟩

theorem unpack_pack_zero (sign : Sign) : (Float.Model.pack (.zero sign)).unpack = .zero sign := by
  cases sign with
  | negative => rfl
  | positive => rfl

def Moderate (bound : Int) : UnpackedFloat → Prop
  | .zero _ => True
  | .finite _ mantissa exponent _ => mantissa < 2 ^ 53 ∧ exponent ≤ bound
  | _ => False

theorem moderate_pack (sign : Sign) (mantissa : Nat) (exponent bound : Int) (positive : 0 < mantissa)
    (high : exponent ≤ bound) (low : 0 ≤ bound) (most : bound ≤ 971) :
    Moderate bound (Float.Model.pack (.finite sign mantissa exponent positive)).unpack := by
  have fraction : (BitVec.ofNat 52 mantissa).toNat < 2 ^ 52 := BitVec.isLt _
  have biased : ((BitVec.ofNat 11 (if mantissa.log2 = 52 then (exponent + 1075).toNat else 0)).toNat : Int) ≤
      bound + 1075 := by
    rw [BitVec.toNat_ofNat]
    split_ifs
    · omega
    · omega
  rw [unpack_pack_eq sign mantissa exponent positive (by omega), unpack_components _ _ _ (by omega)]
  generalize BitVec.ofNat 11 (if mantissa.log2 = 52 then (exponent + 1075).toNat else 0) = field at biased ⊢
  split_ifs with least some
  · exact ⟨by omega, by omega⟩
  · trivial
  · exact ⟨by omega, by omega⟩

theorem target_eq (mantissa : Nat) (exponent : Int) :
    Format.binary64.targetExponent (totalExponent mantissa exponent) =
      max ((mantissa.log2 : Int) + exponent - 52) (-1074) := by
  have bits : Format.binary64.mantissaBits = 53 := rfl
  have least : Format.binary64.minExponent = -1074 := rfl
  rw [Format.targetExponent, totalExponent, bits, least]
  congr 1
  omega

theorem shift_exact (count mantissa : Nat) (divides : 2 ^ count ∣ mantissa) :
    (⟨mantissa, false, false⟩ : ExtendedMantissa) >>> count = ⟨mantissa / 2 ^ count, false, false⟩ := by
  induction count with
  | zero => simp [HShiftRight.hShiftRight, Nat.repeat]
  | succ count ih =>
    have next : (⟨mantissa, false, false⟩ : ExtendedMantissa) >>> (count + 1) =
        ((⟨mantissa, false, false⟩ : ExtendedMantissa) >>> count).shiftRightOne := rfl
    obtain ⟨quotient, rfl⟩ := divides
    have half : 2 ^ (count + 1) * quotient / 2 ^ count = 2 * quotient := by
      rw [Nat.pow_succ, Nat.mul_assoc, Nat.mul_div_cancel_left _ (Nat.two_pow_pos count)]
    rw [next, ih ⟨2 * quotient, by ring⟩, half, Nat.mul_div_cancel_left _ (Nat.two_pow_pos _)]
    simp [ExtendedMantissa.shiftRightOne]

theorem shift_mantissa (count : Nat) (extended : ExtendedMantissa) :
    (extended >>> count).mantissa ≤ extended.mantissa := by
  induction count with
  | zero => exact Nat.le_refl _
  | succ count ih => exact (Nat.div_le_self _ 2).trans ih

theorem roundedMantissa_le (extended : ExtendedMantissa) : extended.roundedMantissa ≤ extended.mantissa + 1 := by
  obtain ⟨mantissa, roundBit, stickyBit⟩ := extended
  cases roundBit <;> cases stickyBit <;>
    simp only [ExtendedMantissa.roundedMantissa, ExtendedMantissa.accuracy, Accuracy.roundToNearestEven] <;> omega

theorem ofMantissaAndAccuracy_mantissa (mantissa : Nat) (accuracy : Accuracy) :
    (ExtendedMantissa.ofMantissaAndAccuracy mantissa accuracy).mantissa = mantissa := by
  unfold ExtendedMantissa.ofMantissaAndAccuracy
  split <;> rfl

theorem shift_exponent (mantissa : Nat) (exponent : Int) (accuracy : Accuracy) :
    (shiftToTargetExponent Format.binary64 mantissa exponent accuracy).2 =
      max exponent (max ((mantissa.log2 : Int) + exponent - 52) (-1074)) := by
  rw [shiftToTargetExponent, shiftToExponent, target_eq]
  dsimp only
  omega

theorem log2_le (mantissa count : Nat) (short : mantissa < 2 ^ (count + 1)) : mantissa.log2 ≤ count := by
  by_cases zero : mantissa = 0
  · rw [zero, Nat.log2_zero]
    exact Nat.zero_le count
  · exact Nat.le_of_lt_succ ((Nat.log2_lt zero).mpr short)

/-- A number of moderate size is rounded to one. -/
theorem moderate_round (sign : Sign) (mantissa count : Nat) (exponent bound : Int) (accuracy : Accuracy)
    (short : mantissa < 2 ^ (count + 1)) (enough : 52 ≤ count) (few : count ≤ 1000) (low : 0 ≤ bound)
    (most : bound ≤ 971) (high : 2 * count + exponent ≤ bound + 103) :
    Moderate bound (Float.Model.pack (roundWithAccuracy Format.binary64 sign mantissa exponent accuracy)).unpack := by
  unfold roundWithAccuracy
  dsimp only
  split_ifs with zero
  · rw [unpack_pack_zero]
    trivial
  · refine moderate_pack _ _ _ bound _ ?_ low most
    -- the mantissa may gain a bit where it is rounded up, so the exponent is raised twice
    have first := shift_exponent mantissa exponent accuracy
    have rounded := roundedMantissa_le (shiftToTargetExponent Format.binary64 mantissa exponent accuracy).1
    have shifted : (shiftToTargetExponent Format.binary64 mantissa exponent accuracy).1.mantissa ≤ mantissa := by
      have less := shift_mantissa (Format.binary64.targetExponent (totalExponent mantissa exponent) - exponent).toNat
        (ExtendedMantissa.ofMantissaAndAccuracy mantissa accuracy)
      rwa [ofMantissaAndAccuracy_mantissa] at less
    have double : 2 ^ (count + 2) = 2 * 2 ^ (count + 1) := Nat.pow_succ'
    have before := log2_le mantissa count short
    have after := log2_le _ (count + 1) (show (shiftToTargetExponent Format.binary64 mantissa exponent accuracy
      ).1.roundedMantissa < 2 ^ (count + 2) by omega)
    rw [shift_exponent]
    omega

def ofInt64 (count : Int64) : Float := .ofModel (.ofInt64 count)

theorem moderate_normalize (mantissa : Int) (short : mantissa.natAbs < 2 ^ 64) :
    Moderate 127 (Float.Model.pack (UnpackedFloat.normalize Format.binary64 mantissa 0 .positive)).unpack := by
  have rounded : ∀ (sign : Sign) (size : Nat), size < 2 ^ 64 →
      Moderate 127 (Float.Model.pack (UnpackedFloat.round Format.binary64 sign size 0)).unpack := by
    intro sign size small
    unfold UnpackedFloat.round decreaseExponent
    rw [target_eq]
    dsimp only
    refine moderate_round sign _ 115 _ 127 .exact ?_ (by decide) (by decide) (by decide) (by decide) (by omega)
    rw [Nat.shiftLeft_eq]
    calc size * 2 ^ (0 - max ((size.log2 : Int) + 0 - 52) (-1074)).toNat
        < 2 ^ 64 * 2 ^ 52 := Nat.mul_lt_mul_of_lt_of_le small (Nat.pow_le_pow_right (by decide) (by omega)) (by decide)
      _ = 2 ^ 116 := by decide
  unfold UnpackedFloat.normalize
  split
  · exact rounded _ _ (by omega)
  · rw [unpack_pack_zero]
    trivial
  · exact rounded _ _ (by omega)

theorem moderate_ofInt64 (count : Int64) : Moderate 127 (ofInt64 count).toModel.unpack := by
  have low := count.le_toInt
  have high := count.toInt_lt
  exact moderate_normalize count.toInt (by omega)

theorem moderate_quotient (count : Int64) (divisor : Float) (mantissa : Nat) (positive : 0 < mantissa)
    (unpacked : divisor.toModel.unpack = .finite .positive mantissa (-23) positive) (short : mantissa < 2 ^ 53)
    (full : 2 ^ 52 ≤ mantissa) : Moderate 400 (ofInt64 count / divisor).toModel.unpack := by
  have moderate := moderate_ofInt64 count
  have quotient : (ofInt64 count / divisor).toModel = Float.Model.pack
      (UnpackedFloat.div Format.binary64 (ofInt64 count).toModel.unpack divisor.toModel.unpack) := rfl
  rw [quotient, unpacked]
  generalize (ofInt64 count).toModel.unpack = dividend at moderate
  cases dividend with
  | infinity sign => exact moderate.elim
  | notANumber => exact moderate.elim
  | zero sign =>
    rw [UnpackedFloat.div, unpack_pack_zero]
    trivial
  | finite sign size exponent _ =>
    obtain ⟨small, high⟩ := moderate
    have target : Format.binary64.targetExponent (totalExponent size exponent - totalExponent mantissa (-23)) =
        max ((size.log2 : Int) + exponent - 82) (-1074) := by
      have bits : Format.binary64.mantissaBits = 53 := rfl
      have least : Format.binary64.minExponent = -1074 := rfl
      rw [Format.targetExponent, totalExponent, totalExponent, bits, least, log2_eq mantissa short full]
      congr 1
      omega
    rw [UnpackedFloat.div, divCore, target]
    dsimp only
    refine moderate_round _ _ 157 _ 400 _ ?_ (by decide) (by decide) (by decide) (by decide) (by omega)
    apply (Nat.div_le_self _ mantissa).trans_lt
    rw [Nat.shiftLeft_eq, Nat.pow_add 2 53 105]
    exact Nat.mul_lt_mul_of_lt_of_le small (Nat.pow_le_pow_right (by decide) (by omega)) (by decide)

theorem Moderate.isFinite {bound : Int} {number : UnpackedFloat} (moderate : Moderate bound number) :
    number.isFinite = true := by
  cases number with
  | infinity sign => exact moderate.elim
  | notANumber => exact moderate.elim
  | zero sign => rfl
  | finite sign mantissa exponent positive => rfl

/-- The number in units of `2 ^ -1074`; zero stands for what is not positive. -/
def units : UnpackedFloat → Nat
  | .finite .positive mantissa exponent _ => mantissa * 2 ^ (exponent + 1074).toNat
  | _ => 0

def whole : Nat := 2 ^ 1074

theorem Canonical.units_lt {mantissa : Nat} {exponent : Int} (canonical : Canonical mantissa exponent) :
    mantissa * 2 ^ (exponent + 1074).toNat < 2 ^ ((exponent + 1074).toNat + 53) := by
  rw [Nat.add_comm, Nat.pow_add]
  exact Nat.mul_lt_mul_of_pos_right canonical.short (Nat.two_pow_pos _)

theorem Canonical.le_units {mantissa : Nat} {exponent : Int} (canonical : Canonical mantissa exponent)
    (above : -1074 < exponent) : 2 ^ ((exponent + 1074).toNat + 52) ≤ mantissa * 2 ^ (exponent + 1074).toNat := by
  have full := canonical.full.resolve_right (by omega)
  rw [Nat.add_comm, Nat.pow_add]
  exact Nat.mul_le_mul_right _ full

theorem units_lt_of_exponent {mantissa other : Nat} {exponent higher : Int} (canonical : Canonical mantissa exponent)
    (more : Canonical other higher) (less : exponent < higher) :
    mantissa * 2 ^ (exponent + 1074).toNat < other * 2 ^ (higher + 1074).toNat := by
  have low := canonical.low
  calc mantissa * 2 ^ (exponent + 1074).toNat
      < 2 ^ ((exponent + 1074).toNat + 53) := canonical.units_lt
    _ ≤ 2 ^ ((higher + 1074).toNat + 52) := Nat.pow_le_pow_right (by decide) (by omega)
    _ ≤ other * 2 ^ (higher + 1074).toNat := more.le_units (by omega)

theorem compare_eq_lt_iff {mantissa other : Nat} {exponent second : Int} (canonical : Canonical mantissa exponent)
    (more : Canonical other second) :
    (compare exponent second).then (compare mantissa other) = .lt ↔
      mantissa * 2 ^ (exponent + 1074).toNat < other * 2 ^ (second + 1074).toNat := by
  rcases lt_trichotomy exponent second with less | rfl | greater
  · rw [Int.compare_eq_lt.mpr less]
    exact iff_of_true rfl (units_lt_of_exponent canonical more less)
  · rw [Int.compare_eq_eq.mpr rfl, Nat.mul_lt_mul_right (Nat.two_pow_pos _), Ordering.eq_then, Nat.compare_eq_lt]
  · rw [Int.compare_eq_gt.mpr greater]
    exact iff_of_false Ordering.noConfusion (units_lt_of_exponent more canonical greater).not_gt

theorem lt_iff_compare (first second : Float) :
    first < second ↔ first.toModel.unpack.compare second.toModel.unpack = some .lt := by
  have unfolded : first < second ↔
      decide (first.toModel < second.toModel) = true := Iff.rfl
  rw [unfolded, decide_eq_true_iff]
  exact beq_iff_eq

def IsFinite (number : Float) : Prop := number.toModel.unpack.isFinite = true

theorem lt_iff_units (first second : Float) (finite : IsFinite first) (positive : 0 < units second.toModel.unpack) :
    first < second ↔ units first.toModel.unpack < units second.toModel.unpack := by
  rw [lt_iff_compare]
  unfold IsFinite at finite
  cases second_eq : second.toModel.unpack with
  | infinity sign => rw [second_eq] at positive; cases positive
  | notANumber => rw [second_eq] at positive; cases positive
  | zero sign => rw [second_eq] at positive; cases positive
  | finite sign other exponent some =>
    rw [second_eq] at positive
    cases sign with
    | negative => cases positive
    | positive =>
      cases first_eq : first.toModel.unpack with
      | infinity sign => rw [first_eq] at finite; cases finite
      | notANumber => rw [first_eq] at finite; cases finite
      | zero sign => exact iff_of_true rfl positive
      | finite sign mantissa lower more =>
        cases sign with
        | negative => exact iff_of_true rfl positive
        | positive =>
          have agree := compare_eq_lt_iff (unpack_canonical _ _ _ _ _ first_eq) (unpack_canonical _ _ _ _ _ second_eq)
          rw [units, units, ← agree]
          exact Option.some_inj

theorem units_pos (mantissa : Nat) (exponent : Int) (positive : 0 < mantissa) :
    0 < units (.finite .positive mantissa exponent positive) :=
  Nat.mul_pos positive (Nat.two_pow_pos _)

theorem units_eq_zero_of_lt (first second : Float) (finite : IsFinite second)
    (negative : units second.toModel.unpack = 0) (less : first < second) : units first.toModel.unpack = 0 := by
  rw [lt_iff_compare] at less
  unfold IsFinite at finite
  by_contra positive
  cases first_eq : first.toModel.unpack with
  | infinity sign => rw [first_eq] at positive; exact positive rfl
  | notANumber => rw [first_eq] at positive; exact positive rfl
  | zero sign => rw [first_eq] at positive; exact positive rfl
  | finite sign mantissa exponent some =>
    cases sign with
    | negative => rw [first_eq] at positive; exact positive rfl
    | positive =>
      rw [first_eq] at less
      cases second_eq : second.toModel.unpack with
      | infinity sign => rw [second_eq] at finite; cases finite
      | notANumber => rw [second_eq] at finite; cases finite
      | zero sign => rw [second_eq] at less; cases less
      | finite sign other higher more =>
        rw [second_eq] at less negative
        cases sign with
        | negative => cases less
        | positive => exact (units_pos other higher more).ne' negative

/-- The lesser of two numbers, as `std::min` takes it. -/
theorem units_min (capacity number : Float) (finiteCapacity : IsFinite capacity) (finite : IsFinite number) :
    units (if number < capacity then number else capacity).toModel.unpack =
      min (units capacity.toModel.unpack) (units number.toModel.unpack) := by
  by_cases positive : 0 < units capacity.toModel.unpack
  · have order := lt_iff_units number capacity finite positive
    split_ifs with less
    · rw [order] at less
      omega
    · rw [order] at less
      omega
  · split_ifs with less
    · rw [units_eq_zero_of_lt number capacity finiteCapacity (by omega) less]
      omega
    · omega

theorem one_eq : (1.0 : Float).toModel.unpack = .finite .positive (2 ^ 52) (-52) (by decide) := rfl

theorem whole_pos : 0 < whole := by
  rw [whole]
  positivity

theorem units_one : units (1.0 : Float).toModel.unpack = whole := by
  have shift : 1074 = 52 + ((-52 : Int) + 1074).toNat := rfl
  rw [one_eq, units, whole]
  conv_rhs => rw [shift, Nat.pow_add]

theorem lt_one_iff (number : Float) (finite : IsFinite number) :
    number < 1.0 ↔ units number.toModel.unpack < whole := by
  rw [lt_iff_units number 1.0 finite (by rw [units_one]; exact whole_pos), units_one]

def floor (number : Float) : Nat := units number.toModel.unpack / whole

theorem units_le_of_le (first second : Float) (positive : 0 < units second.toModel.unpack) (below : first ≤ second) :
    units first.toModel.unpack ≤ units second.toModel.unpack := by
  have unfolded : first ≤ second ↔
      (first.toModel.unpack.compare second.toModel.unpack).any Ordering.isLE = true := by
    have model : first ≤ second ↔ decide (first.toModel ≤ second.toModel) = true := Iff.rfl
    rw [model, decide_eq_true_iff]
    exact Iff.rfl
  rw [unfolded] at below
  cases second_eq : second.toModel.unpack with
  | infinity sign => rw [second_eq] at positive; cases positive
  | notANumber => rw [second_eq] at positive; cases positive
  | zero sign => rw [second_eq] at positive; cases positive
  | finite sign other higher some =>
    rw [second_eq] at positive below
    cases sign with
    | negative => cases positive
    | positive =>
      cases first_eq : first.toModel.unpack with
      | infinity sign => exact Nat.zero_le _
      | notANumber => exact Nat.zero_le _
      | zero sign => exact Nat.zero_le _
      | finite sign mantissa exponent more =>
        cases sign with
        | negative => exact Nat.zero_le _
        | positive =>
          rw [first_eq] at below
          have reversed := compare_eq_lt_iff (unpack_canonical _ _ _ _ _ second_eq)
            (unpack_canonical _ _ _ _ _ first_eq)
          rw [← Nat.not_lt, units, units, ← reversed]
          intro greater
          have swapped := congrArg Ordering.swap greater
          rw [Ordering.swap_then, Int.compare_swap, Nat.compare_swap] at swapped
          have order : ((compare exponent higher).then (compare mantissa other)).isLE = true := below
          rw [swapped] at order
          cases order

theorem unpack_zero_of_beq (number : Float) (same : (number == 0.0) = true) :
    ∃ sign, number.toModel.unpack = .zero sign := by
  have model : (number == 0.0) = (number.toModel.unpack.compare (.zero .positive) == some .eq) := rfl
  rw [model, beq_iff_eq] at same
  cases unpacked : number.toModel.unpack with
  | infinity sign => rw [unpacked] at same; cases sign <;> cases same
  | notANumber => rw [unpacked] at same; cases same
  | zero sign => exact ⟨sign, rfl⟩
  | finite sign mantissa exponent positive => rw [unpacked] at same; cases sign <;> cases same

theorem add_zero_units (number zero : Float) (sign : Sign) (finite : IsFinite number)
    (nothing : zero.toModel.unpack = .zero sign) :
    IsFinite (number + zero) ∧ units (number + zero).toModel.unpack = units number.toModel.unpack := by
  have sum : (number + zero).toModel = Float.Model.pack
      (UnpackedFloat.add Format.binary64 number.toModel.unpack zero.toModel.unpack) := rfl
  unfold IsFinite at finite ⊢
  rw [sum, nothing]
  cases unpacked : number.toModel.unpack with
  | infinity other => rw [unpacked] at finite; cases finite
  | notANumber => rw [unpacked] at finite; cases finite
  | zero other =>
    rw [UnpackedFloat.add]
    split_ifs
    · rw [unpack_pack_zero]
      exact ⟨rfl, rfl⟩
    · rw [unpack_pack_zero]
      exact ⟨rfl, rfl⟩
  | finite other mantissa exponent positive =>
    rw [UnpackedFloat.add, unpack_pack _ _ _ _ (unpack_canonical _ _ _ _ _ unpacked)]
    · exact ⟨rfl, rfl⟩
    · simp
    · simp
    · simp

theorem mul_zero_unpack (number zero : Float) (sign : Sign) (finite : IsFinite number)
    (nothing : zero.toModel.unpack = .zero sign) : ∃ sign, (number * zero).toModel.unpack = .zero sign := by
  have product : (number * zero).toModel = Float.Model.pack
      (UnpackedFloat.mul Format.binary64 number.toModel.unpack zero.toModel.unpack) := rfl
  unfold IsFinite at finite
  rw [product, nothing]
  cases unpacked : number.toModel.unpack with
  | infinity other => rw [unpacked] at finite; cases finite
  | notANumber => rw [unpacked] at finite; cases finite
  | zero other => exact ⟨_, unpack_pack_zero _⟩
  | finite other mantissa exponent positive => exact ⟨_, unpack_pack_zero _⟩

theorem log2_mul_two_pow (mantissa count : Nat) (positive : 0 < mantissa) :
    (mantissa * 2 ^ count).log2 = mantissa.log2 + count := by
  induction count with
  | zero => rw [Nat.pow_zero, Nat.mul_one, Nat.add_zero]
  | succ count ih =>
    have double : mantissa * 2 ^ (count + 1) = 2 * (mantissa * 2 ^ count) := by ring
    rw [double, Nat.log2_two_mul (Nat.mul_pos positive (Nat.two_pow_pos count)).ne', ih, Nat.add_assoc]

section Exact

variable {mantissa : Nat} {exponent : Int}

theorem Canonical.target (canonical : Canonical mantissa exponent) :
    max ((mantissa.log2 : Int) + exponent - 52) (-1074) = exponent := by
  have few := log2_le mantissa 52 canonical.short
  have low := canonical.low
  rcases canonical.full with full | least
  · rw [log2_eq mantissa canonical.short full]
    omega
  · omega

theorem Canonical.shift (canonical : Canonical mantissa exponent) (positive : 0 < mantissa) (count : Nat) :
    shiftToTargetExponent Format.binary64 (mantissa * 2 ^ count) (exponent - count) .exact =
      (⟨mantissa, false, false⟩, exponent) := by
  have target := canonical.target
  have amount : (exponent - (exponent - (count : Int))).toNat = count := by omega
  have reached : max (((mantissa * 2 ^ count).log2 : Int) + (exponent - count) - 52) (-1074) = exponent := by
    rw [log2_mul_two_pow mantissa count positive]
    omega
  rw [shiftToTargetExponent, target_eq, reached, shiftToExponent, amount]
  rw [ExtendedMantissa.ofMantissaAndAccuracy, shift_exact count _ (Nat.dvd_mul_left _ _),
    Nat.mul_div_cancel _ (Nat.two_pow_pos count), Int.sub_add_cancel]

theorem Canonical.roundWithAccuracy (canonical : Canonical mantissa exponent) (positive : 0 < mantissa) (sign : Sign)
    (count : Nat) :
    UnpackedFloat.roundWithAccuracy Format.binary64 sign (mantissa * 2 ^ count) (exponent - count) .exact =
      .finite sign mantissa exponent positive := by
  have again := canonical.shift positive 0
  rw [Nat.pow_zero, Nat.mul_one, Int.ofNat_zero, Int.sub_zero] at again
  have rounded : (⟨mantissa, false, false⟩ : ExtendedMantissa).roundedMantissa = mantissa := rfl
  unfold UnpackedFloat.roundWithAccuracy
  rw [canonical.shift positive count]
  dsimp only
  rw [rounded, again]
  exact dif_neg positive.ne'

/-- A number that the format has is rounded to itself, however it is written. -/
theorem Canonical.round (canonical : Canonical mantissa exponent) (positive : 0 < mantissa) (sign : Sign)
    (size : Nat) (scale : Int) (low : -1074 ≤ scale)
    (same : size * 2 ^ (scale + 1074).toNat = mantissa * 2 ^ (exponent + 1074).toNat) :
    UnpackedFloat.round Format.binary64 sign size scale = .finite sign mantissa exponent positive := by
  have least := canonical.low
  have target := canonical.target
  rcases Int.le_total exponent scale with finer | coarser
  · have split : (scale + 1074).toNat = (scale - exponent).toNat + (exponent + 1074).toNat := by omega
    rw [split, Nat.pow_add, ← Nat.mul_assoc] at same
    obtain rfl : size * 2 ^ (scale - exponent).toNat = mantissa :=
      Nat.eq_of_mul_eq_mul_right (Nat.two_pow_pos _) same
    have log := log2_mul_two_pow size (scale - exponent).toNat (Nat.pos_of_mul_pos_right positive)
    have reached : max ((size.log2 : Int) + scale - 52) (-1074) = exponent := by omega
    have rounded := canonical.roundWithAccuracy positive sign 0
    have back : scale - ((scale - exponent).toNat : Int) = exponent := by omega
    unfold UnpackedFloat.round decreaseExponent
    rw [target_eq, reached]
    dsimp only
    rw [Nat.shiftLeft_eq, back]
    rwa [Nat.pow_zero, Nat.mul_one, Int.ofNat_zero, Int.sub_zero] at rounded
  · have split : (exponent + 1074).toNat = (exponent - scale).toNat + (scale + 1074).toNat := by omega
    rw [split, Nat.pow_add, ← Nat.mul_assoc] at same
    obtain rfl : size = mantissa * 2 ^ (exponent - scale).toNat :=
      Nat.eq_of_mul_eq_mul_right (Nat.two_pow_pos _) same
    have log := log2_mul_two_pow mantissa (exponent - scale).toNat positive
    have reached : max (((mantissa * 2 ^ (exponent - scale).toNat).log2 : Int) + scale - 52) (-1074) = exponent := by
      omega
    have rounded := canonical.roundWithAccuracy positive sign (exponent - scale).toNat
    have nothing : (scale - exponent).toNat = 0 := by omega
    have back : exponent - ((exponent - scale).toNat : Int) = scale := by omega
    unfold UnpackedFloat.round decreaseExponent
    rw [target_eq, reached]
    dsimp only
    rw [nothing, Nat.shiftLeft_zero, Int.ofNat_zero, Int.sub_zero]
    rwa [back] at rounded

end Exact

/-- Every multiple of a power of two with at most 53 significant bits is in the format. -/
theorem exists_canonical (digits count : Nat) (positive : 0 < digits) (short : digits < 2 ^ 53) (few : count ≤ 52) :
    ∃ mantissa exponent, 0 < mantissa ∧ Canonical mantissa exponent ∧
      digits * 2 ^ count * 2 ^ ((-52 : Int) + 1074).toNat = mantissa * 2 ^ (exponent + 1074).toNat := by
  have log := log2_le digits 52 short
  have lower := Nat.log2_self_le positive.ne'
  have upper := @Nat.lt_log2_self digits
  refine ⟨digits * 2 ^ (52 - digits.log2), (count : Int) + digits.log2 - 104,
    Nat.mul_pos positive (Nat.two_pow_pos _), ⟨?_, by omega, by omega, Or.inl ?_⟩, ?_⟩
  · calc digits * 2 ^ (52 - digits.log2)
        < 2 ^ (digits.log2 + 1) * 2 ^ (52 - digits.log2) := Nat.mul_lt_mul_of_pos_right upper (Nat.two_pow_pos _)
      _ = 2 ^ 53 := by rw [← Nat.pow_add]; congr 1; omega
  · calc 2 ^ 52 = 2 ^ digits.log2 * 2 ^ (52 - digits.log2) := by rw [← Nat.pow_add]; congr 1; omega
      _ ≤ digits * 2 ^ (52 - digits.log2) := Nat.mul_le_mul_right _ lower
  · rw [Nat.mul_assoc, Nat.mul_assoc, ← Nat.pow_add, ← Nat.pow_add]
    congr 2
    omega

theorem difference_digits (mantissa : Nat) (exponent : Int) (canonical : Canonical mantissa exponent)
    (enough : -52 ≤ exponent) (small : mantissa * 2 ^ (exponent + 1074).toNat ≤ 2 ^ 53 * whole) :
    ∃ digits count, digits < 2 ^ 53 ∧ count ≤ 52 ∧
      mantissa * 2 ^ (exponent + 52).toNat = digits * 2 ^ count + 2 ^ 52 := by
  have full := canonical.full.resolve_right (by omega)
  have short := canonical.short
  by_cases fraction : exponent ≤ 0
  · have split : 52 = (-exponent).toNat + (exponent + 52).toNat := by omega
    have unit : 2 ^ (-exponent).toNat ≤ 2 ^ 52 := Nat.pow_le_pow_right (by decide) (by omega)
    have some := Nat.two_pow_pos (-exponent).toNat
    refine ⟨mantissa - 2 ^ (-exponent).toNat, (exponent + 52).toNat, by omega, by omega, ?_⟩
    conv_rhs => rw [split, Nat.pow_add]
    rw [← Nat.add_mul]
    congr 1
    omega
  · -- the largest number allowed is the only one with this exponent
    rw [whole, ← pow_add] at small
    have large := canonical.le_units (by omega)
    have bounded := (Nat.pow_le_pow_iff_right (by decide)).mp (large.trans small)
    obtain rfl : exponent = 1 := by omega
    have sum : 53 + 1074 = 52 + ((1 : Int) + 1074).toNat := rfl
    rw [sum, pow_add] at small
    have least : mantissa ≤ 2 ^ 52 := Nat.le_of_mul_le_mul_right small (Nat.two_pow_pos _)
    obtain rfl : mantissa = 2 ^ 52 := by omega
    exact ⟨2 ^ 53 - 1, 52, by decide, Nat.le_refl 52, by decide⟩

/-- One less, without rounding, for numbers up to `2 ^ 53`. -/
theorem sub_one_units (number : Float) (enough : whole ≤ units number.toModel.unpack)
    (small : units number.toModel.unpack ≤ 2 ^ 53 * whole) :
    IsFinite (number - 1.0) ∧ units (number - 1.0).toModel.unpack + whole = units number.toModel.unpack := by
  have difference : (number - 1.0).toModel = Float.Model.pack
      (UnpackedFloat.sub Format.binary64 number.toModel.unpack (.finite .positive (2 ^ 52) (-52) (by decide))) := rfl
  unfold IsFinite
  rw [difference]
  cases unpacked : number.toModel.unpack with
  | infinity sign => rw [unpacked] at enough; exact absurd enough whole_pos.not_ge
  | notANumber => rw [unpacked] at enough; exact absurd enough whole_pos.not_ge
  | zero sign => rw [unpacked] at enough; exact absurd enough whole_pos.not_ge
  | finite sign mantissa exponent positive =>
    cases sign with
    | negative => rw [unpacked] at enough; exact absurd enough whole_pos.not_ge
    | positive =>
      have canonical := unpack_canonical _ _ _ _ _ unpacked
      rw [unpacked, units] at enough small
      have upper := canonical.units_lt.trans_le' enough
      rw [whole] at upper
      have high := (Nat.pow_lt_pow_iff_right (by decide)).mp upper
      obtain ⟨digits, count, short, few, same⟩ := difference_digits mantissa exponent canonical (by omega) small
      have split : (exponent + 1074).toNat = (exponent + 52).toNat + ((-52 : Int) + 1074).toNat := by omega
      have amount : units (.finite .positive mantissa exponent positive) =
          digits * 2 ^ count * 2 ^ ((-52 : Int) + 1074).toNat + whole := by
        rw [units, split, Nat.pow_add, ← Nat.mul_assoc, same, Nat.add_mul, ← units_one, one_eq, units]
      have least : min exponent (-52) = -52 := by omega
      have nothing : ((-52 : Int) - -52).toNat = 0 := rfl
      have shifted : ((mantissa <<< (exponent - -52).toNat : Nat) : Int) - ((2 ^ 52 <<< 0 : Nat) : Int) =
          ((digits * 2 ^ count : Nat) : Int) := by
        rw [Nat.shiftLeft_eq, Int.sub_neg, same, Nat.shiftLeft_zero]
        omega
      rw [amount, UnpackedFloat.sub]
      dsimp only
      rw [least, decreaseExponent, decreaseExponent, nothing]
      dsimp only [Sign.apply]
      rw [shifted]
      by_cases zero : digits = 0
      · subst zero
        have none : UnpackedFloat.normalize Format.binary64 ((0 : Nat) : Int) (-52) .positive = .zero .positive := rfl
        have amount : units (.zero .positive) = 0 := rfl
        rw [Nat.zero_mul, Nat.zero_mul, Nat.zero_add, none, unpack_pack_zero, amount, Nat.zero_add]
        exact ⟨rfl, rfl⟩
      · have positive := Nat.pos_of_ne_zero zero
        obtain ⟨rest, lower, some, exact, value⟩ := exists_canonical digits count positive short few
        have more : 0 < digits * 2 ^ count := Nat.mul_pos positive (Nat.two_pow_pos count)
        have rounded : UnpackedFloat.normalize Format.binary64 ((digits * 2 ^ count : Nat) : Int) (-52) .positive =
            .finite .positive rest lower some := by
          rw [UnpackedFloat.normalize, Int.compare_eq_gt.mpr (by omega)]
          exact exact.round some .positive _ _ (by decide) value
        rw [rounded, unpack_pack _ _ _ _ exact, units, value]
        exact ⟨rfl, rfl⟩

end FleetGateway.Library.Binary64
