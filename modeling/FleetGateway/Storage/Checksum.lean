import FleetGateway.Library.Remainder
import FleetGateway.Storage.Record

/-! The checksum of the log as other readers know it: CRC-32/IEEE, defined by division of polynomials
over the field of two elements. -/

namespace FleetGateway.Storage.Checksum
open Polynomial Library Library.ByteStore Library.Remainder Format Record

noncomputable def ieeePolynomial : (ZMod 2)[X] :=
  X ^ 32 + X ^ 26 + X ^ 23 + X ^ 22 + X ^ 16 + X ^ 12 + X ^ 11 + X ^ 10 + X ^ 8 + X ^ 7 + X ^ 5 + X ^ 4 + X ^ 2 + X + 1

/-- The message, each byte from its lowest bit, times `X ^ 32`, with its first 32 bits inverted. -/
noncomputable def dividend (message : Bytes) : (ZMod 2)[X] :=
  X ^ 32 * ofBits (bitsOf message) + X ^ (bitsOf message).length * ∑ degree ∈ Finset.range 32, X ^ degree

/-- The remainder, its highest coefficient in the lowest bit, complemented. -/
noncomputable def crc32Ieee (message : Bytes) : UInt32 :=
  UInt32.ofBitVec (~~~ reflected 32 (dividend message %ₘ ieeePolynomial))

theorem generator_crcPolynomial : generator crcPolynomial = ieeePolynomial := by
  have degrees : {degree ∈ Finset.range 32 | crcPolynomial.getMsbD degree = true} =
      {26, 23, 22, 16, 12, 11, 10, 8, 7, 5, 4, 2, 1, 0} := by decide
  rw [generator, ofRegister_eq_sum, degrees]
  simp only [ieeePolynomial, Finset.mem_insert, Nat.reduceEqDiff, OfNat.ofNat_ne_one, Finset.mem_singleton,
    OfNat.ofNat_ne_zero, or_self, not_false_eq_true, Finset.sum_insert, Nat.succ_ne_self, one_ne_zero, pow_one,
    Finset.sum_singleton, pow_zero]
  ring

theorem ofRegister_preset : ofRegister (0xffffffff : UInt32).toBitVec = ∑ degree ∈ Finset.range 32, X ^ degree := by
  have degrees : {degree ∈ Finset.range 32 | (0xffffffff : UInt32).toBitVec.getMsbD degree = true} =
      Finset.range 32 := by decide
  rw [ofRegister_eq_sum, degrees]

/-- What the log computes is the defined value. -/
theorem crc32Update_eq (message : Bytes) : crc32Update 0xffffffff message ^^^ 0xffffffff = crc32Ieee message := by
  have register : ofRegister (crc32Update 0xffffffff message).toBitVec = dividend message %ₘ ieeePolynomial := by
    rw [crc32Update_toBitVec, ofRegister_absorbAll crcPolynomial _ (by decide), ofRegister_preset,
      generator_crcPolynomial]
    rfl
  apply UInt32.toBitVec_inj.mp
  rw [crc32Ieee, ← register, reflected_ofRegister, UInt32.toBitVec_xor]
  exact BitVec.xor_allOnes

theorem crc32Update_flatten (crc : UInt32) (pieces : List Bytes) :
    pieces.foldl crc32Update crc = crc32Update crc pieces.flatten := by
  induction pieces generalizing crc with
  | nil => rfl
  | cons piece rest ih => rw [List.foldl_cons, ih, List.flatten_cons, crc32Update_append]

/-- However the bytes are cut, and for the checksums of records and segments. -/
theorem crc32_ieee (pieces : List Bytes) (header payload : Bytes) :
    pieces.foldl crc32Update 0xffffffff ^^^ 0xffffffff = crc32Ieee pieces.flatten ∧
      recordCrc header payload = crc32Ieee (header.take 28 ++ payload) ∧
      segmentCrc header = crc32Ieee (header.take 32) := by
  refine ⟨?_, ?_, ?_⟩
  · rw [crc32Update_flatten, crc32Update_eq]
  · rw [recordCrc, ← crc32Update_append, crc32Update_eq]
  · rw [segmentCrc, crc32Update_eq]

example : crc32Update 0xffffffff (text "123456789") ^^^ 0xffffffff = 0xcbf43926 := by decide +kernel

end FleetGateway.Storage.Checksum
