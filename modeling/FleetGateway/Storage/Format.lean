import FleetGateway.Library.ByteStore
import FleetGateway.Library.ShiftRegister

/-! The on-disk format of the segmented log: little-endian fields, the bitwise
CRC, the 40-byte segment header and the 32-byte record header. -/

namespace FleetGateway.Storage.Format
open Library Library.ByteStore

def segmentHeaderSize : Nat := 40
def recordHeaderSize : Nat := 32
def segmentMagic : Bytes := text "IOTLOG01"
def segmentVersion : Nat := 1
def recordMagic : Nat := 0x31434552
def recordVersionSize : Nat := recordHeaderSize
def maximumSegmentId : Nat := 99999999
def maxU32 : Nat := 2 ^ 32 - 1
def maxU64 : Nat := 2 ^ 64 - 1

/-- The byte loop shared by `put_u32` and `put_u64`. -/
def putUint (width value : Nat) : Bytes :=
  (List.range width).map fun index => UInt8.ofNat ((value >>> (index * 8)) &&& 0xff)

def putU32 (value : Nat) : Bytes := putUint 4 value
def putU64 (value : Nat) : Bytes := putUint 8 value

def getUint (width : Nat) (source : Bytes) : Nat :=
  (List.range width).foldl (fun value index => value ||| ((source.getD index 0).toNat <<< (index * 8))) 0

def getU32 (source : Bytes) : Nat := getUint 4 source
def getU64 (source : Bytes) : Nat := getUint 8 source

def crc32Bit (crc : UInt32) : UInt32 :=
  let mask := 0 - (crc &&& 1)
  (crc >>> 1) ^^^ (0xedb88320 &&& mask)

def crc32Update (crc : UInt32) (bytes : Bytes) : UInt32 :=
  bytes.foldl (fun crc byte => crc32Bit^[8] (crc ^^^ byte.toUInt32)) crc

def recordCrc (header payload : Bytes) : UInt32 :=
  crc32Update (crc32Update 0xffffffff (header.take 28)) payload ^^^ 0xffffffff

def segmentCrc (header : Bytes) : UInt32 :=
  crc32Update 0xffffffff (header.take 32) ^^^ 0xffffffff

structure Message where
  offset : Nat := 0
  timestampNs : Nat := 0
  payloadLength : Nat := 0
  payload : Bytes := []
  deriving DecidableEq, Repr, Inhabited

/-- The 28 bytes of a record header that its CRC covers. -/
def recordPrefix (offset timestampNs payloadLength : Nat) : Bytes :=
  putU32 recordMagic ++ (putU32 recordVersionSize ++ (putU64 offset ++ (putU64 timestampNs ++
    putU32 payloadLength)))

def recordHeader (offset timestampNs : Nat) (payload : Bytes) : Bytes :=
  let header := recordPrefix offset timestampNs payload.length
  header ++ putU32 (recordCrc header payload).toNat

/-- The 32 bytes of a segment header that its CRC covers. -/
def segmentPrefix (segmentId baseOffset segmentSize : Nat) : Bytes :=
  segmentMagic ++ (putU32 segmentVersion ++ (putU32 segmentId ++ (putU64 baseOffset ++ putU64 segmentSize)))

def segmentFields (segmentId baseOffset segmentSize : Nat) : Bytes :=
  let header := segmentPrefix segmentId baseOffset segmentSize
  header ++ putU32 (segmentCrc header).toNat

def segmentHeader (segmentId baseOffset segmentSize : Nat) : Bytes :=
  segmentFields segmentId baseOffset segmentSize ++ zeros 4

/-! The byte loops are the generic little-endian code. -/

theorem putUint_succ (width value : Nat) :
    putUint (width + 1) value = UInt8.ofNat value :: putUint width (value / 256) := by
  rw [putUint, List.range_succ_eq_map, List.map_cons, List.map_map]
  have head : UInt8.ofNat ((value >>> (0 * 8)) &&& 0xff) = UInt8.ofNat value := by
    apply UInt8.toNat_inj.mp
    rw [Nat.zero_mul, Nat.shiftRight_zero, show (0xff : Nat) = 2 ^ 8 - 1 by decide,
      Nat.and_two_pow_sub_one_eq_mod]
    simp
  rw [head]
  congr 1
  apply List.map_congr_left
  intro index _
  have shifted : value >>> ((index + 1) * 8) = (value / 256) >>> (index * 8) := by
    rw [show (index + 1) * 8 = 8 + index * 8 by ring, Nat.shiftRight_add, Nat.shiftRight_eq_div_pow value 8]
  simp only [Function.comp_apply, shifted]

theorem putUint_eq_encode (width value : Nat) : putUint width value = LittleEndian.encode width value := by
  induction width generalizing value with
  | zero => rfl
  | succ width ih => rw [putUint_succ, ih, LittleEndian.encode]

private theorem decode_take_succ (source : Bytes) (width : Nat) :
    LittleEndian.decode (source.take (width + 1)) =
      LittleEndian.decode (source.take width) + 256 ^ width * (source.getD width 0).toNat := by
  induction width generalizing source with
  | zero => cases source <;> simp [LittleEndian.decode]
  | succ width ih =>
    cases source with
    | nil => simp [LittleEndian.decode]
    | cons byte rest =>
      rw [List.take_succ_cons, List.take_succ_cons, LittleEndian.decode, LittleEndian.decode, ih,
        List.getD_cons_succ, pow_succ]
      ring

theorem getUint_eq_decode (width : Nat) (source : Bytes) :
    getUint width source = LittleEndian.decode (source.take width) := by
  induction width with
  | zero => simp [getUint, LittleEndian.decode]
  | succ width ih =>
    have low : LittleEndian.decode (source.take width) < 2 ^ (width * 8) := by
      apply lt_of_lt_of_le (LittleEndian.decode_lt _)
      rw [show (256 : Nat) = 2 ^ 8 by decide, ← pow_mul]
      exact Nat.pow_le_pow_right (by decide) (by simp; omega)
    rw [getUint] at ih ⊢
    rw [List.range_succ, List.foldl_append, ih, decode_take_succ]
    simp only [List.foldl_cons, List.foldl_nil]
    rw [Nat.or_comm, ← Nat.shiftLeft_add_eq_or_of_lt low, Nat.shiftLeft_eq,
      show (256 : Nat) = 2 ^ 8 by decide, ← pow_mul, Nat.mul_comm 8 width]
    ring

@[simp] theorem length_putU32 (value : Nat) : (putU32 value).length = 4 := by
  simp [putU32, putUint_eq_encode]

@[simp] theorem length_putU64 (value : Nat) : (putU64 value).length = 8 := by
  simp [putU64, putUint_eq_encode]

theorem getU32_put (value : Nat) (rest : Bytes) (bound : value < 2 ^ 32) :
    getU32 (putU32 value ++ rest) = value := by
  rw [getU32, getUint_eq_decode, List.take_left' (length_putU32 value), putU32, putUint_eq_encode,
    LittleEndian.decode_encode_of_lt 4 value (by simpa using bound)]

theorem getU64_put (value : Nat) (rest : Bytes) (bound : value < 2 ^ 64) :
    getU64 (putU64 value ++ rest) = value := by
  rw [getU64, getUint_eq_decode, List.take_left' (length_putU64 value), putU64, putUint_eq_encode,
    LittleEndian.decode_encode_of_lt 8 value (by simpa using bound)]

theorem getU32_lt (source : Bytes) : getU32 source < 2 ^ 32 := by
  rw [getU32, getUint_eq_decode]
  apply lt_of_lt_of_le (LittleEndian.decode_lt _)
  exact le_trans (Nat.pow_le_pow_right (by decide) (List.length_take_le _ _)) (by decide)

theorem getU64_lt (source : Bytes) : getU64 source < 2 ^ 64 := by
  rw [getU64, getUint_eq_decode]
  apply lt_of_lt_of_le (LittleEndian.decode_lt _)
  exact le_trans (Nat.pow_le_pow_right (by decide) (List.length_take_le _ _)) (by decide)

theorem take_eq_putU32 (source : Bytes) (enough : 4 ≤ source.length) :
    source.take 4 = putU32 (getU32 source) := by
  rw [putU32, putUint_eq_encode]
  exact LittleEndian.eq_encode_of_decode 4 _ _ (by simp; omega) (getUint_eq_decode 4 source).symm

theorem take_eq_putU64 (source : Bytes) (enough : 8 ≤ source.length) :
    source.take 8 = putU64 (getU64 source) := by
  rw [putU64, putUint_eq_encode]
  exact LittleEndian.eq_encode_of_decode 8 _ _ (by simp; omega) (getUint_eq_decode 8 source).symm

theorem putU32_injective (first second : Nat) (firstBound : first < 2 ^ 32) (secondBound : second < 2 ^ 32)
    (same : putU32 first = putU32 second) : first = second := by
  rw [← getU32_put first [] firstBound, ← getU32_put second [] secondBound, same]

end FleetGateway.Storage.Format
