import InertialSense.Comm.Checksum
import InertialSense.Foundation.Crc

/-! `calculate24BitCRCQ` by its table against CRC-24Q one bit at a time, and against the
remainder of polynomials. -/

namespace InertialSense.Comm

open Polynomial Foundation Foundation.BitPolynomial Foundation.Crc

def crc24q : Generator where
  width := 24
  low := 0x864CFB
  low_lt := by decide

/-- CRC-24Q a bit at a time, the highest bit of each byte first. -/
def bitwiseCrc24q (data : List UInt8) : Nat := (octets data).foldl crc24q.align 0

private theorem crc24q_start : crc24q.Remainder 0 (0 * X ^ crc24q.width) := by
  rw [zero_mul]
  exact Generator.Remainder.zero

theorem bitwiseCrc24q_remainder (data : List UInt8) :
    crc24q.Remainder (bitwiseCrc24q data) (polynomial (number (octets data)) * X ^ 24) := by
  have run := crc24q_start.foldl_align (octets data)
  rw [zero_mul, zero_add] at run
  exact run

private theorem tableCrc24q_getD {index : Nat} (inside : index < 256) :
    (tableCrc24q.getD index 0).toNat = (digits 8 index).foldl crc24q.align 0 := by
  have all : tableCrc24q.toList.map UInt32.toNat =
      (List.range 256).map fun index => (digits 8 index).foldl crc24q.align 0 := by
    decide +kernel
  have entry := congrArg (fun table => table[index]?) all
  simp only [List.getElem?_map, List.getElem?_range inside, Option.map_some, Array.getElem?_toList]
    at entry
  obtain ⟨constant, found, value⟩ := Option.map_eq_some_iff.mp entry
  rw [Array.getD_eq_getD_getElem?, found, Option.getD_some, value]

private theorem tableCrc24q_entries {index : Nat} (inside : index < 256) :
    crc24q.Remainder (tableCrc24q.getD index 0).toNat (polynomial index * X ^ crc24q.width) := by
  have run := crc24q_start.foldl_align (digits 8 index)
  rw [zero_mul, zero_add, number_digits inside] at run
  rw [tableCrc24q_getD inside]
  exact run

private theorem step_toNat (crc : UInt32) (byte : UInt8) :
    (((crc <<< 8) &&& (0xFFFFFF : UInt32)) ^^^
        tableCrc24q.getD ((crc >>> 16) ^^^ byte.toUInt32).toNat 0).toNat =
      2 ^ 8 * (crc.toNat % 2 ^ (24 - 8)) ^^^
        (tableCrc24q.getD (crc.toNat / 2 ^ (24 - 8) ^^^ byte.toNat) 0).toNat := by
  have index : ((crc >>> 16) ^^^ byte.toUInt32).toNat = crc.toNat / 2 ^ (24 - 8) ^^^ byte.toNat := by
    rw [UInt32.toNat_xor, UInt32.toNat_shiftRight, UInt8.toNat_toUInt32, Nat.shiftRight_eq_div_pow]
    rfl
  have shifted : ((crc <<< 8) &&& (0xFFFFFF : UInt32)).toNat = 2 ^ 8 * (crc.toNat % 2 ^ (24 - 8)) := by
    have mask : (0xFFFFFF : UInt32).toNat = 2 ^ 24 - 1 := rfl
    have eight : (8 : UInt32).toNat % 32 = 8 := rfl
    rw [UInt32.toNat_and, mask, Nat.and_two_pow_sub_one_eq_mod, UInt32.toNat_shiftLeft, eight,
      Nat.shiftLeft_eq]
    omega
  rw [UInt32.toNat_xor, index, shifted]

theorem calculate24BitCRCQ_remainder (data : List UInt8) :
    crc24q.Remainder (calculate24BitCRCQ data).toNat (polynomial (number (octets data)) * X ^ 24) := by
  induction data using List.reverseRecOn with
  | nil => exact bitwiseCrc24q_remainder []
  | append_singleton rest byte ih =>
    have step := ih.table (show 8 ≤ crc24q.width by decide)
      (fun index inside => tableCrc24q_entries inside) byte.toNat_lt
    rw [polynomial_octets_concat, calculate24BitCRCQ, List.foldl_concat]
    exact (step_toNat _ byte).symm ▸ step

private theorem crcBytes_eq (crc : UInt32) : crcBytes crc = (toBytes 3 crc.toNat).reverse := by
  have byte {value : UInt32} {part : Nat} (same : value.toNat % 256 = part % 256) :
      value.toUInt8 = UInt8.ofNat part := UInt8.toNat_inj.mp (by simpa using same)
  have upper : (crc >>> 16).toUInt8 = UInt8.ofNat (crc.toNat / 256 / 256) := by
    apply byte
    rw [UInt32.toNat_shiftRight, Nat.div_div_eq_div_mul, Nat.shiftRight_eq_div_pow]
    rfl
  have middle : (crc >>> 8).toUInt8 = UInt8.ofNat (crc.toNat / 256) := by
    apply byte
    rw [UInt32.toNat_shiftRight, Nat.shiftRight_eq_div_pow]
    rfl
  have lower : crc.toUInt8 = UInt8.ofNat crc.toNat := byte rfl
  rw [crcBytes, upper, middle, lower]
  rfl

/-- The table, the bits and the polynomials agree, and a message followed by its check
leaves nothing. -/
theorem calculate24BitCRCQ_eq_bitwise (data : List UInt8) :
    crc24q.value = 0x1864CFB ∧
      (calculate24BitCRCQ data).toNat = bitwiseCrc24q data ∧
      polynomial (calculate24BitCRCQ data).toNat =
        (polynomial (number (octets data)) * X ^ 24) %ₘ polynomial crc24q.value ∧
      calculate24BitCRCQ (data ++ crcBytes (calculate24BitCRCQ data)) = 0 := by
  have stands := calculate24BitCRCQ_remainder data
  refine ⟨rfl, stands.unique (bitwiseCrc24q_remainder data), ?_, ?_⟩
  · rw [crc24q.polynomial_value]
    exact stands.eq_modByMonic
  · rw [crcBytes_eq]
    have ends := calculate24BitCRCQ_remainder
      (data ++ (toBytes 3 (calculate24BitCRCQ data).toNat).reverse)
    rw [polynomial_octets_bigEndian data stands.small] at ends
    exact UInt32.toNat_inj.mp (stands.appended ends)

end InertialSense.Comm
