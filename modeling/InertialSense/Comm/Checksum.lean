import InertialSense.Foundation.Memory

/-! The checksums of `ISComm.c`, over byte strings. -/

namespace InertialSense.Comm

/-- `checksum16_u`: the lower byte `a` and the upper byte `b`. -/
structure Checksum16 where
  a : UInt8
  b : UInt8
deriving DecidableEq

/-- `is_comm_fletcher16`, which is also `is_comm_isb_checksum16`. -/
def fletcher16 (init : Checksum16) (data : List UInt8) : Checksum16 :=
  data.foldl (fun sum byte => { a := sum.a + byte, b := sum.b + (sum.a + byte) }) init

theorem fletcher16_append (init : Checksum16) (first second : List UInt8) :
    fletcher16 init (first ++ second) = fletcher16 (fletcher16 init first) second := by
  simp [fletcher16]

/-- `getBitsAsUInt32` of the bytes `buffer 0, buffer 1, …`. -/
def getBitsAsUInt32 (buffer : Nat → UInt8) (pos len : Nat) : UInt32 :=
  (List.range len).foldl
    (fun bits i =>
      (bits <<< 1) +
        ((buffer ((pos + i) / 8)).toUInt32 >>> (UInt32.ofNat (7 - (pos + i) % 8)) &&& 1)) 0

/-- The bits of a field are read from the bytes it covers. -/
theorem getBitsAsUInt32_congr {buffer buffer' : Nat → UInt8} {pos len : Nat}
    (same : ∀ k, k * 8 < pos + len → buffer k = buffer' k) :
    getBitsAsUInt32 buffer pos len = getBitsAsUInt32 buffer' pos len := by
  unfold getBitsAsUInt32
  apply List.foldl_ext
  intro bits i member
  rw [same _ (by have := List.mem_range.mp member; omega)]

private theorem bit_toNat (byte : UInt8) {place : Nat} (small : place < 8) :
    (byte.toUInt32 >>> UInt32.ofNat place &&& 1).toNat = byte.toNat / 2 ^ place % 2 := by
  have shift : (UInt32.ofNat place).toNat % 32 = place := by
    rw [UInt32.toNat_ofNat']
    omega
  rw [UInt32.toNat_and, UInt32.toNat_shiftRight, shift, UInt8.toNat_toUInt32,
    Nat.shiftRight_eq_div_pow]
  exact Nat.and_one_is_mod _

private theorem getBitsAsUInt32_succ (buffer : Nat → UInt8) (pos : Nat) {len : Nat}
    (small : len < 32) (bound : (getBitsAsUInt32 buffer pos len).toNat < 2 ^ len) :
    (getBitsAsUInt32 buffer pos (len + 1)).toNat =
      2 * (getBitsAsUInt32 buffer pos len).toNat +
        (buffer ((pos + len) / 8)).toNat / 2 ^ (7 - (pos + len) % 8) % 2 := by
  have power : 2 ^ len ≤ 2 ^ 31 := Nat.pow_le_pow_right (by omega) (by omega)
  have split : getBitsAsUInt32 buffer pos (len + 1) =
      (getBitsAsUInt32 buffer pos len <<< 1) +
        ((buffer ((pos + len) / 8)).toUInt32 >>> UInt32.ofNat (7 - (pos + len) % 8) &&& 1) := by
    simp [getBitsAsUInt32, List.range_succ]
  rw [split, UInt32.toNat_add, UInt32.toNat_shiftLeft, bit_toNat _ (by omega)]
  simp only [UInt32.reduceToNat, Nat.reduceMod, Nat.shiftLeft_eq]
  omega

private theorem getBitsAsUInt32_lt (buffer : Nat → UInt8) (pos : Nat) {len : Nat} (small : len ≤ 32) :
    (getBitsAsUInt32 buffer pos len).toNat < 2 ^ len := by
  induction len with
  | zero => simp [getBitsAsUInt32]
  | succ len ih =>
    have bound := ih (by omega)
    rw [getBitsAsUInt32_succ buffer pos (by omega) bound, Nat.pow_succ]
    omega

private theorem getBitsAsUInt32_bits (buffer : Nat → UInt8) {pos len count : Nat}
    (small : len + 8 ≤ 32) (aligned : (pos + len) % 8 = 0) (inside : count ≤ 8) :
    (getBitsAsUInt32 buffer pos (len + count)).toNat =
      2 ^ count * (getBitsAsUInt32 buffer pos len).toNat +
        (buffer ((pos + len) / 8)).toNat / 2 ^ (8 - count) := by
  induction count with
  | zero =>
    have byte := (buffer ((pos + len) / 8)).toNat_lt
    simp [Nat.div_eq_of_lt byte]
  | succ count ih =>
    have next := getBitsAsUInt32_succ buffer pos (show len + count < 32 by omega)
      (getBitsAsUInt32_lt buffer pos (by omega))
    rw [show (pos + (len + count)) / 8 = (pos + len) / 8 by omega,
      show (pos + (len + count)) % 8 = count by omega, ih (by omega),
      show 8 - count = 7 - count + 1 by omega, Nat.pow_succ 2 (7 - count),
      ← Nat.div_div_eq_div_mul] at next
    rw [← Nat.add_assoc, next, show 8 - (count + 1) = 7 - count by omega, Nat.pow_succ]
    generalize (buffer ((pos + len) / 8)).toNat / 2 ^ (7 - count) = upper
    have twice : 2 ^ count * 2 * (getBitsAsUInt32 buffer pos len).toNat =
        2 * (2 ^ count * (getBitsAsUInt32 buffer pos len).toNat) := by
      rw [Nat.mul_comm (2 ^ count) 2, Nat.mul_assoc]
    omega

/-- A whole byte more. -/
theorem getBitsAsUInt32_byte (buffer : Nat → UInt8) {pos len : Nat} (small : len + 8 ≤ 32)
    (aligned : (pos + len) % 8 = 0) :
    (getBitsAsUInt32 buffer pos (len + 8)).toNat =
      256 * (getBitsAsUInt32 buffer pos len).toNat + (buffer ((pos + len) / 8)).toNat := by
  simpa using getBitsAsUInt32_bits buffer small aligned (Nat.le_refl 8)

/-- A field of ten bits that ends with a byte. -/
theorem getBitsAsUInt32_ten (buffer : Nat → UInt8) :
    (getBitsAsUInt32 buffer 14 10).toNat = 256 * ((buffer 1).toNat % 4) + (buffer 2).toNat := by
  have first := getBitsAsUInt32_succ buffer 14 (show 0 < 32 by omega)
    (getBitsAsUInt32_lt buffer 14 (by omega))
  have second := getBitsAsUInt32_succ buffer 14 (show 1 < 32 by omega)
    (getBitsAsUInt32_lt buffer 14 (by omega))
  have none : getBitsAsUInt32 buffer 14 0 = 0 := rfl
  simp [none] at first second
  rw [getBitsAsUInt32_byte buffer (show 2 + 8 ≤ 32 by omega) (by omega)]
  simp
  omega

/-- Three bytes, the highest one first. -/
theorem getBitsAsUInt32_bytes (buffer : Nat → UInt8) :
    (getBitsAsUInt32 buffer 0 24).toNat =
      65536 * (buffer 0).toNat + 256 * (buffer 1).toNat + (buffer 2).toNat := by
  have none : getBitsAsUInt32 buffer 0 0 = 0 := rfl
  rw [getBitsAsUInt32_byte buffer (show 16 + 8 ≤ 32 by omega) (by omega),
    getBitsAsUInt32_byte buffer (show 8 + 8 ≤ 32 by omega) (by omega),
    getBitsAsUInt32_byte buffer (show 0 + 8 ≤ 32 by omega) (by omega), none]
  simp
  omega

def tableCrc24q : Array UInt32 :=
  #[
    0x000000, 0x864CFB, 0x8AD50D, 0x0C99F6, 0x93E6E1, 0x15AA1A, 0x1933EC, 0x9F7F17,
    0xA18139, 0x27CDC2, 0x2B5434, 0xAD18CF, 0x3267D8, 0xB42B23, 0xB8B2D5, 0x3EFE2E,
    0xC54E89, 0x430272, 0x4F9B84, 0xC9D77F, 0x56A868, 0xD0E493, 0xDC7D65, 0x5A319E,
    0x64CFB0, 0xE2834B, 0xEE1ABD, 0x685646, 0xF72951, 0x7165AA, 0x7DFC5C, 0xFBB0A7,
    0x0CD1E9, 0x8A9D12, 0x8604E4, 0x00481F, 0x9F3708, 0x197BF3, 0x15E205, 0x93AEFE,
    0xAD50D0, 0x2B1C2B, 0x2785DD, 0xA1C926, 0x3EB631, 0xB8FACA, 0xB4633C, 0x322FC7,
    0xC99F60, 0x4FD39B, 0x434A6D, 0xC50696, 0x5A7981, 0xDC357A, 0xD0AC8C, 0x56E077,
    0x681E59, 0xEE52A2, 0xE2CB54, 0x6487AF, 0xFBF8B8, 0x7DB443, 0x712DB5, 0xF7614E,
    0x19A3D2, 0x9FEF29, 0x9376DF, 0x153A24, 0x8A4533, 0x0C09C8, 0x00903E, 0x86DCC5,
    0xB822EB, 0x3E6E10, 0x32F7E6, 0xB4BB1D, 0x2BC40A, 0xAD88F1, 0xA11107, 0x275DFC,
    0xDCED5B, 0x5AA1A0, 0x563856, 0xD074AD, 0x4F0BBA, 0xC94741, 0xC5DEB7, 0x43924C,
    0x7D6C62, 0xFB2099, 0xF7B96F, 0x71F594, 0xEE8A83, 0x68C678, 0x645F8E, 0xE21375,
    0x15723B, 0x933EC0, 0x9FA736, 0x19EBCD, 0x8694DA, 0x00D821, 0x0C41D7, 0x8A0D2C,
    0xB4F302, 0x32BFF9, 0x3E260F, 0xB86AF4, 0x2715E3, 0xA15918, 0xADC0EE, 0x2B8C15,
    0xD03CB2, 0x567049, 0x5AE9BF, 0xDCA544, 0x43DA53, 0xC596A8, 0xC90F5E, 0x4F43A5,
    0x71BD8B, 0xF7F170, 0xFB6886, 0x7D247D, 0xE25B6A, 0x641791, 0x688E67, 0xEEC29C,
    0x3347A4, 0xB50B5F, 0xB992A9, 0x3FDE52, 0xA0A145, 0x26EDBE, 0x2A7448, 0xAC38B3,
    0x92C69D, 0x148A66, 0x181390, 0x9E5F6B, 0x01207C, 0x876C87, 0x8BF571, 0x0DB98A,
    0xF6092D, 0x7045D6, 0x7CDC20, 0xFA90DB, 0x65EFCC, 0xE3A337, 0xEF3AC1, 0x69763A,
    0x578814, 0xD1C4EF, 0xDD5D19, 0x5B11E2, 0xC46EF5, 0x42220E, 0x4EBBF8, 0xC8F703,
    0x3F964D, 0xB9DAB6, 0xB54340, 0x330FBB, 0xAC70AC, 0x2A3C57, 0x26A5A1, 0xA0E95A,
    0x9E1774, 0x185B8F, 0x14C279, 0x928E82, 0x0DF195, 0x8BBD6E, 0x872498, 0x016863,
    0xFAD8C4, 0x7C943F, 0x700DC9, 0xF64132, 0x693E25, 0xEF72DE, 0xE3EB28, 0x65A7D3,
    0x5B59FD, 0xDD1506, 0xD18CF0, 0x57C00B, 0xC8BF1C, 0x4EF3E7, 0x426A11, 0xC426EA,
    0x2AE476, 0xACA88D, 0xA0317B, 0x267D80, 0xB90297, 0x3F4E6C, 0x33D79A, 0xB59B61,
    0x8B654F, 0x0D29B4, 0x01B042, 0x87FCB9, 0x1883AE, 0x9ECF55, 0x9256A3, 0x141A58,
    0xEFAAFF, 0x69E604, 0x657FF2, 0xE33309, 0x7C4C1E, 0xFA00E5, 0xF69913, 0x70D5E8,
    0x4E2BC6, 0xC8673D, 0xC4FECB, 0x42B230, 0xDDCD27, 0x5B81DC, 0x57182A, 0xD154D1,
    0x26359F, 0xA07964, 0xACE092, 0x2AAC69, 0xB5D37E, 0x339F85, 0x3F0673, 0xB94A88,
    0x87B4A6, 0x01F85D, 0x0D61AB, 0x8B2D50, 0x145247, 0x921EBC, 0x9E874A, 0x18CBB1,
    0xE37B16, 0x6537ED, 0x69AE1B, 0xEFE2E0, 0x709DF7, 0xF6D10C, 0xFA48FA, 0x7C0401,
    0x42FA2F, 0xC4B6D4, 0xC82F22, 0x4E63D9, 0xD11CCE, 0x575035, 0x5BC9C3, 0xDD8538]

def calculate24BitCRCQ (data : List UInt8) : UInt32 :=
  data.foldl
    (fun (crc : UInt32) byte =>
      ((crc <<< 8) &&& (0xFFFFFF : UInt32)) ^^^
        tableCrc24q.getD ((crc >>> 16) ^^^ byte.toUInt32).toNat 0) 0

private theorem tableCrc24q_lt (index : Nat) : (tableCrc24q.getD index 0).toNat < 2 ^ 24 := by
  have all : tableCrc24q.toList.all (·.toNat < 2 ^ 24) := by decide +kernel
  unfold Array.getD
  split
  case isTrue inside =>
    have member := Array.mem_toList_iff.mpr (Array.getElem_mem inside)
    exact of_decide_eq_true (List.all_eq_true.mp all _ member)
  case isFalse => decide

theorem calculate24BitCRCQ_lt (data : List UInt8) : (calculate24BitCRCQ data).toNat < 2 ^ 24 := by
  unfold calculate24BitCRCQ
  refine List.foldlRecOn data _ (motive := fun (crc : UInt32) => crc.toNat < 2 ^ 24) (by decide) ?_
  intro crc _ byte _
  rw [UInt32.toNat_xor, UInt32.toNat_and]
  refine Nat.xor_lt_two_pow ?_ (tableCrc24q_lt _)
  exact Nat.lt_of_le_of_lt Nat.and_le_right (by decide)

/-- The checksum as it is sent, the highest byte first. -/
def crcBytes (crc : UInt32) : List UInt8 :=
  [(crc >>> 16).toUInt8, (crc >>> 8).toUInt8, crc.toUInt8]

theorem getBitsAsUInt32_crcBytes {crc : UInt32} (small : crc.toNat < 2 ^ 24)
    {buffer : Nat → UInt8} (sent : ∀ k < 3, buffer k = (crcBytes crc).getD k 0) :
    getBitsAsUInt32 buffer 0 24 = crc := by
  apply UInt32.toNat_inj.mp
  rw [getBitsAsUInt32_bytes, sent 0 (by omega), sent 1 (by omega), sent 2 (by omega)]
  simp [crcBytes, UInt32.toNat_shiftRight, Nat.shiftRight_eq_div_pow]
  omega

theorem crcBytes_getBitsAsUInt32 (buffer : Nat → UInt8) :
    crcBytes (getBitsAsUInt32 buffer 0 24) = [buffer 0, buffer 1, buffer 2] := by
  have sum := getBitsAsUInt32_bytes buffer
  have second := (buffer 1).toNat_lt
  have third := (buffer 2).toNat_lt
  have byte {value : UInt32} {byte : UInt8} (same : value.toNat % 256 = byte.toNat) :
      value.toUInt8 = byte := UInt8.toNat_inj.mp same
  unfold crcBytes
  congr 1
  · apply byte
    rw [UInt32.toNat_shiftRight, sum, Nat.shiftRight_eq_div_pow]
    have first := (buffer 0).toNat_lt
    simp
    omega
  congr 1
  · apply byte
    rw [UInt32.toNat_shiftRight, sum, Nat.shiftRight_eq_div_pow]
    simp
    omega
  congr 1
  apply byte
  omega

def crc4Table : Array UInt8 :=
  #[
    0x00, 0x0B, 0x05, 0x0E, 0x0A, 0x01, 0x0F, 0x04, 0x07, 0x0C, 0x02, 0x09, 0x0D, 0x06, 0x08, 0x03,
    0x0E, 0x05, 0x0B, 0x00, 0x04, 0x0F, 0x01, 0x0A, 0x09, 0x02, 0x0C, 0x07, 0x03, 0x08, 0x06, 0x0D,
    0x0F, 0x04, 0x0A, 0x01, 0x05, 0x0E, 0x00, 0x0B, 0x08, 0x03, 0x0D, 0x06, 0x02, 0x09, 0x07, 0x0C,
    0x01, 0x0A, 0x04, 0x0F, 0x0B, 0x00, 0x0E, 0x05, 0x06, 0x0D, 0x03, 0x08, 0x0C, 0x07, 0x09, 0x02,
    0x0D, 0x06, 0x08, 0x03, 0x07, 0x0C, 0x02, 0x09, 0x0A, 0x01, 0x0F, 0x04, 0x00, 0x0B, 0x05, 0x0E,
    0x03, 0x08, 0x06, 0x0D, 0x09, 0x02, 0x0C, 0x07, 0x04, 0x0F, 0x01, 0x0A, 0x0E, 0x05, 0x0B, 0x00,
    0x02, 0x09, 0x07, 0x0C, 0x08, 0x03, 0x0D, 0x06, 0x05, 0x0E, 0x00, 0x0B, 0x0F, 0x04, 0x0A, 0x01,
    0x0C, 0x07, 0x09, 0x02, 0x06, 0x0D, 0x03, 0x08, 0x0B, 0x00, 0x0E, 0x05, 0x01, 0x0A, 0x04, 0x0F,
    0x09, 0x02, 0x0C, 0x07, 0x03, 0x08, 0x06, 0x0D, 0x0E, 0x05, 0x0B, 0x00, 0x04, 0x0F, 0x01, 0x0A,
    0x07, 0x0C, 0x02, 0x09, 0x0D, 0x06, 0x08, 0x03, 0x00, 0x0B, 0x05, 0x0E, 0x0A, 0x01, 0x0F, 0x04,
    0x06, 0x0D, 0x03, 0x08, 0x0C, 0x07, 0x09, 0x02, 0x01, 0x0A, 0x04, 0x0F, 0x0B, 0x00, 0x0E, 0x05,
    0x08, 0x03, 0x0D, 0x06, 0x02, 0x09, 0x07, 0x0C, 0x0F, 0x04, 0x0A, 0x01, 0x05, 0x0E, 0x00, 0x0B,
    0x04, 0x0F, 0x01, 0x0A, 0x0E, 0x05, 0x0B, 0x00, 0x03, 0x08, 0x06, 0x0D, 0x09, 0x02, 0x0C, 0x07,
    0x0A, 0x01, 0x0F, 0x04, 0x00, 0x0B, 0x05, 0x0E, 0x0D, 0x06, 0x08, 0x03, 0x07, 0x0C, 0x02, 0x09,
    0x0B, 0x00, 0x0E, 0x05, 0x01, 0x0A, 0x04, 0x0F, 0x0C, 0x07, 0x09, 0x02, 0x06, 0x0D, 0x03, 0x08,
    0x05, 0x0E, 0x00, 0x0B, 0x0F, 0x04, 0x0A, 0x01, 0x02, 0x09, 0x07, 0x0C, 0x08, 0x03, 0x0D, 0x06]

def computeCrc4Ccitt (data : List UInt8) : UInt8 :=
  data.foldl (fun remainder byte => crc4Table.getD (byte ^^^ remainder).toNat 0) 0 &&& 0x0F

/-- The sum of the bytes, as `processSonyByte` adds them. -/
def byteSum (data : List UInt8) : UInt8 := data.foldl (· + ·) 0

/-- The exclusive or of the bytes, as `processNmeaPkt` computes it. -/
def byteXor (data : List UInt8) : UInt8 := data.foldl (· ^^^ ·) 0

end InertialSense.Comm
