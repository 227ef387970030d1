import InertialSense.Foundation.Crc

/-! The XMODEM check of `ISBootloaderSAMBA.cpp` and the chunks that carry it. -/

namespace InertialSense.Bootloader

open Polynomial Foundation Foundation.BitPolynomial Foundation.Crc

def uartXmodemCrcPoly : UInt16 := 0x1021

def crcUpdate (crcIn : UInt16) (incr : Nat) : UInt16 :=
  let crc := crcIn >>> 15
  let out := crcIn <<< 1
  let out := if incr ≠ 0 then out + 1 else out
  if crc ≠ 0 then out ^^^ uartXmodemCrcPoly else out

/-- The values of `i` in the inner loop of `crc16`. -/
def bitMasks : List UInt16 := [0x80, 0x40, 0x20, 0x10, 0x08, 0x04, 0x02, 0x01]

/-- The bits of one byte. -/
def crcByte (crc : UInt16) (byte : UInt8) : UInt16 :=
  bitMasks.foldl (fun crc i => crcUpdate crc (byte.toUInt16 &&& i).toNat) crc

/-- `crc16` of the first `size` bytes: all their bits, then sixteen zeros. -/
def crc16 (data : List UInt8) (size : UInt16) : UInt16 :=
  (List.range 16).foldl (fun crc _ => crcUpdate crc 0) ((data.take size.toNat).foldl crcByte 0)

def swap16 (value : UInt16) : UInt16 := (value >>> 8) ||| (value <<< 8)

/-- `xmodem_chunk_t`. -/
structure XmodemChunk where
  start : UInt8
  block : UInt8
  blockNeg : UInt8
  payload : List UInt8
  crc : UInt16
deriving DecidableEq

def uartXmodemPayloadSize : Nat := 128

/-- The chunk that `write_uart_modem` fills with the next bytes of `buf`. -/
def fillChunk (block : UInt8) (buf : List UInt8) : XmodemChunk :=
  let z := min buf.length uartXmodemPayloadSize
  let payload := buf.take z ++ List.replicate (uartXmodemPayloadSize - z) 0xff
  { start := 0x01, block, blockNeg := 0xff - block, payload
    crc := swap16 (crc16 payload (UInt16.ofNat uartXmodemPayloadSize)) }

/-- The two bytes of `chunk.crc` in little-endian memory. -/
def storedCrc (crc : UInt16) : List UInt8 := toBytes 2 crc.toNat

def xmodem : Generator where
  width := 16
  low := 0x1021
  low_lt := by decide

theorem polynomial_xmodem : xmodem.polynomial = X ^ 16 + X ^ 12 + X ^ 5 + 1 := by
  have low : polynomial 0x1021 = X ^ 12 + (X ^ 5 + 1) := by
    have twelve := polynomial_join 1 (show 0x21 < 2 ^ 12 by decide)
    have five := polynomial_join 1 (show 1 < 2 ^ 5 by decide)
    simp only [polynomial_one, one_mul] at twelve five
    exact twelve.trans (congrArg (X ^ 12 + ·) five)
  rw [Generator.polynomial]
  show X ^ 16 + polynomial 0x1021 = _
  rw [low]
  ring

theorem crcUpdate_toNat (crcIn : UInt16) (incr : Nat) :
    (crcUpdate crcIn incr).toNat = xmodem.feed crcIn.toNat (incr != 0) := by
  have bound := crcIn.toNat_lt
  have top : (crcIn >>> 15).toNat = crcIn.toNat / 2 ^ 15 := by
    rw [UInt16.toNat_shiftRight, Nat.shiftRight_eq_div_pow]
    rfl
  have shifted : (crcIn <<< 1).toNat = 2 * crcIn.toNat % 2 ^ 16 := by
    have one : (1 : UInt16).toNat % 16 = 1 := rfl
    rw [UInt16.toNat_shiftLeft, one, Nat.shiftLeft_eq, Nat.mul_comm, Nat.pow_one]
  have out : (if incr ≠ 0 then crcIn <<< 1 + 1 else crcIn <<< 1).toNat =
      (2 * crcIn.toNat + (incr != 0).toNat) % 2 ^ 16 := by
    by_cases zero : incr = 0
    · simp [zero, shifted]
    · have one : (1 : UInt16).toNat = 1 := rfl
      simp only [ne_eq, zero, not_false_eq_true, if_true, UInt16.toNat_add, shifted, one,
        bne_iff_ne.mpr zero, Bool.toNat_true]
      omega
  have carry : (incr != 0).toNat ≤ 1 := Bool.toNat_le _
  unfold crcUpdate
  dsimp only
  by_cases leading : crcIn.toNat < 2 ^ 15
  · have absent : ¬crcIn >>> 15 ≠ 0 := by
      refine not_not.mpr (UInt16.toNat_inj.mp ?_)
      rw [top, Nat.div_eq_of_lt leading]
      rfl
    have small : 2 * crcIn.toNat + (incr != 0).toNat < 2 ^ 16 := by omega
    rw [if_neg absent, out, Nat.mod_eq_of_lt small]
    exact (xmodem.reduce_small small).symm
  · have present : crcIn >>> 15 ≠ 0 := by
      intro none
      have zero := congrArg UInt16.toNat none
      rw [top] at zero
      have positive := Nat.div_pos (Nat.le_of_not_lt leading) (Nat.two_pow_pos 15)
      exact absurd zero (Nat.ne_of_gt positive)
    have whole : 2 * crcIn.toNat + (incr != 0).toNat =
        2 ^ 16 + (2 * crcIn.toNat + (incr != 0).toNat) % 2 ^ 16 := by omega
    rw [if_pos present, UInt16.toNat_xor, out, Generator.feed]
    conv_rhs => rw [whole]
    exact (xmodem.reduce_leading (Nat.mod_lt _ (Nat.two_pow_pos 16))).symm

private theorem digits_eq_bitMasks (byte : UInt8) :
    digits 8 byte.toNat = bitMasks.map fun i => (byte.toUInt16 &&& i).toNat != 0 := by
  have all : (List.range 256).all fun value => digits 8 value ==
      bitMasks.map fun i => ((UInt8.ofNat value).toUInt16 &&& i).toNat != 0 := by
    decide +kernel
  have one := List.all_eq_true.mp all byte.toNat (List.mem_range.mpr byte.toNat_lt)
  rw [UInt8.ofNat_toNat] at one
  exact eq_of_beq one

private theorem foldl_crcUpdate_toNat {α : Type*} (incr : α → Nat) (items : List α) (crc : UInt16) :
    (items.foldl (fun crc item => crcUpdate crc (incr item)) crc).toNat =
      (items.map fun item => incr item != 0).foldl xmodem.feed crc.toNat := by
  induction items generalizing crc with
  | nil => rfl
  | cons item rest ih =>
    rw [List.foldl_cons, List.map_cons, List.foldl_cons, ih, crcUpdate_toNat]

private theorem crcByte_toNat (crc : UInt16) (byte : UInt8) :
    (crcByte crc byte).toNat = (digits 8 byte.toNat).foldl xmodem.feed crc.toNat := by
  rw [crcByte, foldl_crcUpdate_toNat fun i => (byte.toUInt16 &&& i).toNat, digits_eq_bitMasks]

private theorem foldl_crcByte_toNat (data : List UInt8) (crc : UInt16) :
    (data.foldl crcByte crc).toNat = (octets data).foldl xmodem.feed crc.toNat := by
  induction data generalizing crc with
  | nil => rfl
  | cons byte rest ih =>
    have head : octets (byte :: rest) = digits 8 byte.toNat ++ octets rest := rfl
    rw [List.foldl_cons, ih, crcByte_toNat, head, List.foldl_append]

/-- The register after the message and the sixteen zeros. -/
theorem crc16_remainder (data : List UInt8) (size : UInt16) :
    xmodem.Remainder (crc16 data size).toNat
      (polynomial (number (octets (data.take size.toNat))) * X ^ 16) := by
  have flushed : (crc16 data size).toNat =
      (List.replicate 16 false).foldl xmodem.feed
        ((octets (data.take size.toNat)).foldl xmodem.feed 0) := by
    rw [crc16, foldl_crcUpdate_toNat fun _ => 0, foldl_crcByte_toNat]
    rfl
  have start : xmodem.Remainder 0 0 := Generator.Remainder.zero
  have run := (start.foldl_feed (octets (data.take size.toNat))).foldl_feed
    (List.replicate 16 false)
  have zeros : number (List.replicate 16 false) = 0 := rfl
  rw [zero_mul, zero_add, zeros, polynomial_zero, add_zero, List.length_replicate] at run
  rw [flushed]
  exact run

/-- On a little-endian host `SWAP16` puts the highest byte first. -/
theorem storedCrc_swap16 (crc : UInt16) : storedCrc (swap16 crc) = (toBytes 2 crc.toNat).reverse := by
  have bound := crc.toNat_lt
  have eight : (8 : UInt16).toNat % 16 = 8 := rfl
  have high : crc.toNat / 2 ^ 8 < 2 ^ 8 := Nat.div_lt_of_lt_mul bound
  have swapped : (swap16 crc).toNat = 2 ^ 8 * (crc.toNat % 2 ^ 8) + crc.toNat / 2 ^ 8 := by
    have left : crc.toNat * 2 ^ 8 % 2 ^ 16 = 2 ^ 8 * (crc.toNat % 2 ^ 8) := by omega
    rw [swap16, UInt16.toNat_or, UInt16.toNat_shiftRight, UInt16.toNat_shiftLeft, eight,
      Nat.shiftRight_eq_div_pow, Nat.shiftLeft_eq, left, Nat.or_comm,
      Nat.two_pow_add_eq_or_of_lt high]
  have byte {first second : Nat} (same : first % 2 ^ 8 = second % 2 ^ 8) :
      UInt8.ofNat first = UInt8.ofNat second := by
    apply UInt8.toNat_inj.mp
    rw [UInt8.toNat_ofNat', UInt8.toNat_ofNat', same]
  have first : UInt8.ofNat (swap16 crc).toNat = UInt8.ofNat (crc.toNat / 256) := byte (by omega)
  have quotient : (swap16 crc).toNat / 256 = crc.toNat % 256 := by omega
  have second : UInt8.ofNat ((swap16 crc).toNat / 256) = UInt8.ofNat crc.toNat := by
    rw [quotient]
    exact byte (Nat.mod_mod _ _)
  simp only [storedCrc, toBytes, first, second]
  rfl

private theorem crc16_whole {data : List UInt8} (short : data.length < 2 ^ 16) :
    xmodem.Remainder (crc16 data (UInt16.ofNat data.length)).toNat
      (polynomial (number (octets data)) * X ^ 16) := by
  have stands := crc16_remainder data (UInt16.ofNat data.length)
  rwa [UInt16.toNat_ofNat_of_lt' short, List.take_length] at stands

/-- The check over a message and the two bytes sent after it. -/
theorem crc16_appended {data : List UInt8} (short : data.length < 2 ^ 16 - 2) :
    crc16 (data ++ storedCrc (swap16 (crc16 data (UInt16.ofNat data.length))))
      (UInt16.ofNat (data.length + 2)) = 0 := by
  have stands := crc16_whole (show data.length < 2 ^ 16 by omega)
  rw [storedCrc_swap16]
  generalize crc16 data (UInt16.ofNat data.length) = crc at stands ⊢
  have length : (data ++ (toBytes 2 crc.toNat).reverse).length = data.length + 2 := by simp
  have ends := crc16_whole (show (data ++ (toBytes 2 crc.toNat).reverse).length < 2 ^ 16 by omega)
  rw [length, polynomial_octets_bigEndian data crc.toNat_lt] at ends
  exact UInt16.toNat_inj.mp (stands.appended ends)

/-- The check is the remainder of the message times `X ^ 16`, and the message with the
check behind it, as it is sent, leaves none. -/
theorem crc16_eq_modByMonic {data : List UInt8} (short : data.length < 2 ^ 16 - 2) :
    let crc := crc16 data (UInt16.ofNat data.length)
    polynomial crc.toNat =
        (polynomial (number (octets data)) * X ^ 16) %ₘ (X ^ 16 + X ^ 12 + X ^ 5 + 1) ∧
      storedCrc (swap16 crc) = [(crc >>> 8).toUInt8, crc.toUInt8] ∧
      crc16 (data ++ storedCrc (swap16 crc)) (UInt16.ofNat (data.length + 2)) = 0 := by
  intro crc
  have stands := crc16_whole (show data.length < 2 ^ 16 by omega)
  refine ⟨?_, ?_, crc16_appended short⟩
  · rw [← polynomial_xmodem]
    exact stands.eq_modByMonic
  · have high : (crc >>> 8).toUInt8 = UInt8.ofNat (crc.toNat / 256) := by
      apply UInt8.toNat_inj.mp
      rw [UInt16.toNat_toUInt8, UInt16.toNat_shiftRight, UInt8.toNat_ofNat',
        Nat.shiftRight_eq_div_pow]
      rfl
    have low : crc.toUInt8 = UInt8.ofNat crc.toNat := rfl
    rw [storedCrc_swap16, high, low]
    rfl

theorem crc16_eq_modByMonic_word :
    [0x43, 0x52].length < 2 ^ 16 - 2 ∧
      crc16 ([0x43, 0x52] ++ storedCrc (swap16 (crc16 [0x43, 0x52] 2))) 4 = 0 :=
  ⟨by decide, (@crc16_eq_modByMonic [0x43, 0x52] (by decide)).2.2⟩

example : crc16 [0x31, 0x32, 0x33, 0x34, 0x35, 0x36, 0x37, 0x38, 0x39] 9 = 0x31C3 := by decide +kernel

/-- Every chunk carries 128 bytes and their check. -/
theorem fillChunk_checked (block : UInt8) (buf : List UInt8) :
    (fillChunk block buf).payload.length = uartXmodemPayloadSize ∧
      crc16 ((fillChunk block buf).payload ++ storedCrc (fillChunk block buf).crc) 130 = 0 := by
  have size : (fillChunk block buf).payload.length = uartXmodemPayloadSize := by
    simp [fillChunk]
  have short : (fillChunk block buf).payload.length < 2 ^ 16 - 2 := by
    rw [size]
    decide
  have checked := crc16_appended short
  rw [size] at checked
  exact ⟨size, checked⟩

end InertialSense.Bootloader
