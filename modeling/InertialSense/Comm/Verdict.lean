import InertialSense.Comm.Process
import Mathlib.Data.List.Find

/-! The checks of each protocol as a statement about the bytes from a start byte on, without
the states in which the processors come to it. `byte k` is the byte `k` places after the start
byte, and `count` bytes are there. -/

namespace InertialSense.Comm

open Foundation

/-- What the checks of a protocol say. -/
inductive Verdict where
  | incomplete
  | rejected
  | accepted (length : Nat) (positive : 0 < length) (report : Report)

/-- What is reported of a frame of `length` bytes that is no ISB frame. -/
def frameReport (ptype : ProtocolType) (id length : Nat) (data : List UInt8) : Report :=
  { ptype, packet := some { pktType := 0, id, offset := 0, size := length, data } }

def carriageReturn (byte : Nat → UInt8) (count : Nat) : Option Nat :=
  (List.range count).find? fun k => byte k = 0x0D

/-- An NMEA sentence ends with the byte after its first carriage return. -/
def nmeaVerdict (byte : Nat → UInt8) (count : Nat) : Verdict :=
  match carriageReturn byte count with
  | none => if 201 < count then .rejected else .incomplete
  | some cr =>
    if 201 < cr then .rejected
    else if count < cr + 2 then .incomplete
    else if cr + 2 < 8 then .rejected
    else if strtol16 [byte (cr - 2), byte (cr - 1)] =
        (byteXor (window byte 1 (cr - 4))).toNat then
      .accepted (cr + 2) (Nat.succ_pos _) (frameReport .nmea
        (getNmeaMsgId byte (cr + 2) % 2 ^ 16).toNat (cr + 2) (window byte 0 (cr + 2)))
    else .rejected

/-- The length of a UBX frame, computed in 16 bits. -/
def ubloxSize (byte : Nat → UInt8) : Nat := (8 + word (byte 4) (byte 5)) % 2 ^ 16

/-- The two bytes of the checksum end a UBX frame. No frame ends with its header, whatever
size it announces. -/
def ubloxVerdict (byte : Nat → UInt8) (count : Nat) : Verdict :=
  if count < 2 then .incomplete
  else if byte 1 ≠ 0x62 then .rejected
  else if count < 6 then .incomplete
  else if count < max (ubloxSize byte) 7 then .incomplete
  else if (⟨byte (max (ubloxSize byte) 7 - 2), byte (max (ubloxSize byte) 7 - 1)⟩ : Checksum16) =
      fletcher16 { a := 0, b := 0 } (window byte 2 (max (ubloxSize byte) 7 - 4)) then
    .accepted (max (ubloxSize byte) 7) (by omega) (frameReport .ublox (byte 2).toNat
      (max (ubloxSize byte) 7) (window byte 0 (ubloxSize byte)))
  else .rejected

def rtcm3FrameSize (byte : Nat → UInt8) : Nat := (getBitsAsUInt32 byte 14 10).toNat + 6

def rtcm3Verdict (bufSize : Nat) (byte : Nat → UInt8) (count : Nat) : Verdict :=
  if count < 3 then .incomplete
  else if 1023 < rtcm3FrameSize byte ∨ (bufSize + 2 ^ 32 - 6) % 2 ^ 32 < rtcm3FrameSize byte then
    .rejected
  else if count < rtcm3FrameSize byte then .incomplete
  else if calculate24BitCRCQ (window byte 0 (rtcm3FrameSize byte - 3)) =
      getBitsAsUInt32 (fun k => byte (rtcm3FrameSize byte - 3 + k)) 0 24 then
    .accepted (rtcm3FrameSize byte) (Nat.succ_pos _) (frameReport .rtcm3
      (getBitsAsUInt32 byte 24 12).toNat (rtcm3FrameSize byte)
      (window byte 0 (rtcm3FrameSize byte)))
  else .rejected

def sonyFrameData (byte : Nat → UInt8) : Nat := word (byte 1) (byte 2)

def sonyVerdict (bufSize : Nat) (byte : Nat → UInt8) (count : Nat) : Verdict :=
  if count < 5 then .incomplete
  else if byteSum (window byte 0 4) ≠ byte 4 ∨ 4090 < sonyFrameData byte ∨
      bufSize < sonyFrameData byte then
    .rejected
  else if count < sonyFrameData byte + 6 then .incomplete
  else if byteSum (window byte 5 (sonyFrameData byte)) = byte (sonyFrameData byte + 5) then
    .accepted (sonyFrameData byte + 6) (Nat.succ_pos _) (frameReport .sony (byte 3).toNat
      (sonyFrameData byte + 6) (window byte 0 (sonyFrameData byte + 6)))
  else .rejected

/-- The length of the header of a SPARTN message. -/
def spartnFrameHeader (byte : Nat → UInt8) : Nat :=
  8 + (if byte 4 &&& 0x08 ≠ 0 then 2 else 0) + if byte 3 &&& 0x40 ≠ 0 then 2 else 0

/-- The length of a SPARTN message; the last byte of the header of an encrypted one tells
how long its authentication data is. -/
def spartnFrameSize (byte : Nat → UInt8) : Nat :=
  spartnFrameHeader byte +
    ((((byte 1).toNat &&& 0x01) <<< 9 ||| (byte 2).toNat <<< 1 ||| (byte 3).toNat >>> 7) +
      (((byte 3).toNat >>> 4 &&& 0x03) + 1)) +
    if byte 3 &&& 0x40 ≠ 0 then Instance.spartnAuthLen (byte (spartnFrameHeader byte - 1)) else 0

/-- Only the header of a SPARTN message is checked. -/
def spartnVerdict (byte : Nat → UInt8) (count : Nat) : Verdict :=
  if count < 4 then .incomplete
  else if byte 3 &&& 0x0F ≠ computeCrc4Ccitt [byte 1, byte 2, byte 3 &&& 0xF0] then .rejected
  else if count < 5 then .incomplete
  else if count < spartnFrameHeader byte then .incomplete
  else if count < spartnFrameSize byte then .incomplete
  else
    .accepted (spartnFrameSize byte) (by unfold spartnFrameSize spartnFrameHeader; omega)
      (frameReport .spartn 0 (spartnFrameSize byte) (window byte 0 (spartnFrameSize byte)))

private theorem spartnAuthLen_le (auth : UInt8) : Instance.spartnAuthLen auth ≤ 64 := by
  unfold Instance.spartnAuthLen
  repeat' split
  all_goals omega

theorem spartnFrameSize_lt (byte : Nat → UInt8) : spartnFrameSize byte < 65536 := by
  have field : ((byte 1).toNat &&& 0x01) <<< 9 ||| (byte 2).toNat <<< 1 ||| (byte 3).toNat >>> 7 <
      2 ^ 10 := by
    have first := @Nat.and_le_right (byte 1).toNat 0x01
    have second := (byte 2).toNat_lt
    have third := (byte 3).toNat_lt
    refine Nat.or_lt_two_pow (Nat.or_lt_two_pow ?_ ?_) ?_
    · rw [Nat.shiftLeft_eq]
      omega
    · rw [Nat.shiftLeft_eq]
      omega
    · rw [Nat.shiftRight_eq_div_pow]
      omega
  have tail := @Nat.and_le_right ((byte 3).toNat >>> 4) 0x03
  have auth := spartnAuthLen_le (byte (spartnFrameHeader byte - 1))
  have header : spartnFrameHeader byte ≤ 12 := by
    unfold spartnFrameHeader
    split <;> split <;> omega
  unfold spartnFrameSize
  split <;> omega

/-- The checks of a protocol other than ISB. -/
def Processor.verdict (bufSize : Nat) (byte : Nat → UInt8) (count : Nat) : Processor → Verdict
  | .isb => .incomplete
  | .nmea => nmeaVerdict byte count
  | .ublox => ubloxVerdict byte count
  | .rtcm3 => rtcm3Verdict bufSize byte count
  | .spartn => spartnVerdict byte count
  | .sony => sonyVerdict bufSize byte count

/-! ### The verdict is about the bytes that are there -/

section Congr

variable {byte byte' : Nat → UInt8} {count : Nat} (same : ∀ k < count, byte k = byte' k)

include same

private theorem window_same {start length : Nat} (inside : start + length ≤ count) :
    window byte start length = window byte' start length :=
  window_congr fun k small => same _ (by omega)

private theorem nmeaVerdict_congr : nmeaVerdict byte count = nmeaVerdict byte' count := by
  have ends : carriageReturn byte count = carriageReturn byte' count := by
    apply List.find?_congr
    intro k member
    rw [same k (List.mem_range.mp member)]
  unfold nmeaVerdict
  rw [ends]
  cases carriageReturn byte' count with
  | none => rfl
  | some cr =>
    by_cases short : count < cr + 2
    · simp only [if_pos short]
    by_cases few : cr + 2 < 8
    · simp only [if_pos few]
    simp only [if_neg short, if_neg few]
    rw [same (cr - 2) (by omega), same (cr - 1) (by omega), window_same same (by omega),
      window_same same (by omega), getNmeaMsgId_congr (by omega) fun k inside => same k (by omega)]

private theorem ubloxVerdict_congr : ubloxVerdict byte count = ubloxVerdict byte' count := by
  unfold ubloxVerdict
  by_cases two : count < 2
  · simp only [if_pos two]
  by_cases six : count < 6
  · simp only [if_neg two, if_pos six, same 1 (by omega)]
  have size : ubloxSize byte = ubloxSize byte' := by
    unfold ubloxSize
    rw [same 4 (by omega), same 5 (by omega)]
  by_cases short : count < max (ubloxSize byte') 7
  · simp only [size, if_neg six, if_pos short, same 1 (by omega)]
  simp only [size, if_neg two, if_neg six, if_neg short]
  rw [same 1 (by omega), same 2 (by omega), same (max (ubloxSize byte') 7 - 2) (by omega),
    same (max (ubloxSize byte') 7 - 1) (by omega), window_same same (by omega),
    window_same same (by omega)]

private theorem rtcm3Verdict_congr (bufSize : Nat) :
    rtcm3Verdict bufSize byte count = rtcm3Verdict bufSize byte' count := by
  unfold rtcm3Verdict
  by_cases three : count < 3
  · simp only [if_pos three]
  have size : rtcm3FrameSize byte = rtcm3FrameSize byte' := by
    unfold rtcm3FrameSize
    rw [getBitsAsUInt32_congr fun k small => same k (by omega)]
  by_cases short : count < rtcm3FrameSize byte'
  · simp only [size, if_pos short]
  have long : 6 ≤ rtcm3FrameSize byte' := Nat.le_add_left ..
  have crc : getBitsAsUInt32 (fun k => byte (rtcm3FrameSize byte' - 3 + k)) 0 24 =
      getBitsAsUInt32 (fun k => byte' (rtcm3FrameSize byte' - 3 + k)) 0 24 :=
    getBitsAsUInt32_congr fun k small => same _ (by omega)
  have id : getBitsAsUInt32 byte 24 12 = getBitsAsUInt32 byte' 24 12 :=
    getBitsAsUInt32_congr fun k small => same k (by omega)
  simp only [size, crc, id, window_same same (show 0 + (rtcm3FrameSize byte' - 3) ≤ count by omega),
    window_same same (show 0 + rtcm3FrameSize byte' ≤ count by omega)]

private theorem sonyVerdict_congr (bufSize : Nat) :
    sonyVerdict bufSize byte count = sonyVerdict bufSize byte' count := by
  unfold sonyVerdict
  by_cases five : count < 5
  · simp only [if_pos five]
  have size : sonyFrameData byte = sonyFrameData byte' := by
    unfold sonyFrameData
    rw [same 1 (by omega), same 2 (by omega)]
  have header : window byte 0 4 = window byte' 0 4 := window_same same (by omega)
  by_cases short : count < sonyFrameData byte' + 6
  · simp only [size, header, same 4 (by omega), if_pos short]
  simp only [size, header, same 3 (by omega), same 4 (by omega),
    same (sonyFrameData byte' + 5) (by omega),
    window_same same (show 5 + sonyFrameData byte' ≤ count by omega),
    window_same same (show 0 + (sonyFrameData byte' + 6) ≤ count by omega)]

private theorem spartnVerdict_congr : spartnVerdict byte count = spartnVerdict byte' count := by
  unfold spartnVerdict
  by_cases four : count < 4
  · simp only [if_pos four]
  by_cases five : count < 5
  · simp only [if_pos five, same 1 (by omega), same 2 (by omega), same 3 (by omega)]
  have header : spartnFrameHeader byte = spartnFrameHeader byte' := by
    unfold spartnFrameHeader
    rw [same 3 (by omega), same 4 (by omega)]
  by_cases few : count < spartnFrameHeader byte'
  · simp only [header, if_pos few, same 1 (by omega), same 2 (by omega), same 3 (by omega)]
  have long : 8 ≤ spartnFrameHeader byte' := by unfold spartnFrameHeader; omega
  have size : spartnFrameSize byte = spartnFrameSize byte' := by
    unfold spartnFrameSize
    rw [header, same 1 (by omega), same 2 (by omega), same 3 (by omega),
      same (spartnFrameHeader byte' - 1) (by omega)]
  by_cases short : count < spartnFrameSize byte'
  · simp only [header, size, if_pos short, same 1 (by omega), same 2 (by omega), same 3 (by omega)]
  simp only [header, size, same 1 (by omega), same 2 (by omega), same 3 (by omega),
    window_same same (show 0 + spartnFrameSize byte' ≤ count by omega)]

theorem Processor.verdict_congr (bufSize : Nat) (processor : Processor) :
    processor.verdict bufSize byte count = processor.verdict bufSize byte' count := by
  cases processor with
  | isb => rfl
  | nmea => exact nmeaVerdict_congr same
  | ublox => exact ubloxVerdict_congr same
  | rtcm3 => exact rtcm3Verdict_congr same bufSize
  | spartn => exact spartnVerdict_congr same
  | sony => exact sonyVerdict_congr same bufSize

end Congr

/-! ### More bytes do not change a verdict -/

section Stable

variable {byte : Nat → UInt8} {count more : Nat}

theorem carriageReturn_eq_some {cr : Nat} :
    carriageReturn byte count = some cr ↔
      byte cr = 0x0D ∧ cr < count ∧ ∀ k < cr, byte k ≠ 0x0D := by
  unfold carriageReturn
  rw [List.find?_range_eq_some]
  simp

theorem carriageReturn_eq_none :
    carriageReturn byte count = none ↔ ∀ k < count, byte k ≠ 0x0D := by
  unfold carriageReturn
  rw [List.find?_range_eq_none]
  simp

private theorem nmeaVerdict_stable (le : count ≤ more)
    (decided : nmeaVerdict byte count ≠ .incomplete) :
    nmeaVerdict byte more = nmeaVerdict byte count := by
  cases ends : carriageReturn byte count with
  | some cr =>
    obtain ⟨there, inside, first⟩ := carriageReturn_eq_some.mp ends
    have later : carriageReturn byte more = some cr :=
      carriageReturn_eq_some.mpr ⟨there, by omega, first⟩
    unfold nmeaVerdict at decided ⊢
    simp only [ends] at decided
    simp only [ends, later]
    by_cases short : count < cr + 2
    · by_cases far : 201 < cr
      · simp only [if_pos far]
      · simp [if_neg far, if_pos short] at decided
    · simp only [if_neg short, if_neg (show ¬more < cr + 2 by omega)]
  | none =>
    have plain := carriageReturn_eq_none.mp ends
    unfold nmeaVerdict at decided ⊢
    simp only [ends] at decided ⊢
    by_cases far : 201 < count
    · rw [if_pos far]
      cases later : carriageReturn byte more with
      | none => exact if_pos (by omega)
      | some cr =>
        obtain ⟨there, -, -⟩ := carriageReturn_eq_some.mp later
        have beyond : 201 < cr := by
          by_contra near
          exact plain cr (by omega) there
        exact if_pos beyond
    · exact absurd (if_neg far) decided

private theorem guard_stable {needed : Nat} {verdict verdict' : Verdict} (le : count ≤ more)
    (decided : (if count < needed then .incomplete else verdict) ≠ Verdict.incomplete)
    (rest : verdict ≠ .incomplete → verdict' = verdict) :
    (if more < needed then .incomplete else verdict') =
      if count < needed then .incomplete else verdict := by
  by_cases short : count < needed
  · exact absurd (if_pos short) decided
  · rw [if_neg short] at decided ⊢
    rw [if_neg (by omega)]
    exact rest decided

private theorem check_stable {check : Prop} [Decidable check] {verdict verdict' : Verdict}
    (decided : (if check then .rejected else verdict) ≠ Verdict.incomplete)
    (rest : verdict ≠ .incomplete → verdict' = verdict) :
    (if check then .rejected else verdict') = if check then .rejected else verdict := by
  by_cases fails : check
  · rw [if_pos fails, if_pos fails]
  · rw [if_neg fails] at decided ⊢
    rw [if_neg fails]
    exact rest decided

theorem Processor.verdict_stable {bufSize : Nat} {processor : Processor} (le : count ≤ more)
    (decided : processor.verdict bufSize byte count ≠ .incomplete) :
    processor.verdict bufSize byte more = processor.verdict bufSize byte count := by
  cases processor with
  | isb => rfl
  | nmea => exact nmeaVerdict_stable le decided
  | ublox =>
    refine guard_stable le decided fun decided => check_stable decided fun decided => ?_
    exact guard_stable le decided fun decided => guard_stable le decided fun _ => rfl
  | rtcm3 =>
    refine guard_stable le decided fun decided => check_stable decided fun decided => ?_
    exact guard_stable le decided fun _ => rfl
  | spartn =>
    refine guard_stable le decided fun decided => check_stable decided fun decided => ?_
    refine guard_stable le decided fun decided => guard_stable le decided fun decided => ?_
    exact guard_stable le decided fun _ => rfl
  | sony =>
    refine guard_stable le decided fun decided => check_stable decided fun decided => ?_
    exact guard_stable le decided fun _ => rfl

/-- A start byte alone decides nothing. -/
theorem Processor.verdict_one (bufSize : Nat) {processor : Processor}
    (start : byte 0 = processor.startByte) : processor.verdict bufSize byte 1 = .incomplete := by
  cases processor with
  | nmea =>
    have plain : carriageReturn byte 1 = none := by
      apply carriageReturn_eq_none.mpr
      intro k first
      obtain rfl : k = 0 := by omega
      rw [start]
      decide
    show nmeaVerdict byte 1 = .incomplete
    unfold nmeaVerdict
    rw [plain]
    rfl
  | _ => rfl

end Stable

end InertialSense.Comm
