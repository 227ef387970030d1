import InertialSense.Comm.Arrival

/-! The framing of SPARTN messages: the fields of the header as numbers, the header's checksum
as a division of its bits, and the messages that are reported. -/

namespace InertialSense.Comm

open Foundation

/-! ### The checksum of the header -/

/-- One bit of a division by the generator of the CRC-4, the low bit first. -/
def crc4Shift (remainder : UInt8) : UInt8 :=
  if remainder &&& 1 ≠ 0 then remainder >>> 1 ^^^ 0x09 else remainder >>> 1

def crc4 (data : List UInt8) : UInt8 :=
  data.foldl (fun remainder byte => crc4Shift^[8] (byte ^^^ remainder)) 0

private theorem crc4Table_spec :
    crc4Table.toList = (List.range 256).map fun byte => crc4Shift^[8] (UInt8.ofNat byte) := by
  decide +kernel

private theorem crc4Table_small : ∀ entry ∈ crc4Table.toList, entry &&& 0x0F = entry := by
  decide +kernel

private theorem crc4Table_byte (byte : UInt8) :
    crc4Table.getD byte.toNat 0 = crc4Shift^[8] byte ∧
      crc4Shift^[8] byte &&& 0x0F = crc4Shift^[8] byte := by
  have entry : crc4Table.toList[byte.toNat]? = some (crc4Shift^[8] byte) := by
    rw [crc4Table_spec, List.getElem?_map, List.getElem?_range byte.toNat_lt, Option.map_some,
      UInt8.ofNat_toNat]
  refine ⟨?_, crc4Table_small _ (List.mem_of_getElem? entry)⟩
  rw [Array.getElem?_toList] at entry
  rw [Array.getD_eq_getD_getElem?, entry]
  rfl

theorem computeCrc4Ccitt_eq (data : List UInt8) : computeCrc4Ccitt data = crc4 data := by
  have folds (remainder : UInt8) (small : remainder &&& 0x0F = remainder) :
      data.foldl (fun remainder byte => crc4Table.getD (byte ^^^ remainder).toNat 0) remainder &&&
          0x0F =
        data.foldl (fun remainder byte => crc4Shift^[8] (byte ^^^ remainder)) remainder := by
    induction data generalizing remainder with
    | nil => exact small
    | cons byte rest ih =>
      obtain ⟨entry, next⟩ := crc4Table_byte (byte ^^^ remainder)
      rw [List.foldl_cons, List.foldl_cons, entry]
      exact ih _ next
  exact folds 0 rfl

/-! ### The fields of the header -/

section Fields

variable (frame : List UInt8)

/-- Two more bytes for a time tag of 32 bits. -/
def timeTagBytes : Nat := if (frame.getD 4 0).toNat.testBit 3 then 2 else 0

/-- Two more bytes for an encrypted message. -/
def encryptionBytes : Nat := if (frame.getD 3 0).toNat.testBit 6 then 2 else 0

/-- The payload length, a field of ten bits in three bytes. -/
def spartnPayload : Nat :=
  512 * ((frame.getD 1 0).toNat % 2) + 2 * (frame.getD 2 0).toNat + (frame.getD 3 0).toNat / 128

def messageCrcBytes : Nat := (frame.getD 3 0).toNat / 16 % 4 + 1

/-- The authentication data of an encrypted message, by the last byte of its header: an
indicator, and a code for the length. -/
def authenticationBytes : Nat :=
  let last := (frame.getD (8 + timeTagBytes frame + encryptionBytes frame - 1) 0).toNat
  if encryptionBytes frame ≠ 0 ∧ 1 < last / 8 % 8 then [8, 12, 16, 32, 64].getD (last % 8) 0 else 0

end Fields

/-- A SPARTN message. -/
structure IsSpartn (frame : List UInt8) : Prop where
  start : frame.getD 0 0 = 0x73
  header : frame.getD 3 0 &&& 0x0F =
    crc4 [frame.getD 1 0, frame.getD 2 0, frame.getD 3 0 &&& 0xF0]
  length : frame.length = 8 + timeTagBytes frame + encryptionBytes frame + spartnPayload frame +
    messageCrcBytes frame + authenticationBytes frame

instance : DecidablePred IsSpartn := fun _ =>
  decidable_of_iff (_ ∧ _ ∧ _)
    ⟨fun fields => ⟨fields.1, fields.2.1, fields.2.2⟩,
      fun message => ⟨message.start, message.header, message.length⟩⟩

/-! ### The lengths that the code computes -/

private theorem tested_iff : ∀ byte : Fin 256,
    (UInt8.ofNat byte &&& 0x08 ≠ 0 ↔ (byte : Nat).testBit 3) ∧
      (UInt8.ofNat byte &&& 0x40 ≠ 0 ↔ (byte : Nat).testBit 6) := by
  decide +kernel

private theorem testBit_three (byte : UInt8) : byte &&& 0x08 ≠ 0 ↔ byte.toNat.testBit 3 := by
  have tested := (tested_iff ⟨byte.toNat, byte.toNat_lt⟩).1
  rwa [UInt8.ofNat_toNat] at tested

private theorem testBit_six (byte : UInt8) : byte &&& 0x40 ≠ 0 ↔ byte.toNat.testBit 6 := by
  have tested := (tested_iff ⟨byte.toNat, byte.toNat_lt⟩).2
  rwa [UInt8.ofNat_toNat] at tested

private theorem joined_bits (high middle low : UInt8) :
    (high.toNat &&& 0x01) <<< 9 ||| middle.toNat <<< 1 ||| low.toNat >>> 7 =
      512 * (high.toNat % 2) + 2 * middle.toNat + low.toNat / 128 := by
  have middle' := middle.toNat_lt
  have low' := low.toNat_lt
  have one : high.toNat &&& 0x01 = high.toNat % 2 := Nat.and_two_pow_sub_one_eq_mod high.toNat 1
  have first : (high.toNat % 2) <<< 9 ||| middle.toNat <<< 1 =
      512 * (high.toNat % 2) + 2 * middle.toNat := by
    rw [← Nat.shiftLeft_add_eq_or_of_lt (by rw [Nat.shiftLeft_eq]; omega), Nat.shiftLeft_eq,
      Nat.shiftLeft_eq]
    omega
  have second : (256 * (high.toNat % 2) + middle.toNat) <<< 1 ||| low.toNat >>> 7 =
      512 * (high.toNat % 2) + 2 * middle.toNat + low.toNat / 128 := by
    rw [← Nat.shiftLeft_add_eq_or_of_lt (by rw [Nat.shiftRight_eq_div_pow]; omega),
      Nat.shiftLeft_eq, Nat.shiftRight_eq_div_pow]
    omega
  rw [one, first, ← second, Nat.shiftLeft_eq]
  congr 1
  omega

private theorem spartnAuthLen_eq (last : UInt8) : Instance.spartnAuthLen last =
    if 1 < last.toNat / 8 % 8 then [8, 12, 16, 32, 64].getD (last.toNat % 8) 0 else 0 := by
  have indicator : last.toNat >>> 3 &&& 0x07 = last.toNat / 8 % 8 := by
    rw [Nat.shiftRight_eq_div_pow]
    exact Nat.and_two_pow_sub_one_eq_mod _ 3
  have code : last.toNat &&& 0x07 = last.toNat % 8 := Nat.and_two_pow_sub_one_eq_mod _ 3
  unfold Instance.spartnAuthLen
  rw [indicator, code]
  have few : last.toNat % 8 < 8 := Nat.mod_lt _ (by decide)
  generalize last.toNat % 8 = kind at few
  split
  · match kind, few with
    | 0, _ | 1, _ | 2, _ | 3, _ | 4, _ | 5, _ | 6, _ | 7, _ => rfl
  · rfl

section Lengths

variable (frame : List UInt8)

private theorem spartnFrameHeader_eq :
    spartnFrameHeader (fun k => frame.getD k 0) = 8 + timeTagBytes frame + encryptionBytes frame := by
  unfold spartnFrameHeader timeTagBytes encryptionBytes
  simp only [testBit_three, testBit_six]

private theorem spartnFrameSize_eq : spartnFrameSize (fun k => frame.getD k 0) =
    8 + timeTagBytes frame + encryptionBytes frame + spartnPayload frame + messageCrcBytes frame +
      authenticationBytes frame := by
  have crc : ((frame.getD 3 0).toNat >>> 4 &&& 0x03) + 1 = messageCrcBytes frame := by
    rw [Nat.shiftRight_eq_div_pow]
    exact congrArg (· + 1) (Nat.and_two_pow_sub_one_eq_mod _ 2)
  have encrypted : frame.getD 3 0 &&& 0x40 ≠ 0 ↔ encryptionBytes frame ≠ 0 := by
    rw [testBit_six]
    unfold encryptionBytes
    split <;> simp_all
  have authentication : (if frame.getD 3 0 &&& 0x40 ≠ 0 then
      Instance.spartnAuthLen
        (frame.getD (8 + timeTagBytes frame + encryptionBytes frame - 1) 0) else 0) =
        authenticationBytes frame := by
    rw [spartnAuthLen_eq]
    unfold authenticationBytes
    simp only [encrypted, ite_and]
  unfold spartnFrameSize
  simp only [joined_bits, crc, spartnFrameHeader_eq, authentication]
  unfold spartnPayload
  omega

end Lengths

def spartnReport (frame : List UInt8) : Report :=
  { ptype := .spartn, packet := some (wholeView 0 frame) }

variable {frame : List UInt8}

private theorem frameReport_spartn :
    frameReport .spartn 0 frame.length (window (fun k => frame.getD k 0) 0 frame.length) =
      spartnReport frame := by
  rw [window_getD frame 0 (Nat.zero_add _).le, List.drop_zero, List.take_length]
  rfl

private theorem header_iff : ¬frame.getD 3 0 &&& 0x0F ≠ computeCrc4Ccitt
    [frame.getD 1 0, frame.getD 2 0, frame.getD 3 0 &&& 0xF0] ↔
      frame.getD 3 0 &&& 0x0F = crc4 [frame.getD 1 0, frame.getD 2 0, frame.getD 3 0 &&& 0xF0] := by
  rw [computeCrc4Ccitt_eq, not_ne_iff]

private theorem IsSpartn.accepted (message : IsSpartn frame) :
    ∃ positive, spartnVerdict (fun k => frame.getD k 0) frame.length =
      .accepted frame.length positive (spartnReport frame) := by
  have length : frame.length = spartnFrameSize fun k => frame.getD k 0 :=
    message.length.trans (spartnFrameSize_eq frame).symm
  have header := spartnFrameHeader_eq frame
  have long := message.length
  refine ⟨by omega, ?_⟩
  unfold spartnVerdict
  rw [if_neg (by omega), if_neg (header_iff.mpr message.header), if_neg (by omega),
    if_neg (by omega), if_neg (by omega)]
  simp only [← length, frameReport_spartn]

private theorem isSpartn_of_accepted (start : frame.getD 0 0 = 0x73) {positive : 0 < frame.length}
    {report : Report} (accepted : spartnVerdict (fun k => frame.getD k 0) frame.length =
      .accepted frame.length positive report) : IsSpartn frame ∧ report = spartnReport frame := by
  unfold spartnVerdict at accepted
  split at accepted
  case isTrue => cases accepted
  split at accepted
  case isTrue => cases accepted
  case isFalse header =>
    split at accepted
    case isTrue => cases accepted
    split at accepted
    case isTrue => cases accepted
    split at accepted
    case isTrue => cases accepted
    obtain ⟨length, same⟩ := Verdict.accepted.inj accepted
    rw [length, frameReport_spartn] at same
    exact ⟨⟨start, header_iff.mp header, length.symm.trans (spartnFrameSize_eq frame)⟩, same.symm⟩

/-- In every run each SPARTN packet that is returned is a SPARTN message, and every SPARTN message
that comes to an idle parser is returned once, at its last byte. -/
theorem spartn_framing (mem : Nat → UInt8) (bufferSize : Nat) (enabledMask : UInt32)
    (enabled : enabledMask &&& Processor.spartn.enableBit ≠ 0) :
    (∀ operations : List Operation, Along Instance.operate
      (fun c operation => (c.operate operation).2 = .spartn →
        ∃ frame, IsSpartn frame ∧ (c.operate operation).1.report .spartn = spartnReport frame)
      (started mem bufferSize enabledMask) operations) ∧
    ∀ c, Idle bufferSize enabledMask c →
      ∀ frame, IsSpartn frame → frame.length ≤ bufferSize - bufferSize / 3 →
        (run Instance.parseByte c frame).2 =
          List.replicate (frame.length - 1) [] ++ [[spartnReport frame]] := by
  constructor
  · intro operations
    refine Instance.Reached.along ?_ (Instance.started_reached ..) operations
    intro c operation reached found
    have packet : (c.operate operation).2 = Processor.spartn.packetType := found
    obtain ⟨frame, positive, report, start, accepted, reported⟩ :=
      reached.operate_frame (by decide) packet
    obtain ⟨message, same⟩ := isSpartn_of_accepted start accepted
    exact ⟨frame, message, reported.trans same⟩
  · intro c idle frame message fits
    obtain ⟨positive, accepted⟩ := message.accepted
    have long := message.length
    exact (idle.run_frame (by omega) (by decide) enabled message.start rfl accepted fits).1

/-- A message with a long time tag and eight bytes of authentication data. -/
def encryptedSpartn : List UInt8 :=
  [0x73, 0x00, 0x00, 0xDA, 0x08, 0, 0, 0, 0, 0, 0, 0x10] ++ List.replicate 11 0xA5

theorem spartn_framing_encrypted :
    (run Instance.parseByte (started (fun _ => 0) 48 0x3F) encryptedSpartn).2 =
      List.replicate 22 [] ++ [[spartnReport encryptedSpartn]] :=
  (spartn_framing (fun _ => 0) 48 0x3F (by decide)).2 _
    ⟨rfl, rfl, rfl, Nat.le_refl _, rfl, Nat.zero_le _⟩ encryptedSpartn (by decide +kernel) (by decide)

end InertialSense.Comm
