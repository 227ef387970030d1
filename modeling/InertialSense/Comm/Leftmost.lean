import InertialSense.Comm.Chunking
import InertialSense.Comm.Verdict

/-! The scanner finds the leftmost frames: the states of the processors, and the return to
`head` after a rejection, come to the same packets as trying the checks of the protocols at
one position after the other. -/

namespace InertialSense.Comm

open Foundation

namespace Instance

/-- A negative state counts the bytes of a SPARTN message that are missing. -/
def CountsMissing (byte : Nat → UInt8) (count : Nat) (state : Int) : Prop :=
  state < 0 → spartnFrameHeader byte ≤ count ∧ state = (count : Int) - spartnFrameSize byte

/-- What a processor does with the current byte, according to the verdict on the bytes up to
it. -/
def Decides (processor : Processor) (c : Instance) : Verdict → Prop
  | .incomplete =>
    ∃ state size, processor.process c = ((c.setState state).setSize size, .none) ∧
      (processor = .spartn → CountsMissing c.byteAt c.numBytes state)
  | .rejected =>
    ∃ state size error,
      processor.process c = ((c.setState state).setSize size).parseErrorResetState error
  | .accepted length _ report =>
    length = c.numBytes ∧ report.ptype ≠ .none ∧ report.ptype ≠ .parseError ∧
      ∃ pkt ackNeeded, processor.process c = (c.accepted pkt ackNeeded, report.ptype) ∧
        (c.accepted pkt ackNeeded).report report.ptype = report

variable {c : Instance}

section Bytes

theorem window_byteAt (start count : Nat) :
    window c.byteAt start count = window c.mem (c.head + start) count := by
  apply window_congr
  intro k _
  rw [byteAt, Nat.add_assoc]

private theorem decides_found {processor : Processor} {dataSize id : Nat} {ptype : ProtocolType}
    (processed : processor.process c =
      ((c.setState 0).validPacketFound c.numBytes dataSize id, ptype))
    (small : c.numBytes < 65536) (other : ptype.isIsb = false)
    (packet : ptype ≠ .none ∧ ptype ≠ .parseError) (positive : 0 < c.numBytes) :
    Decides processor c (.accepted c.numBytes positive
      (frameReport ptype id c.numBytes (window c.byteAt 0 dataSize))) := by
  refine ⟨rfl, packet.1, packet.2,
    ((c.setState 0).validPacketFound c.numBytes dataSize id).rxPkt, c.ackNeeded, processed, ?_⟩
  rw [window_byteAt, Nat.add_zero]
  unfold report packetData
  simp [packet, other, accepted, validPacketFound, validPacketReset, setState, frameReport,
    Nat.mod_eq_of_lt small]

private theorem decides_checked {processor : Processor} {passes : Prop} [Decidable passes]
    {error : ParseErrorType} {dataSize id : Nat} {ptype : ProtocolType}
    (processed : processor.process c =
      if passes then ((c.setState 0).validPacketFound c.numBytes dataSize id, ptype)
      else (c.setState 0).parseErrorResetState error)
    (small : c.numBytes < 65536) (other : ptype.isIsb = false)
    (packet : ptype ≠ .none ∧ ptype ≠ .parseError) (positive : 0 < c.numBytes) :
    Decides processor c
      (if passes then .accepted c.numBytes positive
        (frameReport ptype id c.numBytes (window c.byteAt 0 dataSize)) else .rejected) := by
  split
  case isTrue right =>
    rw [if_pos right] at processed
    exact decides_found processed small other packet positive
  case isFalse fails =>
    rw [if_neg fails] at processed
    exact ⟨0, c.parser.size, error, processed⟩

private theorem decides_still {processor : Processor} (processed : processor.process c = (c, .none))
    (counted : processor = .spartn → CountsMissing c.byteAt c.numBytes c.parser.state) :
    Decides processor c .incomplete :=
  ⟨c.parser.state, c.parser.size, processed, counted⟩

variable (ordered : c.head < c.scan)

include ordered

theorem current_eq_byteAt : c.current = c.byteAt c.held := by
  unfold current byteAt held
  rw [Nat.add_sub_cancel' (Nat.le_of_lt ordered)]

theorem mem_before (k : Nat) (inside : k ≤ c.held) : c.mem (c.scan - k) = c.byteAt (c.held - k) := by
  unfold byteAt
  unfold held at inside ⊢
  congr 1
  omega

end Bytes

/-! ### UBX -/

theorem ublox_undecided {byte : Nat → UInt8} {count : Nat} (two : 2 ≤ count)
    (undecided : ubloxVerdict byte count = .incomplete) :
    byte 1 = 0x62 ∧ count < max (ubloxSize byte) 7 := by
  unfold ubloxVerdict at undecided
  rw [if_neg (by omega)] at undecided
  split at undecided
  · cases undecided
  case isFalse second =>
    refine ⟨not_not.mp second, ?_⟩
    split at undecided
    · omega
    split at undecided
    case isTrue short => exact short
    case isFalse =>
      split at undecided <;> cases undecided

private theorem ublox_decides (ordered : c.head < c.scan) (holds : c.Holds .ublox)
    (undecided : ubloxVerdict c.byteAt c.held = .incomplete) :
    Decides .ublox c (ubloxVerdict c.byteAt c.numBytes) := by
  have count : c.numBytes = c.held + 1 := rfl
  have here := current_eq_byteAt ordered
  rcases holds with ⟨state, one⟩ | ⟨state, low, high⟩ | ⟨state, many, size⟩
  · have processed := processUbloxPkt_one state
    rw [one] at here
    unfold ubloxVerdict
    rw [if_neg (by omega)]
    by_cases second : c.byteAt 1 = 0x62
    · rw [if_neg (not_not.mpr second), if_pos (by omega)]
      rw [here, if_pos second] at processed
      exact ⟨2, c.parser.size, processed, by simp⟩
    · rw [if_pos second]
      rw [here, if_neg second] at processed
      exact ⟨c.parser.state, c.parser.size, _, processed⟩
  · obtain ⟨second, -⟩ := ublox_undecided low undecided
    have processed := processUbloxPkt_two state
    have waits : ubloxVerdict c.byteAt c.numBytes = .incomplete := by
      unfold ubloxVerdict
      rw [if_neg (by omega), if_neg (not_not.mpr second)]
      split
      · rfl
      · exact if_pos (by omega)
    rw [waits]
    split at processed
    · exact decides_still processed (by simp)
    · exact ⟨_, _, processed, by simp⟩
  · obtain ⟨second, short⟩ := ublox_undecided (by omega) undecided
    have same : c.parser.size = ubloxSize c.byteAt := size
    have bound : ubloxSize c.byteAt < 65536 := Nat.mod_lt _ (by decide)
    have processed : Processor.process .ublox c = _ := processUbloxPkt_three state
    unfold ubloxVerdict
    rw [if_neg (by omega), if_neg (not_not.mpr second), if_neg (by omega)]
    by_cases more : c.numBytes < c.parser.size
    · rw [if_pos (by omega)]
      rw [if_pos more] at processed
      exact decides_still processed (by simp)
    · have whole : max (ubloxSize c.byteAt) 7 = c.numBytes := by omega
      rw [if_neg more] at processed
      unfold ubloxPktEnd at processed
      have length : c.scan - 1 - (c.head + 2) = c.numBytes - 4 := by
        unfold held at count
        omega
      have before : c.mem (c.scan - 1) = c.byteAt (c.numBytes - 2) := by
        rw [mem_before ordered 1 (by omega), count]
        rfl
      have last : c.current = c.byteAt (c.numBytes - 1) := here
      simp only [whole, if_neg (Nat.lt_irrefl c.numBytes)]
      rw [length, before, last, ← window_byteAt, same] at processed
      exact decides_checked processed (by omega) rfl (by decide) _

/-! ### RTCM3 -/

private theorem rtcm3_undecided {bufSize : Nat} {byte : Nat → UInt8} {count : Nat}
    (three : 3 ≤ count) (undecided : rtcm3Verdict bufSize byte count = .incomplete) :
    ¬(1023 < rtcm3FrameSize byte ∨ (bufSize + 2 ^ 32 - 6) % 2 ^ 32 < rtcm3FrameSize byte) ∧
      count < rtcm3FrameSize byte := by
  unfold rtcm3Verdict at undecided
  rw [if_neg (by omega)] at undecided
  split at undecided
  · cases undecided
  case isFalse sane =>
    split at undecided
    case isTrue short => exact ⟨sane, short⟩
    case isFalse => split at undecided <;> cases undecided

private theorem rtcm3_decides (ordered : c.head < c.scan) (holds : c.Holds .rtcm3)
    (undecided : rtcm3Verdict c.bufSize c.byteAt c.held = .incomplete) :
    Decides .rtcm3 c (rtcm3Verdict c.bufSize c.byteAt c.numBytes) := by
  have count : c.numBytes = c.held + 1 := rfl
  have some : 1 ≤ c.held := by
    unfold held
    omega
  have long : 6 ≤ rtcm3FrameSize c.byteAt := Nat.le_add_left ..
  rcases holds with ⟨state, few⟩ | ⟨state, many, size⟩
  · obtain one | two : c.held = 1 ∨ c.held = 2 := by omega
    · unfold rtcm3Verdict
      rw [if_pos (by omega)]
      exact ⟨2, c.parser.size, processRtcm3Pkt_one (by omega), by simp⟩
    · have processed := @processRtcm3Pkt_two c (by omega)
      have same : c.rtcm3Size = rtcm3FrameSize c.byteAt := rfl
      unfold rtcm3Verdict
      rw [if_neg (by omega)]
      rw [same] at processed
      split
      case isTrue bad =>
        rw [if_pos bad] at processed
        exact ⟨_, _, _, processed⟩
      case isFalse sane =>
        rw [if_pos (by omega)]
        rw [if_neg sane] at processed
        exact ⟨_, _, processed, by simp⟩
  · obtain ⟨sane, short⟩ := rtcm3_undecided many undecided
    have same : c.parser.size = rtcm3FrameSize c.byteAt := size
    have processed : Processor.process .rtcm3 c = _ := processRtcm3Pkt_three state
    unfold rtcm3Verdict
    rw [if_neg (by omega), if_neg sane]
    by_cases more : c.numBytes < c.parser.size
    · rw [if_pos (by omega)]
      rw [if_pos more] at processed
      exact decides_still processed (by simp)
    · have whole : rtcm3FrameSize c.byteAt = c.numBytes := by omega
      rw [if_neg more] at processed
      unfold rtcm3PktEnd at processed
      dsimp only at processed
      have body : window c.mem c.head (c.numBytes - 3) = window c.byteAt 0 (c.numBytes - 3) :=
        (window_byteAt 0 _).symm
      simp only [whole, if_neg (Nat.lt_irrefl c.numBytes)]
      rw [same, whole, body] at processed
      exact decides_checked processed (by omega) rfl (by decide) _

/-! ### Sony -/

private theorem sony_undecided {bufSize : Nat} {byte : Nat → UInt8} {count : Nat}
    (five : 5 ≤ count) (undecided : sonyVerdict bufSize byte count = .incomplete) :
    ¬(byteSum (window byte 0 4) ≠ byte 4 ∨ 4090 < sonyFrameData byte ∨
        bufSize < sonyFrameData byte) ∧ count < sonyFrameData byte + 6 := by
  unfold sonyVerdict at undecided
  rw [if_neg (by omega)] at undecided
  split at undecided
  · cases undecided
  case isFalse sane =>
    split at undecided
    case isTrue short => exact ⟨sane, short⟩
    case isFalse => split at undecided <;> cases undecided

private theorem sony_decides (ordered : c.head < c.scan) (holds : c.Holds .sony)
    (undecided : sonyVerdict c.bufSize c.byteAt c.held = .incomplete) :
    Decides .sony c (sonyVerdict c.bufSize c.byteAt c.numBytes) := by
  have count : c.numBytes = c.held + 1 := rfl
  have count' : c.held = c.scan - c.head := rfl
  rcases holds with ⟨state, few⟩ | ⟨state, many, size⟩
  · have processed := processSonyByte_one state
    have header : window c.mem c.head 4 = window c.byteAt 0 4 := (window_byteAt 0 _).symm
    have same : c.sonyDataSize = sonyFrameData c.byteAt := rfl
    rw [header, same] at processed
    unfold sonyVerdict
    by_cases short : c.scan - c.head < 4
    · rw [if_pos (by omega)]
      rw [if_pos short] at processed
      exact decides_still processed (by simp)
    rw [if_neg (by omega)]
    rw [if_neg short] at processed
    split
    case isTrue bad =>
      rw [if_pos bad] at processed
      exact ⟨c.parser.state, c.parser.size, _, processed⟩
    case isFalse sane =>
      rw [if_pos (by omega)]
      rw [if_neg sane] at processed
      exact ⟨_, _, processed, by simp⟩
  · obtain ⟨sane, short⟩ := sony_undecided many undecided
    have same : c.parser.size = sonyFrameData c.byteAt + 6 := size
    have processed : Processor.process .sony c = _ := processSonyByte_two state
    unfold sonyVerdict
    rw [if_neg (by omega), if_neg sane]
    by_cases more : c.numBytes < c.parser.size
    · rw [if_pos (by omega)]
      rw [if_pos more] at processed
      exact decides_still processed (by simp)
    · have whole : sonyFrameData c.byteAt + 6 = c.numBytes := by omega
      have last : c.current = c.byteAt (sonyFrameData c.byteAt + 5) := by
        rw [current_eq_byteAt ordered]
        congr 1
        omega
      have body : window c.mem (c.head + 5) c.sonyDataSize =
          window c.byteAt 5 (sonyFrameData c.byteAt) := (window_byteAt 5 _).symm
      rw [if_neg more] at processed
      unfold sonyPktEnd at processed
      rw [body, last, same] at processed
      simp only [whole, if_neg (Nat.lt_irrefl c.numBytes)] at processed ⊢
      exact decides_checked processed (by omega) rfl (by decide) _

/-! ### NMEA -/

theorem nmea_undecided {byte : Nat → UInt8} {count : Nat}
    (undecided : nmeaVerdict byte count = .incomplete) :
    (∀ k < count, byte k ≠ 0x0D) ∧ count ≤ 201 ∨
      ∃ cr, count = cr + 1 ∧ byte cr = 0x0D ∧ cr ≤ 201 ∧ ∀ k < cr, byte k ≠ 0x0D := by
  unfold nmeaVerdict at undecided
  cases ends : carriageReturn byte count with
  | none =>
    simp only [ends] at undecided
    refine .inl ⟨carriageReturn_eq_none.mp ends, ?_⟩
    by_contra far
    simp [show 201 < count by omega] at undecided
  | some cr =>
    obtain ⟨there, inside, first⟩ := carriageReturn_eq_some.mp ends
    simp only [ends] at undecided
    split at undecided
    · cases undecided
    case isFalse near =>
      split at undecided
      case isTrue short => exact .inr ⟨cr, by omega, there, by omega, first⟩
      case isFalse =>
        split at undecided
        · cases undecided
        · split at undecided <;> cases undecided

theorem nmeaVerdict_none {byte : Nat → UInt8} {count : Nat}
    (plain : ∀ k < count, byte k ≠ 0x0D) :
    nmeaVerdict byte count = if 201 < count then .rejected else .incomplete := by
  unfold nmeaVerdict
  rw [carriageReturn_eq_none.mpr plain]

private theorem nmea_decides (ordered : c.head < c.scan) (start : c.byteAt 0 = 0x24)
    (holds : c.Holds .nmea) (undecided : nmeaVerdict c.byteAt c.held = .incomplete) :
    Decides .nmea c (nmeaVerdict c.byteAt c.numBytes) := by
  have count : c.numBytes = c.held + 1 := rfl
  have count' : c.held = c.scan - c.head := rfl
  have here := current_eq_byteAt ordered
  rcases nmea_undecided undecided with ⟨plain, few⟩ | ⟨cr, same, there, near, first⟩
  · -- No carriage return yet.
    have state : c.parser.state = 1 := by
      rcases holds with ⟨state, -⟩ | ⟨-, two, ends⟩
      · exact state
      · exact absurd ends (plain _ (by omega))
    have processed : Processor.process .nmea c = _ := processNmeaPkt_one state
    rw [here] at processed
    by_cases ends : c.byteAt c.held = 0x0D
    · have found : carriageReturn c.byteAt c.numBytes = some c.held :=
        carriageReturn_eq_some.mpr ⟨ends, by omega, plain⟩
      unfold nmeaVerdict
      rw [found]
      simp only [if_neg (show ¬201 < c.held by omega), if_pos (show c.numBytes < c.held + 2 by omega)]
      rw [if_pos ends] at processed
      exact ⟨2, c.parser.size, processed, by simp⟩
    · have none : ∀ k < c.numBytes, c.byteAt k ≠ 0x0D := by
        intro k inside
        by_cases last : k = c.held
        · rwa [last]
        · exact plain k (by omega)
      rw [nmeaVerdict_none none]
      rw [if_neg ends] at processed
      by_cases far : 200 < c.scan - c.head
      · rw [if_pos (by omega)]
        rw [if_pos far] at processed
        exact ⟨c.parser.state, c.parser.size, _, processed⟩
      · rw [if_neg (by omega)]
        rw [if_neg far] at processed
        exact decides_still processed (by simp)
  · -- The byte before was the carriage return.
    have positive : cr ≠ 0 := by
      rintro rfl
      rw [start] at there
      exact absurd there (by decide)
    have state : c.parser.state = 2 := by
      rcases holds with ⟨-, inner⟩ | ⟨state, -⟩
      · refine absurd ?_ (inner (by omega))
        rw [show c.held - 1 = cr by omega]
        exact there
      · exact state
    have found : carriageReturn c.byteAt c.numBytes = some cr :=
      carriageReturn_eq_some.mpr ⟨there, by omega, first⟩
    have processed : Processor.process .nmea c = _ := processNmeaPkt_two state
    have whole : cr + 2 = c.numBytes := by omega
    unfold nmeaVerdict
    rw [found]
    simp only [if_neg (show ¬201 < cr by omega), whole, if_neg (Nat.lt_irrefl c.numBytes)]
    unfold nmeaPktEnd at processed
    by_cases short : c.numBytes < 8
    · rw [if_pos short]
      rw [if_pos short] at processed
      exact ⟨0, c.parser.size, _, processed⟩
    rw [if_neg short]
    rw [if_neg short] at processed
    have high : c.mem (c.scan - 3) = c.byteAt (cr - 2) := by
      rw [mem_before ordered 3 (by omega)]
      congr 1
      omega
    have low : c.mem (c.scan - 2) = c.byteAt (cr - 1) := by
      rw [mem_before ordered 2 (by omega)]
      congr 1
      omega
    have body : window c.mem (c.head + 1) (c.scan - 4 - (c.head + 1)) =
        window c.byteAt 1 (cr - 4) := by
      rw [window_byteAt]
      congr 1
      omega
    have passes : c.nmeaCksumPasses = decide (strtol16 [c.byteAt (cr - 2), c.byteAt (cr - 1)] =
        (byteXor (window c.byteAt 1 (cr - 4))).toNat) := by
      unfold nmeaCksumPasses
      rw [high, low, body]
    simp only [passes, decide_eq_true_eq] at processed
    exact decides_checked processed (by omega) rfl (by decide) _

/-! ### SPARTN -/

private theorem spartn_undecided {byte : Nat → UInt8} {count : Nat} (four : 4 ≤ count)
    (undecided : spartnVerdict byte count = .incomplete) :
    byte 3 &&& 0x0F = computeCrc4Ccitt [byte 1, byte 2, byte 3 &&& 0xF0] ∧
      count < spartnFrameSize byte := by
  have long : 8 ≤ spartnFrameHeader byte := by
    unfold spartnFrameHeader
    omega
  have longer : spartnFrameHeader byte < spartnFrameSize byte := by
    unfold spartnFrameSize
    omega
  unfold spartnVerdict at undecided
  rw [if_neg (by omega)] at undecided
  split at undecided
  · cases undecided
  case isFalse crc =>
    refine ⟨not_not.mp crc, ?_⟩
    split at undecided
    · omega
    split at undecided
    · omega
    split at undecided
    case isTrue short => exact short
    case isFalse => cases undecided

private theorem spartnVerdict_past {byte : Nat → UInt8} {count : Nat} (four : 4 ≤ count)
    (crc : byte 3 &&& 0x0F = computeCrc4Ccitt [byte 1, byte 2, byte 3 &&& 0xF0])
    (short : count < spartnFrameSize byte) : spartnVerdict byte count = .incomplete := by
  unfold spartnVerdict
  rw [if_neg (by omega), if_neg (not_not.mpr crc), if_pos short, ite_self, ite_self]

/-- The last byte of the header sets the number of bytes that are missing; the other bytes of
the header only move the state. -/
private theorem spartnHeader_counts (low : 7 ≤ c.held) (inside : c.held < c.spartnHeaderLen)
    (state : c.parser.state = c.held) :
    c.numBytes = c.spartnHeaderLen ∧
        c.spartnHeader = c.setState ((c.numBytes : Int) - spartnFrameSize c.byteAt) ∨
      c.spartnHeader = c.nextState := by
  have count : c.numBytes = c.held + 1 := rfl
  have size : spartnFrameSize c.byteAt = c.spartnHeaderLen + c.spartnPayloadLen +
      if c.byteAt 3 &&& 0x40 ≠ 0 then spartnAuthLen (c.byteAt (c.spartnHeaderLen - 1)) else 0 := rfl
  have moved (missing : Nat) (whole : c.numBytes + missing = spartnFrameSize c.byteAt) :
      c.setState (-missing) = c.setState ((c.numBytes : Int) - spartnFrameSize c.byteAt) := by
    congr 1
    omega
  unfold spartnHeaderLen at *
  unfold spartnHeader
  dsimp only
  by_cases extended : c.byteAt 4 &&& 0x08 ≠ 0 <;> by_cases encrypt : c.byteAt 3 &&& 0x40 ≠ 0
  · simp only [if_pos extended, if_pos encrypt, Nat.reduceAdd, Nat.reduceSub] at size inside ⊢
    rw [if_neg fun plain => plain.1 encrypt]
    by_cases last : c.parser.state = 11
    · rw [if_pos ⟨encrypt, last⟩]
      exact .inl ⟨by omega, moved _ (by omega)⟩
    · rw [if_neg fun ends => last ends.2]
      exact .inr rfl
  · simp only [if_pos extended, if_neg encrypt] at size inside ⊢
    by_cases last : c.parser.state = 9
    · rw [if_pos ⟨encrypt, last⟩]
      exact .inl ⟨by omega, moved _ (by omega)⟩
    · rw [if_neg fun ends => last ends.2, if_neg fun ends => encrypt ends.1]
      exact .inr rfl
  · simp only [if_neg extended, if_pos encrypt, Nat.reduceAdd, Nat.reduceSub] at size inside ⊢
    rw [if_neg fun plain => plain.1 encrypt]
    by_cases last : c.parser.state = 9
    · rw [if_pos ⟨encrypt, last⟩]
      exact .inl ⟨by omega, moved _ (by omega)⟩
    · rw [if_neg fun ends => last ends.2]
      exact .inr rfl
  · simp only [if_neg extended, if_neg encrypt] at size inside ⊢
    by_cases last : c.parser.state = 7
    · rw [if_pos ⟨encrypt, last⟩]
      exact .inl ⟨by omega, moved _ (by omega)⟩
    · rw [if_neg fun ends => last ends.2, if_neg fun ends => encrypt ends.1]
      exact .inr rfl

private theorem spartn_decides (ordered : c.head < c.scan) (holds : c.Holds .spartn)
    (counted : CountsMissing c.byteAt c.held c.parser.state)
    (undecided : spartnVerdict c.byteAt c.held = .incomplete) :
    Decides .spartn c (spartnVerdict c.byteAt c.numBytes) := by
  have count : c.numBytes = c.held + 1 := rfl
  have some : 1 ≤ c.held := by
    unfold held
    omega
  have header : c.spartnHeaderLen = spartnFrameHeader c.byteAt := rfl
  have bounds := c.spartnHeaderLen_bounds
  have longer : spartnFrameHeader c.byteAt < spartnFrameSize c.byteAt := by
    unfold spartnFrameSize
    omega
  -- A state that only moves on is not negative.
  have moves (state : c.parser.state = c.held)
      (processed : Processor.process .spartn c = (c.nextState, .none)) :
      Decides .spartn c .incomplete :=
    ⟨c.parser.state + 1, c.parser.size, processed, fun _ negative => by omega⟩
  rcases holds with ⟨state, few⟩ | negative
  · obtain early | three | late : c.held < 3 ∨ c.held = 3 ∨ 4 ≤ c.held := by omega
    · unfold spartnVerdict
      rw [if_pos (by omega)]
      exact moves state (processSpartnByte_header (by omega) (by omega) (by omega))
    · have processed : Processor.process .spartn c = _ := @processSpartnByte_three c (by omega)
      unfold spartnVerdict
      rw [if_neg (by omega)]
      split
      case isTrue wrong =>
        rw [if_pos wrong] at processed
        exact ⟨c.parser.state, c.parser.size, _, processed⟩
      case isFalse right =>
        rw [if_pos (by omega)]
        rw [if_neg right] at processed
        exact moves state processed
    · obtain ⟨crc, -⟩ := spartn_undecided late undecided
      rw [spartnVerdict_past (by omega) crc (by omega)]
      by_cases lengths : 7 ≤ c.held
      · have processed : Processor.process .spartn c = _ :=
          @processSpartnByte_lengths c (by omega) (by omega)
        rcases spartnHeader_counts lengths few state with ⟨whole, ends⟩ | next
        · rw [ends] at processed
          exact ⟨(c.numBytes : Int) - spartnFrameSize c.byteAt, c.parser.size, processed,
            fun _ _ => ⟨by omega, rfl⟩⟩
        · rw [next] at processed
          exact moves state processed
      · exact moves state (processSpartnByte_header (by omega) (by omega) (by omega))
  · obtain ⟨past, missing⟩ := counted negative
    obtain ⟨crc, short⟩ := spartn_undecided (by omega) undecided
    have processed : Processor.process .spartn c = _ := processSpartnByte_payload negative
    by_cases last : c.parser.state + 1 = 0
    · have whole : spartnFrameSize c.byteAt = c.numBytes := by omega
      have bound := spartnFrameSize_lt c.byteAt
      rw [if_pos last] at processed
      unfold spartnVerdict
      rw [if_neg (by omega), if_neg (not_not.mpr crc), if_neg (by omega), if_neg (by omega)]
      simp only [whole, if_neg (Nat.lt_irrefl c.numBytes)]
      exact decides_found processed (by omega) rfl (by decide) _
    · rw [if_neg last] at processed
      rw [spartnVerdict_past (by omega) crc (by omega)]
      exact ⟨c.parser.state + 1, c.parser.size, processed, fun _ _ => ⟨by omega, by omega⟩⟩

/-! ### One frame -/

/-- A processor is at work on bytes on which there is no verdict yet. -/
structure Examining (processor : Processor) (c : Instance) : Prop where
  busy : c.processPkt = some processor
  other : processor ≠ .isb
  tracked : c.Tracked
  start : c.byteAt 0 = processor.startByte
  undecided : processor.verdict c.bufSize c.byteAt c.held = .incomplete
  counted : processor = .spartn → CountsMissing c.byteAt c.held c.parser.state

theorem Examining.decides {processor : Processor} (examining : Examining processor c) :
    Decides processor c (processor.verdict c.bufSize c.byteAt c.numBytes) := by
  obtain ⟨busy, other, tracked, start, undecided, counted⟩ := examining
  obtain ⟨ordered, holds⟩ := tracked processor busy
  cases processor with
  | isb => exact absurd rfl other
  | nmea => exact nmea_decides ordered start holds undecided
  | ublox => exact ublox_decides ordered holds undecided
  | rtcm3 => exact rtcm3_decides ordered holds undecided
  | spartn => exact spartn_decides ordered holds (counted rfl) undecided
  | sony => exact sony_decides ordered holds undecided

/-- The packets among the results. -/
def packets (reports : List Report) : List Report := reports.filter (·.ptype ≠ .parseError)

/-- The scanner is between two frames and looks at position `i` next. -/
structure Scans (c : Instance) (i : Nat) (d : Instance) : Prop where
  idle : d.processPkt = none
  scan : d.scan = i
  ordered : d.head ≤ d.scan
  mem : d.mem = c.mem
  tail : d.tail = c.tail
  size : d.bufSize = c.bufSize
  mask : d.enabledMask = c.enabledMask

/-- How the scanner leaves a frame, according to the verdict on all bytes that are there. -/
def Leaves (c : Instance) : Verdict → Prop
  | .incomplete => ∃ final, Settles step c [] final
  | .rejected =>
    ∃ reports d, Reaches step c reports d ∧ packets reports = [] ∧ Scans c (c.head + 1) d
  | .accepted length _ report =>
    ∃ d, Reaches step c [report] d ∧ packets [report] = [report] ∧ Scans c (c.head + length) d

theorem Examining.next {processor : Processor} (examining : Examining processor c)
    {state : Int} {size : Nat}
    (waits : processor.process c = ((c.setState state).setSize size, .none))
    (counted : processor = .spartn → CountsMissing c.byteAt c.numBytes state)
    (undecided : processor.verdict c.bufSize c.byteAt c.numBytes = .incomplete) :
    Examining processor c.turn.1 := by
  have next := turn_tracked examining.tracked
  have held : c.scan + 1 - c.head = c.numBytes := by
    have := (examining.tracked processor examining.busy).1
    unfold numBytes
    omega
  rw [turn_busy examining.busy, waits] at next ⊢
  refine ⟨examining.busy, examining.other, next, examining.start, ?_, fun spartn => ?_⟩
  · show processor.verdict c.bufSize c.byteAt (c.scan + 1 - c.head) = .incomplete
    rwa [held]
  · show CountsMissing c.byteAt (c.scan + 1 - c.head) state
    rw [held]
    exact counted spartn

theorem Examining.rejects {processor : Processor} (examining : Examining processor c)
    {state : Int} {size : Nat} {error : ParseErrorType}
    (rejects : processor.process c = ((c.setState state).setSize size).parseErrorResetState error) :
    packets (outputs c.turn) = [] ∧ Scans c (c.head + 1) c.turn.1 := by
  rw [turn_busy examining.busy, rejects]
  constructor
  · unfold outputs packets advance
    dsimp only
    split
    · rfl
    case isFalse reported =>
      have error : (((c.setState state).setSize size).parseErrorResetState error).2 = .parseError := by
        unfold parseErrorResetState at reported ⊢
        rw [reportParseError_ptype] at reported ⊢
        split at reported
        · exact absurd rfl reported
        case isFalse first => rw [if_neg first]
      simp [report, error]
  · unfold advance
    refine ⟨?_, ?_, ?_, ?_, ?_, ?_, ?_⟩ <;>
      simp [parseErrorResetState, resetParser, setState, setSize]

theorem Examining.accepts {processor : Processor} (examining : Examining processor c)
    {pkt : Packet} {ackNeeded : UInt32} {report : Report}
    (accepts : processor.process c = (c.accepted pkt ackNeeded, report.ptype))
    (packet : report.ptype ≠ .none) (reported : (c.accepted pkt ackNeeded).report report.ptype = report) :
    outputs c.turn = [report] ∧ Scans c (c.head + c.numBytes) c.turn.1 := by
  have whole : c.scan + 1 = c.head + c.numBytes := by
    have := (examining.tracked processor examining.busy).1
    unfold numBytes
    omega
  rw [turn_busy examining.busy, accepts]
  constructor
  · unfold outputs
    rw [if_neg packet]
    exact congrArg (fun found => [found]) reported
  · exact ⟨rfl, whole, Nat.le_of_eq whole.symm, rfl, rfl, rfl, rfl⟩

private theorem Scans.of_frame {d e : Instance} {i : Nat} (mem : c.mem = e.mem)
    (tail : c.tail = e.tail) (size : c.bufSize = e.bufSize) (mask : c.enabledMask = e.enabledMask)
    (scans : Scans c i d) : Scans e i d :=
  ⟨scans.idle, scans.scan, scans.ordered, scans.mem.trans mem, scans.tail.trans tail,
    scans.size.trans size, scans.mask.trans mask⟩

private theorem Leaves.of_turn {verdict : Verdict} (inside : c.scan < c.tail)
    (silent : outputs c.turn = []) (head : c.turn.1.head = c.head)
    (leaves : c.turn.1.Leaves verdict) : c.Leaves verdict := by
  have taken : c.step = some (c.turn.1, outputs c.turn) := if_pos inside
  rw [silent] at taken
  obtain ⟨mem, size, tail, mask, -⟩ := c.turn_frame
  cases verdict with
  | incomplete =>
    obtain ⟨final, settles⟩ := leaves
    exact ⟨final, settles.prepend (.single taken)⟩
  | rejected =>
    obtain ⟨reports, d, path, none, scans⟩ := leaves
    rw [head] at scans
    exact ⟨reports, d, .head taken path, none, scans.of_frame mem tail size mask⟩
  | accepted length positive report =>
    obtain ⟨d, path, packet, scans⟩ := leaves
    rw [head] at scans
    exact ⟨d, .head taken path, packet, scans.of_frame mem tail size mask⟩

/-- The frame at `head` is left according to the verdict on all bytes that are there. -/
theorem Examining.leaves {processor : Processor} (examining : Examining processor c)
    (inside : c.scan ≤ c.tail) :
    c.Leaves (processor.verdict c.bufSize c.byteAt (c.tail - c.head)) := by
  induction size : c.tail - c.scan generalizing c with
  | zero =>
    obtain ⟨ordered, -⟩ := examining.tracked processor examining.busy
    have all : c.tail - c.head = c.held := by
      unfold held
      omega
    rw [all, examining.undecided]
    exact ⟨c, .rest (step_eq_none.mpr (by omega))⟩
  | succ left ih =>
    obtain ⟨ordered, -⟩ := examining.tracked processor examining.busy
    have taken : c.step = some (c.turn.1, outputs c.turn) := if_pos (by omega)
    have enough : c.numBytes ≤ c.tail - c.head := by
      unfold numBytes
      omega
    have decides := examining.decides
    cases verdict : processor.verdict c.bufSize c.byteAt c.numBytes with
    | incomplete =>
      rw [verdict] at decides
      obtain ⟨state, length, waits, counted⟩ := decides
      have next := examining.next waits counted verdict
      have turn := turn_busy examining.busy
      rw [waits] at turn
      have silent : outputs c.turn = [] := by rw [turn]; rfl
      have later := ih next (by rw [turn]; show c.scan + 1 ≤ c.tail; omega)
        (by rw [turn]; show c.tail - (c.scan + 1) = left; omega)
      have same : processor.verdict c.turn.1.bufSize c.turn.1.byteAt (c.turn.1.tail - c.turn.1.head) =
          processor.verdict c.bufSize c.byteAt (c.tail - c.head) := by
        rw [turn]
        rfl
      rw [same] at later
      exact later.of_turn (by omega) silent (by rw [turn]; rfl)
    | rejected =>
      rw [Processor.verdict_stable enough (by rw [verdict]; nofun), verdict]
      rw [verdict] at decides
      obtain ⟨state, length, error, rejects⟩ := decides
      obtain ⟨none, scans⟩ := examining.rejects rejects
      exact ⟨outputs c.turn, c.turn.1, .single taken, none, scans⟩
    | accepted length positive report =>
      rw [Processor.verdict_stable enough (by rw [verdict]; nofun), verdict]
      rw [verdict] at decides
      obtain ⟨rfl, packet, good, pkt, ackNeeded, accepts, reported⟩ := decides
      obtain ⟨found, scans⟩ := examining.accepts accepts packet reported
      rw [found] at taken
      refine ⟨c.turn.1, .single taken, ?_, scans⟩
      unfold packets
      rw [List.filter_cons_of_pos (by simpa using good)]
      rfl

end Instance

/-! ### The whole buffer -/

def enabledStart (enabledMask : UInt32) (byte : UInt8) : Option Processor :=
  (startOf byte).filter fun processor => enabledMask &&& processor.enableBit ≠ 0

/-- The frames from position `i` on: where the checks of an enabled protocol accept, its
frame is reported and the scan goes on at its end; where they reject, or no protocol starts,
it goes on with the next byte; where bytes are missing, it stops. -/
def leftmost (bufSize : Nat) (enabledMask : UInt32) (bytes : List UInt8) (i : Nat) : List Report :=
  if i < bytes.length then
    match enabledStart enabledMask (bytes.getD i 0) with
    | none => leftmost bufSize enabledMask bytes (i + 1)
    | some processor =>
      match processor.verdict bufSize (fun k => bytes.getD (i + k) 0) (bytes.length - i) with
      | .incomplete => []
      | .rejected => leftmost bufSize enabledMask bytes (i + 1)
      | .accepted length _ report => report :: leftmost bufSize enabledMask bytes (i + length)
  else []
termination_by bytes.length - i

namespace Instance

variable {c d : Instance} {i : Nat}

private theorem Scans.advance (scans : Scans c i d) : Scans c (i + 1) d.advance :=
  ⟨scans.idle, congrArg (· + 1) scans.scan, Nat.le_succ_of_le scans.ordered, scans.mem,
    scans.tail, scans.size, scans.mask⟩

private theorem Scans.step_eq (scans : Scans c i d) (inside : i < c.tail) :
    d.step = some (d.turn.1, outputs d.turn) := by
  obtain ⟨idle, scan, ordered, mem, tail, size, mask⟩ := scans
  exact if_pos (by omega)

private theorem turn_disabled {processor : Processor} (idle : d.processPkt = none)
    (found : startOf d.current = some processor)
    (disabled : ¬d.enabledMask &&& processor.enableBit ≠ 0) : d.turn = (d.advance, .none) := by
  unfold turn
  split
  case h_1 busy =>
    rw [idle] at busy
    cases busy
  case h_2 =>
    rw [found]
    exact if_neg disabled

private theorem turn_unparsable (idle : d.processPkt = none) (found : startOf d.current = none) :
    d.turn = if d.rxErrorState then (d.advance, .none) else d.reportParseError .streamUnparsable := by
  unfold turn
  split
  case h_1 busy =>
    rw [idle] at busy
    cases busy
  case h_2 =>
    rw [found]
    dsimp only
    rw [reportParseError_ptype]
    by_cases latched : d.rxErrorState
    · simp only [if_pos latched]
      rfl
    · simp only [if_neg latched]
      rfl

private theorem Scans.passes_over (scans : Scans c i d) (inside : i < c.tail)
    (silent : d.turn = (d.advance, .none)) : Reaches step d [] d.advance := by
  have taken := scans.step_eq inside
  rw [silent] at taken
  exact .single taken

/-- A byte that starts no enabled protocol is passed over. An error may be reported first. -/
private theorem Scans.skips (scans : Scans c i d) (inside : i < c.tail)
    (plain : enabledStart c.enabledMask (c.mem i) = none) :
    ∃ reports e, Reaches step d reports e ∧ packets reports = [] ∧ Scans c (i + 1) e := by
  have here : d.current = c.mem i := by
    unfold current
    rw [scans.mem, scans.scan]
  cases found : startOf (c.mem i) with
  | some processor =>
    have disabled : ¬d.enabledMask &&& processor.enableBit ≠ 0 := by
      rw [scans.mask]
      intro enabled
      simp [enabledStart, found, Option.filter, enabled] at plain
    have silent := turn_disabled scans.idle (here ▸ found) disabled
    exact ⟨[], d.advance, scans.passes_over inside silent, rfl, scans.advance⟩
  | none =>
    have unparsable := turn_unparsable scans.idle (here ▸ found)
    cases latched : d.rxErrorState with
    | true =>
      rw [latched] at unparsable
      exact ⟨[], d.advance, scans.passes_over inside unparsable, rfl, scans.advance⟩
    | false =>
      -- The error is reported in a pass that does not move; the next pass skips the byte.
      rw [latched] at unparsable
      have reported : d.turn = d.reportParseError .streamUnparsable := unparsable
      have taken := scans.step_eq inside
      rw [reported] at taken
      have again : Scans c i (d.reportParseError .streamUnparsable).1 := by
        obtain ⟨idle, scan, ordered, mem, tail, size, mask⟩ := scans
        refine ⟨?_, ?_, ?_, ?_, ?_, ?_, ?_⟩ <;> simpa
      have here' : (d.reportParseError .streamUnparsable).1.current = c.mem i := by
        unfold current
        rw [again.mem, again.scan]
      have silent := turn_unparsable again.idle (here' ▸ found)
      rw [reportParseError_rxErrorState] at silent
      refine ⟨_, _, .head taken (again.passes_over inside silent), ?_, again.advance⟩
      unfold packets outputs
      rw [reportParseError_ptype, latched]
      rfl

/-- A start byte of an enabled protocol: its frame is left according to the verdict. -/
private theorem Scans.starts (scans : Scans c i d) (inside : i < c.tail)
    (withoutIsb : c.enabledMask &&& Processor.isb.enableBit = 0) {processor : Processor}
    (starts : enabledStart c.enabledMask (c.mem i) = some processor) :
    ∃ e, Reaches step d [] e ∧ e.head = i ∧ e.mem = c.mem ∧ e.tail = c.tail ∧
      e.bufSize = c.bufSize ∧ e.enabledMask = c.enabledMask ∧
      e.Leaves (processor.verdict c.bufSize (fun k => c.mem (i + k)) (c.tail - i)) := by
  obtain ⟨found, enabled⟩ := Option.filter_eq_some_iff.mp starts
  replace enabled : c.enabledMask &&& processor.enableBit ≠ 0 := by simpa using enabled
  have start : c.mem i = processor.startByte := by
    have := List.find?_some found
    exact (of_decide_eq_true this).symm
  have other : processor ≠ .isb := by
    rintro rfl
    exact enabled withoutIsb
  have taken := scans.step_eq inside
  have tracked := turn_tracked (.of_idle scans.idle)
  obtain ⟨idle, scan, ordered, mem, tail, size, mask⟩ := scans
  have turn : d.turn = ((d.setParserStart processor).advance, .none) := by
    refine turn_start idle ?_ ?_
    · unfold current
      rwa [mem, scan]
    · rwa [mask]
  rw [turn] at taken tracked
  have held : (d.setParserStart processor).advance.held = 1 := Nat.add_sub_cancel_left d.scan 1
  have first : (d.setParserStart processor).advance.byteAt 0 = processor.startByte := by
    show d.mem (d.scan + 0) = processor.startByte
    rw [mem, scan]
    exact start
  have examining : Examining processor (d.setParserStart processor).advance := by
    refine ⟨rfl, other, tracked, first, ?_, fun _ negative => ?_⟩
    · rw [held]
      exact Processor.verdict_one _ first
    · exact absurd negative (Int.not_lt.mpr (by decide : (0 : Int) ≤ 1))
  have leaves := examining.leaves (by show d.scan + 1 ≤ d.tail; omega)
  refine ⟨_, .single taken, scan, mem, tail, size, mask, ?_⟩
  have same : processor.verdict c.bufSize (fun k => c.mem (i + k)) (c.tail - i) =
      processor.verdict d.bufSize (fun k => d.mem (d.scan + k)) (d.tail - d.scan) := by
    rw [mem, scan, tail, size]
  rw [same]
  exact leaves

private theorem packets_append (first second : List Report) :
    packets (first ++ second) = packets first ++ packets second :=
  List.filter_append ..

/-- From position `i` on, the scanner reports the leftmost frames. -/
private theorem Scans.settles {bytes : List UInt8} (scans : Scans c i d)
    (withoutIsb : c.enabledMask &&& Processor.isb.enableBit = 0) (tail : c.tail = bytes.length)
    (filled : ∀ k < bytes.length, c.mem k = bytes.getD k 0) :
    ∃ reports final, Settles step d reports final ∧
      packets reports = leftmost c.bufSize c.enabledMask bytes i := by
  have verdict_getD {i : Nat} {processor : Processor} (inside : i < bytes.length) :
      processor.verdict c.bufSize (fun k => c.mem (i + k)) (c.tail - i) =
        processor.verdict c.bufSize (fun k => bytes.getD (i + k) 0) (bytes.length - i) := by
    rw [tail]
    exact Processor.verdict_congr (fun k before => filled (i + k) (by omega)) c.bufSize processor
  fun_induction leftmost c.bufSize c.enabledMask bytes i generalizing d with
  | case1 i inside plain ih =>
    rw [← filled i inside] at plain
    obtain ⟨now, e, path, none, next⟩ := scans.skips (by omega) plain
    obtain ⟨later, final, settles, frames⟩ := ih next
    refine ⟨now ++ later, final, settles.prepend path, ?_⟩
    rw [packets_append, none, frames]
    rfl
  | case2 i inside processor starts verdict =>
    rw [← filled i inside] at starts
    obtain ⟨e, path, head, mem, tail', size, mask, leaves⟩ := scans.starts (by omega) withoutIsb starts
    rw [verdict_getD inside, verdict] at leaves
    obtain ⟨final, settles⟩ := leaves
    exact ⟨[], final, settles.prepend path, rfl⟩
  | case3 i inside processor starts verdict ih =>
    rw [← filled i inside] at starts
    obtain ⟨e, path, head, mem, tail', size, mask, leaves⟩ := scans.starts (by omega) withoutIsb starts
    rw [verdict_getD inside, verdict] at leaves
    obtain ⟨now, next, rest, none, scans⟩ := leaves
    rw [head] at scans
    obtain ⟨later, final, settles, frames⟩ := ih (scans.of_frame mem tail' size mask)
    refine ⟨now ++ later, final, settles.prepend (path.trans rest), ?_⟩
    rw [packets_append, none, frames]
    rfl
  | case4 i inside processor starts length positive report verdict ih =>
    rw [← filled i inside] at starts
    obtain ⟨e, path, head, mem, tail', size, mask, leaves⟩ := scans.starts (by omega) withoutIsb starts
    rw [verdict_getD inside, verdict] at leaves
    obtain ⟨next, rest, packet, scans⟩ := leaves
    rw [head] at scans
    obtain ⟨later, final, settles, frames⟩ := ih (scans.of_frame mem tail' size mask)
    refine ⟨[report] ++ later, final, settles.prepend (path.trans rest), ?_⟩
    rw [packets_append, packet, frames]
    rfl
  | case5 i outside =>
    refine ⟨[], d, .rest (step_eq_none.mpr ?_), rfl⟩
    have := scans.scan
    have := scans.tail
    omega

end Instance

/-- Draining a buffer without ISB reports the leftmost frames. -/
theorem drain_leftmost (mem : Nat → UInt8) (bufferSize : Nat) {enabledMask : UInt32}
    (withoutIsb : enabledMask &&& Processor.isb.enableBit = 0) (bytes : List UInt8) :
    Instance.packets ((started mem bufferSize enabledMask).append bytes).drain.2 =
      leftmost bufferSize enabledMask bytes 0 := by
  have sound := (started_resting mem bufferSize enabledMask).toSound.append bytes
  have tail : ((started mem bufferSize enabledMask).append bytes).tail = bytes.length :=
    Nat.zero_add bytes.length
  have filled : ∀ k < bytes.length,
      ((started mem bufferSize enabledMask).append bytes).mem k = bytes.getD k 0 := by
    intro k inside
    have stored := @store_inside _ (started mem bufferSize enabledMask).mem 0 k bytes inside
    rw [Nat.zero_add] at stored
    rw [List.getD_eq_getElem?_getD, List.getElem?_eq_getElem inside]
    exact stored
  have scans : Instance.Scans ((started mem bufferSize enabledMask).append bytes) 0
      ((started mem bufferSize enabledMask).append bytes) :=
    ⟨rfl, rfl, Nat.le_refl 0, rfl, rfl, rfl, rfl⟩
  obtain ⟨reports, final, settles, frames⟩ := scans.settles withoutIsb tail filled
  obtain ⟨same, -⟩ := (Instance.drain_settles sound.toReady).unique settles
  rw [same, frames]
  rfl

/-- An NMEA sentence within the bytes that a rejected RTCM3 frame claims. -/
def sentenceInFrame : List UInt8 :=
  [0xD3, 0x00, 0x0A, 0x24, 0x58, 0x58, 0x2A, 0x30, 0x30, 0x0D, 0x0A, 0x00, 0x00, 0x00, 0x00, 0x00]

theorem drain_leftmost_nested :
    Instance.packets ((started (fun _ => 0) 32 0x0A).append sentenceInFrame).drain.2 =
      [frameReport .nmea 65535 8 [0x24, 0x58, 0x58, 0x2A, 0x30, 0x30, 0x0D, 0x0A]] :=
  (drain_leftmost (fun _ => 0) 32 (by decide) sentenceInFrame).trans (by decide +kernel)

end InertialSense.Comm
