import InertialSense.Comm.Locality

/-! Well-formed frames of the protocols that a fresh instance has enabled, and that the
processor of a frame waits at each of its bytes and accepts it at the last one. -/

namespace InertialSense.Comm

open Foundation

/-! ### Bytes of a frame that are in the buffer -/

/-- The bytes from `head` up to the current one are the first bytes of the frame. -/
structure Instance.Carries (c : Instance) (frame : List UInt8) : Prop where
  started : c.head < c.scan
  inside : c.numBytes ≤ frame.length
  bytes : ∀ k < c.numBytes, c.byteAt k = frame.getD k 0

namespace Instance.Carries

variable {c : Instance} {frame : List UInt8}

theorem current (carries : c.Carries frame) : c.current = frame.getD (c.numBytes - 1) 0 := by
  have last := carries.bytes (c.numBytes - 1) (by unfold numBytes; omega)
  have here : c.head + (c.numBytes - 1) = c.scan := by
    have := carries.started
    unfold numBytes
    omega
  rw [← last]
  show c.mem c.scan = c.mem (c.head + (c.numBytes - 1))
  rw [here]

theorem window (carries : c.Carries frame) {start count : Nat}
    (inside : start + count ≤ c.numBytes) :
    window c.mem (c.head + start) count = (frame.drop start).take count := by
  have long := carries.inside
  apply List.ext_getElem
  · simp
    omega
  · intro k bound _
    have small : k < count := by simpa using bound
    have there := carries.bytes (start + k) (by omega)
    rw [List.getD_eq_getElem?_getD, List.getElem?_eq_getElem (by omega), Option.getD_some] at there
    simp only [Foundation.window, List.getElem_map, List.getElem_range, List.getElem_take,
      List.getElem_drop, Nat.add_assoc]
    exact there

end Instance.Carries

/-- A processor that is given the frame byte by byte waits until the last byte, at which it
returns the report. -/
structure Conforms (bufSize : Nat) (processor : Processor) (frame : List UInt8)
    (report : Report) : Prop where
  start : frame.getD 0 0 = processor.startByte
  long : 2 ≤ frame.length
  packet : report.ptype ≠ .none
  waits : ∀ c : Instance, c.bufSize = bufSize → c.Holds processor → c.Carries frame →
    c.numBytes < frame.length →
    ∃ state size, processor.process c = ((c.setState state).setSize size, .none)
  accepts : ∀ c : Instance, c.bufSize = bufSize → c.Holds processor → c.Carries frame →
    c.numBytes = frame.length →
    ∃ pkt ackNeeded, processor.process c = (c.accepted pkt ackNeeded, report.ptype) ∧
      (c.accepted pkt ackNeeded).report report.ptype = report

/-! ### The frames -/

def lowByte (n : Nat) : UInt8 := UInt8.ofNat (n % 256)
def highByte (n : Nat) : UInt8 := UInt8.ofNat (n / 256)

theorem word_lowByte_highByte {n : Nat} (small : n < 65536) :
    word (lowByte n) (highByte n) = n := by
  unfold word lowByte highByte
  rw [UInt8.toNat_ofNat', UInt8.toNat_ofNat']
  omega

/-- The bytes with their Fletcher checksum behind them. -/
def withFletcher (body : List UInt8) : List UInt8 :=
  body ++ [(fletcher16 { a := 0, b := 0 } body).a, (fletcher16 { a := 0, b := 0 } body).b]

@[simp] theorem withFletcher_length (body : List UInt8) :
    (withFletcher body).length = body.length + 2 := by
  simp [withFletcher]

theorem withFletcher_cksum {body : List UInt8} {size : Nat} (length : body.length = size) :
    (⟨(withFletcher body).getD size 0, (withFletcher body).getD (size + 1) 0⟩ : Checksum16) =
      fletcher16 { a := 0, b := 0 } body := by
  subst length
  simp [withFletcher, List.getD_eq_getElem?_getD]

/-- The header and the payload of an ISB frame. -/
def isbBody (flags id : UInt8) (payload : List UInt8) : List UInt8 :=
  [0xEF, 0x49, flags, id, lowByte payload.length, highByte payload.length] ++ payload

def isbFrame (flags id : UInt8) (payload : List UInt8) : List UInt8 :=
  withFletcher (isbBody flags id payload)

@[simp] theorem isbFrame_length (flags id : UInt8) (payload : List UInt8) :
    (isbFrame flags id payload).length = 8 + payload.length := by
  simp [isbFrame, isbBody]
  omega

def isbFrameDataSize (flags : UInt8) (payload : List UInt8) : Nat :=
  if flags &&& isbFlagsPayloadWOffset ≠ 0 then payload.length - 2 else payload.length

/-- The protocol type of an ISB frame that is supported. The size field of a `GET_DATA` frame
has to be inside the frame. -/
def isbFrameType (flags id : UInt8) (payload : List UInt8) : Option ProtocolType :=
  if flags &&& pktTypeMask = pktTypeGetData ∧ payload.length < 2 then none
  else
    (isbDispatch (flags &&& pktTypeMask) (isbFrameDataSize flags payload)
      (word ((isbFrame flags id payload).getD 8 0) ((isbFrame flags id payload).getD 9 0))).1

def isbFrameView (flags id : UInt8) (payload : List UInt8) : View :=
  { pktType := flags &&& pktTypeMask
    id := id.toNat
    offset :=
      if flags &&& isbFlagsPayloadWOffset ≠ 0 then
        word ((isbFrame flags id payload).getD 6 0) ((isbFrame flags id payload).getD 7 0)
      else 0
    size := 8 + payload.length
    data := if flags &&& isbFlagsPayloadWOffset ≠ 0 then payload.drop 2 else payload }

section Isb

variable {c : Instance} {flags id : UInt8} {payload : List UInt8}

private theorem isb_payloadSize (small : payload.length < 65536)
    (carries : c.Carries (isbFrame flags id payload)) (header : 6 ≤ c.numBytes) :
    c.payloadSize = payload.length := by
  unfold Instance.payloadSize
  rw [carries.bytes 4 (by omega), carries.bytes 5 (by omega)]
  exact word_lowByte_highByte small

private theorem isb_waits (fits : 8 + payload.length ≤ pktBufSize) (holds : c.Holds .isb)
    (carries : c.Carries (isbFrame flags id payload))
    (more : c.numBytes < (isbFrame flags id payload).length) :
    ∃ state size, c.processIsbPkt = ((c.setState state).setSize size, .none) := by
  have count : c.numBytes = c.held + 1 := rfl
  have count' : c.held = c.scan - c.head := rfl
  have still : c = (c.setState c.parser.state).setSize c.parser.size := rfl
  unfold pktBufSize at fits
  rw [isbFrame_length] at more
  rcases holds with ⟨state, one⟩ | ⟨state, low, high⟩ | ⟨state, many, size⟩
  · have second : c.current = 0x49 := by
      rw [carries.current, show c.numBytes - 1 = 1 by omega]
      rfl
    rw [Instance.processIsbPkt_one state, if_pos second]
    exact ⟨2, c.parser.size, rfl⟩
  · rw [Instance.processIsbPkt_two state]
    split
    · exact ⟨_, _, congrArg (·, _) still⟩
    case isFalse complete =>
      have length := isb_payloadSize (by omega) carries (by omega)
      rw [length, if_neg (by unfold pktBufSize; omega)]
      exact ⟨_, _, rfl⟩
  · have length := isb_payloadSize (by omega) carries (by omega)
    rw [Instance.processIsbPkt_three state, if_pos (by omega)]
    exact ⟨_, _, congrArg (·, _) still⟩

private theorem isb_cksumPasses (fits : 8 + payload.length ≤ pktBufSize) (holds : c.Holds .isb)
    (carries : c.Carries (isbFrame flags id payload))
    (whole : c.numBytes = 8 + payload.length) :
    c.parser.size = 8 + payload.length ∧ c.isbCksumPasses := by
  have count : c.numBytes = c.held + 1 := rfl
  unfold pktBufSize at fits
  have length := isb_payloadSize (by omega) carries (by omega)
  have size : c.parser.size = 8 + payload.length := by
    rcases holds with ⟨-, one⟩ | ⟨-, low, high⟩ | ⟨-, -, size⟩ <;> omega
  have bytes : (c.parser.size + 2 ^ 32 - 2) % 2 ^ 32 = 6 + payload.length := by omega
  have body : window c.mem c.head (6 + payload.length) = isbBody flags id payload := by
    have all : window c.mem (c.head + 0) (6 + payload.length) = _ := carries.window (by omega)
    rw [Nat.add_zero, List.drop_zero] at all
    rw [all]
    exact List.take_left' (by simp [isbBody]; omega)
  refine ⟨size, ?_⟩
  unfold Instance.isbCksumPasses Instance.isbPkt
  rw [bytes, body, length]
  dsimp only
  rw [carries.bytes _ (by omega), carries.bytes _ (by omega)]
  exact decide_eq_true (withFletcher_cksum (by simp [isbBody]; omega))

private theorem isb_dataSize (small : payload.length < 65536)
    (carries : c.Carries (isbFrame flags id payload)) (header : 6 ≤ c.numBytes) :
    c.isbDataSize = isbFrameDataSize flags payload := by
  unfold Instance.isbDataSize isbFrameDataSize
  rw [isb_payloadSize small carries header, carries.bytes 2 (by omega)]
  rfl

private theorem isb_switch (small : payload.length < 65536) {ptype : ProtocolType}
    (supported : isbFrameType flags id payload = some ptype)
    (carries : c.Carries (isbFrame flags id payload))
    (whole : c.numBytes = 8 + payload.length) : c.isbSwitch.1 = some ptype := by
  unfold isbFrameType at supported
  split at supported
  case isTrue => cases supported
  case isFalse enough =>
    unfold Instance.isbSwitch
    rw [isb_dataSize small carries (by omega), carries.bytes 2 (by omega)]
    by_cases two : payload.length < 2
    · have other : flags &&& pktTypeMask ≠ pktTypeGetData := fun get => enough ⟨get, two⟩
      rw [Instance.isbDispatch_other other] at supported
      exact supported
    · rw [carries.bytes 8 (by omega), carries.bytes 9 (by omega)]
      exact supported

private theorem isb_payload (carries : c.Carries (isbFrame flags id payload))
    (whole : c.numBytes = 8 + payload.length) :
    window c.mem (c.head + 6) payload.length = payload := by
  rw [carries.window (by omega)]
  exact List.take_left' rfl

private theorem packetData_eq (c : Instance) :
    c.packetData = c.rxPkt.dataPtr.elim [] (fun ptr => window c.mem ptr c.rxPkt.dataSize) := by
  unfold Instance.packetData
  cases c.rxPkt.dataPtr <;> rfl

private theorem isb_data (small : payload.length < 65536)
    (carries : c.Carries (isbFrame flags id payload))
    (whole : c.numBytes = 8 + payload.length) (ackNeeded : UInt32) :
    (c.accepted c.isbPkt ackNeeded).packetData = (isbFrameView flags id payload).data := by
  have all := isb_payload carries whole
  have flagsByte : c.byteAt 2 = flags := carries.bytes 2 (by omega)
  have data := isb_dataSize small carries (by omega)
  unfold isbFrameDataSize at data
  rw [packetData_eq]
  show c.isbPkt.dataPtr.elim [] (fun ptr => window c.mem ptr c.isbDataSize) = _
  unfold Instance.isbPkt isbFrameView
  dsimp only
  rw [data, flagsByte]
  by_cases offset : flags &&& isbFlagsPayloadWOffset ≠ 0
  · simp only [if_pos offset]
    by_cases none : payload.length - 2 = 0
    · rw [if_pos none]
      exact (List.drop_eq_nil_of_le (by omega)).symm
    · rw [if_neg none]
      show window c.mem (c.head + 6 + 2) (payload.length - 2) = payload.drop 2
      rw [← drop_window c.mem (by omega), all]
  · simp only [if_neg offset]
    by_cases none : payload.length = 0
    · rw [if_pos none]
      exact (List.eq_nil_of_length_eq_zero none).symm
    · rw [if_neg none]
      exact all

private theorem isb_accepts (fits : 8 + payload.length ≤ pktBufSize) {ptype : ProtocolType}
    (supported : isbFrameType flags id payload = some ptype) (holds : c.Holds .isb)
    (carries : c.Carries (isbFrame flags id payload))
    (whole : c.numBytes = (isbFrame flags id payload).length) :
    ∃ pkt ackNeeded, c.processIsbPkt = (c.accepted pkt ackNeeded, ptype) ∧
      (c.accepted pkt ackNeeded).report ptype =
        { ptype, packet := some (isbFrameView flags id payload) } := by
  rw [isbFrame_length] at whole
  have count : c.numBytes = c.held + 1 := rfl
  have small : payload.length < 65536 := by unfold pktBufSize at fits; omega
  obtain ⟨size, passes⟩ := isb_cksumPasses fits holds carries whole
  have switch := isb_switch small supported carries whole
  have state : c.parser.state = 3 := by
    rcases holds with ⟨-, one⟩ | ⟨-, low, high⟩ | ⟨state, -⟩
    · omega
    · omega
    · exact state
  refine ⟨c.isbPkt, c.isbSwitch.2, ?_, ?_⟩
  · rw [Instance.processIsbPkt_three state, if_neg (by omega)]
    unfold Instance.isbPktEnd
    rw [if_pos passes, switch]
    rfl
  · have isb : ptype.isIsb := Instance.isbDispatch_isIsb switch
    have packet : ptype ≠ .parseError := (Instance.isbDispatch_packet switch).2
    unfold Instance.report
    rw [if_neg packet, isb_data small carries whole]
    simp only [isb, if_true, Instance.accepted, Instance.isbPkt, size, carries.bytes 2 (by omega),
      carries.bytes 3 (by omega), carries.bytes 6 (by omega), carries.bytes 7 (by omega)]
    rfl

theorem isbFrame_conforms (bufSize : Nat) (fits : 8 + payload.length ≤ pktBufSize)
    {ptype : ProtocolType} (supported : isbFrameType flags id payload = some ptype) :
    Conforms bufSize .isb (isbFrame flags id payload)
      { ptype, packet := some (isbFrameView flags id payload) } where
  start := rfl
  long := by rw [isbFrame_length]; omega
  packet := by
    unfold isbFrameType at supported
    split at supported
    · cases supported
    · exact (Instance.isbDispatch_packet supported).1
  waits := fun _ _ holds carries more => isb_waits fits holds carries more
  accepts := fun _ _ holds carries whole => isb_accepts fits supported holds carries whole

end Isb

/-! ### Frames that are reported as a whole -/

/-- What is reported of a frame that is no ISB frame. -/
def wholeView (id : Nat) (frame : List UInt8) : View :=
  { pktType := 0
    id
    offset := 0
    size := frame.length
    data := frame }

private theorem found_report {c : Instance} {frame : List UInt8} (carries : c.Carries frame)
    (whole : c.numBytes = frame.length) (small : frame.length < 65536) (id : Nat)
    (ptype : ProtocolType) (other : ptype.isIsb = false) (packet : ptype ≠ .parseError) :
    ∃ pkt ackNeeded,
      (((c.setState 0).validPacketFound c.numBytes frame.length id, ptype) :
        Instance × ProtocolType) = (c.accepted pkt ackNeeded, ptype) ∧
      (c.accepted pkt ackNeeded).report ptype = { ptype, packet := some (wholeView id frame) } := by
  have data : window c.mem c.head frame.length = frame := by
    have all : window c.mem (c.head + 0) frame.length = _ := carries.window (by omega)
    rwa [Nat.add_zero, List.drop_zero, List.take_length] at all
  refine ⟨((c.setState 0).validPacketFound c.numBytes frame.length id).rxPkt, c.ackNeeded, rfl, ?_⟩
  unfold Instance.report Instance.packetData
  simp [packet, other, Instance.accepted, Instance.validPacketFound, Instance.validPacketReset,
    Instance.setState, wholeView, data, whole, Nat.mod_eq_of_lt small]

/-! ### UBX -/

/-- The part of a UBX frame that its checksum covers. -/
def ubloxBody (msgClass msgId : UInt8) (payload : List UInt8) : List UInt8 :=
  [msgClass, msgId, lowByte payload.length, highByte payload.length] ++ payload

/-- A UBX frame. -/
def ubloxFrame (msgClass msgId : UInt8) (payload : List UInt8) : List UInt8 :=
  [0xB5, 0x62] ++ withFletcher (ubloxBody msgClass msgId payload)

@[simp] theorem ubloxFrame_length (msgClass msgId : UInt8) (payload : List UInt8) :
    (ubloxFrame msgClass msgId payload).length = 8 + payload.length := by
  simp [ubloxFrame, ubloxBody]
  omega

section Ublox

variable {c : Instance} {msgClass msgId : UInt8} {payload : List UInt8}

private theorem ublox_payloadSize (small : payload.length < 65536)
    (carries : c.Carries (ubloxFrame msgClass msgId payload)) (header : 6 ≤ c.numBytes) :
    c.payloadSize = payload.length := by
  unfold Instance.payloadSize
  rw [carries.bytes 4 (by omega), carries.bytes 5 (by omega)]
  exact word_lowByte_highByte small

private theorem ublox_waits (fits : 8 + payload.length ≤ 1024) (holds : c.Holds .ublox)
    (carries : c.Carries (ubloxFrame msgClass msgId payload))
    (more : c.numBytes < (ubloxFrame msgClass msgId payload).length) :
    ∃ state size, c.processUbloxPkt = ((c.setState state).setSize size, .none) := by
  have count : c.numBytes = c.held + 1 := rfl
  have still : c = (c.setState c.parser.state).setSize c.parser.size := rfl
  rw [ubloxFrame_length] at more
  rcases holds with ⟨state, one⟩ | ⟨state, low, high⟩ | ⟨state, many, size⟩
  · have second : c.current = 0x62 := by
      rw [carries.current, show c.numBytes - 1 = 1 by omega]
      rfl
    rw [Instance.processUbloxPkt_one state, if_pos second]
    exact ⟨2, c.parser.size, rfl⟩
  · rw [Instance.processUbloxPkt_two state]
    split
    · exact ⟨_, _, congrArg (·, _) still⟩
    · exact ⟨_, _, rfl⟩
  · have length := ublox_payloadSize (by omega) carries (by omega)
    rw [Instance.processUbloxPkt_three state, if_pos (by omega)]
    exact ⟨_, _, congrArg (·, _) still⟩

private theorem ublox_accepts (fits : 8 + payload.length ≤ 1024) (holds : c.Holds .ublox)
    (carries : c.Carries (ubloxFrame msgClass msgId payload))
    (whole : c.numBytes = (ubloxFrame msgClass msgId payload).length) :
    ∃ pkt ackNeeded, c.processUbloxPkt = (c.accepted pkt ackNeeded, .ublox) ∧
      (c.accepted pkt ackNeeded).report .ublox =
        { ptype := .ublox
          packet := some (wholeView msgClass.toNat (ubloxFrame msgClass msgId payload)) } := by
  have found := found_report carries whole (by simp; omega) msgClass.toNat .ublox rfl (by decide)
  rw [ubloxFrame_length] at whole
  have count : c.numBytes = c.held + 1 := rfl
  have count' : c.numBytes = c.scan - c.head + 1 := rfl
  have length := ublox_payloadSize (by omega) carries (by omega)
  obtain ⟨state, size⟩ : c.parser.state = 3 ∧ c.parser.size = 8 + payload.length := by
    rcases holds with ⟨-, one⟩ | ⟨-, low, high⟩ | ⟨state, -, size⟩
    · omega
    · omega
    · exact ⟨state, by omega⟩
  have body : window c.mem (c.head + 2) (c.scan - 1 - (c.head + 2)) =
      ubloxBody msgClass msgId payload := by
    have tail : (ubloxFrame msgClass msgId payload).drop 2 =
        withFletcher (ubloxBody msgClass msgId payload) := rfl
    rw [carries.window (by omega), tail]
    exact List.take_left' (by simp [ubloxBody]; omega)
  have before : c.mem (c.scan - 1) = c.byteAt (6 + payload.length) := by
    unfold Instance.byteAt
    rw [show c.scan - 1 = c.head + (6 + payload.length) by omega]
  have cksum : (⟨c.mem (c.scan - 1), c.current⟩ : Checksum16) =
      fletcher16 { a := 0, b := 0 } (ubloxBody msgClass msgId payload) := by
    rw [before, carries.bytes _ (by omega), carries.current,
      show c.numBytes - 1 = 4 + payload.length + 1 + 2 by omega,
      show 6 + payload.length = 4 + payload.length + 2 by omega]
    exact withFletcher_cksum (by simp [ubloxBody]; omega)
  rw [Instance.processUbloxPkt_three state, if_neg (by omega)]
  unfold Instance.ubloxPktEnd
  rw [body, if_pos cksum, size, carries.bytes 2 (by omega)]
  rw [ubloxFrame_length] at found
  exact found

theorem ubloxFrame_conforms (bufSize : Nat) (fits : 8 + payload.length ≤ 1024) :
    Conforms bufSize .ublox (ubloxFrame msgClass msgId payload)
      { ptype := .ublox
        packet := some (wholeView msgClass.toNat (ubloxFrame msgClass msgId payload)) } where
  start := rfl
  long := by rw [ubloxFrame_length]; omega
  packet := by simp
  waits := fun _ _ holds carries more => ublox_waits fits holds carries more
  accepts := fun _ _ holds carries whole => ublox_accepts fits holds carries whole

end Ublox

/-! ### NMEA -/

/-- An NMEA sentence with the two checksum digits `high` and `low`. -/
def nmeaFrame (text : List UInt8) (high low : UInt8) : List UInt8 :=
  0x24 :: (text ++ [0x2A, high, low, 0x0D, 0x0A])

@[simp] theorem nmeaFrame_length (text : List UInt8) (high low : UInt8) :
    (nmeaFrame text high low).length = text.length + 6 := by
  simp [nmeaFrame]

/-- The digits write the exclusive or of the text. -/
def NmeaCksum (text : List UInt8) (high low : UInt8) : Prop :=
  ∃ first second, hexDigit? high = some first ∧ hexDigit? low = some second ∧
    16 * first + second = (byteXor text).toNat

section Nmea

variable {c : Instance} {text : List UInt8} {high low : UInt8}

theorem hexDigit?_range (byte : UInt8) (hex : (hexDigit? byte).isSome) :
    byte ≠ 0x0D ∧ byte ≠ 0x2D ∧ byte ≠ 0x2B ∧ isSpace byte = false := by
  refine ⟨?_, ?_, ?_, ?_⟩
  · rintro rfl
    exact absurd hex (by decide)
  · rintro rfl
    exact absurd hex (by decide)
  · rintro rfl
    exact absurd hex (by decide)
  · by_contra space
    have low : byte.toNat ≤ 0x20 := by
      simp only [isSpace, decide_eq_false_iff_not, Decidable.not_not] at space
      rcases space with rfl | ⟨-, small⟩
      · decide
      · exact Nat.le_trans (UInt8.le_iff_toNat_le.mp small) (by decide)
    have above (bound : UInt8) (big : 0x30 ≤ bound.toNat) : ¬bound ≤ byte := by
      intro le
      have := UInt8.le_iff_toNat_le.mp le
      omega
    have none : hexDigit? byte = none := by
      simp [hexDigit?, above 0x30 (by decide), above 0x41 (by decide), above 0x61 (by decide)]
    simp [none] at hex

theorem strtol16_digits {first second : Nat} (one : hexDigit? high = some first)
    (two : hexDigit? low = some second) : strtol16 [high, low] = (16 * first + second : Nat) := by
  obtain ⟨-, minus, plus, space⟩ := hexDigit?_range high (by simp [one])
  have text : [high, low].dropWhile isSpace = [high, low] := by simp [List.dropWhile, space]
  unfold strtol16
  rw [text]
  split
  case h_1 same => cases same; exact absurd rfl minus
  case h_2 same => cases same; exact absurd rfl plus
  case h_3 => simp [hexMagnitude, hexDigits, one, two]

/-- No carriage return before the end. -/
theorem nmea_inner (plain : 0x0D ∉ text) (cksum : NmeaCksum text high low) {k : Nat}
    (some : 1 ≤ k) (inner : k < text.length + 4) : (nmeaFrame text high low).getD k 0 ≠ 0x0D := by
  obtain ⟨first, second, one, two, -⟩ := cksum
  obtain ⟨j, rfl⟩ : ∃ j, k = j + 1 := ⟨k - 1, by omega⟩
  show (text ++ [0x2A, high, low, 0x0D, 0x0A]).getD j 0 ≠ 0x0D
  rw [List.getD_eq_getElem?_getD]
  by_cases early : j < text.length
  · rw [List.getElem?_append_left early, List.getElem?_eq_getElem early]
    exact fun same => plain (same ▸ List.getElem_mem early)
  · rw [List.getElem?_append_right (by omega)]
    obtain zero | one' | two' : j - text.length = 0 ∨ j - text.length = 1 ∨ j - text.length = 2 := by
      omega
    · rw [zero]
      exact (by decide : (0x2A : UInt8) ≠ 0x0D)
    · rw [one']
      exact (hexDigit?_range high (by simp [one])).1
    · rw [two']
      exact (hexDigit?_range low (by simp [two])).1

private theorem nmea_waits (plain : 0x0D ∉ text) (cksum : NmeaCksum text high low)
    (fits : text.length + 6 ≤ 200) (holds : c.Holds .nmea)
    (carries : c.Carries (nmeaFrame text high low))
    (more : c.numBytes < (nmeaFrame text high low).length) :
    ∃ state size, c.processNmeaPkt = ((c.setState state).setSize size, .none) := by
  have count : c.numBytes = c.held + 1 := rfl
  have count' : c.held = c.scan - c.head := rfl
  have still : c = (c.setState c.parser.state).setSize c.parser.size := rfl
  rw [nmeaFrame_length] at more
  rcases holds with ⟨state, -⟩ | ⟨-, two, ends⟩
  · rw [Instance.processNmeaPkt_one state]
    split
    · exact ⟨2, c.parser.size, rfl⟩
    · rw [if_neg (by omega)]
      exact ⟨_, _, congrArg (·, _) still⟩
  · rw [carries.bytes _ (by omega)] at ends
    exact absurd ends (nmea_inner plain cksum (by omega) (by omega))

private theorem nmea_accepts (cksum : NmeaCksum text high low)
    (long : 2 ≤ text.length) (fits : text.length + 6 ≤ 200) (holds : c.Holds .nmea)
    (carries : c.Carries (nmeaFrame text high low))
    (whole : c.numBytes = (nmeaFrame text high low).length) :
    ∃ pkt ackNeeded, c.processNmeaPkt = (c.accepted pkt ackNeeded, .nmea) ∧
      (c.accepted pkt ackNeeded).report .nmea =
        { ptype := .nmea
          packet := some (wholeView
            (getNmeaMsgId (fun k => (nmeaFrame text high low).getD k 0)
              (nmeaFrame text high low).length % 2 ^ 16).toNat (nmeaFrame text high low)) } := by
  have found := found_report carries whole (by simp; omega)
    (getNmeaMsgId c.byteAt (nmeaFrame text high low).length % 2 ^ 16).toNat .nmea rfl (by decide)
  have id : getNmeaMsgId c.byteAt (nmeaFrame text high low).length =
      getNmeaMsgId (fun k => (nmeaFrame text high low).getD k 0)
        (nmeaFrame text high low).length :=
    getNmeaMsgId_congr (by simp; omega) fun k inside => carries.bytes k (by omega)
  have same := whole
  rw [nmeaFrame_length] at whole
  have count : c.numBytes = c.held + 1 := rfl
  have count' : c.numBytes = c.scan - c.head + 1 := rfl
  have state : c.parser.state = 2 := by
    rcases holds with ⟨-, inner⟩ | ⟨state, -⟩
    · have last : c.byteAt (c.held - 1) = 0x0D := by
        rw [carries.bytes _ (by omega), show c.held - 1 = text.length + 4 by omega]
        simp [nmeaFrame, List.getD_eq_getElem?_getD]
      exact absurd last (inner (by omega))
    · exact state
  have body : window c.mem (c.head + 1) (c.scan - 4 - (c.head + 1)) = text := by
    have tail : (nmeaFrame text high low).drop 1 = text ++ [0x2A, high, low, 0x0D, 0x0A] := rfl
    rw [carries.window (by omega), tail]
    exact List.take_left' (by omega)
  have first : c.mem (c.scan - 3) = high := by
    have there := carries.bytes (text.length + 2) (by omega)
    rw [Instance.byteAt, show c.head + (text.length + 2) = c.scan - 3 by omega] at there
    rw [there]
    simp [nmeaFrame, List.getD_eq_getElem?_getD]
  have second : c.mem (c.scan - 2) = low := by
    have there := carries.bytes (text.length + 3) (by omega)
    rw [Instance.byteAt, show c.head + (text.length + 3) = c.scan - 2 by omega] at there
    rw [there]
    simp [nmeaFrame, List.getD_eq_getElem?_getD]
  have passes : c.nmeaCksumPasses := by
    obtain ⟨upper, lower, one, two, value⟩ := cksum
    unfold Instance.nmeaCksumPasses
    rw [first, second, body, strtol16_digits one two, value]
    exact decide_eq_true rfl
  rw [Instance.processNmeaPkt_two state]
  unfold Instance.nmeaPktEnd
  rw [same] at found
  rw [if_neg (by omega), if_pos passes, same, ← id]
  exact found

/-- The id and the bytes that are reported of a sentence. -/
def nmeaFrameView (text : List UInt8) (high low : UInt8) : View :=
  wholeView (getNmeaMsgId (fun k => (nmeaFrame text high low).getD k 0)
    (nmeaFrame text high low).length % 2 ^ 16).toNat (nmeaFrame text high low)

theorem nmeaFrame_conforms (bufSize : Nat) (plain : 0x0D ∉ text)
    (cksum : NmeaCksum text high low) (long : 2 ≤ text.length) (fits : text.length + 6 ≤ 200) :
    Conforms bufSize .nmea (nmeaFrame text high low)
      { ptype := .nmea, packet := some (nmeaFrameView text high low) } where
  start := rfl
  long := by rw [nmeaFrame_length]; omega
  packet := by simp
  waits := fun _ _ holds carries more => nmea_waits plain cksum fits holds carries more
  accepts := fun _ _ holds carries whole => nmea_accepts cksum long fits holds carries whole

end Nmea

/-! ### RTCM3 -/

/-- The part of an RTCM3 frame that its checksum covers. The lower two bits of `upper` and
the byte after it are the length of the payload. -/
def rtcm3Body (upper : UInt8) (payload : List UInt8) : List UInt8 :=
  [0xD3, upper, lowByte payload.length] ++ payload

def rtcm3Frame (upper : UInt8) (payload : List UInt8) : List UInt8 :=
  rtcm3Body upper payload ++ crcBytes (calculate24BitCRCQ (rtcm3Body upper payload))

@[simp] theorem rtcm3Frame_length (upper : UInt8) (payload : List UInt8) :
    (rtcm3Frame upper payload).length = 6 + payload.length := by
  simp [rtcm3Frame, rtcm3Body, crcBytes]
  omega

/-- The message number and the bytes that are reported of an RTCM3 frame. -/
def rtcm3FrameView (upper : UInt8) (payload : List UInt8) : View :=
  wholeView (getBitsAsUInt32 (fun k => (rtcm3Frame upper payload).getD k 0) 24 12).toNat
    (rtcm3Frame upper payload)

section Rtcm3

variable {c : Instance} {upper : UInt8} {payload : List UInt8}

/-- The last three bytes are the checksum of the rest. -/
theorem rtcm3Frame_crc (upper : UInt8) (payload : List UInt8) :
    getBitsAsUInt32 (fun k => (rtcm3Frame upper payload).getD (3 + payload.length + k) 0) 0 24 =
      calculate24BitCRCQ (rtcm3Body upper payload) := by
  apply getBitsAsUInt32_crcBytes (calculate24BitCRCQ_lt _)
  intro k small
  have length : (rtcm3Body upper payload).length = 3 + payload.length := by
    simp [rtcm3Body]
    omega
  unfold rtcm3Frame
  rw [List.getD_eq_getElem?_getD, List.getD_eq_getElem?_getD,
    List.getElem?_append_right (by omega), length, Nat.add_sub_cancel_left]

private theorem rtcm3_size (field : upper.toNat % 4 = payload.length / 256)
    (carries : c.Carries (rtcm3Frame upper payload)) (header : 3 ≤ c.numBytes) :
    c.rtcm3Size = 6 + payload.length := by
  have low : (lowByte payload.length).toNat = payload.length % 256 := by
    unfold lowByte
    rw [UInt8.toNat_ofNat']
    omega
  unfold Instance.rtcm3Size
  rw [getBitsAsUInt32_ten, carries.bytes 1 (by omega), carries.bytes 2 (by omega)]
  show 256 * (upper.toNat % 4) + (lowByte payload.length).toNat + 6 = 6 + payload.length
  omega

private theorem rtcm3_waits (field : upper.toNat % 4 = payload.length / 256)
    (fits : 6 + payload.length ≤ 1023) (size : c.bufSize < 2 ^ 31)
    (room : 6 + payload.length + 6 ≤ c.bufSize) (holds : c.Holds .rtcm3)
    (carries : c.Carries (rtcm3Frame upper payload))
    (more : c.numBytes < (rtcm3Frame upper payload).length) :
    ∃ state size, c.processRtcm3Pkt = ((c.setState state).setSize size, .none) := by
  have count : c.numBytes = c.held + 1 := rfl
  have count' : c.held = c.scan - c.head := rfl
  have some := carries.started
  have still : c = (c.setState c.parser.state).setSize c.parser.size := rfl
  rw [rtcm3Frame_length] at more
  rcases holds with ⟨state, few⟩ | ⟨state, many, parsed⟩
  · obtain one | two : c.held = 1 ∨ c.held = 2 := by omega
    · rw [Instance.processRtcm3Pkt_one (by omega)]
      exact ⟨2, c.parser.size, rfl⟩
    · rw [Instance.processRtcm3Pkt_two (by omega), rtcm3_size field carries (by omega),
        if_neg (by omega)]
      exact ⟨_, _, rfl⟩
  · rw [rtcm3_size field carries (by omega)] at parsed
    rw [Instance.processRtcm3Pkt_three state, if_pos (by omega)]
    exact ⟨_, _, congrArg (·, _) still⟩

private theorem rtcm3_accepts (field : upper.toNat % 4 = payload.length / 256)
    (fits : 6 + payload.length ≤ 1023) (holds : c.Holds .rtcm3)
    (carries : c.Carries (rtcm3Frame upper payload))
    (whole : c.numBytes = (rtcm3Frame upper payload).length) :
    ∃ pkt ackNeeded, c.processRtcm3Pkt = (c.accepted pkt ackNeeded, .rtcm3) ∧
      (c.accepted pkt ackNeeded).report .rtcm3 =
        { ptype := .rtcm3, packet := some (rtcm3FrameView upper payload) } := by
  have found := found_report carries whole (by simp; omega)
    (getBitsAsUInt32 c.byteAt 24 12).toNat .rtcm3 rfl (by decide)
  rw [rtcm3Frame_length] at whole
  have id : getBitsAsUInt32 c.byteAt 24 12 =
      getBitsAsUInt32 (fun k => (rtcm3Frame upper payload).getD k 0) 24 12 :=
    getBitsAsUInt32_congr fun k small => carries.bytes k (by omega)
  have count : c.numBytes = c.held + 1 := rfl
  obtain ⟨state, size⟩ : c.parser.state = 3 ∧ c.parser.size = 6 + payload.length := by
    rcases holds with ⟨-, few⟩ | ⟨state, -, size⟩
    · omega
    · exact ⟨state, size.trans (rtcm3_size field carries (by omega))⟩
  have body : window c.mem c.head (3 + payload.length) = rtcm3Body upper payload := by
    have all : window c.mem (c.head + 0) (3 + payload.length) = _ := carries.window (by omega)
    rw [Nat.add_zero, List.drop_zero] at all
    rw [all]
    exact List.take_left' (by simp [rtcm3Body]; omega)
  have crc : getBitsAsUInt32 (fun k => c.byteAt (3 + payload.length + k)) 0 24 =
      calculate24BitCRCQ (rtcm3Body upper payload) := by
    rw [← rtcm3Frame_crc]
    exact getBitsAsUInt32_congr fun k small => carries.bytes _ (by omega)
  rw [Instance.processRtcm3Pkt_three state, if_neg (by omega)]
  unfold Instance.rtcm3PktEnd
  dsimp only
  rw [size, show 6 + payload.length - 3 = 3 + payload.length by omega, body, crc, if_pos rfl]
  rw [rtcm3Frame_length] at found
  unfold rtcm3FrameView
  rw [← id]
  exact found

/-- The parser asks for six bytes more than the frame has. -/
theorem rtcm3Frame_conforms {bufSize : Nat} (field : upper.toNat % 4 = payload.length / 256)
    (fits : 6 + payload.length ≤ 1023) (size : bufSize < 2 ^ 31)
    (room : 6 + payload.length + 6 ≤ bufSize) :
    Conforms bufSize .rtcm3 (rtcm3Frame upper payload)
      { ptype := .rtcm3, packet := some (rtcm3FrameView upper payload) } where
  start := rfl
  long := by rw [rtcm3Frame_length]; omega
  packet := by simp
  waits := fun c same holds carries more =>
    rtcm3_waits field fits (by omega) (by omega) holds carries more
  accepts := fun _ _ holds carries whole => rtcm3_accepts field fits holds carries whole

end Rtcm3

end InertialSense.Comm
