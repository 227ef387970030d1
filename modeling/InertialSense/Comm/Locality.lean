import InertialSense.Comm.Tracking

/-! The parser depends on the bytes up to `scan` only. Two kinds of frame are excepted: an
ISB header whose payload size makes the frame size wrap, and an accepted `GET_DATA` frame too
short for the size field that is read from it. -/

namespace InertialSense.Comm

open Foundation

namespace Instance

/-- The byte at `scan` completes neither an ISB header with a payload size of 65528 or more
nor an accepted `GET_DATA` frame with fewer than four payload bytes. -/
def Clean (c : Instance) : Prop :=
  c.processPkt = some .isb → 6 ≤ c.numBytes →
    c.payloadSize < 65528 ∧
      (c.turn.2 = .inertialSenseCmd → c.byteAt 2 &&& pktTypeMask = pktTypeGetData →
        4 ≤ c.payloadSize)

instance : DecidablePred Clean := fun _ => inferInstanceAs (Decidable (_ → _ → _ ∧ (_ → _ → _)))

/-- The same instance over another memory and with another end of data. -/
def rebase (c : Instance) (mem : Nat → UInt8) (tail : Nat) : Instance := { c with mem, tail }

/-- The memory with everything past `scan` overwritten. -/
def visible (c : Instance) : Nat → UInt8 := fun address =>
  if address ≤ c.scan then c.mem address else 0xFF

/-- The instance when nothing past the current byte has arrived. -/
def isolated (c : Instance) : Instance := c.rebase c.visible 0

/-- An answer over another memory and with another end of data. -/
def rebaseAnswer (answer : Instance × ProtocolType) (mem : Nat → UInt8) (tail : Nat) :
    Instance × ProtocolType :=
  (answer.1.rebase mem tail, answer.2)

section Rebase

variable (c : Instance) (mem : Nat → UInt8) (tail : Nat)

theorem rebase_reportParseError (error : ParseErrorType) :
    (c.rebase mem tail).reportParseError error =
      rebaseAnswer (c.reportParseError error) mem tail := by
  unfold reportParseError rebaseAnswer
  cases latched : c.rxErrorState <;> simp [rebase, latched]

theorem rebase_parseErrorResetState (error : ParseErrorType) :
    (c.rebase mem tail).parseErrorResetState error =
      rebaseAnswer (c.parseErrorResetState error) mem tail :=
  rebase_reportParseError c.resetParser mem tail error

theorem rebaseAnswer_ite {condition : Prop} [Decidable condition]
    (first second : Instance × ProtocolType) :
    rebaseAnswer (if condition then first else second) mem tail =
      if condition then rebaseAnswer first mem tail else rebaseAnswer second mem tail :=
  apply_ite (fun answer => rebaseAnswer answer mem tail) ..

end Rebase

variable {c : Instance}

private theorem isolated_head : c.isolated.head = c.head := rfl
private theorem isolated_scan : c.isolated.scan = c.scan := rfl
private theorem isolated_progress : c.isolated.parser = c.parser := rfl
private theorem isolated_numBytes : c.isolated.numBytes = c.numBytes := rfl

private theorem isolated_mem {address : Nat} (inside : address ≤ c.scan) :
    c.isolated.mem address = c.mem address :=
  if_pos inside

private theorem isolated_current : c.isolated.current = c.current :=
  isolated_mem (Nat.le_refl c.scan)

private theorem isolated_byteAt (ordered : c.head ≤ c.scan) {k : Nat} (inside : k < c.numBytes) :
    c.isolated.byteAt k = c.byteAt k := by
  unfold numBytes at inside
  exact isolated_mem (by rw [isolated_head]; omega)

private theorem isolated_window {start count : Nat} (inside : start + count ≤ c.scan + 1) :
    window c.isolated.mem start count = window c.mem start count := by
  apply window_congr
  intro k small
  exact isolated_mem (by omega)

private theorem isolated_payloadSize (ordered : c.head ≤ c.scan) (inside : 6 ≤ c.numBytes) :
    c.isolated.payloadSize = c.payloadSize := by
  unfold payloadSize
  rw [isolated_byteAt ordered (by omega), isolated_byteAt ordered (by omega)]

private theorem isolated_rejects (error : ParseErrorType) :
    c.isolated.parseErrorResetState error =
      rebaseAnswer (c.parseErrorResetState error) c.visible 0 :=
  rebase_parseErrorResetState ..

private theorem isolated_rejects_at (state : Int) (size : Nat) (error : ParseErrorType) :
    ((c.isolated.setState state).setSize size).parseErrorResetState error =
      rebaseAnswer (((c.setState state).setSize size).parseErrorResetState error) c.visible 0 :=
  rebase_parseErrorResetState ((c.setState state).setSize size) c.visible 0 error

private theorem processNmeaPkt_isolated (ordered : c.head < c.scan) (holds : c.Holds .nmea) :
    c.isolated.processNmeaPkt = rebaseAnswer c.processNmeaPkt c.visible 0 := by
  rcases holds with ⟨state, -⟩ | ⟨state, -, -⟩
  · have state' : c.isolated.parser.state = 1 := state
    rw [processNmeaPkt_one state, processNmeaPkt_one state', rebaseAnswer_ite, rebaseAnswer_ite,
      isolated_current]
    refine ite_congr rfl (fun _ => rfl) (fun _ => ?_)
    exact ite_congr rfl (fun _ => isolated_rejects _) (fun _ => rfl)
  · have state' : c.isolated.parser.state = 2 := state
    rw [processNmeaPkt_two state, processNmeaPkt_two state']
    unfold nmeaPktEnd
    rw [rebaseAnswer_ite, rebaseAnswer_ite]
    refine ite_congr rfl (fun _ => isolated_rejects_at 0 _ _) (fun long => ?_)
    have count : c.numBytes = c.scan - c.head + 1 := rfl
    have passes : c.isolated.nmeaCksumPasses = c.nmeaCksumPasses := by
      unfold nmeaCksumPasses
      rw [isolated_scan, isolated_head, isolated_mem (by omega), isolated_mem (by omega),
        isolated_window (by omega)]
    have id : getNmeaMsgId c.isolated.byteAt c.numBytes = getNmeaMsgId c.byteAt c.numBytes :=
      getNmeaMsgId_congr (by omega) fun k inside => isolated_byteAt (Nat.le_of_lt ordered) inside
    rw [passes]
    refine ite_congr rfl (fun _ => ?_) (fun _ => isolated_rejects_at 0 _ _)
    rw [isolated_numBytes, id]
    rfl

private theorem processUbloxPkt_isolated (ordered : c.head < c.scan) (holds : c.Holds .ublox) :
    c.isolated.processUbloxPkt = rebaseAnswer c.processUbloxPkt c.visible 0 := by
  have ordered' := Nat.le_of_lt ordered
  have count : c.numBytes = c.scan - c.head + 1 := rfl
  have count' : c.held = c.scan - c.head := rfl
  rcases holds with ⟨state, one⟩ | ⟨state, low, high⟩ | ⟨state, many, size⟩
  · have state' : c.isolated.parser.state = 1 := state
    rw [processUbloxPkt_one state, processUbloxPkt_one state', rebaseAnswer_ite, isolated_current]
    exact ite_congr rfl (fun _ => rfl) (fun _ => isolated_rejects _)
  · have state' : c.isolated.parser.state = 2 := state
    rw [processUbloxPkt_two state, processUbloxPkt_two state', rebaseAnswer_ite]
    refine ite_congr rfl (fun _ => rfl) (fun complete => ?_)
    rw [isolated_payloadSize ordered' (by omega)]
    rfl
  · have state' : c.isolated.parser.state = 3 := state
    rw [processUbloxPkt_three state, processUbloxPkt_three state', rebaseAnswer_ite]
    refine ite_congr rfl (fun _ => rfl) (fun _ => ?_)
    unfold ubloxPktEnd
    rw [rebaseAnswer_ite, isolated_byteAt ordered' (by omega), isolated_current, isolated_scan,
      isolated_head, isolated_mem (by omega), isolated_window (by omega)]
    exact ite_congr rfl (fun _ => rfl) (fun _ => isolated_rejects_at 0 _ _)

private theorem isolated_rtcm3Size (ordered : c.head ≤ c.scan) (inside : 3 ≤ c.numBytes) :
    c.isolated.rtcm3Size = c.rtcm3Size := by
  unfold rtcm3Size
  rw [getBitsAsUInt32_congr]
  intro k small
  exact isolated_byteAt ordered (by omega)

private theorem processRtcm3Pkt_isolated (ordered : c.head < c.scan) (holds : c.Holds .rtcm3) :
    c.isolated.processRtcm3Pkt = rebaseAnswer c.processRtcm3Pkt c.visible 0 := by
  have ordered' := Nat.le_of_lt ordered
  have count : c.numBytes = c.scan - c.head + 1 := rfl
  have count' : c.held = c.scan - c.head := rfl
  rcases holds with ⟨state, few⟩ | ⟨state, many, size⟩
  · obtain one | two : c.held = 1 ∨ c.held = 2 := by omega
    · have state' : c.isolated.parser.state = 1 := by rw [isolated_progress]; omega
      rw [processRtcm3Pkt_one state', processRtcm3Pkt_one (by omega)]
      rfl
    · have state' : c.isolated.parser.state = 2 := by rw [isolated_progress]; omega
      rw [processRtcm3Pkt_two state', processRtcm3Pkt_two (by omega), rebaseAnswer_ite,
        isolated_rtcm3Size ordered' (by omega)]
      exact ite_congr rfl (fun _ => isolated_rejects_at 3 _ _) (fun _ => rfl)
  · have state' : c.isolated.parser.state = 3 := state
    rw [processRtcm3Pkt_three state, processRtcm3Pkt_three state', rebaseAnswer_ite]
    refine ite_congr rfl (fun _ => rfl) (fun whole => ?_)
    have least : 6 ≤ c.parser.size := by rw [size]; unfold rtcm3Size; omega
    have crc : getBitsAsUInt32 (fun k => c.isolated.byteAt (c.parser.size - 3 + k)) 0 24 =
        getBitsAsUInt32 (fun k => c.byteAt (c.parser.size - 3 + k)) 0 24 := by
      apply getBitsAsUInt32_congr
      intro k small
      exact isolated_byteAt ordered' (by omega)
    have id : getBitsAsUInt32 c.isolated.byteAt 24 12 = getBitsAsUInt32 c.byteAt 24 12 := by
      apply getBitsAsUInt32_congr
      intro k small
      exact isolated_byteAt ordered' (by omega)
    unfold rtcm3PktEnd
    dsimp only
    rw [rebaseAnswer_ite, isolated_progress, isolated_head, isolated_window (by omega), crc, id]
    exact ite_congr rfl (fun _ => rfl) (fun _ => isolated_rejects_at 0 _ _)

private theorem isolated_sonyDataSize (ordered : c.head ≤ c.scan) (inside : 3 ≤ c.numBytes) :
    c.isolated.sonyDataSize = c.sonyDataSize := by
  unfold sonyDataSize
  rw [isolated_byteAt ordered (by omega), isolated_byteAt ordered (by omega)]

private theorem processSonyByte_isolated (ordered : c.head < c.scan) (holds : c.Holds .sony) :
    c.isolated.processSonyByte = rebaseAnswer c.processSonyByte c.visible 0 := by
  have ordered' := Nat.le_of_lt ordered
  have count : c.numBytes = c.scan - c.head + 1 := rfl
  have count' : c.held = c.scan - c.head := rfl
  rcases holds with ⟨state, few⟩ | ⟨state, many, size⟩
  · have state' : c.isolated.parser.state = 1 := state
    rw [processSonyByte_one state', processSonyByte_one state, rebaseAnswer_ite, rebaseAnswer_ite]
    refine ite_congr rfl (fun _ => rfl) (fun complete => ?_)
    rw [isolated_sonyDataSize ordered' (by omega), isolated_head, isolated_window (by omega),
      isolated_byteAt ordered' (by omega)]
    exact ite_congr rfl (fun _ => isolated_rejects _) (fun _ => rfl)
  · have state' : c.isolated.parser.state = 2 := state
    rw [processSonyByte_two state', processSonyByte_two state, rebaseAnswer_ite]
    refine ite_congr rfl (fun _ => rfl) (fun whole => ?_)
    unfold sonyPktEnd
    rw [rebaseAnswer_ite, isolated_sonyDataSize ordered' (by omega), isolated_head,
      isolated_window (by omega), isolated_current, isolated_byteAt ordered' (by omega)]
    exact ite_congr rfl (fun _ => rfl) (fun _ => isolated_rejects_at 0 _ _)

private theorem rebase_ite {condition : Prop} [Decidable condition] (first second : Instance)
    (mem : Nat → UInt8) (tail : Nat) :
    (if condition then first else second).rebase mem tail =
      if condition then first.rebase mem tail else second.rebase mem tail :=
  apply_ite (fun d : Instance => d.rebase mem tail) ..

private theorem spartnHeader_isolated (ordered : c.head ≤ c.scan) (low : 7 ≤ c.held)
    (state : c.parser.state = c.held) :
    c.isolated.spartnHeader = c.spartnHeader.rebase c.visible 0 := by
  have count : c.numBytes = c.held + 1 := rfl
  have length : c.isolated.spartnPayloadLen = c.spartnPayloadLen := by
    unfold spartnPayloadLen
    rw [isolated_byteAt ordered (by omega), isolated_byteAt ordered (by omega),
      isolated_byteAt ordered (by omega)]
  have three : c.isolated.byteAt 3 = c.byteAt 3 := isolated_byteAt ordered (by omega)
  have four : c.isolated.byteAt 4 = c.byteAt 4 := isolated_byteAt ordered (by omega)
  unfold spartnHeader
  simp only [rebase_ite, length, three, four, isolated_progress]
  refine ite_congr rfl (fun _ => ?_) (fun _ => ?_)
  · refine ite_congr rfl (fun _ => rfl) (fun _ => ite_congr rfl (fun last => ?_) (fun _ => rfl))
    rw [isolated_byteAt ordered (by omega)]
    rfl
  · refine ite_congr rfl (fun _ => rfl) (fun _ => ite_congr rfl (fun last => ?_) (fun _ => rfl))
    rw [isolated_byteAt ordered (by omega)]
    rfl

private theorem processSpartnByte_isolated (ordered : c.head < c.scan)
    (holds : c.Holds .spartn) :
    c.isolated.processSpartnByte = rebaseAnswer c.processSpartnByte c.visible 0 := by
  have ordered' := Nat.le_of_lt ordered
  have count : c.numBytes = c.held + 1 := rfl
  have count' : c.held = c.scan - c.head := rfl
  have bounds := c.spartnHeaderLen_bounds
  rcases holds with ⟨state, few⟩ | negative
  · have state' : c.isolated.parser.state = c.held := state
    obtain header | three | lengths :
        (c.held ≤ 6 ∧ c.held ≠ 3) ∨ c.held = 3 ∨ 7 ≤ c.held := by omega
    · rw [processSpartnByte_header (c := c.isolated) (by omega) (by omega) (by omega),
        processSpartnByte_header (by omega) (by omega) (by omega)]
      rfl
    · rw [processSpartnByte_three (c := c.isolated) (by omega),
        processSpartnByte_three (by omega), rebaseAnswer_ite, isolated_byteAt ordered' (by omega),
        isolated_byteAt ordered' (by omega), isolated_byteAt ordered' (by omega)]
      exact ite_congr rfl (fun _ => isolated_rejects _) (fun _ => rfl)
    · rw [processSpartnByte_lengths (c := c.isolated) (by omega) (by omega),
        processSpartnByte_lengths (by omega) (by omega),
        spartnHeader_isolated ordered' lengths state]
      rfl
  · have negative' : c.isolated.parser.state < 0 := negative
    rw [processSpartnByte_payload negative, processSpartnByte_payload negative', rebaseAnswer_ite]
    exact ite_congr rfl (fun _ => rfl) (fun _ => rfl)

/-- The frame size does not wrap, so the whole frame is there. -/
private theorem isb_whole (clean : c.payloadSize < 65528)
    (size : c.parser.size = (8 + c.payloadSize) % 2 ^ 16) : c.parser.size = 8 + c.payloadSize := by
  omega

private theorem isbPkt_isolated (ordered : c.head ≤ c.scan)
    (whole : 8 + c.payloadSize ≤ c.numBytes) : c.isolated.isbPkt = c.isbPkt := by
  have payload := isolated_payloadSize ordered (by omega)
  have flags : c.isolated.byteAt 2 = c.byteAt 2 := isolated_byteAt ordered (by omega)
  have data : c.isolated.isbDataSize = c.isbDataSize := by
    unfold isbDataSize
    rw [payload, flags]
  unfold isbPkt
  simp only [data, payload, flags, isolated_head, isolated_progress]
  rw [isolated_byteAt ordered (by omega), isolated_byteAt ordered (by omega),
    isolated_byteAt ordered (by omega), isolated_byteAt ordered (by omega),
    isolated_byteAt ordered (by omega), isolated_byteAt ordered (by omega),
    isolated_byteAt ordered (by omega)]

private theorem isbCksumPasses_isolated (ordered : c.head ≤ c.scan)
    (size : c.parser.size = 8 + c.payloadSize) (whole : 8 + c.payloadSize ≤ c.numBytes)
    (small : c.payloadSize < 65528) : c.isolated.isbCksumPasses = c.isbCksumPasses := by
  have count : c.numBytes = c.scan - c.head + 1 := rfl
  have bytes : (c.parser.size + 2 ^ 32 - 2) % 2 ^ 32 = 6 + c.payloadSize := by omega
  unfold isbCksumPasses
  rw [isbPkt_isolated ordered whole, isolated_progress, isolated_head, bytes,
    isolated_window (by omega)]

theorem isbDispatch_other {ptype : UInt8} (other : ptype ≠ pktTypeGetData)
    (dataSize getSize getSize' : Nat) :
    isbDispatch ptype dataSize getSize = isbDispatch ptype dataSize getSize' := by
  simp [isbDispatch, other]

private theorem isbDispatch_getData (dataSize getSize : Nat) :
    isbDispatch pktTypeGetData dataSize getSize =
      (if getSize ≤ maxDatasetSize then some .inertialSenseCmd else none, 0) := rfl

/-- A `GET_DATA` frame without a size field is refused, whatever follows it. -/
private theorem isbSwitch_isolated (ordered : c.head ≤ c.scan)
    (whole : 8 + c.payloadSize ≤ c.numBytes)
    (short : c.isbSwitch.1 = some .inertialSenseCmd →
      c.byteAt 2 &&& pktTypeMask = pktTypeGetData → 4 ≤ c.payloadSize) :
    c.isolated.isbSwitch = c.isbSwitch := by
  have flags : c.isolated.byteAt 2 = c.byteAt 2 := isolated_byteAt ordered (by omega)
  have data : c.isolated.isbDataSize = c.isbDataSize := by
    unfold isbDataSize
    rw [isolated_payloadSize ordered (by omega), flags]
  unfold isbSwitch at short ⊢
  rw [flags, data]
  by_cases two : 10 ≤ c.numBytes
  · rw [isolated_byteAt ordered (by omega), isolated_byteAt ordered (by omega)]
  by_cases get : c.byteAt 2 &&& pktTypeMask = pktTypeGetData
  · rw [get, isbDispatch_getData] at short
    rw [get, isbDispatch_getData, isbDispatch_getData]
    have refused : ¬word (c.byteAt 8) (c.byteAt 9) ≤ maxDatasetSize := by
      intro small
      have := short (if_pos small) rfl
      omega
    have past : c.isolated.byteAt 9 = 0xFF := by
      have count : c.numBytes = c.scan - c.head + 1 := rfl
      exact if_neg (by rw [isolated_head]; omega)
    have refused' : ¬word (c.isolated.byteAt 8) (c.isolated.byteAt 9) ≤ maxDatasetSize := by
      rw [past]
      simp [word, maxDatasetSize]
    rw [if_neg refused, if_neg refused']
  · exact isbDispatch_other get _ _ _

private theorem isbPktEnd_isolated (same : c.isolated.isbPkt = c.isbPkt)
    (passes : c.isolated.isbCksumPasses = c.isbCksumPasses)
    (switch : c.isbCksumPasses → c.isolated.isbSwitch = c.isbSwitch) :
    c.isolated.isbPktEnd = rebaseAnswer c.isbPktEnd c.visible 0 := by
  unfold isbPktEnd
  rw [rebaseAnswer_ite, passes]
  refine ite_congr rfl (fun passed => ?_) (fun _ => isolated_rejects_at 0 _ _)
  rw [switch passed, same]
  cases c.isbSwitch.1 with
  | some ptype => rfl
  | none => exact rebase_parseErrorResetState (c.accepted c.isbPkt c.isbSwitch.2) c.visible 0 _

theorem turn_busy {processor : Processor} (busy : c.processPkt = some processor) :
    c.turn = ((processor.process c).1.advance, (processor.process c).2) := by
  unfold turn
  rw [busy]
  rfl

theorem turn_start {processor : Processor} (idle : c.processPkt = none)
    (found : startOf c.current = some processor)
    (enabled : c.enabledMask &&& processor.enableBit ≠ 0) :
    c.turn = ((c.setParserStart processor).advance, .none) := by
  unfold turn
  rw [idle, found]
  exact if_pos enabled

private theorem isbPktEnd_ptype (passes : c.isbCksumPasses) {ptype : ProtocolType}
    (returned : c.isbSwitch.1 = some ptype) : c.isbPktEnd.2 = ptype := by
  unfold isbPktEnd
  rw [if_pos passes, returned]

private theorem processIsbPkt_isolated (ordered : c.head < c.scan) (holds : c.Holds .isb)
    (busy : c.processPkt = some .isb) (clean : c.Clean) :
    c.isolated.processIsbPkt = rebaseAnswer c.processIsbPkt c.visible 0 := by
  have ordered' := Nat.le_of_lt ordered
  have count : c.numBytes = c.scan - c.head + 1 := rfl
  have count' : c.held = c.scan - c.head := rfl
  rcases holds with ⟨state, one⟩ | ⟨state, low, high⟩ | ⟨state, many, size⟩
  · have state' : c.isolated.parser.state = 1 := state
    rw [processIsbPkt_one state, processIsbPkt_one state', rebaseAnswer_ite, isolated_current]
    exact ite_congr rfl (fun _ => rfl) (fun _ => isolated_rejects _)
  · have state' : c.isolated.parser.state = 2 := state
    rw [processIsbPkt_two state, processIsbPkt_two state', rebaseAnswer_ite, rebaseAnswer_ite]
    refine ite_congr rfl (fun _ => rfl) (fun complete => ?_)
    rw [isolated_payloadSize ordered' (by omega)]
    exact ite_congr rfl (fun _ => isolated_rejects_at 3 _ _) (fun _ => rfl)
  · have state' : c.isolated.parser.state = 3 := state
    obtain ⟨small, short⟩ := clean busy (by omega)
    have exact : c.parser.size = 8 + c.payloadSize := isb_whole small size
    have answer : c.turn.2 = c.processIsbPkt.2 := by rw [turn_busy busy]; rfl
    rw [processIsbPkt_three state] at answer
    rw [processIsbPkt_three state, processIsbPkt_three state', rebaseAnswer_ite]
    refine ite_congr rfl (fun _ => rfl) (fun complete => ?_)
    rw [if_neg complete] at answer
    have whole : 8 + c.payloadSize ≤ c.numBytes := by omega
    refine isbPktEnd_isolated (isbPkt_isolated ordered' whole)
      (isbCksumPasses_isolated ordered' exact whole small) (fun passes => ?_)
    refine isbSwitch_isolated ordered' whole (fun returned get => short ?_ get)
    rw [answer, isbPktEnd_ptype passes returned]

/-- A pass over a clean instance depends on the bytes up to `scan` only. -/
theorem turn_isolated (tracked : c.Tracked) (clean : c.Clean) :
    c.isolated.turn = rebaseAnswer c.turn c.visible 0 := by
  cases phase : c.processPkt with
  | some processor =>
    obtain ⟨ordered, holds⟩ := tracked processor phase
    have same : processor.process c.isolated = rebaseAnswer (processor.process c) c.visible 0 := by
      cases processor
      · exact processIsbPkt_isolated ordered holds phase clean
      · exact processNmeaPkt_isolated ordered holds
      · exact processUbloxPkt_isolated ordered holds
      · exact processRtcm3Pkt_isolated ordered holds
      · exact processSpartnByte_isolated ordered holds
      · exact processSonyByte_isolated ordered holds
    have phase' : c.isolated.processPkt = some processor := phase
    rw [turn_busy phase, turn_busy phase', same]
    rfl
  | none =>
    have phase' : c.isolated.processPkt = none := phase
    unfold turn
    rw [phase, phase', isolated_current]
    dsimp only
    cases startOf c.current with
    | some processor =>
      simp only [rebaseAnswer_ite]
      exact ite_congr rfl (fun _ => rfl) (fun _ => rfl)
    | none =>
      have report : c.isolated.reportParseError .streamUnparsable =
          rebaseAnswer (c.reportParseError .streamUnparsable) c.visible 0 :=
        rebase_reportParseError ..
      simp only [rebaseAnswer_ite, report]
      exact ite_congr rfl (fun _ => rfl) (fun _ => rfl)

/-! ### What is reported lies before `scan` -/

/-- The data of a packet ends at the current byte. -/
private theorem packs_inside {processor : Processor} {pkt : Packet}
    (packs : Packs processor c pkt) (ordered : c.head < c.scan)
    (busy : c.processPkt = some processor) (holds : c.Holds processor) (clean : c.Clean)
    {ptr : Nat} (there : pkt.dataPtr = some ptr) : ptr + pkt.dataSize ≤ c.scan + 1 := by
  have count : c.numBytes = c.scan - c.head + 1 := rfl
  have count' : c.held = c.scan - c.head := rfl
  rcases packs with ⟨-, at_head, inside⟩ | ⟨rfl, rfl, notOne, notTwo, complete⟩
  · cases at_head.symm.trans there
    omega
  · rcases holds with ⟨state, -⟩ | ⟨state, -⟩ | ⟨-, many, size⟩
    · exact absurd state notOne
    · exact absurd state notTwo
    obtain ⟨small, -⟩ := clean busy (by omega)
    have exact : c.parser.size = 8 + c.payloadSize := isb_whole small size
    show ptr + c.isbDataSize ≤ c.scan + 1
    unfold isbPkt isbDataSize at there
    unfold isbDataSize
    by_cases offset : c.byteAt 2 &&& isbFlagsPayloadWOffset ≠ 0
    · simp only [if_pos offset] at there ⊢
      split at there
      · cases there
      · cases there
        omega
    · simp only [if_neg offset] at there ⊢
      split at there
      · cases there
      · cases there
        omega

private theorem outputs_rejected (d : Instance) (error : ParseErrorType) (scan scan' : Nat)
    (mem : Nat → UInt8) (tail : Nat) :
    outputs ({ (d.parseErrorResetState error).1.rebase mem tail with scan := scan' },
        (d.parseErrorResetState error).2) =
      outputs ({ (d.parseErrorResetState error).1 with scan }, (d.parseErrorResetState error).2) := by
  unfold parseErrorResetState
  rw [reportParseError_ptype]
  split <;> rfl

/-- A pass over another memory reports the same, if the memories agree up to `scan`. -/
theorem turn_outputs (tracked : c.Tracked) (clean : c.Clean) {mem : Nat → UInt8} (tail : Nat)
    (same : ∀ address ≤ c.scan, mem address = c.mem address) :
    outputs (rebaseAnswer c.turn mem tail) = outputs c.turn := by
  generalize after : c.turn = answer
  have pass : Pass c answer := after ▸ c.turn_pass
  cases pass with
  | skips | starts => rfl
  | stops =>
    unfold outputs rebaseAnswer
    rw [reportParseError_ptype]
    split <;> rfl
  | processes processor busy given outcome =>
    obtain ⟨ordered, holds⟩ := tracked processor busy
    cases outcome with
    | waits => rfl
    | rejects | refuses => exact outputs_rejected ..
    | accepts pkt ackNeeded ptype packet packs =>
      have data : ∀ ptr, pkt.dataPtr = some ptr →
          window mem ptr pkt.dataSize = window c.mem ptr pkt.dataSize := by
        intro ptr there
        have inside := packs_inside packs ordered busy holds clean there
        apply window_congr
        intro k small
        exact same _ (by omega)
      unfold outputs rebaseAnswer report packetData
      simp only [accepted, rebase, validPacketReset, setState]
      cases there : pkt.dataPtr with
      | none => rfl
      | some ptr => simp only [data ptr there]

/-! ### The loop that sees no later byte -/

/-- The receive loop when each byte is parsed as if it were the last that has arrived. -/
def localStep (c : Instance) : Option (Instance × List Report) :=
  if c.scan < c.tail then
    some (c.isolated.turn.1.rebase c.mem c.tail, outputs c.isolated.turn)
  else none

/-- Where the loop is clean, it takes the same steps. -/
theorem localStep_eq_step (tracked : c.Tracked) (clean : c.Clean) : c.localStep = c.step := by
  obtain ⟨mem, -, tail, -, -⟩ := c.turn_frame
  have back : (rebaseAnswer c.turn c.visible 0).1.rebase c.mem c.tail = c.turn.1 := by
    simp only [rebaseAnswer, rebase, ← mem, ← tail]
  unfold localStep step
  rw [turn_isolated tracked clean, back, turn_outputs tracked clean]
  intro address before
  exact if_pos before

/-- The loop that sees no later byte does not mind bytes that arrive. -/
theorem localStep_append {after : Instance} {reports : List Report} (bytes : List UInt8)
    (taken : c.localStep = some (after, reports)) :
    (c.append bytes).localStep = some (after.append bytes, reports) := by
  unfold localStep at taken
  split at taken
  case isFalse => cases taken
  case isTrue inside =>
    obtain ⟨rfl, rfl⟩ : _ ∧ _ := by simpa using taken
    have hidden : (c.append bytes).visible = c.visible := by
      funext address
      refine ite_congr rfl (fun before => ?_) (fun _ => rfl)
      change address ≤ c.scan at before
      exact store_outside _ (.inl (by omega))
    have isolated : (c.append bytes).isolated = c.isolated :=
      congrArg (fun mem => c.rebase mem 0) hidden
    have inside' : (c.append bytes).scan < (c.append bytes).tail := by
      show c.scan < c.tail + bytes.length
      omega
    unfold localStep
    rw [if_pos inside', isolated]
    rfl

theorem localStep_progress {after : Instance} {reports : List Report}
    (ordered : c.head ≤ c.scan) (taken : c.localStep = some (after, reports)) :
    after.head ≤ after.scan ∧ after.budget < c.budget := by
  unfold localStep at taken
  split at taken
  case isFalse => cases taken
  case isTrue inside =>
    obtain ⟨rfl, rfl⟩ : _ ∧ _ := by simpa using taken
    have moves : Moves c (c.isolated.turn.1.rebase c.mem c.tail) := by
      cases turn_moves (c := c.isolated) ordered with
      | skips idle idle' head scan => exact .skips idle idle' head scan
      | starts idle busy' head scan => exact .starts idle busy' head scan
      | stops idle idle' head scan first latched => exact .stops idle idle' head scan first latched
      | waits busy busy' head scan => exact .waits busy busy' head scan
      | rejects busy idle' head scan => exact .rejects busy idle' head scan
      | accepts busy idle' head scan => exact .accepts busy idle' head scan
      | refuses busy idle' head scan => exact .refuses busy idle' head scan
    exact moves.progress rfl ordered inside

/-- The loop that sees no later byte comes to rest, too. -/
theorem exists_local_settles (ordered : c.head ≤ c.scan) :
    ∃ reports final, Settles localStep c reports final := by
  induction size : c.budget using Nat.strongRecOn generalizing c with
  | ind size ih =>
    cases taken : c.localStep with
    | none => exact ⟨[], c, .rest taken⟩
    | some next =>
      obtain ⟨ordered', less⟩ := localStep_progress ordered taken
      obtain ⟨reports, final, rest⟩ := ih _ (by omega) ordered' rfl
      exact ⟨_, final, rest.prepend (.single taken)⟩

end Instance

end InertialSense.Comm
