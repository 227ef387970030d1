import InertialSense.Comm.Progress

/-! What the parser state says about the bytes that a processor holds. -/

namespace InertialSense.Comm

open Foundation

namespace Instance

/-- The bytes from `head` up to, and without, the current one. -/
def held (c : Instance) : Nat := c.scan - c.head

/-- The length of a SPARTN header: the time stamp and the encryption data take two bytes more. -/
def spartnHeaderLen (c : Instance) : Nat :=
  8 + (if c.byteAt 4 &&& 0x08 ≠ 0 then 2 else 0) + if c.byteAt 3 &&& 0x40 ≠ 0 then 2 else 0

/-- The parser state of a processor, as the bytes it holds determine it. -/
def Holds (c : Instance) : Processor → Prop
  | .isb | .ublox =>
    c.parser.state = 1 ∧ c.held = 1 ∨ c.parser.state = 2 ∧ 2 ≤ c.held ∧ c.held < 6 ∨
      c.parser.state = 3 ∧ 6 ≤ c.held ∧ c.parser.size = (8 + c.payloadSize) % 2 ^ 16
  | .nmea =>
    c.parser.state = 1 ∧ (2 ≤ c.held → c.byteAt (c.held - 1) ≠ 0x0D) ∨
      c.parser.state = 2 ∧ 2 ≤ c.held ∧ c.byteAt (c.held - 1) = 0x0D
  | .rtcm3 =>
    c.parser.state = c.held ∧ c.held < 3 ∨
      c.parser.state = 3 ∧ 3 ≤ c.held ∧ c.parser.size = c.rtcm3Size
  | .spartn => c.parser.state = c.held ∧ c.held < c.spartnHeaderLen ∨ c.parser.state < 0
  | .sony =>
    c.parser.state = 1 ∧ c.held < 5 ∨
      c.parser.state = 2 ∧ 5 ≤ c.held ∧ c.parser.size = c.sonyDataSize + 6

/-- A processor at work holds at least its start byte, and its state fits what it holds. -/
def Tracked (c : Instance) : Prop :=
  ∀ processor, c.processPkt = some processor → c.head < c.scan ∧ c.Holds processor

/-- The instance that looks at the next byte. -/
def advance (c : Instance) : Instance := { c with scan := c.scan + 1 }

@[simp] theorem parseErrorResetState_processPkt (c : Instance) (error : ParseErrorType) :
    (c.parseErrorResetState error).1.processPkt = none := by
  simp [parseErrorResetState, resetParser]

/-- A processor at work holds at least its start byte, and the property. -/
def AtWork (property : Instance → Processor → Prop) (c : Instance) : Prop :=
  ∀ processor, c.processPkt = some processor → c.head < c.scan ∧ property c processor

theorem AtWork.of_idle {property : Instance → Processor → Prop} {c : Instance}
    (idle : c.processPkt = none) : AtWork property c := by
  intro processor busy
  rw [idle] at busy
  cases busy

/-- A pass keeps what a packet start has and a processor that goes on keeps. -/
theorem AtWork.turn {property : Instance → Processor → Prop} {c : Instance}
    (working : AtWork property c)
    (starts : ∀ processor, startOf c.current = some processor →
      property (c.setParserStart processor).advance processor)
    (waits : ∀ processor, c.processPkt = some processor → c.head < c.scan → property c processor →
      (processor.process c).1.processPkt.isSome → property (processor.process c).1.advance processor) :
    AtWork property c.turn.1 := by
  generalize after : c.turn = answer
  have pass : Pass c answer := after ▸ c.turn_pass
  cases pass with
  | skips idle => exact .of_idle idle
  | starts idle processor found =>
    intro started same
    obtain rfl : processor = started := by simpa [setParserStart] using same
    exact ⟨Nat.lt_succ_self _, starts processor found⟩
  | stops idle => exact .of_idle (by simpa using idle)
  | processes processor busy given outcome =>
    obtain ⟨ordered, holds⟩ := working processor busy
    cases outcome with
    | waits =>
      intro running same
      obtain rfl : processor = running := by simpa [setState, setSize, busy] using same
      have next := waits processor busy ordered holds (by rw [given]; simp [setState, setSize, busy])
      rw [given] at next
      exact ⟨Nat.lt_succ_of_lt ordered, next⟩
    | rejects | refuses => exact .of_idle (by simp)
    | accepts => exact .of_idle rfl

theorem Tracked.of_idle {c : Instance} (idle : c.processPkt = none) : c.Tracked := AtWork.of_idle idle

variable {c : Instance}

private theorem absurd_rejects {error : ParseErrorType} {claim : Prop}
    (busy : (c.parseErrorResetState error).1.processPkt.isSome) : claim := by
  simp at busy

theorem isbPktEnd_idle : c.isbPktEnd.1.processPkt = none := by
  unfold isbPktEnd
  split
  · dsimp only
    split
    · rfl
    · simp
  · simp

theorem nmeaPktEnd_idle : c.nmeaPktEnd.1.processPkt = none := by
  unfold nmeaPktEnd
  split
  · simp
  split
  · rfl
  · simp

theorem ubloxPktEnd_idle : c.ubloxPktEnd.1.processPkt = none := by
  unfold ubloxPktEnd
  split
  · rfl
  · simp

theorem rtcm3PktEnd_idle : c.rtcm3PktEnd.1.processPkt = none := by
  unfold rtcm3PktEnd
  dsimp only
  split
  · rfl
  · simp

theorem sonyPktEnd_idle : c.sonyPktEnd.1.processPkt = none := by
  unfold sonyPktEnd
  split
  · rfl
  · simp

private theorem processIsbPkt_holds (ordered : c.head < c.scan) (holds : c.Holds .isb)
    (busy : c.processIsbPkt.1.processPkt.isSome) :
    c.processIsbPkt.1.advance.Holds .isb := by
  have count : c.held = c.scan - c.head := rfl
  revert busy
  rcases holds with ⟨state, one⟩ | ⟨state, low, high⟩ | ⟨state, many, size⟩
  · rw [processIsbPkt_one state]
    split
    · refine fun _ => .inr (.inl ⟨rfl, ?_⟩)
      show 2 ≤ c.scan + 1 - c.head ∧ c.scan + 1 - c.head < 6
      omega
    · exact absurd_rejects
  · rw [processIsbPkt_two state]
    split
    case isTrue short =>
      refine fun _ => .inr (.inl ⟨state, ?_⟩)
      show 2 ≤ c.scan + 1 - c.head ∧ c.scan + 1 - c.head < 6
      omega
    split
    · exact absurd_rejects
    · refine fun _ => .inr (.inr ⟨rfl, ?_, rfl⟩)
      show 6 ≤ c.scan + 1 - c.head
      omega
  · rw [processIsbPkt_three state]
    split
    · refine fun _ => .inr (.inr ⟨state, ?_, size⟩)
      show 6 ≤ c.scan + 1 - c.head
      omega
    · simp [isbPktEnd_idle]

private theorem processUbloxPkt_holds (ordered : c.head < c.scan) (holds : c.Holds .ublox)
    (busy : c.processUbloxPkt.1.processPkt.isSome) :
    c.processUbloxPkt.1.advance.Holds .ublox := by
  have count : c.held = c.scan - c.head := rfl
  revert busy
  rcases holds with ⟨state, one⟩ | ⟨state, low, high⟩ | ⟨state, many, size⟩
  · rw [processUbloxPkt_one state]
    split
    · refine fun _ => .inr (.inl ⟨rfl, ?_⟩)
      show 2 ≤ c.scan + 1 - c.head ∧ c.scan + 1 - c.head < 6
      omega
    · exact absurd_rejects
  · rw [processUbloxPkt_two state]
    split
    case isTrue short =>
      refine fun _ => .inr (.inl ⟨state, ?_⟩)
      show 2 ≤ c.scan + 1 - c.head ∧ c.scan + 1 - c.head < 6
      omega
    · refine fun _ => .inr (.inr ⟨rfl, ?_, rfl⟩)
      show 6 ≤ c.scan + 1 - c.head
      omega
  · rw [processUbloxPkt_three state]
    split
    · refine fun _ => .inr (.inr ⟨state, ?_, size⟩)
      show 6 ≤ c.scan + 1 - c.head
      omega
    · simp [ubloxPktEnd_idle]

private theorem processNmeaPkt_holds (ordered : c.head < c.scan) (holds : c.Holds .nmea)
    (busy : c.processNmeaPkt.1.processPkt.isSome) : c.processNmeaPkt.1.advance.Holds .nmea := by
  have here : c.mem (c.head + (c.scan + 1 - c.head - 1)) = c.current := by
    rw [show c.head + (c.scan + 1 - c.head - 1) = c.scan by omega]
    rfl
  revert busy
  rcases holds with ⟨state, -⟩ | ⟨state, -, -⟩
  · rw [processNmeaPkt_one state]
    split
    case isTrue ends =>
      refine fun _ => .inr ⟨rfl, ?_, here.trans ends⟩
      show 2 ≤ c.scan + 1 - c.head
      omega
    case isFalse other =>
      split
      · exact absurd_rejects
      · exact fun _ => .inl ⟨state, fun _ last => other (here.symm.trans last)⟩
  · rw [processNmeaPkt_two state]
    simp [nmeaPktEnd_idle]

private theorem processRtcm3Pkt_holds (ordered : c.head < c.scan) (holds : c.Holds .rtcm3)
    (busy : c.processRtcm3Pkt.1.processPkt.isSome) :
    c.processRtcm3Pkt.1.advance.Holds .rtcm3 := by
  have count : c.held = c.scan - c.head := rfl
  revert busy
  rcases holds with ⟨state, few⟩ | ⟨state, many, size⟩
  · obtain one | two : c.held = 1 ∨ c.held = 2 := by omega
    · rw [processRtcm3Pkt_one (by omega)]
      refine fun _ => .inl ⟨?_, ?_⟩
      · show (2 : Int) = (c.scan + 1 - c.head : Nat)
        omega
      · show c.scan + 1 - c.head < 3
        omega
    · rw [processRtcm3Pkt_two (by omega)]
      split
      · exact absurd_rejects
      · refine fun _ => .inr ⟨rfl, ?_, rfl⟩
        show 3 ≤ c.scan + 1 - c.head
        omega
  · rw [processRtcm3Pkt_three state]
    split
    · refine fun _ => .inr ⟨state, ?_, size⟩
      show 3 ≤ c.scan + 1 - c.head
      omega
    · simp [rtcm3PktEnd_idle]

private theorem processSonyByte_holds (ordered : c.head < c.scan) (holds : c.Holds .sony)
    (busy : c.processSonyByte.1.processPkt.isSome) :
    c.processSonyByte.1.advance.Holds .sony := by
  have count : c.held = c.scan - c.head := rfl
  revert busy
  rcases holds with ⟨state, few⟩ | ⟨state, many, size⟩
  · rw [processSonyByte_one state]
    split
    case isTrue short =>
      refine fun _ => .inl ⟨state, ?_⟩
      show c.scan + 1 - c.head < 5
      omega
    split
    · exact absurd_rejects
    · refine fun _ => .inr ⟨rfl, ?_, rfl⟩
      show 5 ≤ c.scan + 1 - c.head
      omega
  · rw [processSonyByte_two state]
    split
    · refine fun _ => .inr ⟨state, ?_, size⟩
      show 5 ≤ c.scan + 1 - c.head
      omega
    · simp [sonyPktEnd_idle]

theorem spartnHeaderLen_bounds : 8 ≤ c.spartnHeaderLen ∧ c.spartnHeaderLen ≤ 12 := by
  unfold spartnHeaderLen
  split <;> split <;> omega

private theorem spartnHeader_state (low : 7 ≤ c.parser.state)
    (inside : c.parser.state < c.spartnHeaderLen) :
    (∃ missing : Nat, c.spartnHeader = c.setState (-missing) ∧ 0 < missing) ∨
      c.spartnHeader = c.nextState ∧ c.parser.state + 1 < c.spartnHeaderLen := by
  have positive : 0 < c.spartnPayloadLen := by unfold spartnPayloadLen; omega
  unfold spartnHeaderLen at *
  unfold spartnHeader
  dsimp only
  split
  · split
    · exact .inl ⟨_, rfl, positive⟩
    split
    · exact .inl ⟨_, rfl, by omega⟩
    · exact .inr ⟨rfl, by grind⟩
  · split
    · exact .inl ⟨_, rfl, positive⟩
    split
    · exact .inl ⟨_, rfl, by omega⟩
    · exact .inr ⟨rfl, by grind⟩

private theorem processSpartnByte_holds (ordered : c.head < c.scan) (holds : c.Holds .spartn)
    (busy : c.processSpartnByte.1.processPkt.isSome) :
    c.processSpartnByte.1.advance.Holds .spartn := by
  have count : c.held = c.scan - c.head := rfl
  have bounds := c.spartnHeaderLen_bounds
  have grows (few : c.held + 1 < c.spartnHeaderLen) (state : c.parser.state = c.held) :
      c.nextState.advance.Holds .spartn := by
    refine .inl ⟨?_, ?_⟩
    · show c.parser.state + 1 = (c.scan + 1 - c.head : Nat)
      omega
    · show c.scan + 1 - c.head < c.spartnHeaderLen
      omega
  revert busy
  rcases holds with ⟨state, few⟩ | negative
  · obtain header | three | lengths :
        (c.held ≤ 6 ∧ c.held ≠ 3) ∨ c.held = 3 ∨ 7 ≤ c.held := by omega
    · rw [processSpartnByte_header (by omega) (by omega) (by omega)]
      exact fun _ => grows (by omega) state
    · rw [processSpartnByte_three (by omega)]
      split
      · exact absurd_rejects
      · exact fun _ => grows (by omega) state
    · rw [processSpartnByte_lengths (by omega) (by omega)]
      intro _
      obtain ⟨missing, header, some⟩ | ⟨header, inside⟩ :=
        spartnHeader_state (c := c) (by omega) (by omega)
      · rw [header]
        refine .inr ?_
        show -(missing : Int) < 0
        omega
      · rw [header]
        exact grows (by omega) state
  · rw [processSpartnByte_payload negative]
    split
    · simp [validPacketFound, validPacketReset]
    · refine fun _ => .inr ?_
      show c.parser.state + 1 < 0
      omega

private theorem process_holds {processor : Processor} (ordered : c.head < c.scan)
    (holds : c.Holds processor) (busy : (processor.process c).1.processPkt.isSome) :
    (processor.process c).1.advance.Holds processor := by
  cases processor
  · exact processIsbPkt_holds ordered holds busy
  · exact processNmeaPkt_holds ordered holds busy
  · exact processUbloxPkt_holds ordered holds busy
  · exact processRtcm3Pkt_holds ordered holds busy
  · exact processSpartnByte_holds ordered holds busy
  · exact processSonyByte_holds ordered holds busy

private theorem setParserStart_holds (processor : Processor) :
    (c.setParserStart processor).advance.Holds processor := by
  have count : (c.setParserStart processor).advance.held = 1 := by
    show c.scan + 1 - c.scan = 1
    omega
  cases processor
  · exact .inl ⟨rfl, count⟩
  · exact .inl ⟨rfl, fun two => by omega⟩
  · exact .inl ⟨rfl, count⟩
  · exact .inl ⟨by rw [count]; rfl, by omega⟩
  · have bounds := spartnHeaderLen_bounds (c := (c.setParserStart .spartn).advance)
    exact .inl ⟨by rw [count]; rfl, by omega⟩
  · exact .inl ⟨rfl, by omega⟩

/-- Every pass keeps the parser state in step with the bytes. -/
theorem turn_tracked (tracked : c.Tracked) : c.turn.1.Tracked := by
  have working : AtWork Holds c := tracked
  refine working.turn (fun processor _ => setParserStart_holds processor) ?_
  intro processor _ ordered holds busy
  exact process_holds ordered holds busy

theorem Holds.congr {d : Instance} {processor : Processor} (same : d.parser.state = c.parser.state)
    (same' : d.parser.size = c.parser.size) (held : d.held = c.held)
    (bytes : ∀ k < c.held, d.byteAt k = c.byteAt k)
    (holds : c.Holds processor) : d.Holds processor := by
  have payload (many : 6 ≤ c.held) : d.payloadSize = c.payloadSize := by
    unfold payloadSize
    rw [bytes 4 (by omega), bytes 5 (by omega)]
  cases processor with
  | isb | ublox =>
    rcases holds with ⟨state, one⟩ | ⟨state, low, high⟩ | ⟨state, many, size⟩
    · exact .inl ⟨by rw [same, state], by omega⟩
    · exact .inr (.inl ⟨by rw [same, state], by omega⟩)
    · exact .inr (.inr ⟨by rw [same, state], by omega, by rw [same', payload many, size]⟩)
  | nmea =>
    rcases holds with ⟨state, inner⟩ | ⟨state, long, ends⟩
    · refine .inl ⟨by rw [same, state], fun two => ?_⟩
      rw [held, bytes _ (by omega)]
      exact inner (by omega)
    · exact .inr ⟨by rw [same, state], by omega, by rw [held, bytes _ (by omega), ends]⟩
  | rtcm3 =>
    rcases holds with ⟨state, few⟩ | ⟨state, many, size⟩
    · exact .inl ⟨by rw [same, state, held], by omega⟩
    · refine .inr ⟨by rw [same, state], by omega, ?_⟩
      have bits : getBitsAsUInt32 d.byteAt 14 10 = getBitsAsUInt32 c.byteAt 14 10 := by
        apply getBitsAsUInt32_congr
        intro k small
        exact bytes k (by omega)
      rw [same', size]
      unfold rtcm3Size
      rw [bits]
  | spartn =>
    rcases holds with ⟨state, few⟩ | negative
    · refine .inl ⟨by rw [same, state, held], ?_⟩
      have bounds := d.spartnHeaderLen_bounds
      by_cases long : 5 ≤ c.held
      · unfold spartnHeaderLen at few ⊢
        rw [held, bytes 3 (by omega), bytes 4 (by omega)]
        exact few
      · omega
    · exact .inr (by rw [same]; exact negative)
  | sony =>
    rcases holds with ⟨state, few⟩ | ⟨state, many, size⟩
    · exact .inl ⟨by rw [same, state], by omega⟩
    · refine .inr ⟨by rw [same, state], by omega, ?_⟩
      unfold sonyDataSize at size ⊢
      rw [same', size, bytes 1 (by omega), bytes 2 (by omega)]

end Instance

end InertialSense.Comm
