import InertialSense.Comm.Pointers

/-! How many bytes a processor at work can hold back: the maximum message lengths that
`ISComm.c` declares, and the passes of the loop that go beyond them. -/

namespace InertialSense.Comm

open Foundation

/-- What a caller can do with an instance. The bytes that it receives it writes behind `tail`
itself. -/
inductive Operation where
  | free
  | write (bytes : List UInt8)
  | parseByte (byte : UInt8) (timeMs : UInt32)
  | parse (timeMs : UInt32)

namespace Instance

def operate (c : Instance) : Operation → Instance × ProtocolType
  | .free => (c.isCommFree.1, .none)
  | .write bytes => (c.append bytes, .none)
  | .parseByte byte timeMs => c.isCommParseByteTimeout byte timeMs
  | .parse timeMs => c.isCommParseTimeout timeMs

/-- The predicate holds in every pass that `is_comm_parse_timeout` makes. -/
def ParsePasses (predicate : Instance → Prop) (c : Instance) (timeMs : UInt32) : Prop :=
  (c.checkTimeout timeMs).SearchAll predicate (c.checkTimeout timeMs).budget

/-- The predicate holds in every pass that an operation makes. -/
def Passes (predicate : Instance → Prop) (c : Instance) : Operation → Prop
  | .free | .write _ => True
  | .parseByte byte timeMs => (c.isCommFree.1.append [byte]).ParsePasses predicate timeMs
  | .parse timeMs => c.ParsePasses predicate timeMs

instance (predicate : Instance → Prop) [DecidablePred predicate] (c : Instance)
    (operation : Operation) : Decidable (Passes predicate c operation) :=
  match operation with
  | .free | .write _ => isTrue trivial
  | .parseByte _ _ | .parse _ => inferInstanceAs (Decidable (SearchAll _ _ _))

section Passes

variable {invariant guard : Instance → Prop}
  (preserved : ∀ c : Instance, invariant c → c.scan < c.tail → guard c → invariant c.turn.1)

include preserved

/-- What each guarded pass keeps holds in every pass and at the end of the search. -/
theorem search_invariant {fuel : Nat} {c : Instance} (initial : invariant c)
    (guarded : SearchAll guard fuel c) :
    SearchAll invariant fuel c ∧ invariant (search fuel c).1 := by
  induction fuel generalizing c with
  | zero => exact ⟨trivial, initial⟩
  | succ fuel ih =>
    unfold search
    split
    case isFalse outside => exact ⟨fun inside => absurd inside outside, initial⟩
    case isTrue inside =>
      obtain ⟨now, later⟩ := guarded inside
      have next := preserved c initial inside now
      split
      case isFalse found =>
        exact ⟨fun _ => ⟨initial, fun silent => absurd silent found⟩, next⟩
      case isTrue silent =>
        obtain ⟨passes, final⟩ := ih next (later silent)
        exact ⟨fun _ => ⟨initial, fun _ => passes⟩, final⟩

variable
  (timesOut : ∀ (c : Instance) (timeMs : UInt32), invariant c → invariant (c.checkTimeout timeMs))
  (records : ∀ (c : Instance) (timeMs : UInt32), invariant c → invariant (c.recordTime timeMs))

include timesOut records

private theorem parse_invariant {c : Instance} {timeMs : UInt32} (initial : invariant c)
    (guarded : c.ParsePasses guard timeMs) :
    c.ParsePasses invariant timeMs ∧ invariant (c.isCommParseTimeout timeMs).1 := by
  obtain ⟨passes, final⟩ := search_invariant preserved (timesOut c timeMs initial) guarded
  refine ⟨passes, ?_⟩
  unfold isCommParseTimeout
  dsimp only
  split
  · exact records _ timeMs final
  · exact final

variable (frees : ∀ c : Instance, invariant c → invariant c.isCommFree.1)
  (writes : ∀ (c : Instance) (bytes : List UInt8), invariant c → invariant (c.append bytes))

include frees writes

/-- What each part of an operation keeps, the operation keeps. -/
theorem operate_invariant {c : Instance} {operation : Operation} (initial : invariant c)
    (guarded : Passes guard c operation) :
    Passes invariant c operation ∧ invariant (c.operate operation).1 := by
  cases operation with
  | free => exact ⟨trivial, frees c initial⟩
  | write bytes => exact ⟨trivial, writes c bytes initial⟩
  | parseByte byte timeMs =>
    exact parse_invariant preserved timesOut records (writes _ [byte] (frees c initial)) guarded
  | parse timeMs => exact parse_invariant preserved timesOut records initial guarded

/-- The same for whole runs. -/
theorem operations_invariant {c : Instance} {operations : List Operation} (initial : invariant c)
    (guarded : Along operate (Passes guard) c operations) :
    Along operate (Passes invariant) c operations ∧ invariant (run operate c operations).1 := by
  induction operations generalizing c with
  | nil => exact ⟨trivial, initial⟩
  | cons operation rest ih =>
    obtain ⟨now, later⟩ := guarded
    obtain ⟨passes, next⟩ := operate_invariant preserved timesOut records frees writes initial now
    obtain ⟨others, final⟩ := ih next later
    exact ⟨⟨passes, others⟩, final⟩

end Passes

end Instance

/-! ### The declared lengths -/

/-- `MAX_MSG_LENGTH_ISB`, `MAX_MSG_LENGTH_NMEA`, `MAX_MSG_LENGTH_RTCM`, `MAX_MSG_LENGTH_UBX` and
`MAX_MSG_LENGTH_SONY`, which does not count the six bytes around the data. No length is
declared for SPARTN. -/
def Processor.maxMsgLength : Processor → Option Nat
  | .isb => some pktBufSize
  | .nmea => some 200
  | .ublox => some 1024
  | .rtcm3 => some 1023
  | .spartn => none
  | .sony => some (4090 + 6)

namespace Instance

/-- A processor at work holds no more bytes than its longest message has. -/
def Bounded (c : Instance) : Prop :=
  ∀ limit, c.processPkt.bind Processor.maxMsgLength = some limit → c.held ≤ limit

/-- The pass at `scan` lets a message grow beyond the length declared for it: it completes a
UBX header that announces more than 1025 bytes, or it looks at one byte more of an NMEA
sentence that has 200 bytes and no carriage return. -/
def Overlong (c : Instance) : Prop :=
  (c.processPkt = some .ublox ∧ c.parser.state = 2 ∧ 5 ≤ c.held ∧
      1025 < (8 + c.payloadSize) % 2 ^ 16) ∨
    (c.processPkt = some .nmea ∧ c.parser.state = 1 ∧ 200 ≤ c.held)

instance : DecidablePred Overlong := fun _ =>
  inferInstanceAs (Decidable ((_ ∧ _ ∧ _ ∧ _) ∨ (_ ∧ _ ∧ _)))

/-- The size of a message is known in this state and within the limit, and it is not reached;
the header of `header` bytes itself may be longer than the size. -/
def Awaits (c : Instance) (state : Int) (header limit : Nat) : Prop :=
  c.parser.state = state ∧ c.held < max c.parser.size (header + 1) ∧ c.parser.size ≤ limit

/-- How far each processor can be. -/
def Limited (c : Instance) : Processor → Prop
  | .isb =>
    c.parser.state = 1 ∧ c.held = 1 ∨ c.parser.state = 2 ∧ c.held < 6 ∨ c.Awaits 3 6 pktBufSize
  | .ublox => c.parser.state = 1 ∧ c.held = 1 ∨ c.parser.state = 2 ∧ c.held < 6 ∨ c.Awaits 3 6 1025
  | .nmea => (c.parser.state = 1 ∨ c.parser.state = 2) ∧ c.held ≤ 200
  | .rtcm3 => c.parser.state = c.held ∧ c.held < 3 ∨ c.Awaits 3 3 1023
  | .spartn => True
  | .sony => c.parser.state = 1 ∧ c.held < 5 ∨ c.Awaits 2 5 (4090 + 6)

/-- The processor at work holds its start byte and is within its limits. -/
def Paced (c : Instance) : Prop :=
  ∀ processor, c.processPkt = some processor → c.head < c.scan ∧ c.Limited processor

variable {c : Instance}

theorem Paced.of_idle (idle : c.processPkt = none) : c.Paced := AtWork.of_idle idle

/-- The limits are about the parser and the number of bytes only. -/
theorem Paced.congr {d : Instance} (busy : d.processPkt = c.processPkt)
    (state : d.parser.state = c.parser.state) (size : d.parser.size = c.parser.size)
    (some : c.head < c.scan → d.head < d.scan) (held : d.held = c.held)
    (paced : c.Paced) : d.Paced := by
  intro processor running
  rw [busy] at running
  obtain ⟨ordered, limited⟩ := paced processor running
  refine ⟨some ordered, ?_⟩
  cases processor with
  | spartn => trivial
  | isb | nmea | ublox | rtcm3 | sony =>
    simpa only [Limited, Awaits, state, size, held] using limited

theorem Paced.bounded (paced : c.Paced) : c.Bounded := by
  intro limit declared
  cases busy : c.processPkt with
  | none => simp [busy] at declared
  | some processor =>
    obtain ⟨-, limited⟩ := paced processor busy
    cases processor <;>
      simp [busy, Processor.maxMsgLength, Limited, Awaits, pktBufSize] at declared limited <;> omega

/-! ### One pass -/

private theorem Awaits.of_header {state : Int} {header limit : Nat} (reached : c.parser.state = state)
    (few : c.held < header + 1) (within : c.parser.size ≤ limit) : c.Awaits state header limit :=
  ⟨reached, Nat.lt_of_lt_of_le few (Nat.le_max_right ..), within⟩

private theorem Awaits.of_missing {state : Int} {header limit : Nat} (reached : c.parser.state = state)
    (missing : c.held < c.parser.size) (within : c.parser.size ≤ limit) : c.Awaits state header limit :=
  ⟨reached, Nat.lt_of_lt_of_le missing (Nat.le_max_left ..), within⟩

private theorem absurd_stopped {error : ParseErrorType} {claim : Prop}
    (busy : (c.parseErrorResetState error).1.processPkt.isSome) : claim := by
  simp at busy

section Processors

variable (ordered : c.head < c.scan)

include ordered

theorem processIsbPkt_limited (limited : c.Limited .isb)
    (busy : c.processIsbPkt.1.processPkt.isSome) : c.processIsbPkt.1.advance.Limited .isb := by
  have count : c.held = c.scan - c.head := rfl
  have next : c.advance.held = c.numBytes := Nat.succ_sub (Nat.le_of_lt ordered)
  have whole : c.numBytes = c.held + 1 := rfl
  revert busy
  rcases limited with ⟨state, one⟩ | ⟨state, few⟩ | ⟨state, waits, limit⟩
  · rw [processIsbPkt_one state]
    split
    · refine fun _ => .inr (.inl ⟨rfl, ?_⟩)
      show c.advance.held < 6
      omega
    · exact absurd_stopped
  · rw [processIsbPkt_two state]
    split
    case isTrue short =>
      refine fun _ => .inr (.inl ⟨state, ?_⟩)
      show c.advance.held < 6
      omega
    split
    · exact absurd_stopped
    case isFalse fits =>
      refine fun _ => .inr (.inr (.of_header rfl ?_ (Nat.le_of_not_lt fits)))
      show c.advance.held < 7
      omega
  · rw [processIsbPkt_three state]
    split
    case isTrue missing =>
      refine fun _ => .inr (.inr (.of_missing state ?_ limit))
      show c.advance.held < c.parser.size
      omega
    · simp [isbPktEnd_idle]

private theorem processUbloxPkt_limited (limited : c.Limited .ublox) (running : c.processPkt = some .ublox)
    (short : ¬c.Overlong) (busy : c.processUbloxPkt.1.processPkt.isSome) :
    c.processUbloxPkt.1.advance.Limited .ublox := by
  have count : c.held = c.scan - c.head := rfl
  have next : c.advance.held = c.numBytes := Nat.succ_sub (Nat.le_of_lt ordered)
  have whole : c.numBytes = c.held + 1 := rfl
  revert busy
  rcases limited with ⟨state, one⟩ | ⟨state, few⟩ | ⟨state, waits, limit⟩
  · rw [processUbloxPkt_one state]
    split
    · refine fun _ => .inr (.inl ⟨rfl, ?_⟩)
      show c.advance.held < 6
      omega
    · exact absurd_stopped
  · rw [processUbloxPkt_two state]
    split
    case isTrue short =>
      refine fun _ => .inr (.inl ⟨state, ?_⟩)
      show c.advance.held < 6
      omega
    case isFalse header =>
      have fits : (8 + c.payloadSize) % 2 ^ 16 ≤ 1025 := by
        by_contra long
        exact short (.inl ⟨running, state, by omega, Nat.lt_of_not_le long⟩)
      refine fun _ => .inr (.inr (.of_header rfl ?_ fits))
      show c.advance.held < 7
      omega
  · rw [processUbloxPkt_three state]
    split
    case isTrue missing =>
      refine fun _ => .inr (.inr (.of_missing state ?_ limit))
      show c.advance.held < c.parser.size
      omega
    · simp [ubloxPktEnd_idle]

private theorem processNmeaPkt_limited (limited : c.Limited .nmea) (running : c.processPkt = some .nmea)
    (short : ¬c.Overlong) (busy : c.processNmeaPkt.1.processPkt.isSome) :
    c.processNmeaPkt.1.advance.Limited .nmea := by
  have next : c.advance.held = c.numBytes := Nat.succ_sub (Nat.le_of_lt ordered)
  have whole : c.numBytes = c.held + 1 := rfl
  revert busy
  obtain ⟨state | state, within⟩ := limited
  · have room : c.advance.held ≤ 200 := by
      by_contra long
      exact short (.inr ⟨running, state, by omega⟩)
    rw [processNmeaPkt_one state]
    split
    · exact fun _ => ⟨.inr rfl, room⟩
    split
    · exact absurd_stopped
    · exact fun _ => ⟨.inl state, room⟩
  · rw [processNmeaPkt_two state]
    simp [nmeaPktEnd_idle]

private theorem processRtcm3Pkt_limited (limited : c.Limited .rtcm3)
    (busy : c.processRtcm3Pkt.1.processPkt.isSome) :
    c.processRtcm3Pkt.1.advance.Limited .rtcm3 := by
  have count : c.held = c.scan - c.head := rfl
  have next : c.advance.held = c.numBytes := Nat.succ_sub (Nat.le_of_lt ordered)
  have whole : c.numBytes = c.held + 1 := rfl
  revert busy
  rcases limited with ⟨state, few⟩ | ⟨state, waits, limit⟩
  · obtain one | two : c.held = 1 ∨ c.held = 2 := by omega
    · rw [processRtcm3Pkt_one (by omega)]
      refine fun _ => .inl ⟨?_, ?_⟩
      · show (2 : Int) = c.advance.held
        omega
      · show c.advance.held < 3
        omega
    · rw [processRtcm3Pkt_two (by omega)]
      split
      · exact absurd_stopped
      case isFalse fits =>
        refine fun _ => .inr (.of_header rfl ?_ (Nat.le_of_not_lt fun long => fits (.inl long)))
        show c.advance.held < 4
        omega
  · rw [processRtcm3Pkt_three state]
    split
    case isTrue missing =>
      refine fun _ => .inr (.of_missing state ?_ limit)
      show c.advance.held < c.parser.size
      omega
    · simp [rtcm3PktEnd_idle]

private theorem processSonyByte_limited (limited : c.Limited .sony)
    (busy : c.processSonyByte.1.processPkt.isSome) : c.processSonyByte.1.advance.Limited .sony := by
  have count : c.held = c.scan - c.head := rfl
  have next : c.advance.held = c.numBytes := Nat.succ_sub (Nat.le_of_lt ordered)
  have whole : c.numBytes = c.held + 1 := rfl
  revert busy
  rcases limited with ⟨state, few⟩ | ⟨state, waits, limit⟩
  · rw [processSonyByte_one state]
    split
    case isTrue short =>
      refine fun _ => .inl ⟨state, ?_⟩
      show c.advance.held < 5
      omega
    split
    · exact absurd_stopped
    case isFalse fits =>
      refine fun _ => .inr (.of_header rfl ?_ ?_)
      · show c.advance.held < 6
        omega
      · show c.sonyDataSize + 6 ≤ 4090 + 6
        omega
  · rw [processSonyByte_two state]
    split
    case isTrue missing =>
      refine fun _ => .inr (.of_missing state ?_ limit)
      show c.advance.held < c.parser.size
      omega
    · simp [sonyPktEnd_idle]

private theorem process_limited {processor : Processor} (limited : c.Limited processor)
    (running : c.processPkt = some processor) (short : ¬c.Overlong)
    (busy : (processor.process c).1.processPkt.isSome) :
    (processor.process c).1.advance.Limited processor := by
  cases processor with
  | isb => exact processIsbPkt_limited ordered limited busy
  | nmea => exact processNmeaPkt_limited ordered limited running short busy
  | ublox => exact processUbloxPkt_limited ordered limited running short busy
  | rtcm3 => exact processRtcm3Pkt_limited ordered limited busy
  | spartn => trivial
  | sony => exact processSonyByte_limited ordered limited busy

end Processors

/-- A packet start holds one byte. -/
theorem setParserStart_limited (processor : Processor) :
    (c.setParserStart processor).advance.Limited processor := by
  have count : (c.setParserStart processor).advance.held = 1 := Nat.add_sub_cancel_left c.scan 1
  cases processor with
  | isb | ublox => exact .inl ⟨rfl, count⟩
  | nmea => exact ⟨.inl rfl, by omega⟩
  | rtcm3 => exact .inl ⟨by rw [count]; rfl, by omega⟩
  | spartn => trivial
  | sony => exact .inl ⟨rfl, by omega⟩

/-- Every pass that does not let a message grow too long keeps the limits. -/
theorem turn_paced (paced : c.Paced) (short : ¬c.Overlong) : c.turn.1.Paced := by
  have working : AtWork Limited c := paced
  refine working.turn (fun processor _ => setParserStart_limited processor) ?_
  intro processor running ordered limited busy
  exact process_limited ordered limited running short busy

/-! ### Whole runs -/

theorem Paced.isCommFree (paced : c.Paced) : c.isCommFree.1.Paced := by
  by_cases full : c.tail = c.bufSize
  · rw [isCommFree_full full]
    split
    · exact .of_idle (by simp [flushed])
    · refine Paced.congr (c := c) (d := c.shifted) rfl rfl rfl ?_ rfl paced
      intro ordered
      exact Nat.sub_pos_of_lt ordered
  · rw [isCommFree_of_room full]
    exact paced

theorem Paced.checkTimeout (paced : c.Paced) (timeMs : UInt32) : (c.checkTimeout timeMs).Paced := by
  unfold Instance.checkTimeout
  split
  · exact .of_idle rfl
  · exact paced

theorem Paced.recordTime (paced : c.Paced) (timeMs : UInt32) : (c.recordTime timeMs).Paced := by
  unfold Instance.recordTime
  split
  · exact paced.congr rfl rfl rfl id rfl
  · exact paced

theorem SearchAll.mono {strong weak : Instance → Prop} (weaker : ∀ c, strong c → weak c) {fuel : Nat}
    (passes : SearchAll strong fuel c) : SearchAll weak fuel c := by
  induction fuel generalizing c with
  | zero => trivial
  | succ fuel ih =>
    intro inside
    obtain ⟨now, later⟩ := passes inside
    exact ⟨weaker c now, fun silent => ih (later silent)⟩

theorem Passes.mono {strong weak : Instance → Prop} (weaker : ∀ c, strong c → weak c)
    {operation : Operation} (passes : Passes strong c operation) : Passes weak c operation := by
  cases operation with
  | free | write => trivial
  | parseByte | parse => exact SearchAll.mono weaker passes

end Instance

/-- In every run in which no pass lets a message grow too long, a processor at work holds no
more than the length declared for it, in every pass and after every operation. -/
theorem run_blocking_bounded (mem : Nat → UInt8) (bufferSize : Nat) (enabledMask : UInt32)
    {operations : List Operation}
    (short : Along Instance.operate (Instance.Passes fun c => ¬c.Overlong)
      (started mem bufferSize enabledMask) operations) :
    Along Instance.operate (Instance.Passes Instance.Bounded)
        (started mem bufferSize enabledMask) operations ∧
      (run Instance.operate (started mem bufferSize enabledMask) operations).1.Bounded := by
  obtain ⟨passes, final⟩ := Instance.operations_invariant
    (fun c paced _ short => Instance.turn_paced paced short)
    (fun c timeMs paced => paced.checkTimeout timeMs)
    (fun c timeMs paced => paced.recordTime timeMs)
    (fun c paced => paced.isCommFree)
    (fun c bytes paced => paced.congr rfl rfl rfl id rfl)
    (Instance.Paced.of_idle rfl) short
  refine ⟨passes.mono ?_, final.bounded⟩
  intro c operation passes
  exact passes.mono fun c paced => paced.bounded

/-- A sentence, and the header of a UBX frame of 1025 bytes. -/
def boundedOperations : List Operation :=
  [.write [0x24, 0x58, 0x58, 0x2A, 0x30, 0x30, 0x0D, 0x0A], .parse 0, .free,
    .write [0xB5, 0x62, 0x01, 0x02, 0xF9, 0x03], .parse 0]

theorem run_blocking_bounded_ublox :
    (run Instance.operate (started (fun _ => 0) 2048 0x06) boundedOperations).1.Bounded ∧
      (run Instance.operate (started (fun _ => 0) 2048 0x06) boundedOperations).1.processPkt =
        some .ublox :=
  ⟨(run_blocking_bounded (fun _ => 0) 2048 0x06 (by decide +kernel)).2, by decide +kernel⟩

/-- The header of a UBX frame of 1288 bytes, and 1019 bytes of it. -/
def longUblox : List UInt8 := [0xB5, 0x62, 0x01, 0x02, 0x00, 0x05] ++ List.replicate 1019 0x00

/-- A dollar sign and 200 bytes without a carriage return. -/
def longSentence : List UInt8 := 0x24 :: List.replicate 200 0x41

/-- Of a UBX frame 1025 bytes are held, and of a sentence 201. -/
theorem too_much_held :
    ¬(run Instance.operate (started (fun _ => 0) 2048 0x06) [.write longUblox, .parse 0]).1.Bounded ∧
      ¬(run Instance.operate (started (fun _ => 0) 2048 0x06)
          [.write longSentence, .parse 0]).1.Bounded := by
  constructor
  · intro bounded
    exact absurd (bounded 1024 (by decide +kernel)) (by decide +kernel)
  · intro bounded
    exact absurd (bounded 200 (by decide +kernel)) (by decide +kernel)

end InertialSense.Comm
