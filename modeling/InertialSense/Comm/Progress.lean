import InertialSense.Comm.Parse
import InertialSense.Foundation.Settle

/-! What one pass of the receive loop can do, and that the loop comes to an end. -/

namespace InertialSense.Comm

open Foundation

namespace Instance

/-- The instance after a packet whose checksum passed. -/
def accepted (c : Instance) (pkt : Packet) (ackNeeded : UInt32) : Instance :=
  { (c.setState 0).validPacketReset c.numBytes with rxPkt := pkt, ackNeeded }

/-- `processIsbPkt` has waited for the entire packet. -/
def IsbComplete (c : Instance) : Prop :=
  c.parser.state ≠ 1 ∧ c.parser.state ≠ 2 ∧ c.parser.size ≤ c.numBytes

/-- The packet consists of the bytes from `head` up to the current one. -/
def Packs (processor : Processor) (c : Instance) (pkt : Packet) : Prop :=
  processor ≠ .isb ∧ pkt.dataPtr = some c.head ∧ pkt.dataSize ≤ c.numBytes ∨
    processor = .isb ∧ pkt = c.isbPkt ∧ c.IsbComplete

/-- The four ways in which a packet processor answers. -/
inductive Outcome (processor : Processor) (c : Instance) : Instance × ProtocolType → Prop where
  | waits (state : Int) (size : Nat) :
      Outcome processor c ((c.setState state).setSize size, .none)
  | rejects (state : Int) (size : Nat) (error : ParseErrorType) :
      Outcome processor c (((c.setState state).setSize size).parseErrorResetState error)
  | accepts (pkt : Packet) (ackNeeded : UInt32) (ptype : ProtocolType)
      (packet : ptype ≠ .none ∧ ptype ≠ .parseError) (packs : Packs processor c pkt) :
      Outcome processor c (c.accepted pkt ackNeeded, ptype)
  | refuses (pkt : Packet) (ackNeeded : UInt32) (isb : processor = .isb)
      (complete : c.IsbComplete) (passes : c.isbCksumPasses) (falls : c.isbSwitch.1 = none) :
      Outcome processor c ((c.accepted pkt ackNeeded).parseErrorResetState .invalidDatatype)

variable {processor : Processor}

private theorem outcome_waits (c : Instance) : Outcome processor c (c, .none) :=
  .waits c.parser.state c.parser.size

private theorem outcome_waits_at (c : Instance) (state : Int) :
    Outcome processor c (c.setState state, .none) :=
  .waits state c.parser.size

private theorem outcome_rejects (c : Instance) (error : ParseErrorType) :
    Outcome processor c (c.parseErrorResetState error) :=
  .rejects c.parser.state c.parser.size error

private theorem outcome_rejects_at (c : Instance) (state : Int) (error : ParseErrorType) :
    Outcome processor c ((c.setState state).parseErrorResetState error) :=
  .rejects state c.parser.size error

private theorem outcome_found (c : Instance) {dataSize : Nat} (inside : dataSize ≤ c.numBytes)
    (id : Nat) (other : processor ≠ .isb) {ptype : ProtocolType}
    (packet : ptype ≠ .none ∧ ptype ≠ .parseError) :
    Outcome processor c ((c.setState 0).validPacketFound c.numBytes dataSize id, ptype) :=
  .accepts _ c.ackNeeded ptype packet (.inl ⟨other, rfl, inside⟩)

private theorem processStart_outcome (c : Instance) (startByte : UInt8) :
    Outcome processor c (c.processStart startByte) := by
  unfold processStart
  split
  · exact outcome_waits_at c _
  · exact outcome_waits c

theorem isbDispatch_isIsb {ptype : UInt8} {dataSize getSize : Nat} {result : ProtocolType}
    (returned : (isbDispatch ptype dataSize getSize).1 = some result) : result.isIsb := by
  unfold isbDispatch at returned
  repeat' split at returned
  all_goals simp at returned
  all_goals subst returned; rfl

theorem isbDispatch_packet {ptype : UInt8} {dataSize getSize : Nat} {result : ProtocolType}
    (returned : (isbDispatch ptype dataSize getSize).1 = some result) :
    result ≠ .none ∧ result ≠ .parseError := by
  have isb := isbDispatch_isIsb returned
  constructor <;> rintro rfl <;> cases isb

private theorem isbPktEnd_outcome (c : Instance) (complete : c.IsbComplete) :
    Outcome .isb c c.isbPktEnd := by
  unfold isbPktEnd
  split
  case isTrue passes =>
    dsimp only
    split
    case h_1 ptype returned => 
      exact .accepts _ _ ptype (isbDispatch_packet returned) (.inr ⟨rfl, rfl, complete⟩)
    case h_2 falls => exact .refuses _ _ rfl complete passes falls
  case isFalse => exact outcome_rejects_at c 0 _

private theorem processIsbPkt_outcome (c : Instance) : Outcome .isb c c.processIsbPkt := by
  unfold processIsbPkt
  split
  · exact processStart_outcome c _
  split
  · split
    · exact outcome_waits_at c _
    · exact outcome_rejects c _
  case isFalse one =>
    split
    · split
      · exact outcome_waits c
      split
      · exact .rejects _ _ _
      · exact .waits _ _
    case isFalse two =>
      split
      · exact outcome_waits c
      case isFalse short => exact isbPktEnd_outcome c ⟨one, two, Nat.le_of_not_lt short⟩

private theorem processNmeaPkt_outcome (c : Instance) : Outcome .nmea c c.processNmeaPkt := by
  unfold processNmeaPkt nmeaPktEnd
  split
  · exact processStart_outcome c _
  split
  · split
    · exact outcome_waits_at c _
    split
    · exact outcome_rejects c _
    · exact outcome_waits c
  split
  · exact outcome_rejects c _
  split
  · exact outcome_rejects_at c 0 _
  split
  · exact outcome_found c (Nat.le_refl _) _ (by simp) (by simp)
  · exact outcome_rejects_at c 0 _

private theorem processUbloxPkt_outcome (c : Instance) : Outcome .ublox c c.processUbloxPkt := by
  unfold processUbloxPkt ubloxPktEnd
  split
  · exact processStart_outcome c _
  split
  · split
    · exact outcome_waits_at c _
    · exact outcome_rejects c _
  split
  · split
    · exact outcome_waits c
    · exact .waits (c.parser.state + 1) _
  split
  · exact outcome_waits c
  case isFalse complete =>
    split
    · exact outcome_found c (Nat.le_of_not_lt complete) _ (by simp) (by simp)
    · exact outcome_rejects_at c 0 _

private theorem processRtcm3Pkt_outcome (c : Instance) : Outcome .rtcm3 c c.processRtcm3Pkt := by
  unfold processRtcm3Pkt rtcm3PktEnd
  split
  · exact processStart_outcome c _
  split
  · exact outcome_waits_at c _
  split
  · split
    · exact .rejects (c.parser.state + 1) _ _
    · exact .waits (c.parser.state + 1) _
  split
  · exact outcome_waits c
  case isFalse complete =>
    dsimp only
    split
    · exact outcome_found c (Nat.le_of_not_lt complete) _ (by simp) (by simp)
    · exact outcome_rejects_at c 0 _

private theorem processSonyByte_outcome (c : Instance) : Outcome .sony c c.processSonyByte := by
  unfold processSonyByte sonyPktEnd
  split
  · exact processStart_outcome c _
  split
  · split
    · exact outcome_waits c
    split
    · exact outcome_rejects c _
    · exact .waits (c.parser.state + 1) _
  split
  · exact outcome_waits c
  case isFalse complete =>
    split
    · exact outcome_found c (Nat.le_of_not_lt complete) _ (by simp) (by simp)
    · exact outcome_rejects_at c 0 _

theorem spartnHeader_eq (c : Instance) : ∃ state, c.spartnHeader = c.setState state := by
  unfold spartnHeader
  dsimp only
  split <;> split
  · exact ⟨_, rfl⟩
  · split <;> exact ⟨_, rfl⟩
  · exact ⟨_, rfl⟩
  · split <;> exact ⟨_, rfl⟩

private theorem processSpartnByte_outcome (c : Instance) : Outcome .spartn c c.processSpartnByte := by
  unfold processSpartnByte
  split
  · exact processStart_outcome c _
  split
  · split
    · exact outcome_rejects c _
    · exact outcome_waits_at c _
  split
  · exact outcome_waits_at c _
  split
  · obtain ⟨state, header⟩ := c.spartnHeader_eq
    rw [header]
    exact outcome_waits_at c _
  split
  · exact outcome_found c (Nat.le_refl _) _ (by simp) (by simp)
  split
  · exact outcome_rejects_at c _ _
  · exact outcome_waits_at c _

/-- Whatever its state, a processor waits, rejects, accepts or refuses. -/
theorem process_outcome (processor : Processor) (c : Instance) :
    Outcome processor c (processor.process c) := by
  cases processor
  · exact processIsbPkt_outcome c
  · exact processNmeaPkt_outcome c
  · exact processUbloxPkt_outcome c
  · exact processRtcm3Pkt_outcome c
  · exact processSpartnByte_outcome c
  · exact processSonyByte_outcome c

/-! ### One pass of the loop -/

section Errors

variable (c : Instance) (error : ParseErrorType)

@[simp] theorem reportParseError_head : (c.reportParseError error).1.head = c.head := by
  unfold reportParseError; split <;> rfl

@[simp] theorem reportParseError_scan : (c.reportParseError error).1.scan = c.scan := by
  unfold reportParseError; split <;> rfl

@[simp] theorem reportParseError_tail : (c.reportParseError error).1.tail = c.tail := by
  unfold reportParseError; split <;> rfl

@[simp] theorem reportParseError_mem : (c.reportParseError error).1.mem = c.mem := by
  unfold reportParseError; split <;> rfl

@[simp] theorem reportParseError_bufSize : (c.reportParseError error).1.bufSize = c.bufSize := by
  unfold reportParseError; split <;> rfl

@[simp] theorem reportParseError_enabledMask :
    (c.reportParseError error).1.enabledMask = c.enabledMask := by
  unfold reportParseError; split <;> rfl

@[simp] theorem reportParseError_progress : (c.reportParseError error).1.parser = c.parser := by
  unfold reportParseError; split <;> rfl

@[simp] theorem reportParseError_processPkt :
    (c.reportParseError error).1.processPkt = c.processPkt := by
  unfold reportParseError; split <;> rfl

@[simp] theorem reportParseError_rxErrorState :
    (c.reportParseError error).1.rxErrorState = true := by
  unfold reportParseError; split <;> simp_all

theorem reportParseError_ptype :
    (c.reportParseError error).2 = if c.rxErrorState then .none else .parseError := by
  unfold reportParseError; split <;> rfl

end Errors

/-- The cases of a pass. -/
inductive Pass (c : Instance) : Instance × ProtocolType → Prop where
  | skips (idle : c.processPkt = none) : Pass c ({ c with scan := c.scan + 1 }, .none)
  | starts (idle : c.processPkt = none) (processor : Processor)
      (found : startOf c.current = some processor)
      (enabled : c.enabledMask &&& processor.enableBit ≠ 0) :
      Pass c ({ c.setParserStart processor with scan := c.scan + 1 }, .none)
  | stops (idle : c.processPkt = none) (first : c.rxErrorState = false) :
      Pass c (c.reportParseError .streamUnparsable)
  | processes (processor : Processor) (busy : c.processPkt = some processor)
      {answer : Instance × ProtocolType} (given : processor.process c = answer)
      (outcome : Outcome processor c answer) :
      Pass c ({ answer.1 with scan := answer.1.scan + 1 }, answer.2)

theorem turn_pass (c : Instance) : Pass c c.turn := by
  unfold turn
  split
  case h_1 processor busy => exact .processes processor busy rfl (process_outcome processor c)
  case h_2 idle =>
    split
    case h_1 processor found =>
      split
      case isTrue enabled => exact .starts idle processor found enabled
      case isFalse => exact .skips idle
    case h_2 =>
      split
      case isTrue reported =>
        refine .stops idle ?_
        simpa [reportParseError_ptype] using reported
      case isFalse => exact .skips idle

/-- A pass reads the bytes, the bounds of the buffer and the configuration, and leaves them. -/
theorem turn_frame (c : Instance) :
    c.turn.1.mem = c.mem ∧ c.turn.1.bufSize = c.bufSize ∧ c.turn.1.tail = c.tail ∧
      c.turn.1.enabledMask = c.enabledMask ∧ c.turn.1.parser.timeMs = c.parser.timeMs := by
  generalize after : c.turn = answer
  have pass : Pass c answer := after ▸ c.turn_pass
  cases pass with
  | skips | starts => exact ⟨rfl, rfl, rfl, rfl, rfl⟩
  | stops => simp
  | processes _ _ _ outcome =>
    cases outcome with
    | waits | accepts => exact ⟨rfl, rfl, rfl, rfl, rfl⟩
    | rejects | refuses =>
      simp [parseErrorResetState, resetParser, accepted, setState, setSize, validPacketReset]

/-- Where a pass leaves the pointers, the processor and the error latch. -/
inductive Moves (c after : Instance) : Prop where
  | skips (idle : c.processPkt = none) (idle' : after.processPkt = none)
      (head : after.head = c.head) (scan : after.scan = c.scan + 1)
  | starts (idle : c.processPkt = none) (busy' : after.processPkt.isSome)
      (head : after.head = c.scan) (scan : after.scan = c.scan + 1)
  | stops (idle : c.processPkt = none) (idle' : after.processPkt = none)
      (head : after.head = c.head) (scan : after.scan = c.scan)
      (first : c.rxErrorState = false) (latched : after.rxErrorState = true)
  | waits (busy : c.processPkt.isSome) (busy' : after.processPkt.isSome)
      (head : after.head = c.head) (scan : after.scan = c.scan + 1)
  | rejects (busy : c.processPkt.isSome) (idle' : after.processPkt = none)
      (head : after.head = c.head) (scan : after.scan = c.head + 1)
  | accepts (busy : c.processPkt.isSome) (idle' : after.processPkt = none)
      (head : after.head = c.scan + 1) (scan : after.scan = c.scan + 1)
  | refuses (busy : c.processPkt.isSome) (idle' : after.processPkt = none)
      (head : after.head = c.scan + 1) (scan : after.scan = c.scan + 2)

theorem turn_moves {c : Instance} (ordered : c.head ≤ c.scan) : Moves c c.turn.1 := by
  generalize after : c.turn = answer
  have pass : Pass c answer := after ▸ c.turn_pass
  have whole : c.head + c.numBytes = c.scan + 1 := by unfold numBytes; omega
  cases pass with
  | skips idle => exact .skips idle idle rfl rfl
  | starts idle => exact .starts idle rfl rfl rfl
  | stops idle first =>
    exact .stops idle (by simpa using idle) (by simp) (by simp) first (by simp)
  | processes processor busy given outcome =>
    have running : c.processPkt.isSome := by simp [busy]
    cases outcome with
    | waits => exact .waits running running rfl rfl
    | rejects =>
      refine .rejects running ?_ ?_ ?_ <;>
        simp [parseErrorResetState, resetParser, setState, setSize]
    | accepts => exact .accepts running rfl whole rfl
    | refuses =>
      refine .refuses running ?_ ?_ ?_ <;>
        simp [parseErrorResetState, resetParser, accepted, setState, validPacketReset, whole]

private theorem budget_lt {c after : Instance} (fewer : after.passes < c.passes) :
    after.budget < c.budget := by
  unfold budget
  split <;> split <;> omega

theorem Moves.progress {c after : Instance} (moves : Moves c after) (tail : after.tail = c.tail)
    (ordered : c.head ≤ c.scan) (inside : c.scan < c.tail) :
    after.head ≤ after.scan ∧ after.budget < c.budget := by
  -- With a larger floor, a whole row of `tail + 2` passes is saved.
  have saved (low high : Nat) (less : low < high) (below : high ≤ c.tail) :
      (c.tail - high) * (c.tail + 2) + (c.tail + 2) ≤ (c.tail - low) * (c.tail + 2) := by
    rw [← Nat.succ_mul]
    exact Nat.mul_le_mul_right _ (by omega)
  have kept (low high : Nat) (le : low ≤ high) :
      (c.tail - high) * (c.tail + 2) ≤ (c.tail - low) * (c.tail + 2) :=
    Nat.mul_le_mul_right _ (by omega)
  cases moves with
  | skips idle idle' head scan =>
    refine ⟨by omega, budget_lt ?_⟩
    have := saved c.scan (c.scan + 1) (by omega) (by omega)
    simp [passes, floor, idle, idle', scan, tail]
    omega
  | starts idle busy' head scan =>
    refine ⟨by omega, budget_lt ?_⟩
    have := saved c.scan (c.scan + 1) (by omega) (by omega)
    simp [passes, floor, idle, busy', head, scan, tail]
    omega
  | stops idle idle' head scan first latched =>
    refine ⟨by omega, ?_⟩
    simp [budget, passes, floor, idle, idle', scan, tail, first, latched]
  | waits busy busy' head scan =>
    refine ⟨by omega, budget_lt ?_⟩
    simp [passes, floor, busy, busy', head, scan, tail]
    omega
  | rejects busy idle' head scan =>
    refine ⟨by omega, budget_lt ?_⟩
    simp [passes, floor, busy, idle', scan, tail]
  | accepts busy idle' head scan =>
    refine ⟨by omega, budget_lt ?_⟩
    have := kept (c.head + 1) (c.scan + 1) (by omega)
    simp [passes, floor, busy, idle', scan, tail]
    omega
  | refuses busy idle' head scan =>
    refine ⟨by omega, budget_lt ?_⟩
    have := kept (c.head + 1) (c.scan + 2) (by omega)
    simp [passes, floor, busy, idle', scan, tail]
    omega

theorem turn_progress {c : Instance} (ordered : c.head ≤ c.scan) (inside : c.scan < c.tail) :
    c.turn.1.head ≤ c.turn.1.scan ∧ c.turn.1.budget < c.budget := by
  obtain ⟨-, -, tail, -, -⟩ := c.turn_frame
  exact (turn_moves ordered).progress tail ordered inside

/-! ### The loop and the draining of its results -/

/-- What a caller gets to see of an answer. -/
def outputs (answer : Instance × ProtocolType) : List Report :=
  if answer.2 = .none then [] else [answer.1.report answer.2]

/-- The receive loop as a machine that reports what it finds. -/
def step (c : Instance) : Option (Instance × List Report) :=
  if c.scan < c.tail then some (c.turn.1, outputs c.turn) else none

theorem step_eq_some {c after : Instance} {reports : List Report}
    (taken : c.step = some (after, reports)) :
    c.scan < c.tail ∧ after = c.turn.1 ∧ reports = outputs c.turn := by
  unfold step at taken
  split at taken
  case isTrue inside =>
    obtain ⟨rfl, rfl⟩ : _ ∧ _ := by simpa using taken
    exact ⟨inside, rfl, rfl⟩
  case isFalse => cases taken

theorem step_eq_none {c : Instance} : c.step = none ↔ c.tail ≤ c.scan := by
  unfold step
  split <;> simp <;> omega

/-- The states between two reads: `head` is not ahead of `scan`, and only calls without a
time have been made. -/
structure Ready (c : Instance) : Prop where
  ordered : c.head ≤ c.scan
  untimed : c.parser.timeMs = 0

theorem Ready.reaches {c after : Instance} {reports : List Report} (ready : c.Ready)
    (path : Reaches step c reports after) : after.Ready := by
  refine path.invariant ?_ ready
  intro c after now ready taken
  obtain ⟨inside, rfl, -⟩ := step_eq_some taken
  obtain ⟨-, -, -, -, time⟩ := c.turn_frame
  exact ⟨(turn_progress ready.ordered inside).1, time.trans ready.untimed⟩

/-- With enough fuel the loop stops because it found something or because no byte is left. -/
theorem search_reaches {fuel : Nat} {c : Instance} (ordered : c.head ≤ c.scan)
    (enough : c.budget ≤ fuel) :
    Reaches step c (outputs (search fuel c)) (search fuel c).1 ∧
      ((search fuel c).2 = .none → (search fuel c).1.step = none) ∧
      ((search fuel c).2 ≠ .none → (search fuel c).1.budget < c.budget) := by
  induction fuel generalizing c with
  | zero =>
    have exhausted : c.tail ≤ c.scan := by
      by_contra inside
      have := turn_progress ordered (Nat.lt_of_not_le inside)
      omega
    exact ⟨.refl c, fun _ => step_eq_none.mpr exhausted, fun found => absurd rfl found⟩
  | succ fuel ih =>
    unfold search
    split
    case isFalse outside =>
      exact ⟨.refl c, fun _ => step_eq_none.mpr (Nat.le_of_not_lt outside),
        fun found => absurd rfl found⟩
    case isTrue inside =>
      have taken : c.step = some (c.turn.1, outputs c.turn) := if_pos inside
      obtain ⟨ordered', less⟩ := turn_progress ordered inside
      split
      case isFalse found => exact ⟨.single taken, fun none => absurd none found, fun _ => less⟩
      case isTrue silent =>
        obtain ⟨path, rests, found⟩ := ih ordered' (by omega)
        refine ⟨?_, rests, fun later => Nat.lt_trans (found later) less⟩
        have quiet : outputs c.turn = [] := if_pos silent
        simpa [quiet] using Reaches.head taken path

theorem checkTimeout_zero (c : Instance) : c.checkTimeout 0 = c := by
  unfold checkTimeout
  refine if_neg ?_
  rintro ⟨-, late⟩
  exact absurd late (by simp)

private theorem recordTime_zero {c : Instance} (untimed : c.parser.timeMs = 0) :
    c.recordTime 0 = c := by
  unfold recordTime
  split
  · rw [← untimed]
  · rfl

/-- `is_comm_parse` runs the loop to its next result. -/
theorem isCommParse_eq {c : Instance} (ready : c.Ready) : c.isCommParse = search c.budget c := by
  obtain ⟨path, -, -⟩ := @search_reaches c.budget c ready.ordered (Nat.le_refl _)
  have after := ready.reaches path
  unfold isCommParse isCommParseTimeout
  simp only [checkTimeout_zero]
  split
  case isTrue silent => rw [recordTime_zero after.untimed, ← silent]
  case isFalse => rfl

private theorem drainFor_settles {fuel : Nat} {c : Instance} (ready : c.Ready)
    (enough : c.budget < fuel) : Settles step c (drainFor fuel c).2 (drainFor fuel c).1 := by
  induction fuel generalizing c with
  | zero => omega
  | succ fuel ih =>
    obtain ⟨path, rests, less⟩ := @search_reaches c.budget c ready.ordered (Nat.le_refl _)
    rw [← isCommParse_eq ready] at path rests less
    unfold drainFor
    split
    case isTrue silent =>
      have quiet : outputs c.isCommParse = [] := if_pos silent
      exact ⟨quiet ▸ path, rests silent⟩
    case isFalse found =>
      have reported : outputs c.isCommParse = [c.isCommParse.1.report c.isCommParse.2] :=
        if_neg found
      have rest := ih (ready.reaches path) (by have := less found; omega)
      simpa [reported] using rest.prepend path

/-- Parsing until nothing is found settles the loop, and reports all that it finds. -/
theorem drain_settles {c : Instance} (ready : c.Ready) : Settles step c c.drain.2 c.drain.1 :=
  drainFor_settles ready (Nat.lt_succ_self _)

end Instance

end InertialSense.Comm
