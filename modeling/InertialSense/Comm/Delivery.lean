import InertialSense.Comm.Chunking
import InertialSense.Comm.Frames

/-! Streams of frames, fed byte by byte: each frame is reported at its last byte, wherever
the buffer is shifted on the way, and leaves the parser ready for the next one. -/

namespace InertialSense.Comm

open Foundation

namespace Instance

/-- The byte is in the buffer. -/
def arrived (c : Instance) (byte : UInt8) : Instance := c.isCommFree.1.append [byte]

/-- `is_comm_parse_byte`, with what its caller gets to see. -/
def parseByte (c : Instance) (byte : UInt8) : Instance × List Report :=
  ((c.isCommParseByte byte).1, outputs (c.isCommParseByte byte))

variable {c : Instance}

theorem append_last (c : Instance) (byte : UInt8) : (c.append [byte]).mem c.tail = byte :=
  @store_inside _ c.mem c.tail 0 [byte] (by simp)

/-- A search that looks at the last byte and does not go back makes one pass. -/
theorem isCommParse_eq_turn (ready : c.Ready) (inside : c.scan < c.tail)
    (last : c.turn.1.tail ≤ c.turn.1.scan) : c.isCommParse = c.turn := by
  obtain ⟨-, less⟩ := turn_progress ready.ordered inside
  obtain ⟨fuel, some⟩ : ∃ fuel, c.budget = fuel + 1 := ⟨c.budget - 1, by omega⟩
  rw [isCommParse_eq ready, some]
  unfold search
  rw [if_pos inside]
  split
  case isTrue silent =>
    cases fuel with
    | zero => exact Prod.ext rfl silent.symm
    | succ fuel =>
      unfold search
      rw [if_neg (Nat.not_lt.mpr last)]
      exact Prod.ext rfl silent.symm
  case isFalse => rfl

end Instance

/-- A way to feed a byte that does no more than one pass, where one pass is enough. -/
def FeedsOnce (feed : Instance → UInt8 → Instance × List Report) : Prop :=
  ∀ (c : Instance) (byte : UInt8), (c.arrived byte).Ready →
    (c.arrived byte).scan < (c.arrived byte).tail →
    (c.arrived byte).turn.1.tail ≤ (c.arrived byte).turn.1.scan →
    feed c byte = ((c.arrived byte).turn.1, Instance.outputs (c.arrived byte).turn)

theorem parseByte_feedsOnce : FeedsOnce Instance.parseByte := by
  intro c byte ready inside last
  have found : c.isCommParseByte byte = (c.arrived byte).turn :=
    Instance.isCommParse_eq_turn ready inside last
  unfold Instance.parseByte
  rw [found]

private theorem drain_of_rest {c : Instance} (ready : c.Ready) (last : c.tail ≤ c.scan) :
    c.drain = (c, []) := by
  obtain ⟨reports, final⟩ := (Instance.drain_settles ready).unique
    (.rest (Instance.step_eq_none.mpr last))
  exact Prod.ext final reports

theorem feedByte_feedsOnce : FeedsOnce Instance.feedByte := by
  intro c byte ready inside last
  have found : c.isCommParseByte byte = (c.arrived byte).turn :=
    Instance.isCommParse_eq_turn ready inside last
  have taken : (c.arrived byte).step =
      some ((c.arrived byte).turn.1, Instance.outputs (c.arrived byte).turn) := if_pos inside
  have quiet := drain_of_rest (ready.reaches (.single taken)) last
  unfold Instance.feedByte Instance.outputs
  simp only [found, quiet]
  split
  case isTrue silent => rfl
  case isFalse => rfl

/-! ### One frame -/

/-- Between two frames: all bytes are consumed and no processor is at work. -/
structure Boundary (bufSize : Nat) (enabledMask : UInt32) (c : Instance) : Prop where
  sound : c.Sound
  size : c.bufSize = bufSize
  mask : c.enabledMask = enabledMask
  idle : c.processPkt = none
  scan : c.scan = c.head
  tail : c.tail = c.scan
  inside : c.tail ≤ c.bufSize

/-- The first bytes of a frame are in the buffer. -/
structure Receiving (bufSize : Nat) (enabledMask : UInt32) (processor : Processor)
    (frame : List UInt8) (count : Nat) (c : Instance) : Prop where
  sound : c.Sound
  size : c.bufSize = bufSize
  mask : c.enabledMask = enabledMask
  busy : c.processPkt = some processor
  scan : c.scan = c.head + count
  tail : c.tail = c.scan
  inside : c.tail ≤ c.bufSize
  bytes : ∀ k < count, c.byteAt k = frame.getD k 0

/-- Right behind a frame: what was reported of it is still there, and the header of an ISB
packet says the same as the packet. -/
structure Reported (bufSize : Nat) (enabledMask : UInt32) (processor : Processor)
    (report : Report) (c : Instance) : Prop extends Boundary bufSize enabledMask c where
  still : c.report report.ptype = report
  header : processor = .isb → report.ptype ≠ .parseError →
    c.rxPkt.hdrId.toNat = c.rxPkt.id ∧ c.rxPkt.payloadSize = c.rxPkt.dataSize ∧
      (c.rxPkt.dataPtr = none → c.rxPkt.dataSize = 0)

section OneFrame

variable {bufSize : Nat} {enabledMask : UInt32} {processor : Processor} {frame : List UInt8}
  {report : Report} {count : Nat} {c : Instance}

/-- What making room keeps of an instance. -/
structure Keeps (c : Instance) (count : Nat) (d : Instance) : Prop where
  size : d.bufSize = c.bufSize
  mask : d.enabledMask = c.enabledMask
  processPkt : d.processPkt = c.processPkt
  scan : d.scan = d.head + count
  tail : d.tail = d.scan
  room : d.tail < c.bufSize
  bytes : ∀ k < count, d.byteAt k = c.byteAt k

/-- Making room while less than two thirds of the buffer is held: the bytes are shifted, never
flushed. -/
theorem Instance.isCommFree_keeps (scan : c.scan = c.head + count) (tail : c.tail = c.scan)
    (inside : c.tail ≤ c.bufSize) (fits : count < c.bufSize - c.bufSize / 3) :
    Keeps c count c.isCommFree.1 := by
  by_cases full : c.tail = c.bufSize
  · rw [Instance.isCommFree_full full, if_neg (by omega)]
    refine ⟨rfl, rfl, rfl, ?_, ?_, ?_, fun k small => Instance.shifted_byteAt (by omega)⟩
    · show c.scan - c.head = 0 + count
      omega
    · show c.tail - c.head = c.scan - c.head
      omega
    · show c.tail - c.head < c.bufSize
      omega
  · rw [Instance.isCommFree_of_room full]
    exact ⟨rfl, rfl, rfl, scan, tail, Nat.lt_of_le_of_ne inside full, fun _ _ => rfl⟩

private theorem Boundary.free (boundary : Boundary bufSize enabledMask c) (room : 0 < bufSize) :
    Boundary bufSize enabledMask c.isCommFree.1 ∧ c.isCommFree.1.tail < bufSize := by
  obtain ⟨sound, rfl, mask, idle, scan, tail, inside⟩ := boundary
  have keeps := @Instance.isCommFree_keeps 0 c scan tail inside (by omega)
  refine ⟨⟨sound.isCommFree, keeps.size, keeps.mask.trans mask, keeps.processPkt.trans idle,
    keeps.scan, keeps.tail, ?_⟩, keeps.room⟩
  rw [keeps.size]
  exact Nat.le_of_lt keeps.room

private theorem Receiving.free
    (receiving : Receiving bufSize enabledMask processor frame count c)
    (fits : count < bufSize - bufSize / 3) :
    Receiving bufSize enabledMask processor frame count c.isCommFree.1 ∧
      c.isCommFree.1.tail < bufSize := by
  obtain ⟨sound, rfl, mask, busy, scan, tail, inside, bytes⟩ := receiving
  have keeps := Instance.isCommFree_keeps scan tail inside fits
  refine ⟨⟨sound.isCommFree, keeps.size, keeps.mask.trans mask, keeps.processPkt.trans busy,
    keeps.scan, keeps.tail, ?_, fun k small => (keeps.bytes k small).trans (bytes k small)⟩, keeps.room⟩
  rw [keeps.size]
  exact Nat.le_of_lt keeps.room

theorem startOf_startByte (processor : Processor) :
    startOf processor.startByte = some processor := by
  cases processor <;> decide

/-- The loop looks at the first byte of a frame and starts its processor. -/
theorem turn_first {byte : UInt8} (idle : c.processPkt = none) (tail : c.tail = c.scan)
    (enabled : c.enabledMask &&& processor.enableBit ≠ 0) (start : byte = processor.startByte) :
    (c.append [byte]).current = byte ∧ (c.append [byte]).scan < (c.append [byte]).tail ∧
      (c.append [byte]).turn = (((c.append [byte]).setParserStart processor).advance, .none) := by
  have here : (c.append [byte]).current = byte := by
    have stored := c.append_last byte
    rw [tail] at stored
    exact stored
  refine ⟨here, ?_, Instance.turn_start idle ?_ enabled⟩
  · show c.scan < c.tail + 1
    omega
  · rw [here, start, startOf_startByte]

theorem append_bytes (scan : c.scan = c.head + count) (tail : c.tail = c.scan)
    (bytes : ∀ k < count, c.byteAt k = frame.getD k 0) {k : Nat} (small : k < count + 1) :
    (c.append [frame.getD count 0]).byteAt k = frame.getD k 0 := by
  show store c.mem c.tail [frame.getD count 0] (c.head + k) = frame.getD k 0
  by_cases last : k = count
  · subst last
    have stored := c.append_last (frame.getD k 0)
    rw [tail, scan] at stored
    exact stored
  · rw [store_outside _ (.inl (by omega))]
    exact bytes k (by omega)

/-- The first byte of a frame starts its processor. -/
private theorem boundary_start (boundary : Boundary bufSize enabledMask c) (room : 0 < bufSize)
    (enabled : enabledMask &&& processor.enableBit ≠ 0)
    (start : frame.getD 0 0 = processor.startByte) :
    (c.arrived (frame.getD 0 0)).Ready ∧
      (c.arrived (frame.getD 0 0)).scan < (c.arrived (frame.getD 0 0)).tail ∧
      (c.arrived (frame.getD 0 0)).turn.2 = .none ∧
      Receiving bufSize enabledMask processor frame 1 (c.arrived (frame.getD 0 0)).turn.1 := by
  obtain ⟨⟨sound, size, mask, idle, scan, tail, inside⟩, more⟩ := boundary.free room
  unfold Instance.arrived
  generalize c.isCommFree.1 = d at *
  have sound' := sound.append [frame.getD 0 0]
  obtain ⟨here, before, turn⟩ := turn_first idle tail (mask.symm ▸ enabled) start
  have taken : (d.append [frame.getD 0 0]).step =
      some ((d.append [frame.getD 0 0]).turn.1, _) := if_pos before
  refine ⟨sound'.toReady, before, by rw [turn], ?_⟩
  have next := sound'.reaches (.single taken)
  rw [turn] at next ⊢
  refine ⟨next, size, mask, rfl, rfl, ?_, ?_, ?_⟩
  · show d.tail + 1 = d.scan + 1
    omega
  · show d.tail + 1 ≤ d.bufSize
    omega
  · intro k small
    obtain rfl : k = 0 := by omega
    exact here

/-- A byte of a frame is in the buffer behind those before it. -/
private theorem receiving_arrived
    (receiving : Receiving bufSize enabledMask processor frame count c) (begun : 1 ≤ count)
    (more : count < frame.length) (fits : frame.length ≤ bufSize - bufSize / 3) :
    (c.arrived (frame.getD count 0)).Sound ∧
      (c.arrived (frame.getD count 0)).bufSize = bufSize ∧
      (c.arrived (frame.getD count 0)).enabledMask = enabledMask ∧
      (c.arrived (frame.getD count 0)).processPkt = processor ∧
      (c.arrived (frame.getD count 0)).scan = (c.arrived (frame.getD count 0)).head + count ∧
      (c.arrived (frame.getD count 0)).tail = (c.arrived (frame.getD count 0)).scan + 1 ∧
      (c.arrived (frame.getD count 0)).tail ≤ bufSize ∧
      (c.arrived (frame.getD count 0)).Carries frame := by
  obtain ⟨⟨sound, size, mask, busy, scan, tail, inside, bytes⟩, room⟩ :=
    receiving.free (by omega)
  unfold Instance.arrived
  generalize c.isCommFree.1 = d at *
  have number : (d.append [frame.getD count 0]).numBytes = count + 1 := by
    show d.scan - d.head + 1 = count + 1
    omega
  refine ⟨sound.append _, size, mask, busy, scan, ?_, ?_, ?_, ?_, ?_⟩
  · show d.tail + 1 = d.scan + 1
    omega
  · show d.tail + 1 ≤ bufSize
    omega
  · show d.head < d.scan
    omega
  · omega
  · intro k small
    rw [number] at small
    exact append_bytes scan tail bytes small

private theorem receiving_waits (conforms : Conforms bufSize processor frame report)
    (receiving : Receiving bufSize enabledMask processor frame count c) (begun : 1 ≤ count)
    (more : count + 1 < frame.length) (fits : frame.length ≤ bufSize - bufSize / 3) :
    (c.arrived (frame.getD count 0)).turn.2 = .none ∧
      Receiving bufSize enabledMask processor frame (count + 1)
        (c.arrived (frame.getD count 0)).turn.1 := by
  obtain ⟨sound, size, mask, busy, scan, tail, inside, carries⟩ :=
    receiving_arrived receiving begun (by omega) fits
  generalize c.arrived (frame.getD count 0) = d at *
  have number : d.numBytes = d.scan - d.head + 1 := rfl
  obtain ⟨-, holds⟩ := sound.tracked processor busy
  obtain ⟨state, length, waits⟩ := conforms.waits d size holds carries (by omega)
  have turn := Instance.turn_busy busy
  rw [waits] at turn
  have taken : d.step = some (d.turn.1, _) := if_pos (show d.scan < d.tail by omega)
  have next := sound.reaches (.single taken)
  rw [turn] at next ⊢
  refine ⟨rfl, next, size, mask, busy, ?_, tail, Nat.le_trans inside (Nat.le_of_eq size.symm), ?_⟩
  · show d.scan + 1 = d.head + (count + 1)
    omega
  · intro k small
    exact carries.bytes k (by omega)

/-- An accepted ISB packet is the one that is in the buffer. -/
private theorem accepted_header {pkt : Packet} {ackNeeded : UInt32} {ptype : ProtocolType}
    (accepts : Processor.isb.process c = (c.accepted pkt ackNeeded, ptype))
    (packet : ptype ≠ .none) (good : ptype ≠ .parseError) :
    pkt.hdrId.toNat = pkt.id ∧ pkt.payloadSize = pkt.dataSize ∧
      (pkt.dataPtr = none → pkt.dataSize = 0) := by
  have silent {d : Instance} (error : ParseErrorType)
      (same : d.parseErrorResetState error = (c.accepted pkt ackNeeded, ptype)) : False := by
    have reported := congrArg Prod.snd same
    rw [Instance.parseErrorResetState, Instance.reportParseError_ptype] at reported
    split at reported
    · exact packet reported.symm
    · exact good reported.symm
  have outcome := Instance.process_outcome .isb c
  rw [accepts] at outcome
  generalize answered : (c.accepted pkt ackNeeded, ptype) = answer at outcome
  cases outcome with
  | waits => exact absurd (congrArg Prod.snd answered) packet
  | rejects state size error => exact (silent error answered.symm).elim
  | refuses => exact (silent _ answered.symm).elim
  | accepts pkt' ackNeeded' ptype' packet' packs =>
    have same : pkt = pkt' := congrArg (fun answer => answer.1.rxPkt) answered
    obtain ⟨other, -⟩ | ⟨-, rfl, -⟩ := packs
    · exact absurd rfl other
    · rw [same]
      refine ⟨rfl, rfl, fun missing => ?_⟩
      by_contra some
      exact Option.some_ne_none _ ((if_neg some).symm.trans missing)

/-- At the last byte it reports the frame. -/
private theorem receiving_accepts (conforms : Conforms bufSize processor frame report)
    (receiving : Receiving bufSize enabledMask processor frame count c) (begun : 1 ≤ count)
    (last : count + 1 = frame.length) (fits : frame.length ≤ bufSize - bufSize / 3) :
    Instance.outputs (c.arrived (frame.getD count 0)).turn = [report] ∧
      Reported bufSize enabledMask processor report (c.arrived (frame.getD count 0)).turn.1 := by
  obtain ⟨sound, size, mask, busy, scan, tail, inside, carries⟩ :=
    receiving_arrived receiving begun (by omega) fits
  generalize c.arrived (frame.getD count 0) = d at *
  have number : d.numBytes = d.scan - d.head + 1 := rfl
  obtain ⟨-, holds⟩ := sound.tracked processor busy
  obtain ⟨pkt, ackNeeded, accepts, reported⟩ := conforms.accepts d size holds carries (by omega)
  have turn := Instance.turn_busy busy
  rw [accepts] at turn
  have taken : d.step = some (d.turn.1, _) := if_pos (show d.scan < d.tail by omega)
  have next := sound.reaches (.single taken)
  rw [turn] at next ⊢
  have boundary : Boundary bufSize enabledMask (d.accepted pkt ackNeeded).advance := by
    refine ⟨next, size, mask, rfl, ?_, ?_, Nat.le_trans inside (Nat.le_of_eq size.symm)⟩
    · show d.scan + 1 = d.head + d.numBytes
      omega
    · show d.tail = d.scan + 1
      omega
  refine ⟨?_, boundary, reported, ?_⟩
  · unfold Instance.outputs
    rw [if_neg conforms.packet]
    exact congrArg (fun found => [found]) reported
  · rintro rfl good
    exact accepted_header accepts conforms.packet good

variable {feed : Instance → UInt8 → Instance × List Report}

theorem drop_split {frame : List UInt8} {count : Nat} (more : count < frame.length) :
    frame.drop count = frame.getD count 0 :: frame.drop (count + 1) := by
  rw [List.drop_eq_getElem_cons more, List.getD_eq_getElem?_getD, List.getElem?_eq_getElem more,
    Option.getD_some]

private theorem run_rest (once : FeedsOnce feed)
    (conforms : Conforms bufSize processor frame report)
    (fits : frame.length ≤ bufSize - bufSize / 3)
    (receiving : Receiving bufSize enabledMask processor frame count c) (begun : 1 ≤ count)
    (more : count < frame.length) :
    (run feed c (frame.drop count)).2 =
        List.replicate (frame.length - (count + 1)) [] ++ [[report]] ∧
      Reported bufSize enabledMask processor report (run feed c (frame.drop count)).1 := by
  induction left : frame.length - (count + 1) generalizing count c with
  | zero =>
    obtain ⟨sound, -, -, -, -, tail, -, -⟩ := receiving_arrived receiving begun more fits
    obtain ⟨outputs, after⟩ := receiving_accepts conforms receiving begun (by omega) fits
    have fed := once c (frame.getD count 0) sound.toReady (by omega) (Nat.le_of_eq after.tail)
    rw [drop_split more, List.drop_eq_nil_of_le (by omega), run_cons, fed, outputs]
    exact ⟨rfl, after⟩
  | succ left ih =>
    obtain ⟨sound, -, -, -, -, tail, -, -⟩ := receiving_arrived receiving begun more fits
    obtain ⟨silent, next⟩ := receiving_waits conforms receiving begun (by omega) fits
    have fed := once c (frame.getD count 0) sound.toReady (by omega) (Nat.le_of_eq next.tail)
    have quiet : Instance.outputs (c.arrived (frame.getD count 0)).turn = [] := if_pos silent
    obtain ⟨outputs, after⟩ := ih next (by omega) (by omega) (by omega)
    rw [drop_split more, run_cons, fed, quiet, outputs]
    exact ⟨rfl, after⟩

/-- A frame that comes to an instance between two frames is reported at its last byte. -/
theorem run_frame_last (once : FeedsOnce feed)
    (conforms : Conforms bufSize processor frame report)
    (fits : frame.length ≤ bufSize - bufSize / 3)
    (enabled : enabledMask &&& processor.enableBit ≠ 0)
    (boundary : Boundary bufSize enabledMask c) :
    (run feed c frame).2 = List.replicate (frame.length - 1) [] ++ [[report]] ∧
      Reported bufSize enabledMask processor report (run feed c frame).1 := by
  have long := conforms.long
  obtain ⟨ready, inside, silent, receiving⟩ :=
    boundary_start boundary (by omega) enabled conforms.start
  have fed := once c (frame.getD 0 0) ready inside (Nat.le_of_eq receiving.tail)
  have quiet : Instance.outputs (c.arrived (frame.getD 0 0)).turn = [] := if_pos silent
  have first : frame.drop 0 = frame.getD 0 0 :: frame.drop 1 := drop_split (by omega)
  have whole : run feed c frame = run feed c (frame.getD 0 0 :: frame.drop 1) :=
    congrArg (run feed c) (frame.drop_zero.symm.trans first)
  obtain ⟨outputs, after⟩ := run_rest once conforms fits receiving (Nat.le_refl 1) (by omega)
  have count : frame.length - 1 = frame.length - (1 + 1) + 1 := by omega
  rw [whole, run_cons, fed, quiet, outputs, count, List.replicate_succ]
  exact ⟨rfl, after⟩

/-- It is reported once, and leaves the instance between two frames. -/
theorem run_frame (once : FeedsOnce feed) (conforms : Conforms bufSize processor frame report)
    (fits : frame.length ≤ bufSize - bufSize / 3)
    (enabled : enabledMask &&& processor.enableBit ≠ 0)
    (boundary : Boundary bufSize enabledMask c) :
    (run feed c frame).2.flatten = [report] ∧
      Boundary bufSize enabledMask (run feed c frame).1 := by
  obtain ⟨outputs, after⟩ := run_frame_last once conforms fits enabled boundary
  rw [outputs]
  exact ⟨by simp, after.toBoundary⟩

end OneFrame

/-! ### Streams of frames -/

/-- A frame of one of the protocols a fresh instance has enabled. -/
inductive Frame where
  | isb (flags id : UInt8) (payload : List UInt8)
  | nmea (text : List UInt8) (high low : UInt8)
  | ublox (msgClass msgId : UInt8) (payload : List UInt8)
  | rtcm3 (upper : UInt8) (payload : List UInt8)

namespace Frame

def bytes : Frame → List UInt8
  | isb flags id payload => isbFrame flags id payload
  | nmea text high low => nmeaFrame text high low
  | ublox msgClass msgId payload => ubloxFrame msgClass msgId payload
  | rtcm3 upper payload => rtcm3Frame upper payload

/-- The frame is well-formed and not longer than its protocol allows. An NMEA sentence has
a text of two or more characters, its carriage return is at the end, and its digits are those
of its checksum. -/
def WellFormed : Frame → Prop
  | isb _ _ payload => 8 + payload.length ≤ pktBufSize
  | nmea text high low =>
    0x0D ∉ text ∧ NmeaCksum text high low ∧ 2 ≤ text.length ∧ text.length + 6 ≤ 200
  | ublox _ _ payload => 8 + payload.length ≤ 1024
  | rtcm3 upper payload => upper.toNat % 4 = payload.length / 256 ∧ 6 + payload.length ≤ 1023

/-- What has to be reported of the frame, if it is of a supported kind. -/
def report? : Frame → Option Report
  | isb flags id payload =>
    (isbFrameType flags id payload).map fun ptype =>
      { ptype, packet := some (isbFrameView flags id payload) }
  | nmea text high low => some { ptype := .nmea, packet := some (nmeaFrameView text high low) }
  | ublox msgClass msgId payload =>
    some
      { ptype := .ublox
        packet := some (wholeView msgClass.toNat (ubloxFrame msgClass msgId payload)) }
  | rtcm3 upper payload =>
    some { ptype := .rtcm3, packet := some (rtcm3FrameView upper payload) }

/-- An RTCM3 frame leaves six bytes of the buffer free. -/
def LeavesRoom (bufSize : Nat) : Frame → Prop
  | rtcm3 upper payload => (rtcm3Frame upper payload).length + 6 ≤ bufSize
  | _ => True

/-- The processor of the frame's protocol. -/
def processor : Frame → Processor
  | isb .. => .isb
  | nmea .. => .nmea
  | ublox .. => .ublox
  | rtcm3 .. => .rtcm3

theorem conforms {frame : Frame} {bufSize : Nat} {report : Report} (wellFormed : frame.WellFormed)
    (supported : frame.report? = some report) (size : bufSize < 2 ^ 31)
    (room : frame.LeavesRoom bufSize) :
    Conforms bufSize frame.processor frame.bytes report := by
  cases frame with
  | isb flags id payload =>
    obtain ⟨ptype, type, rfl⟩ := Option.map_eq_some_iff.mp supported
    exact isbFrame_conforms bufSize wellFormed type
  | nmea text high low =>
    obtain ⟨plain, cksum, long, fits⟩ := wellFormed
    cases supported
    exact nmeaFrame_conforms bufSize plain cksum long fits
  | ublox msgClass msgId payload =>
    cases supported
    exact ubloxFrame_conforms bufSize wellFormed
  | rtcm3 upper payload =>
    obtain ⟨field, fits⟩ := wellFormed
    cases supported
    simp only [LeavesRoom, rtcm3Frame_length] at room
    exact rtcm3Frame_conforms field fits size room

end Frame

/-- All bytes of a frame are fed, and what was reported meanwhile is collected. -/
def feedFrame (c : Instance) (frame : Frame) : Instance × List Report :=
  ((run Instance.feedByte c frame.bytes).1, (run Instance.feedByte c frame.bytes).2.flatten)

/-- What was reported while a frame was fed is the frame, if it is of a supported kind. -/
def Delivered (frame : Frame) (reports : List Report) : Prop :=
  ∀ report, frame.report? = some report → reports = [report]

theorem started_boundary (mem : Nat → UInt8) (bufSize : Nat) (enabledMask : UInt32) :
    Boundary bufSize enabledMask (started mem bufSize enabledMask) :=
  ⟨(started_resting mem bufSize enabledMask).toSound, rfl, rfl, rfl, rfl, rfl, Nat.zero_le _⟩

private theorem delivered_unsupported {frames : List Frame} {outputs : List (List Report)}
    (unsupported : ∀ frame ∈ frames, frame.report? = none)
    (length : outputs.length = frames.length) : List.Forall₂ Delivered frames outputs := by
  induction frames generalizing outputs with
  | nil => cases List.eq_nil_of_length_eq_zero length; exact .nil
  | cons frame rest ih =>
    cases outputs with
    | nil => cases length
    | cons reports outputs =>
      refine .cons ?_ (ih (fun later member => unsupported later (.tail _ member)) (by simpa using length))
      intro report supported
      rw [unsupported frame (.head _)] at supported
      cases supported

private theorem boundary_delivered {bufSize : Nat} (size : bufSize < 2 ^ 31) {frames : List Frame}
    {c : Instance} (boundary : Boundary bufSize 0x0F c)
    (wellFormed : ∀ frame ∈ frames, frame.WellFormed)
    (fits : ∀ frame ∈ frames, frame.bytes.length ≤ bufSize - bufSize / 3)
    (room : ∀ frame ∈ frames, frame.LeavesRoom bufSize)
    (order : frames.Pairwise fun earlier later => later.report?.isSome → earlier.report?.isSome) :
    List.Forall₂ Delivered frames (run feedFrame c frames).2 := by
  induction frames generalizing c with
  | nil => exact .nil
  | cons frame rest ih =>
    obtain ⟨first, later⟩ := List.pairwise_cons.mp order
    cases supported : frame.report? with
    | none =>
      apply delivered_unsupported _ (run_length ..)
      intro other member
      rcases List.mem_cons.mp member with rfl | member
      · exact supported
      · by_contra reported
        have := first other member (Option.isSome_iff_ne_none.mpr reported)
        simp [supported] at this
    | some report =>
      have conforms := Frame.conforms (wellFormed frame (.head _)) supported size (room frame (.head _))
      have enabled : (0x0F : UInt32) &&& frame.processor.enableBit ≠ 0 := by
        cases frame <;> dsimp only [Frame.processor, Processor.enableBit] <;> decide
      obtain ⟨reported, next⟩ :=
        run_frame feedByte_feedsOnce conforms (fits frame (.head _)) enabled boundary
      refine .cons ?_ (ih next (fun other member => wellFormed other (.tail _ member))
        (fun other member => fits other (.tail _ member))
        (fun other member => room other (.tail _ member)) later)
      intro other same
      rw [supported] at same
      cases same
      exact reported

/-- In every stream in which no supported frame comes after a refused one, each supported
frame is reported once, while its bytes are fed. `bufferSize` is an `int`. -/
theorem frames_delivered (mem : Nat → UInt8) {bufferSize : Nat} (size : bufferSize < 2 ^ 31)
    {frames : List Frame} (wellFormed : ∀ frame ∈ frames, frame.WellFormed)
    (fits : ∀ frame ∈ frames, frame.bytes.length ≤ bufferSize - bufferSize / 3)
    (room : ∀ frame ∈ frames, frame.LeavesRoom bufferSize)
    (order : frames.Pairwise fun earlier later => later.report?.isSome → earlier.report?.isSome) :
    List.Forall₂ Delivered frames (run feedFrame (isCommInit mem bufferSize) frames).2 :=
  boundary_delivered size (started_boundary mem bufferSize 0x0F) wellFormed fits room order

/-- One frame of each protocol, and a refused frame at the end. -/
def mixedFrames : List Frame :=
  [.isb 0x01 0 [], .nmea [0x41, 0x42] 0x30 0x33, .rtcm3 0 [0x3E, 0xD0], .ublox 0x05 0x01 [6, 1],
    .isb 0x00 0 []]

theorem frames_delivered_mixed :
    List.Forall₂ Delivered mixedFrames (run feedFrame (isCommInit (fun _ => 0) 20) mixedFrames).2 := by
  refine frames_delivered (fun _ => 0) (by decide) ?_ (by decide +kernel) ?_ (by decide +kernel)
  · have digits : NmeaCksum [0x41, 0x42] 0x30 0x33 := ⟨0, 3, by decide, by decide, by decide⟩
    simp [mixedFrames, Frame.WellFormed, pktBufSize, digits]
  · simp [mixedFrames, Frame.LeavesRoom]

/-- A frame of the packet type 0, then an acknowledge frame. -/
def refusedThenAck : List Frame := [.isb 0x00 0 [], .isb 0x01 0 []]

/-- The frame after a refused one is lost. -/
theorem frame_after_refused_lost :
    (∀ frame ∈ refusedThenAck, frame.WellFormed ∧ frame.bytes.length ≤ 32 - 32 / 3) ∧
      ¬List.Forall₂ Delivered refusedThenAck
        (run feedFrame (isCommInit (fun _ => 0) 32) refusedThenAck).2 := by
  refine ⟨by simp [refusedThenAck, Frame.WellFormed, Frame.bytes, pktBufSize], ?_⟩
  intro delivered
  obtain _ | ⟨-, _ | ⟨second, -⟩⟩ := delivered
  exact absurd (second _ rfl) (by decide +kernel)

end InertialSense.Comm
