import InertialSense.Comm.Delivery
import InertialSense.Comm.Reached

/-! A frame that comes, byte by byte, to a parser that is idle: what the checks of its protocol
say about its bytes is what happens at its bytes. -/

namespace InertialSense.Comm

open Foundation

/-- No packet is in progress, and all bytes are consumed. Bytes that were skipped may still be
in the buffer. -/
structure Idle (bufSize : Nat) (enabledMask : UInt32) (c : Instance) : Prop where
  size : c.bufSize = bufSize
  mask : c.enabledMask = enabledMask
  idle : c.processPkt = none
  ordered : c.head ≤ c.scan
  tail : c.tail = c.scan
  inside : c.tail ≤ c.bufSize

/-- The first bytes of a frame are in the buffer, and its processor waits for more. -/
structure Holding (bufSize : Nat) (enabledMask : UInt32) (processor : Processor)
    (frame : List UInt8) (count : Nat) (c : Instance) : Prop where
  reached : c.Reached
  size : c.bufSize = bufSize
  mask : c.enabledMask = enabledMask
  busy : c.processPkt = some processor
  scan : c.scan = c.head + count
  tail : c.tail = c.scan
  inside : c.tail ≤ c.bufSize
  bytes : ∀ k < count, c.byteAt k = frame.getD k 0

namespace Instance

variable {c : Instance}

/-- A search that looks at the last byte and does not go back. -/
theorem isCommParse_once (ordered : c.head ≤ c.scan) (inside : c.scan < c.tail)
    (last : c.turn.1.tail ≤ c.turn.1.scan) :
    c.isCommParse = if c.turn.2 = .none then (c.turn.1.recordTime 0, .none) else c.turn := by
  obtain ⟨-, less⟩ := turn_progress ordered inside
  obtain ⟨fuel, some⟩ : ∃ fuel, c.budget = fuel + 1 := ⟨c.budget - 1, by omega⟩
  have rests : search fuel c.turn.1 = (c.turn.1, .none) := by
    cases fuel with
    | zero => rfl
    | succ fuel => exact if_neg (Nat.not_lt.mpr last)
  have found : search c.budget c = if c.turn.2 = .none then (c.turn.1, .none) else c.turn := by
    rw [some, ← rests]
    exact if_pos inside
  unfold isCommParse isCommParseTimeout
  rw [checkTimeout_zero]
  simp only [found]
  by_cases silent : c.turn.2 = .none
  · simp only [if_pos silent, if_true]
  · simp only [if_neg silent]

end Instance

section Frame

variable {bufSize : Nat} {enabledMask : UInt32} {processor : Processor} {frame : List UInt8}
  {count : Nat} {c : Instance}

/-- Making room while idle: what is left of skipped bytes is dropped or moved. -/
theorem Idle.free (idle : Idle bufSize enabledMask c) (room : 3 ≤ bufSize) :
    Idle bufSize enabledMask c.isCommFree.1 ∧ c.isCommFree.1.tail < bufSize := by
  obtain ⟨size, mask, rest, ordered, tail, inside⟩ := idle
  by_cases full : c.tail = c.bufSize
  · rw [Instance.isCommFree_full full]
    split
    · refine ⟨⟨?_, ?_, ?_, Nat.le_refl 0, rfl, Nat.zero_le _⟩, by show 0 < bufSize; omega⟩
      · simpa [Instance.flushed, Instance.parseErrorResetState, Instance.resetParser] using size
      · simpa [Instance.flushed, Instance.parseErrorResetState, Instance.resetParser] using mask
      · simp [Instance.flushed]
    · refine ⟨⟨size, mask, rest, Nat.zero_le _, ?_, ?_⟩, ?_⟩
      · show c.tail - c.head = c.scan - c.head
        rw [tail]
      · show c.tail - c.head ≤ c.bufSize
        omega
      · show c.tail - c.head < bufSize
        omega
  · rw [Instance.isCommFree_of_room full]
    exact ⟨⟨size, mask, rest, ordered, tail, inside⟩, by show c.tail < bufSize; omega⟩

theorem Idle.first (idle : Idle bufSize enabledMask c) (room : 3 ≤ bufSize)
    (enabled : enabledMask &&& processor.enableBit ≠ 0)
    (start : frame.getD 0 0 = processor.startByte) :
    (c.parseByte (frame.getD 0 0)).2 = [] ∧
      Holding bufSize enabledMask processor frame 1 (c.parseByte (frame.getD 0 0)).1 := by
  obtain ⟨⟨size, mask, rest, ordered, tail, inside⟩, more⟩ := idle.free room
  unfold Instance.parseByte Instance.isCommParseByte Instance.isCommParseByteTimeout
  generalize c.isCommFree.1 = d at *
  obtain ⟨here, before, turn⟩ := turn_first rest tail (mask.symm ▸ enabled) start
  have reached : (d.append [frame.getD 0 0]).Reached := .of_idle ordered rest
  have next := reached.turn before
  have once := Instance.isCommParse_once (c := d.append [frame.getD 0 0]) ordered before (by
    rw [turn]
    show d.tail + 1 ≤ d.scan + 1
    omega)
  change (d.append [frame.getD 0 0]).isCommParseTimeout 0 = _ at once
  rw [turn] at once next
  rw [once]
  refine ⟨rfl, next.recordTime 0, size, mask, rfl, rfl, ?_, ?_, ?_⟩
  · show d.tail + 1 = d.scan + 1
    omega
  · show d.tail + 1 ≤ d.bufSize
    omega
  · intro k small
    obtain rfl : k = 0 := by omega
    exact here

/-- Making room within a frame that is not longer than two thirds of the buffer. -/
theorem Holding.free (holding : Holding bufSize enabledMask processor frame count c)
    (fits : count < bufSize - bufSize / 3) :
    Holding bufSize enabledMask processor frame count c.isCommFree.1 ∧
      c.isCommFree.1.tail < bufSize := by
  obtain ⟨reached, rfl, mask, busy, scan, tail, inside, bytes⟩ := holding
  have keeps := Instance.isCommFree_keeps scan tail inside fits
  refine ⟨⟨reached.isCommFree, keeps.size, keeps.mask.trans mask, keeps.processPkt.trans busy,
    keeps.scan, keeps.tail, ?_, fun k small => (keeps.bytes k small).trans (bytes k small)⟩, keeps.room⟩
  rw [keeps.size]
  exact Nat.le_of_lt keeps.room

/-- The next byte of the frame is in the buffer, and the loop looks at it. -/
structure Looking (bufSize : Nat) (enabledMask : UInt32) (processor : Processor)
    (frame : List UInt8) (count : Nat) (c : Instance) : Prop where
  reached : c.Reached
  size : c.bufSize = bufSize
  mask : c.enabledMask = enabledMask
  busy : c.processPkt = some processor
  scan : c.scan = c.head + count
  tail : c.tail = c.scan + 1
  inside : c.tail ≤ c.bufSize
  bytes : ∀ k < count + 1, c.byteAt k = frame.getD k 0

theorem Holding.arrived (holding : Holding bufSize enabledMask processor frame count c)
    (fits : count < bufSize - bufSize / 3) :
    Looking bufSize enabledMask processor frame count (c.arrived (frame.getD count 0)) := by
  obtain ⟨⟨reached, size, mask, busy, scan, tail, inside, bytes⟩, room⟩ := holding.free fits
  unfold Instance.arrived
  generalize c.isCommFree.1 = d at *
  refine ⟨reached.append _, size, mask, busy, scan, ?_, ?_, ?_⟩
  · show d.tail + 1 = d.scan + 1
    rw [tail]
  · show d.tail + 1 ≤ d.bufSize
    omega
  · exact fun k small => append_bytes scan tail bytes small

namespace Looking

/-- The checks of the protocol are about the bytes of the frame. -/
theorem decides (looking : Looking bufSize enabledMask processor frame count c)
    (other : processor ≠ .isb) :
    c.Decides processor (processor.verdict bufSize (fun k => frame.getD k 0) (count + 1)) := by
  obtain ⟨reached, size, -, busy, scan, -, -, bytes⟩ := looking
  have decides := reached.decides busy other
  have number : c.numBytes = count + 1 := by
    unfold Instance.numBytes
    omega
  rw [number, size, Processor.verdict_congr bytes] at decides
  exact decides

/-- Where the checks do not say anything yet, the processor waits. -/
theorem waits (looking : Looking bufSize enabledMask processor frame count c)
    (other : processor ≠ .isb)
    (verdict : processor.verdict bufSize (fun k => frame.getD k 0) (count + 1) = .incomplete) :
    c.isCommParse.2 = .none ∧
      Holding bufSize enabledMask processor frame (count + 1) c.isCommParse.1 := by
  have decides := looking.decides other
  rw [verdict] at decides
  obtain ⟨state, length, waits, -⟩ := decides
  obtain ⟨reached, size, mask, busy, scan, tail, inside, bytes⟩ := looking
  have turn := Instance.turn_busy busy
  rw [waits] at turn
  have next := reached.turn (by omega)
  have once := Instance.isCommParse_once reached.ordered (by omega) (by
    rw [turn]
    exact Nat.le_of_eq tail)
  rw [turn] at once next
  rw [once]
  have running : (((c.setState state).setSize length).advance).processPkt.isSome := by
    show c.processPkt.isSome
    rw [busy]
    rfl
  have records : (((c.setState state).setSize length).advance.recordTime 0) =
      { ((c.setState state).setSize length).advance with
        parser := { ((c.setState state).setSize length).advance.parser with timeMs := 0 } } :=
    if_pos running
  refine ⟨rfl, ?_⟩
  show Holding bufSize enabledMask processor frame (count + 1)
    (((c.setState state).setSize length).advance.recordTime 0)
  have reached' := next.recordTime 0
  rw [records] at reached' ⊢
  refine ⟨reached', size, mask, busy, ?_, tail, inside, bytes⟩
  show c.scan + 1 = c.head + (count + 1)
  omega

theorem accepts (looking : Looking bufSize enabledMask processor frame count c)
    (other : processor ≠ .isb) {length : Nat} {positive : 0 < length} {report : Report}
    (verdict : processor.verdict bufSize (fun k => frame.getD k 0) (count + 1) =
      .accepted length positive report) :
    length = count + 1 ∧ Instance.outputs c.isCommParse = [report] ∧
      Idle bufSize enabledMask c.isCommParse.1 := by
  have decides := looking.decides other
  rw [verdict] at decides
  obtain ⟨whole, packet, -, pkt, ackNeeded, accepts, reported⟩ := decides
  obtain ⟨reached, size, mask, busy, scan, tail, inside, bytes⟩ := looking
  have number : c.numBytes = count + 1 := by
    unfold Instance.numBytes
    omega
  have turn := Instance.turn_busy busy
  rw [accepts] at turn
  have once := Instance.isCommParse_once reached.ordered (by omega) (by
    rw [turn]
    exact Nat.le_of_eq tail)
  rw [turn] at once
  rw [once, if_neg packet]
  refine ⟨whole.trans number, ?_, size, mask, rfl, ?_, tail, inside⟩
  · unfold Instance.outputs
    rw [if_neg packet]
    exact congrArg (fun found => [found]) reported
  · show c.head + c.numBytes ≤ c.scan + 1
    omega

end Looking

/-- The bytes of a frame behind those that are held, up to the one that completes it. -/
private theorem run_held (other : processor ≠ .isb) {length : Nat} {positive : 0 < length}
    {report : Report} (whole : length = frame.length)
    (accepted : processor.verdict bufSize (fun k => frame.getD k 0) frame.length =
      .accepted length positive report)
    (fits : frame.length ≤ bufSize - bufSize / 3)
    (holding : Holding bufSize enabledMask processor frame count c) (more : count < frame.length) :
    (run Instance.parseByte c (frame.drop count)).2 =
        List.replicate (frame.length - (count + 1)) [] ++ [[report]] ∧
      Idle bufSize enabledMask (run Instance.parseByte c (frame.drop count)).1 := by
  induction left : frame.length - (count + 1) generalizing count c with
  | zero =>
    have last : frame.length = count + 1 := by omega
    have looking := holding.arrived (by omega)
    rw [last] at accepted
    obtain ⟨-, outputs, idle⟩ := looking.accepts other accepted
    rw [drop_split more, List.drop_eq_nil_of_le (by omega), run_cons]
    refine ⟨?_, idle⟩
    show [Instance.outputs (c.arrived (frame.getD count 0)).isCommParse] = _
    rw [outputs]
    rfl
  | succ left ih =>
    have looking := holding.arrived (by omega)
    have undecided : processor.verdict bufSize (fun k => frame.getD k 0) (count + 1) =
        .incomplete := by
      by_contra decided
      -- The verdict would stay, so a longer frame would have been accepted here.
      have same := Processor.verdict_stable (by omega : count + 1 ≤ frame.length) decided
      rw [accepted] at same
      have early := (looking.accepts other same.symm).1
      omega
    obtain ⟨silent, next⟩ := looking.waits other undecided
    obtain ⟨outputs, idle⟩ := ih next (by omega) (by omega)
    rw [drop_split more, run_cons]
    refine ⟨?_, idle⟩
    show Instance.outputs (c.arrived (frame.getD count 0)).isCommParse :: _ = _
    have quiet : Instance.outputs (c.arrived (frame.getD count 0)).isCommParse = [] := if_pos silent
    rw [quiet, List.replicate_succ]
    exact congrArg ([] :: ·) outputs

theorem Idle.run_frame (idle : Idle bufSize enabledMask c) (room : 3 ≤ bufSize)
    (other : processor ≠ .isb) (enabled : enabledMask &&& processor.enableBit ≠ 0)
    (start : frame.getD 0 0 = processor.startByte) {length : Nat} {positive : 0 < length}
    {report : Report} (whole : length = frame.length)
    (accepted : processor.verdict bufSize (fun k => frame.getD k 0) frame.length =
      .accepted length positive report)
    (fits : frame.length ≤ bufSize - bufSize / 3) :
    (run Instance.parseByte c frame).2 = List.replicate (frame.length - 1) [] ++ [[report]] ∧
      Idle bufSize enabledMask (run Instance.parseByte c frame).1 := by
  have two : 1 < frame.length := by
    by_contra one
    have length : frame.length = 1 := by omega
    rw [length, Processor.verdict_one bufSize start] at accepted
    cases accepted
  obtain ⟨silent, holding⟩ := idle.first room enabled start
  have first : frame.drop 0 = frame.getD 0 0 :: frame.drop 1 := drop_split (by omega)
  obtain ⟨outputs, after⟩ := run_held other whole accepted fits holding two
  have split : run Instance.parseByte c frame =
      run Instance.parseByte c (frame.getD 0 0 :: frame.drop 1) :=
    congrArg (run Instance.parseByte c) (frame.drop_zero.symm.trans first)
  have count : frame.length - 1 = frame.length - (1 + 1) + 1 := by omega
  rw [split, run_cons, silent, outputs, count, List.replicate_succ]
  exact ⟨rfl, after⟩

end Frame

end InertialSense.Comm
