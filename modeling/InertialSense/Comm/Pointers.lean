import InertialSense.Comm.Chunking

/-! The pointers of the receive buffer over whole runs: `head <= scan <= tail`, as written
beside `is_comm_buffer_t.scan`, and `scan` passes over no byte that the loop has not looked
at. -/

namespace InertialSense.Comm

open Foundation

namespace Instance

/-- The byte at `scan` completes an ISB frame with a right checksum, but of a type or size
that is not supported. -/
def Refuses (c : Instance) : Prop :=
  c.processPkt = some .isb ∧ c.IsbComplete ∧ c.isbCksumPasses ∧ c.isbSwitch.1 = none

instance : DecidablePred Refuses := fun _ =>
  inferInstanceAs (Decidable (_ ∧ (_ ∧ _ ∧ _) ∧ _ ∧ _))

/-- The predicate holds in every pass of the loop up to its next result. -/
def SearchAll (predicate : Instance → Prop) : Nat → Instance → Prop
  | 0, _ => True
  | fuel + 1, c =>
    c.scan < c.tail →
      predicate c ∧ (c.turn.2 = .none → SearchAll predicate fuel c.turn.1)

instance SearchAll.decidable (predicate : Instance → Prop) [DecidablePred predicate] :
    (fuel : Nat) → (c : Instance) → Decidable (SearchAll predicate fuel c)
  | 0, _ => isTrue trivial
  | fuel + 1, c =>
    haveI := SearchAll.decidable predicate fuel c.turn.1
    inferInstanceAs (Decidable (_ → _ ∧ (_ → _)))

/-- How far the bytes from the start of the buffer have been looked at without a gap, once
the loop looks at the byte at `scan`. -/
def examine (c : Instance) (examined : Nat) : Nat :=
  if c.scan ≤ examined then max examined (c.scan + 1) else examined

/-- The same after the loop has run to its next result. -/
def examineAll : Nat → Instance → Nat → Nat
  | 0, _, examined => examined
  | fuel + 1, c, examined =>
    if c.scan < c.tail then
      if c.turn.2 = .none then examineAll fuel c.turn.1 (c.examine examined)
      else c.examine examined
    else examined

end Instance

/-- An instance and how many bytes from the start of its buffer have been looked at. -/
structure Watched where
  inst : Instance
  examined : Nat

/-- The operations a caller can mix. -/
inductive Call where
  | free
  | parseByte (byte : UInt8) (timeMs : UInt32)
  | parse (bytes : List UInt8) (timeMs : UInt32)

namespace Watched

/-- `is_comm_free` moves the bytes that were looked at along with the data. -/
def free (w : Watched) : Watched :=
  { inst := w.inst.isCommFree.1
    examined :=
      if w.inst.tail = w.inst.bufSize then
        if w.inst.head < w.inst.bufSize / 3 then 0 else w.examined - w.inst.head
      else w.examined }

/-- The bytes are appended and `is_comm_parse_timeout` is called. -/
def parse (w : Watched) (bytes : List UInt8) (timeMs : UInt32) : Watched × ProtocolType :=
  let started := (w.inst.append bytes).checkTimeout timeMs
  let answer := (w.inst.append bytes).isCommParseTimeout timeMs
  ({ inst := answer.1, examined := started.examineAll started.budget w.examined }, answer.2)

/-- One operation of the caller. A call of `is_comm_free` precedes every append. -/
def call (w : Watched) : Call → Watched × ProtocolType
  | .free => (w.free, .none)
  | .parseByte byte timeMs => w.free.parse [byte] timeMs
  | .parse bytes timeMs => w.free.parse bytes timeMs

/-- The bytes fit, and no pass of the loop completes a refused frame. -/
def Permits (w : Watched) (bytes : List UInt8) (timeMs : UInt32) : Prop :=
  bytes.length ≤ w.inst.isCommFree.2 ∧
    ((w.free.inst.append bytes).checkTimeout timeMs).SearchAll (fun c => ¬c.Refuses)
      ((w.free.inst.append bytes).checkTimeout timeMs).budget

/-- The calls under which the pointers stay in order. -/
def Permitted (w : Watched) : Call → Prop
  | .free => True
  | .parseByte byte timeMs => w.Permits [byte] timeMs
  | .parse bytes timeMs => w.Permits bytes timeMs

instance (w : Watched) (c : Call) : Decidable (w.Permitted c) :=
  match c with
  | .free => isTrue trivial
  | .parseByte _ _ | .parse _ _ => inferInstanceAs (Decidable (_ ∧ _))

/-- `start <= head <= scan <= tail <= end`, and every byte before `scan` was looked at. -/
structure Ordered (w : Watched) : Prop where
  headScan : w.inst.head ≤ w.inst.scan
  scanTail : w.inst.scan ≤ w.inst.tail
  tailEnd : w.inst.tail ≤ w.inst.bufSize
  seen : w.inst.scan ≤ w.examined
  started : w.inst.processPkt.isSome → w.inst.head < w.inst.scan

end Watched

namespace Instance

variable {c : Instance}

/-- Unless it refuses a frame, a pass moves over the current byte at most. -/
theorem turn_scan_le (ordered : c.head ≤ c.scan) (supported : ¬c.Refuses) :
    c.turn.1.scan ≤ c.scan + 1 := by
  generalize after : c.turn = answer
  have pass : Pass c answer := after ▸ c.turn_pass
  cases pass with
  | skips | starts => exact Nat.le_refl _
  | stops => simp
  | processes processor busy given outcome =>
    cases outcome with
    | waits | accepts => exact Nat.le_refl _
    | rejects => simpa [parseErrorResetState, resetParser, setState, setSize] using ordered
    | refuses _ _ isb complete passes falls =>
      exact absurd ⟨by rw [busy, isb], complete, passes, falls⟩ supported

theorem turn_ordered {examined : Nat} (ordered : Watched.Ordered ⟨c, examined⟩)
    (inside : c.scan < c.tail) (supported : ¬c.Refuses) :
    Watched.Ordered ⟨c.turn.1, c.examine examined⟩ := by
  obtain ⟨headScan, scanTail, tailEnd, seen, started⟩ := ordered
  obtain ⟨-, size, tail, -, -⟩ := c.turn_frame
  have looked : c.examine examined = max examined (c.scan + 1) := if_pos seen
  dsimp only at headScan scanTail tailEnd seen started
  have moved := turn_scan_le headScan supported
  refine ⟨?_, ?_, ?_, ?_, ?_⟩
  · exact (turn_progress headScan inside).1
  · show c.turn.1.scan ≤ c.turn.1.tail
    omega
  · show c.turn.1.tail ≤ c.turn.1.bufSize
    omega
  · show c.turn.1.scan ≤ c.examine examined
    omega
  · show c.turn.1.processPkt.isSome → c.turn.1.head < c.turn.1.scan
    intro running
    cases turn_moves headScan with
    | starts idle busy' head scan => omega
    | waits busy busy' head scan =>
      have := started busy
      omega
    | skips _ idle' | stops _ idle' | rejects _ idle' | accepts _ idle' | refuses _ idle' =>
      simp [idle'] at running

theorem search_ordered {fuel examined : Nat} (ordered : Watched.Ordered ⟨c, examined⟩)
    (supported : SearchAll (fun c => ¬c.Refuses) fuel c) :
    Watched.Ordered ⟨(search fuel c).1, examineAll fuel c examined⟩ := by
  induction fuel generalizing c examined with
  | zero => exact ordered
  | succ fuel ih =>
    unfold search examineAll
    split
    case isFalse => exact ordered
    case isTrue inside =>
      obtain ⟨now, later⟩ := supported inside
      have next := turn_ordered ordered inside now
      split
      case isTrue silent => exact ih next (later silent)
      case isFalse => exact next

end Instance

namespace Watched

variable {w : Watched}

theorem free_ordered (ordered : w.Ordered) : w.free.Ordered := by
  obtain ⟨headScan, scanTail, tailEnd, seen, started⟩ := ordered
  by_cases full : w.inst.tail = w.inst.bufSize
  · by_cases low : w.inst.head < w.inst.bufSize / 3
    · have same : w.free = ⟨w.inst.flushed, 0⟩ := by
        unfold free
        rw [Instance.isCommFree_full full, if_pos full, if_pos low, if_pos low]
      rw [same]
      exact ⟨Nat.le_refl 0, Nat.le_refl 0, Nat.zero_le _, Nat.le_refl 0,
        fun busy => by simp [Instance.flushed] at busy⟩
    · have same : w.free = ⟨w.inst.shifted, w.examined - w.inst.head⟩ := by
        unfold free
        rw [Instance.isCommFree_full full, if_pos full, if_neg low, if_neg low]
      rw [same]
      refine ⟨Nat.zero_le _, ?_, ?_, ?_, fun busy => ?_⟩
      · show w.inst.scan - w.inst.head ≤ w.inst.tail - w.inst.head
        omega
      · show w.inst.tail - w.inst.head ≤ w.inst.bufSize
        omega
      · show w.inst.scan - w.inst.head ≤ w.examined - w.inst.head
        omega
      · have := started busy
        show 0 < w.inst.scan - w.inst.head
        omega
  · have same : w.free = w := by
      unfold free
      rw [Instance.isCommFree_of_room full, if_neg full]
    rw [same]
    exact ⟨headScan, scanTail, tailEnd, seen, started⟩

private theorem checkTimeout_ordered (ordered : w.Ordered) (timeMs : UInt32) :
    Ordered ⟨w.inst.checkTimeout timeMs, w.examined⟩ := by
  obtain ⟨headScan, scanTail, tailEnd, seen, started⟩ := ordered
  unfold Instance.checkTimeout
  split
  case isTrue late =>
    have := started late.1
    refine ⟨Nat.le_refl _, ?_, tailEnd, ?_, fun busy => by cases busy⟩
    · show w.inst.head + 1 ≤ w.inst.tail
      omega
    · show w.inst.head + 1 ≤ w.examined
      omega
  case isFalse => exact ⟨headScan, scanTail, tailEnd, seen, started⟩

private theorem recordTime_ordered (ordered : w.Ordered) (timeMs : UInt32) :
    Ordered ⟨w.inst.recordTime timeMs, w.examined⟩ := by
  obtain ⟨headScan, scanTail, tailEnd, seen, started⟩ := ordered
  unfold Instance.recordTime
  split <;> exact ⟨headScan, scanTail, tailEnd, seen, started⟩

theorem parse_ordered {bytes : List UInt8} {timeMs : UInt32} (ordered : w.Ordered)
    (fits : w.inst.tail + bytes.length ≤ w.inst.bufSize)
    (supported : ((w.inst.append bytes).checkTimeout timeMs).SearchAll (fun c => ¬c.Refuses)
      ((w.inst.append bytes).checkTimeout timeMs).budget) :
    (w.parse bytes timeMs).1.Ordered := by
  obtain ⟨headScan, scanTail, tailEnd, seen, started⟩ := ordered
  have filled : Ordered ⟨w.inst.append bytes, w.examined⟩ :=
    ⟨headScan, Nat.le_trans scanTail (Nat.le_add_right ..), fits, seen, started⟩
  have searched := Instance.search_ordered (checkTimeout_ordered filled timeMs) supported
  unfold parse Instance.isCommParseTimeout
  dsimp only
  split
  · exact recordTime_ordered searched timeMs
  · exact searched

theorem call_ordered (call : Call) (ordered : w.Ordered) (permitted : w.Permitted call) :
    (w.call call).1.Ordered := by
  have parses (bytes : List UInt8) (timeMs : UInt32) (permits : w.Permits bytes timeMs) :
      (w.free.parse bytes timeMs).1.Ordered := by
    obtain ⟨fits, supported⟩ := permits
    have room := free_ordered ordered
    refine parse_ordered room ?_ supported
    have inside := room.tailEnd
    rw [Instance.isCommFree_snd] at fits
    show w.inst.isCommFree.1.tail + bytes.length ≤ w.inst.isCommFree.1.bufSize
    change w.inst.isCommFree.1.tail ≤ w.inst.isCommFree.1.bufSize at inside
    omega
  cases call with
  | free => exact free_ordered ordered
  | parseByte byte timeMs => exact parses [byte] timeMs permitted
  | parse bytes timeMs => exact parses bytes timeMs permitted

end Watched

/-- In every run whose operations have room for their bytes and complete no refused frame,
the pointers stay in order and no byte is passed over. -/
theorem run_pointers_ordered (mem : Nat → UInt8) (bufferSize : Nat) (enabledMask : UInt32)
    {calls : List Call}
    (permitted : Along Watched.call Watched.Permitted
      ⟨started mem bufferSize enabledMask, 0⟩ calls) :
    (run Watched.call ⟨started mem bufferSize enabledMask, 0⟩ calls).1.Ordered := by
  refine run_invariant (fun w call => Watched.call_ordered call) ?_ permitted
  exact ⟨Nat.le_refl 0, Nat.le_refl 0, Nat.zero_le _, Nat.le_refl 0, fun busy => by cases busy⟩

/-- A frame, the start of another one, a timeout, and the first frame again. -/
def timeoutCalls : List Call :=
  [.parse (ackFrame ++ ackFrame.take 3) 10, .parse [] 10, .free, .parse [0x00] 500] ++
    ackFrame.map fun byte => .parseByte byte 510

theorem run_pointers_ordered_timeout :
    (run Watched.call ⟨started (fun _ => 0) 14 0x0F, 0⟩ timeoutCalls).1.Ordered ∧
      (run Watched.call ⟨started (fun _ => 0) 14 0x0F, 0⟩ timeoutCalls).1.inst.rxPktCount = 2 :=
  ⟨run_pointers_ordered (fun _ => 0) 14 0x0F (by decide +kernel), by decide +kernel⟩

/-- An ISB frame of the packet type 0, with its checksum. -/
def invalidTypeFrame : List UInt8 := [0xEF, 0x49, 0x00, 0x00, 0x00, 0x00, 0x38, 0x07]

/-- After a refused frame `scan` is one byte past `tail`. -/
theorem refused_frame_scan_past_tail :
    ¬(run Watched.call ⟨started (fun _ => 0) 16 0x0F, 0⟩
        (invalidTypeFrame.map fun byte => .parseByte byte 0)).1.inst.scan ≤
      (run Watched.call ⟨started (fun _ => 0) 16 0x0F, 0⟩
        (invalidTypeFrame.map fun byte => .parseByte byte 0)).1.inst.tail := by
  decide +kernel

end InertialSense.Comm
