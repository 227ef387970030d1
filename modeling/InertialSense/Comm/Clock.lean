import InertialSense.Comm.Delivery

/-! The timeout of the parser on a millisecond clock of 32 bits that starts again at 0. -/

namespace InertialSense.Comm

open Foundation

namespace Instance

/-- The packet in progress is given up because of the time. -/
def Abandons (c : Instance) (timeMs : UInt32) : Prop :=
  c.processPkt.isSome ∧ (c.checkTimeout timeMs).processPkt = none

instance (c : Instance) (timeMs : UInt32) : Decidable (c.Abandons timeMs) :=
  inferInstanceAs (Decidable (_ ∧ _))

variable {c : Instance}

theorem abandons_iff (busy : c.processPkt.isSome) (timeMs : UInt32) :
    c.Abandons timeMs ↔ (c.parser.timeMs.toNat + 100) % 2 ^ 32 < timeMs.toNat := by
  have late : c.parser.timeMs + pktParserTimeoutMs < timeMs ↔
      (c.parser.timeMs.toNat + 100) % 2 ^ 32 < timeMs.toNat := by
    rw [UInt32.lt_iff_toNat_lt, UInt32.toNat_add]
    rfl
  rw [← late]
  unfold Abandons checkTimeout
  constructor
  · rintro ⟨-, stopped⟩
    split at stopped
    case isTrue overdue => exact overdue.2
    case isFalse => simp [stopped] at busy
  · intro overdue
    rw [if_pos ⟨busy, overdue⟩]
    exact ⟨busy, rfl⟩

/-! ### The recorded time -/

theorem search_timeMs (fuel : Nat) (c : Instance) :
    (search fuel c).1.parser.timeMs = c.parser.timeMs := by
  induction fuel generalizing c with
  | zero => rfl
  | succ fuel ih =>
    obtain ⟨-, -, -, -, time⟩ := c.turn_frame
    unfold search
    split
    · split
      · exact (ih _).trans time
      · exact time
    · rfl

theorem checkTimeout_timeMs (c : Instance) (timeMs : UInt32) :
    (c.checkTimeout timeMs).parser.timeMs = c.parser.timeMs := by
  unfold checkTimeout
  split <;> rfl

theorem isCommFree_timeMs (c : Instance) : c.isCommFree.1.parser.timeMs = c.parser.timeMs := by
  by_cases full : c.tail = c.bufSize
  · rw [isCommFree_full full]
    split
    · simp [flushed, parseErrorResetState, resetParser]
    · rfl
  · rw [isCommFree_of_room full]

/-- A call records its time if it returns with a packet in progress. -/
theorem isCommParseTimeout_timeMs (c : Instance) (timeMs : UInt32) :
    (c.isCommParseTimeout timeMs).1.parser.timeMs =
      if (c.isCommParseTimeout timeMs).2 = .none ∧
          (c.isCommParseTimeout timeMs).1.processPkt.isSome then timeMs
      else c.parser.timeMs := by
  have before := (search_timeMs (c.checkTimeout timeMs).budget (c.checkTimeout timeMs)).trans
    (c.checkTimeout_timeMs timeMs)
  unfold isCommParseTimeout
  dsimp only
  split
  case isTrue silent =>
    unfold recordTime
    split
    case isTrue busy => simp [busy]
    case isFalse idle => simp [idle, before]
  case isFalse found => simp [found, before]

end Instance

/-- An instance, and the reading of the clock that the parser recorded last. -/
structure Clocked where
  inst : Instance
  recorded : Nat

namespace Clocked

/-- `is_comm_parse_byte_timeout` with a byte that arrives at this reading of the clock. -/
def call (w : Clocked) (input : UInt8 × Nat) : Clocked × ProtocolType :=
  let answer := w.inst.isCommParseByteTimeout input.1 (UInt32.ofNat input.2)
  ({ inst := answer.1
     recorded := if answer.2 = .none ∧ answer.1.processPkt.isSome then input.2 else w.recorded },
    answer.2)

/-- A packet in progress is abandoned if more than `PKT_PARSER_TIMEOUT_MS` have passed, and
only then. -/
def Punctual (w : Clocked) (input : UInt8 × Nat) : Prop :=
  (w.inst.arrived input.1).processPkt.isSome →
    ((w.inst.arrived input.1).Abandons (UInt32.ofNat input.2) ↔
      100 < (input.2 - w.recorded) % 2 ^ 32)

/-- The clock has not started again since the time was recorded; if it was about to within the
next 100 ms, it has. -/
def SameLap (w : Clocked) (input : UInt8 × Nat) : Prop :=
  (w.inst.arrived input.1).processPkt.isSome →
    (w.recorded % 2 ^ 32 + 100 < 2 ^ 32 ↔ w.recorded % 2 ^ 32 ≤ input.2 % 2 ^ 32)

instance (w : Clocked) (input : UInt8 × Nat) : Decidable (w.Punctual input) :=
  inferInstanceAs (Decidable (_ → (_ ↔ _)))

instance (w : Clocked) (input : UInt8 × Nat) : Decidable (w.SameLap input) :=
  inferInstanceAs (Decidable (_ → (_ ↔ _)))

/-- The parser has the recorded time, as far as 32 bits tell it. -/
def Synchronized (w : Clocked) : Prop := w.inst.parser.timeMs = UInt32.ofNat w.recorded

variable {w : Clocked} {input : UInt8 × Nat}

theorem Synchronized.call (synchronized : w.Synchronized) : (w.call input).1.Synchronized := by
  have recorded := (w.inst.arrived input.1).isCommParseTimeout_timeMs (UInt32.ofNat input.2)
  have before : (w.inst.arrived input.1).parser.timeMs = UInt32.ofNat w.recorded :=
    w.inst.isCommFree_timeMs.trans synchronized
  show (w.inst.isCommParseByteTimeout input.1 (UInt32.ofNat input.2)).1.parser.timeMs = _
  rw [before] at recorded
  unfold Instance.isCommParseByteTimeout
  unfold Instance.arrived at recorded
  rw [recorded]
  unfold Clocked.call Instance.isCommParseByteTimeout
  dsimp only
  split <;> rfl

theorem call_recorded : (w.call input).1.recorded = input.2 ∨
    (w.call input).1.recorded = w.recorded := by
  unfold call
  dsimp only
  split
  · exact .inl rfl
  · exact .inr rfl

/-- In one call the timeout is right exactly if both readings are of the same lap. -/
theorem punctual_iff (synchronized : w.Synchronized) (later : w.recorded ≤ input.2) :
    w.Punctual input ↔ w.SameLap input := by
  unfold Punctual SameLap
  refine forall_congr' fun busy => ?_
  have stored : (w.inst.arrived input.1).parser.timeMs.toNat = w.recorded % 2 ^ 32 := by
    have time : (w.inst.arrived input.1).parser.timeMs = UInt32.ofNat w.recorded :=
      w.inst.isCommFree_timeMs.trans synchronized
    rw [time, UInt32.toNat_ofNat']
  rw [Instance.abandons_iff busy, stored, UInt32.toNat_ofNat']
  omega

end Clocked

/-- An instance after `is_comm_init`, which sets the time to 0. -/
def clocked (mem : Nat → UInt8) (bufferSize : Nat) (enabledMask : UInt32) : Clocked :=
  { inst := started mem bufferSize enabledMask, recorded := 0 }

private theorem along_punctual_iff {w : Clocked} {calls : List (UInt8 × Nat)}
    (synchronized : w.Synchronized) (later : ∀ input ∈ calls, w.recorded ≤ input.2)
    (monotone : calls.Pairwise fun earlier later => earlier.2 ≤ later.2) :
    Along Clocked.call Clocked.Punctual w calls ↔ Along Clocked.call Clocked.SameLap w calls := by
  induction calls generalizing w with
  | nil => exact Iff.rfl
  | cons input rest ih =>
    obtain ⟨first, monotone⟩ := List.pairwise_cons.mp monotone
    have here := Clocked.punctual_iff synchronized (later input (.head _))
    refine and_congr here (ih synchronized.call ?_ monotone)
    intro other member
    rcases w.call_recorded with same | same
    · rw [same]
      exact first other member
    · rw [same]
      exact later other (.tail _ member)

/-- In every sequence of calls on a monotone clock, the timeout is right in each call if and
only if each call is in the lap of the recorded time. -/
theorem timeout_punctual_iff (mem : Nat → UInt8) (bufferSize : Nat) (enabledMask : UInt32)
    {calls : List (UInt8 × Nat)}
    (monotone : calls.Pairwise fun earlier later => earlier.2 ≤ later.2) :
    Along Clocked.call Clocked.Punctual (clocked mem bufferSize enabledMask) calls ↔
      Along Clocked.call Clocked.SameLap (clocked mem bufferSize enabledMask) calls :=
  along_punctual_iff rfl (fun _ _ => Nat.zero_le _) monotone

/-- A start byte and two bytes behind it, the last one after a timeout. -/
def slowCalls : List (UInt8 × Nat) := [(0x24, 5000), (0x41, 5060), (0x42, 5161)]

theorem timeout_punctual_slow :
    Along Clocked.call Clocked.Punctual (clocked (fun _ => 0) 64 0x0F) slowCalls :=
  (timeout_punctual_iff (fun _ => 0) 64 0x0F (by decide)).mpr (by decide +kernel)

/-- A start byte 50 ms before the clock starts again, and the next byte 10 ms later. -/
def lateCalls : List (UInt8 × Nat) := [(0x24, 2 ^ 32 - 50), (0x41, 2 ^ 32 - 40)]

/-- The packet is abandoned after 10 ms. -/
theorem abandoned_before_wrap :
    (lateCalls.Pairwise fun earlier later => earlier.2 ≤ later.2) ∧
      ¬Along Clocked.call Clocked.Punctual (clocked (fun _ => 0) 64 0x0F) lateCalls := by
  decide +kernel

end InertialSense.Comm
