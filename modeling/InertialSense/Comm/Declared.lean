import InertialSense.Comm.Reached

/-! The length in the header of a frame and the bytes that are validated as that frame. The total
length is kept in 16 bits, so it is not the declared one if that is close to 2^16. -/

namespace InertialSense.Comm

open Foundation

namespace Instance

/-- `processIsbPkt` finds a right checksum. -/
def ValidatesIsb (c : Instance) : Prop :=
  c.processPkt = some .isb ∧ c.IsbComplete ∧ c.isbCksumPasses

/-- `processUbloxPkt` finds a right checksum. -/
def ValidatesUblox (c : Instance) : Prop :=
  c.processPkt = some .ublox ∧ c.processUbloxPkt.2 = .ublox

instance : DecidablePred ValidatesIsb := fun _ =>
  inferInstanceAs (Decidable (_ ∧ (_ ∧ _ ∧ _) ∧ _))

instance : DecidablePred ValidatesUblox := fun _ => inferInstanceAs (Decidable (_ ∧ _))

/-- The number of bytes from `head` on that the checksum of an ISB frame is computed over. -/
def isbCovered (c : Instance) : Nat := (c.parser.size + 2 ^ 32 - 2) % 2 ^ 32

/-- What the validation of an ISB frame reads: the payload size, the bytes under the checksum
and the checksum. -/
def IsbReads (c : Instance) (address : Nat) : Prop :=
  (c.head + 4 ≤ address ∧ address < c.head + 6) ∨
    (c.head ≤ address ∧ address < c.head + c.isbCovered) ∨
    (c.head + (6 + c.payloadSize) ≤ address ∧ address < c.head + (6 + c.payloadSize) + 2)

/-- What the validation of a UBX frame reads: the bytes under the checksum and the checksum. -/
def UbloxReads (c : Instance) (address : Nat) : Prop :=
  (c.head + 2 ≤ address ∧ address < c.scan - 1) ∨ (c.scan - 1 ≤ address ∧ address ≤ c.scan)

/-- The ISB frame that is validated has the length that its header declares, its checksum
covers all of it but the last two bytes, and no other byte is read. -/
structure IsbFaithful (c : Instance) : Prop where
  spans : c.processIsbPkt.1.head = c.head + (6 + c.payloadSize + 2)
  last : c.scan + 1 = c.head + (6 + c.payloadSize + 2)
  covers : c.isbCovered = 6 + c.payloadSize
  reads : ∀ address, c.IsbReads address → c.head ≤ address ∧ address ≤ c.scan

/-- The same of a UBX frame, whose checksum leaves out the first two bytes; its length is
reported twice. -/
structure UbloxFaithful (c : Instance) : Prop where
  spans : c.processUbloxPkt.1.head = c.head + (6 + c.payloadSize + 2)
  last : c.scan + 1 = c.head + (6 + c.payloadSize + 2)
  covers : c.scan - 1 - (c.head + 2) = 4 + c.payloadSize
  size : c.processUbloxPkt.1.rxPkt.size = 8 + c.payloadSize
  dataSize : c.processUbloxPkt.1.rxPkt.dataSize = 8 + c.payloadSize
  reads : ∀ address, c.UbloxReads address → c.head ≤ address ∧ address ≤ c.scan

/-- Every frame that a pass validates has the length that its header declares. -/
def Faithful (c : Instance) : Prop :=
  (c.ValidatesIsb → c.IsbFaithful) ∧ (c.ValidatesUblox → c.UbloxFaithful)

/-- Every frame that a pass validates declares a length that fits in 16 bits. -/
def LengthFits (c : Instance) : Prop :=
  c.ValidatesIsb ∨ c.ValidatesUblox → 8 + c.payloadSize < 2 ^ 16

instance : DecidablePred LengthFits := fun _ => inferInstanceAs (Decidable (_ → _))

variable {c d : Instance}

/-! ### The places that are read -/

/-- The outcome of the ISB checksum depends on no other byte. -/
theorem isbCksumPasses_congr (head : d.head = c.head) (size : d.parser.size = c.parser.size)
    (same : ∀ address, c.IsbReads address → d.mem address = c.mem address) :
    d.isbCksumPasses = c.isbCksumPasses := by
  have payload : d.payloadSize = c.payloadSize := by
    unfold payloadSize byteAt
    rw [head, same (c.head + 4) (.inl ⟨by omega, by omega⟩),
      same (c.head + 5) (.inl ⟨by omega, by omega⟩)]
  have covered : window d.mem d.head ((d.parser.size + 2 ^ 32 - 2) % 2 ^ 32) =
      window c.mem c.head ((c.parser.size + 2 ^ 32 - 2) % 2 ^ 32) := by
    rw [head, size]
    apply window_congr
    intro k small
    exact same _ (.inr (.inl ⟨by omega, by show _ < c.head + (_ % _); omega⟩))
  unfold isbCksumPasses
  rw [covered]
  unfold isbPkt byteAt
  dsimp only
  rw [head, payload, same (c.head + (6 + c.payloadSize)) (.inr (.inr ⟨by omega, by omega⟩)),
    same (c.head + (6 + c.payloadSize + 1)) (.inr (.inr ⟨by omega, by omega⟩))]

/-- Whether a UBX frame is accepted depends on no other byte. -/
theorem ubloxPktEnd_congr (head : d.head = c.head) (scan : d.scan = c.scan)
    (latch : d.rxErrorState = c.rxErrorState)
    (same : ∀ address, c.UbloxReads address → d.mem address = c.mem address) :
    d.ubloxPktEnd.2 = c.ubloxPktEnd.2 := by
  have covered : window d.mem (d.head + 2) (d.scan - 1 - (d.head + 2)) =
      window c.mem (c.head + 2) (c.scan - 1 - (c.head + 2)) := by
    rw [head, scan]
    apply window_congr
    intro k small
    exact same _ (.inl ⟨by omega, by omega⟩)
  unfold ubloxPktEnd current
  rw [covered, scan, same (c.scan - 1) (.inr ⟨Nat.le_refl _, Nat.sub_le ..⟩),
    same c.scan (.inr ⟨Nat.sub_le .., Nat.le_refl _⟩)]
  split
  · rfl
  · unfold parseErrorResetState
    rw [reportParseError_ptype, reportParseError_ptype]
    show (if d.rxErrorState then ProtocolType.none else .parseError) =
      if c.rxErrorState then ProtocolType.none else .parseError
    rw [latch]

/-! ### One pass -/

/-- A whole ISB frame was waited for, and no more than that or its header with one byte. -/
theorem Reached.isb_complete (reached : c.Reached) (busy : c.processPkt = some .isb)
    (complete : c.IsbComplete) :
    c.parser.state = 3 ∧ c.parser.size = (8 + c.payloadSize) % 2 ^ 16 ∧ 6 ≤ c.held ∧
      c.held < max c.parser.size 7 ∧ c.parser.size ≤ c.numBytes := by
  obtain ⟨one, two, whole⟩ := complete
  obtain ⟨-, holds⟩ := reached.tracked _ busy
  obtain ⟨-, undecided⟩ := reached.undecided _ busy
  rcases holds with ⟨state, -⟩ | ⟨state, -⟩ | ⟨state, many, size⟩
  · exact absurd state one
  · exact absurd state two
  rcases undecided.limited rfl with ⟨other, -⟩ | ⟨other, -⟩ | ⟨-, waits, -⟩
  · exact absurd other one
  · exact absurd other two
  · exact ⟨state, size, many, waits, whole⟩

private theorem processIsbPkt_head (state : c.parser.state = 3) (whole : c.parser.size ≤ c.numBytes)
    (passes : c.isbCksumPasses) : c.processIsbPkt.1.head = c.head + c.numBytes := by
  rw [processIsbPkt_three state, if_neg (Nat.not_lt.mpr whole)]
  unfold isbPktEnd
  rw [if_pos passes]
  dsimp only
  cases c.isbSwitch.1 with
  | some ptype => rfl
  | none => simp [parseErrorResetState, resetParser, validPacketReset, setState]

theorem Reached.isbFaithful_iff (reached : c.Reached) (validates : c.ValidatesIsb) :
    c.IsbFaithful ↔ 8 + c.payloadSize < 2 ^ 16 := by
  obtain ⟨busy, complete, passes⟩ := validates
  obtain ⟨started, -⟩ := reached.tracked _ busy
  obtain ⟨state, size, many, waits, whole⟩ := reached.isb_complete busy complete
  have count : c.numBytes = c.scan - c.head + 1 := rfl
  have count' : c.held = c.scan - c.head := rfl
  constructor
  · intro faithful
    have last := faithful.last
    omega
  · intro fits
    have covers : c.isbCovered = 6 + c.payloadSize := by
      unfold isbCovered
      omega
    refine ⟨?_, by omega, covers, ?_⟩
    · rw [processIsbPkt_head state whole passes]
      omega
    · intro address reads
      unfold IsbReads at reads
      rw [covers] at reads
      omega

private theorem Reached.ublox_complete (reached : c.Reached) (validates : c.ValidatesUblox) :
    c.processUbloxPkt = c.ubloxPktEnd ∧ c.parser.size = (8 + c.payloadSize) % 2 ^ 16 ∧
      6 ≤ c.held ∧ c.held < max c.parser.size 7 ∧ c.parser.size ≤ c.numBytes := by
  obtain ⟨busy, found⟩ := validates
  obtain ⟨-, holds⟩ := reached.tracked _ busy
  obtain ⟨-, undecided⟩ := reached.undecided _ busy
  rcases holds with ⟨state, -⟩ | ⟨state, -⟩ | ⟨state, many, size⟩
  · rw [processUbloxPkt_one state] at found
    split at found
    · cases found
    · unfold parseErrorResetState at found
      rw [reportParseError_ptype] at found
      split at found <;> cases found
  · rw [processUbloxPkt_two state] at found
    split at found <;> cases found
  · obtain ⟨-, waits⟩ := ublox_undecided (by omega) undecided.verdict
    rw [processUbloxPkt_three state] at found ⊢
    split at found
    · cases found
    case isFalse whole =>
      rw [if_neg whole]
      exact ⟨rfl, size, many, by rw [size]; exact waits, Nat.le_of_not_lt whole⟩

private theorem ubloxPktEnd_found (found : c.ubloxPktEnd.2 = .ublox) :
    c.ubloxPktEnd.1 = (c.setState 0).validPacketFound c.numBytes c.parser.size (c.byteAt 2).toNat := by
  unfold ubloxPktEnd at found ⊢
  split at found
  case isTrue passes => rw [if_pos passes]
  case isFalse =>
    unfold parseErrorResetState at found
    rw [reportParseError_ptype] at found
    split at found <;> cases found

theorem Reached.ubloxFaithful_iff (reached : c.Reached) (validates : c.ValidatesUblox) :
    c.UbloxFaithful ↔ 8 + c.payloadSize < 2 ^ 16 := by
  obtain ⟨started, -⟩ := reached.tracked _ validates.1
  obtain ⟨same, size, many, waits, whole⟩ := reached.ublox_complete validates
  have found := ubloxPktEnd_found (same ▸ validates.2)
  have count : c.numBytes = c.scan - c.head + 1 := rfl
  have count' : c.held = c.scan - c.head := rfl
  constructor
  · intro faithful
    have last := faithful.last
    omega
  · intro fits
    refine ⟨?_, by omega, by omega, ?_, ?_, ?_⟩
    · rw [same, found]
      show c.head + c.numBytes = _
      omega
    · rw [same, found]
      show c.numBytes % 2 ^ 16 = _
      omega
    · rw [same, found]
      show c.parser.size = _
      omega
    · intro address reads
      unfold UbloxReads at reads
      omega

theorem Reached.faithful_iff (reached : c.Reached) : c.Faithful ↔ c.LengthFits := by
  unfold Faithful LengthFits
  constructor
  · rintro ⟨isb, ublox⟩ (validates | validates)
    · exact (reached.isbFaithful_iff validates).mp (isb validates)
    · exact (reached.ubloxFaithful_iff validates).mp (ublox validates)
  · intro fits
    constructor
    · intro validates
      exact (reached.isbFaithful_iff validates).mpr (fits (.inl validates))
    · intro validates
      exact (reached.ubloxFaithful_iff validates).mpr (fits (.inr validates))

end Instance

/-- In every run, the frames that are validated have the lengths that their headers declare if
and only if none of these lengths is within 8 of 2^16. -/
theorem declared_length_iff (mem : Nat → UInt8) (bufferSize : Nat) (enabledMask : UInt32)
    (operations : List Operation) :
    Along Instance.operate (Instance.Passes Instance.Faithful)
        (started mem bufferSize enabledMask) operations ↔
      Along Instance.operate (Instance.Passes Instance.LengthFits)
        (started mem bufferSize enabledMask) operations :=
  Instance.Reached.along_iff (fun _ reached => reached.faithful_iff)
    (Instance.started_reached mem bufferSize enabledMask) operations

/-- Seven bytes that are accepted as a UBX frame with a payload of 65535 bytes. -/
def hugeUblox : List UInt8 := [0xB5, 0x62, 0x00, 0x00, 0xFF, 0xFF, 0xFF]

theorem declared_length_huge :
    ¬∀ operations : List Operation, Along Instance.operate (Instance.Passes Instance.Faithful)
      (started (fun _ => 0) 64 0x0F) operations := by
  intro faithful
  have fits := (Instance.Reached.along_iff (fun _ reached => reached.faithful_iff)
    (Instance.started_reached (fun _ => 0) 64 0x0F) _).mp (faithful [.write hugeUblox, .parse 0])
  exact absurd fits (by decide +kernel)

end InertialSense.Comm
