import InertialSense.ComManager.Broadcast
import InertialSense.Comm.Declared

/-! The request in a `GET_DATA` frame, from the checks of `processIsbPkt` in `ISComm.c` to the
bytes that `processIsb` in `com_manager.c` acts on. -/

namespace InertialSense.ComManager

open Foundation

/-- The `p_data_get_t` at an address. -/
def dataGetAt (mem : Nat → UInt8) (address : Nat) : DataGet :=
  { id := UInt16.ofNat (Comm.word (mem address) (mem (address + 1)))
    size := UInt16.ofNat (Comm.word (mem (address + 2)) (mem (address + 3)))
    offset := UInt16.ofNat (Comm.word (mem (address + 4)) (mem (address + 5)))
    period := UInt16.ofNat (Comm.word (mem (address + 6)) (mem (address + 7))) }

/-- The request that `rxPkt.data.ptr` points to, which `processIsb` acts on for
`PKT_TYPE_GET_DATA`; nothing for a null pointer. -/
def requestOf (comm : Comm.Instance) : Option DataGet :=
  comm.rxPkt.dataPtr.map (dataGetAt comm.mem)

/-- The frame in the buffer is of the type `PKT_TYPE_GET_DATA`. -/
def IsGetData (comm : Comm.Instance) : Prop :=
  comm.byteAt 2 &&& Comm.pktTypeMask = Comm.pktTypeGetData

instance : DecidablePred IsGetData := fun _ => inferInstanceAs (Decidable (_ = _))

/-- What comes of an ISB frame: the returned type, `ackNeeded`, the fields of `rxPkt` with its
pointer as a distance from the start of the frame, and the request that is acted on. -/
structure IsbResult where
  ptype : Comm.ProtocolType
  ackNeeded : UInt32
  rxPkt : Comm.Packet
  request : Option DataGet

def isbResult (comm : Comm.Instance) : IsbResult :=
  let answer := comm.processIsbPkt
  { ptype := answer.2
    ackNeeded := answer.1.ackNeeded
    rxPkt := { answer.1.rxPkt with dataPtr := answer.1.rxPkt.dataPtr.map (· - comm.head) }
    request := if IsGetData comm ∧ answer.2 = .inertialSenseCmd then requestOf answer.1 else none }

/-- The result is a function of the bytes of the frame alone. -/
def FrameLocal (comm : Comm.Instance) : Prop :=
  ∀ other : Comm.Instance, other.Reached → other.processPkt = some .isb →
    window other.mem other.head other.numBytes = window comm.mem comm.head comm.numBytes →
    isbResult other = isbResult comm

/-- A `GET_DATA` frame that is not rejected has the eight bytes of the request in its payload. -/
def OwnRequest (comm : Comm.Instance) : Prop :=
  IsGetData comm → comm.processIsbPkt.2 = .inertialSenseCmd →
    ∃ address, comm.processIsbPkt.1.rxPkt.dataPtr = some address ∧ comm.head + 6 ≤ address ∧
      address + 8 ≤ comm.head + 6 + comm.payloadSize

/-- Every frame that a pass validates is treated on its own. -/
def KeepsToFrame (comm : Comm.Instance) : Prop :=
  comm.ValidatesIsb → FrameLocal comm ∧ OwnRequest comm

/-- The length of the frame fits in 16 bits. If it is a `GET_DATA` frame, a whole request is
behind the offset, or the bytes where the size of the request would be are in the frame and say
more than `MAX_DATASET_SIZE`. -/
def RequestFits (comm : Comm.Instance) : Prop :=
  8 + comm.payloadSize < 2 ^ 16 ∧
    (IsGetData comm → 8 ≤ comm.isbDataSize ∨
      2 ≤ comm.payloadSize ∧ Comm.maxDatasetSize < Comm.word (comm.byteAt 8) (comm.byteAt 9))

instance : DecidablePred RequestFits := fun _ => inferInstanceAs (Decidable (_ ∧ (_ → _ ∨ _ ∧ _)))

/-! ### What comes of a validated frame -/

section Validated

variable {comm other : Comm.Instance}

/-- `rxPkt` without the address of the frame. -/
private def framePkt (comm : Comm.Instance) : Comm.Packet :=
  { comm.isbPkt with dataPtr := comm.isbPkt.dataPtr.map (· - comm.head) }

private theorem processIsbPkt_validated (reached : comm.Reached) (validates : comm.ValidatesIsb) :
    comm.processIsbPkt.2 = comm.isbSwitch.1.getD .parseError ∧
      comm.processIsbPkt.1.ackNeeded = comm.isbSwitch.2 ∧
      comm.processIsbPkt.1.rxPkt = comm.isbPkt ∧ comm.processIsbPkt.1.mem = comm.mem := by
  obtain ⟨busy, complete, passes⟩ := validates
  obtain ⟨state, -, -, -, whole⟩ := reached.isb_complete busy complete
  rw [Comm.Instance.processIsbPkt_three state, if_neg (Nat.not_lt.mpr whole)]
  unfold Comm.Instance.isbPktEnd
  rw [if_pos passes]
  dsimp only
  cases comm.isbSwitch.1 with
  | some ptype => exact ⟨rfl, rfl, rfl, rfl⟩
  | none =>
    refine ⟨?_, ?_, ?_, ?_⟩
    · simp [Comm.Instance.parseErrorResetState, Comm.Instance.reportParseError_ptype,
        Comm.Instance.resetParser, Comm.Instance.validPacketReset]
    all_goals
      simp [Comm.Instance.parseErrorResetState, Comm.Instance.resetParser,
        Comm.Instance.validPacketReset, Comm.Instance.setState, Comm.Instance.reportParseError]

private theorem isbResult_eq (reached : comm.Reached) (validates : comm.ValidatesIsb) :
    isbResult comm =
      { ptype := comm.isbSwitch.1.getD .parseError
        ackNeeded := comm.isbSwitch.2
        rxPkt := framePkt comm
        request :=
          if IsGetData comm ∧ comm.isbSwitch.1.getD .parseError = .inertialSenseCmd then
            comm.isbPkt.dataPtr.map (dataGetAt comm.mem)
          else none } := by
  obtain ⟨ptype, ack, pkt, mem⟩ := processIsbPkt_validated reached validates
  unfold isbResult framePkt requestOf
  dsimp only
  rw [ptype, ack, pkt, mem]

private theorem numBytes_eq (reached : comm.Reached) (validates : comm.ValidatesIsb)
    (fits : 8 + comm.payloadSize < 2 ^ 16) : comm.numBytes = 8 + comm.payloadSize := by
  obtain ⟨-, size, many, waits, whole⟩ := reached.isb_complete validates.1 validates.2.1
  have count : comm.numBytes = comm.held + 1 := rfl
  omega

/-- The same bytes, at whatever place. -/
private structure SameFrame (other comm : Comm.Instance) : Prop where
  count : other.numBytes = comm.numBytes
  bytes : ∀ k < comm.numBytes, other.byteAt k = comm.byteAt k

private theorem SameFrame.of_window
    (same : window other.mem other.head other.numBytes = window comm.mem comm.head comm.numBytes) :
    SameFrame other comm := by
  have count : other.numBytes = comm.numBytes := by simpa using congrArg List.length same
  rw [count] at same
  exact ⟨count, fun k inside => cell_of_window_eq same inside⟩

private theorem SameFrame.payloadSize_eq (same : SameFrame other comm) (header : 6 ≤ comm.numBytes) :
    other.payloadSize = comm.payloadSize := by
  unfold Comm.Instance.payloadSize
  rw [same.bytes 4 (by omega), same.bytes 5 (by omega)]

/-- The same bytes are validated as well. -/
private theorem SameFrame.validates (same : SameFrame other comm) (reached : comm.Reached)
    (validates : comm.ValidatesIsb) (fits : 8 + comm.payloadSize < 2 ^ 16)
    (reached' : other.Reached) (busy : other.processPkt = some .isb) : other.ValidatesIsb := by
  have whole := numBytes_eq reached validates fits
  have payload := same.payloadSize_eq (by omega)
  obtain ⟨-, size, -, -, -⟩ := reached.isb_complete validates.1 validates.2.1
  obtain ⟨-, holds⟩ := reached'.tracked _ busy
  have count : other.numBytes = other.held + 1 := rfl
  have count' := same.count
  rcases holds with ⟨-, one⟩ | ⟨-, low, high⟩ | ⟨state, many, size'⟩
  · omega
  · omega
  have length : other.parser.size = comm.parser.size := by rw [size', size, payload]
  refine ⟨busy, ⟨by rw [state]; decide, by rw [state]; decide, by omega⟩, ?_⟩
  have covered : window other.mem other.head ((other.parser.size + 2 ^ 32 - 2) % 2 ^ 32) =
      window comm.mem comm.head ((comm.parser.size + 2 ^ 32 - 2) % 2 ^ 32) := by
    rw [length]
    apply window_congr
    intro k small
    exact same.bytes k (by omega)
  have cksum : other.isbPkt.checksum = comm.isbPkt.checksum := by
    unfold Comm.Instance.isbPkt
    dsimp only
    rw [payload, same.bytes _ (by omega), same.bytes _ (by omega)]
  have passes : other.isbCksumPasses = comm.isbCksumPasses := by
    unfold Comm.Instance.isbCksumPasses
    rw [covered, cksum]
  exact passes.trans validates.2.2

private theorem SameFrame.isbDataSize_eq (same : SameFrame other comm) (header : 6 ≤ comm.numBytes) :
    other.isbDataSize = comm.isbDataSize := by
  unfold Comm.Instance.isbDataSize
  rw [same.payloadSize_eq header, same.bytes 2 (by omega)]

/-- Where the data begins in the frame. -/
private def dataStart (comm : Comm.Instance) : Nat :=
  if comm.byteAt 2 &&& Comm.isbFlagsPayloadWOffset ≠ 0 then 8 else 6

private theorem dataPtr_eq (comm : Comm.Instance) :
    comm.isbPkt.dataPtr =
      if comm.isbDataSize = 0 then none else some (comm.head + dataStart comm) := by
  unfold Comm.Instance.isbPkt dataStart
  dsimp only
  split
  · rfl
  · split <;> rfl

private theorem dataStart_add (data : comm.isbDataSize ≠ 0) :
    dataStart comm + comm.isbDataSize = 6 + comm.payloadSize := by
  unfold dataStart
  unfold Comm.Instance.isbDataSize at data ⊢
  by_cases offset : comm.byteAt 2 &&& Comm.isbFlagsPayloadWOffset ≠ 0
  · rw [if_pos offset] at data
    rw [if_pos offset, if_pos offset]
    omega
  · rw [if_neg offset, if_neg offset]

private theorem SameFrame.dataStart_eq (same : SameFrame other comm) (header : 6 ≤ comm.numBytes) :
    dataStart other = dataStart comm := by
  unfold ComManager.dataStart
  rw [same.bytes 2 (by omega)]

private theorem SameFrame.framePkt_eq (same : SameFrame other comm)
    (whole : comm.numBytes = 8 + comm.payloadSize) (size : other.parser.size = comm.parser.size) :
    framePkt other = framePkt comm := by
  have data := same.isbDataSize_eq (by omega)
  have pointer : other.isbPkt.dataPtr.map (· - other.head) =
      comm.isbPkt.dataPtr.map (· - comm.head) := by
    rw [dataPtr_eq, dataPtr_eq, data, same.dataStart_eq (by omega)]
    split
    · rfl
    · simp only [Option.map_some, Nat.add_sub_cancel_left]
  unfold ComManager.framePkt
  rw [pointer]
  unfold Comm.Instance.isbPkt
  dsimp only
  rw [data, size, same.payloadSize_eq (by omega), same.bytes 0 (by omega), same.bytes 1 (by omega),
    same.bytes 2 (by omega), same.bytes 3 (by omega), same.bytes 6 (by omega),
    same.bytes 7 (by omega), same.bytes _ (show 6 + comm.payloadSize < comm.numBytes by omega),
    same.bytes _ (show 6 + comm.payloadSize + 1 < comm.numBytes by omega)]

private theorem SameFrame.isbSwitch_eq (same : SameFrame other comm)
    (whole : comm.numBytes = 8 + comm.payloadSize)
    (sized : IsGetData comm → 2 ≤ comm.payloadSize) : other.isbSwitch = comm.isbSwitch := by
  unfold Comm.Instance.isbSwitch
  rw [same.isbDataSize_eq (by omega), same.bytes 2 (by omega)]
  by_cases get : IsGetData comm
  · have long := sized get
    rw [same.bytes 8 (by omega), same.bytes 9 (by omega)]
  · exact Comm.Instance.isbDispatch_other get ..

private theorem getData_accepted (get : IsGetData comm) :
    comm.isbSwitch.1.getD .parseError = .inertialSenseCmd ↔
      Comm.word (comm.byteAt 8) (comm.byteAt 9) ≤ Comm.maxDatasetSize := by
  have switch : comm.isbSwitch = Comm.isbDispatch Comm.pktTypeGetData comm.isbDataSize
      (Comm.word (comm.byteAt 8) (comm.byteAt 9)) := by
    unfold Comm.Instance.isbSwitch
    rw [show comm.byteAt 2 &&& Comm.pktTypeMask = Comm.pktTypeGetData from get]
  rw [switch]
  show (if _ then some Comm.ProtocolType.inertialSenseCmd else none).getD .parseError = _ ↔ _
  split <;> simp_all

private theorem SameFrame.request_eq (same : SameFrame other comm)
    (whole : comm.numBytes = 8 + comm.payloadSize) (fits : 8 ≤ comm.isbDataSize) :
    other.isbPkt.dataPtr.map (dataGetAt other.mem) = comm.isbPkt.dataPtr.map (dataGetAt comm.mem) := by
  have data := same.isbDataSize_eq (by omega)
  have some : comm.isbDataSize ≠ 0 := by omega
  have inside := dataStart_add some
  rw [dataPtr_eq, dataPtr_eq, data, same.dataStart_eq (by omega), if_neg some, if_neg some]
  have byte (k : Nat) (small : k < 8) : other.mem (other.head + dataStart comm + k) =
      comm.mem (comm.head + dataStart comm + k) := by
    have there := same.bytes (dataStart comm + k) (by omega)
    unfold Comm.Instance.byteAt at there
    rwa [← Nat.add_assoc, ← Nat.add_assoc] at there
  refine congrArg Option.some ?_
  have first := byte 0 (by decide)
  rw [Nat.add_zero, Nat.add_zero] at first
  unfold dataGetAt
  rw [first, byte 1 (by decide), byte 2 (by decide), byte 3 (by decide), byte 4 (by decide),
    byte 5 (by decide), byte 6 (by decide), byte 7 (by decide)]

/-! ### The condition is enough -/

private theorem frameLocal_of_fits (reached : comm.Reached) (validates : comm.ValidatesIsb)
    (fits : RequestFits comm) : FrameLocal comm := by
  obtain ⟨small, sized⟩ := fits
  have whole := numBytes_eq reached validates small
  intro other reached' busy' frame
  have same := SameFrame.of_window frame
  have validates' := same.validates reached validates small reached' busy'
  have payload := same.payloadSize_eq (by omega)
  obtain ⟨-, size, -⟩ := reached.isb_complete validates.1 validates.2.1
  obtain ⟨-, size', -⟩ := reached'.isb_complete validates'.1 validates'.2.1
  have shorter : comm.isbDataSize ≤ comm.payloadSize := by
    unfold Comm.Instance.isbDataSize
    split <;> omega
  have switch := same.isbSwitch_eq whole fun get => by
    rcases sized get with long | ⟨two, -⟩ <;> omega
  have pkt := same.framePkt_eq whole (by rw [size', size, payload])
  have type : IsGetData other ↔ IsGetData comm := by
    unfold IsGetData
    rw [same.bytes 2 (by omega)]
  rw [isbResult_eq reached validates, isbResult_eq reached' validates', switch, pkt]
  congr 1
  simp only [type]
  split
  case isTrue asked =>
    obtain ⟨get, accepted⟩ := asked
    rcases sized get with long | ⟨-, large⟩
    · exact same.request_eq whole long
    · exact absurd ((getData_accepted get).mp accepted) (Nat.not_le.mpr large)
  case isFalse => rfl

private theorem ownRequest_of_fits (reached : comm.Reached) (validates : comm.ValidatesIsb)
    (fits : RequestFits comm) : OwnRequest comm := by
  intro get accepted
  obtain ⟨ptype, -, pkt, -⟩ := processIsbPkt_validated reached validates
  rw [ptype] at accepted
  rcases fits.2 get with long | ⟨-, large⟩
  · have some : comm.isbDataSize ≠ 0 := by omega
    have inside := dataStart_add some
    have low : 6 ≤ dataStart comm := by
      unfold dataStart
      split <;> omega
    refine ⟨comm.head + dataStart comm, ?_, by omega, by omega⟩
    rw [pkt, dataPtr_eq, if_neg some]
  · exact absurd ((getData_accepted get).mp accepted) (Nat.not_le.mpr large)

/-! ### The condition is needed -/

/-- Another byte behind the frame, and no error to report any more. -/
private def touched (comm : Comm.Instance) (address : Nat) (byte : UInt8) : Comm.Instance :=
  { comm with mem := Function.update comm.mem address byte, rxErrorState := true }

private theorem exists_other (byte : UInt8) : ∃ other, other ≠ byte := by
  by_cases zero : byte = 0
  · exact ⟨1, by rw [zero]; decide⟩
  · exact ⟨0, fun same => zero same.symm⟩

variable {address : Nat} {byte : UInt8}

private theorem touched_before {k : Nat} (before : comm.head + k ≠ address) :
    (touched comm address byte).byteAt k = comm.byteAt k :=
  Function.update_of_ne before ..

private theorem touched_there {k : Nat} (there : comm.head + k = address) :
    (touched comm address byte).byteAt k = byte := by
  subst there
  exact Function.update_self ..

private theorem touched_reached (reached : comm.Reached) (beyond : comm.scan < address) :
    (touched comm address byte).Reached := by
  refine reached.congr rfl rfl rfl rfl reached.ordered reached.within rfl ?_
  intro _ k small
  unfold Comm.Instance.held at small
  exact touched_before (by omega)

private theorem touched_frame (byte : UInt8) (ordered : comm.head ≤ comm.scan)
    (beyond : comm.scan < address) :
    window (touched comm address byte).mem (touched comm address byte).head
        (touched comm address byte).numBytes = window comm.mem comm.head comm.numBytes := by
  apply window_congr
  intro k small
  have inside : k < comm.scan - comm.head + 1 := small
  exact touched_before (by omega)

/-- The bytes of the checksum are not among those of a frame whose length does not fit. -/
private theorem fits_of_frameLocal (reached : comm.Reached) (validates : comm.ValidatesIsb)
    (keeps : FrameLocal comm) : 8 + comm.payloadSize < 2 ^ 16 := by
  by_contra wraps
  obtain ⟨state, size, many, waits, whole⟩ := reached.isb_complete validates.1 validates.2.1
  have held : comm.held = comm.scan - comm.head := rfl
  have word : comm.payloadSize < 2 ^ 16 := by
    have low := (comm.byteAt 4).toNat_lt
    have high := (comm.byteAt 5).toNat_lt
    unfold Comm.Instance.payloadSize Comm.word
    omega
  have beyond : comm.scan < comm.head + (6 + comm.payloadSize + 1) := by omega
  obtain ⟨byte, other⟩ := exists_other (comm.byteAt (6 + comm.payloadSize + 1))
  generalize changed : touched comm (comm.head + (6 + comm.payloadSize + 1)) byte = twin
  have reached' : twin.Reached := changed ▸ touched_reached reached beyond
  have busy' : twin.processPkt = some .isb := changed ▸ validates.1
  have result := keeps twin reached' busy' (changed ▸ touched_frame _ reached.ordered beyond)
  have payload : twin.payloadSize = comm.payloadSize := by
    subst changed
    unfold Comm.Instance.payloadSize
    rw [touched_before (by omega), touched_before (by omega)]
  have state' : twin.parser.state = 3 := changed ▸ state
  have whole' : ¬twin.numBytes < twin.parser.size := changed ▸ Nat.not_lt.mpr whole
  by_cases passes : twin.isbCksumPasses
  · have validates' : twin.ValidatesIsb :=
      ⟨busy', ⟨by rw [state']; decide, by rw [state']; decide, Nat.le_of_not_lt whole'⟩, passes⟩
    rw [isbResult_eq reached validates, isbResult_eq reached' validates'] at result
    have last : twin.byteAt (6 + twin.payloadSize + 1) = comm.byteAt (6 + comm.payloadSize + 1) :=
      congrArg (fun result => result.rxPkt.checksum.b) result
    rw [payload] at last
    subst changed
    rw [touched_there rfl] at last
    exact other last
  · have silent : twin.processIsbPkt.2 = .none := by
      rw [Comm.Instance.processIsbPkt_three state', if_neg whole']
      unfold Comm.Instance.isbPktEnd
      rw [if_neg passes]
      unfold Comm.Instance.parseErrorResetState
      rw [Comm.Instance.reportParseError_ptype]
      subst changed
      rfl
    rw [isbResult_eq reached validates] at result
    have none : comm.isbSwitch.1.getD .parseError = .none :=
      (congrArg IsbResult.ptype result).symm.trans silent
    cases found : comm.isbSwitch.1 with
    | none =>
      rw [found] at none
      cases none
    | some ptype =>
      rw [found] at none
      exact (Comm.Instance.isbDispatch_packet found).1 none

/-- A size field behind the frame decides about its acceptance. -/
private theorem sized_of_frameLocal (reached : comm.Reached) (validates : comm.ValidatesIsb)
    (keeps : FrameLocal comm) (fits : 8 + comm.payloadSize < 2 ^ 16) (get : IsGetData comm) :
    2 ≤ comm.payloadSize := by
  by_contra short
  have whole := numBytes_eq reached validates fits
  have count : comm.numBytes = comm.scan - comm.head + 1 := rfl
  have started := (reached.tracked _ validates.1).1
  have beyond : comm.scan < comm.head + 9 := by omega
  have decided (byte : UInt8) : Comm.word (comm.byteAt 8) (comm.byteAt 9) ≤ Comm.maxDatasetSize ↔
      Comm.word ((touched comm (comm.head + 9) byte).byteAt 8) byte ≤ Comm.maxDatasetSize := by
    have reached' : (touched comm (comm.head + 9) byte).Reached := touched_reached reached beyond
    have frame := touched_frame byte reached.ordered beyond
    have same := SameFrame.of_window frame
    have validates' := same.validates reached validates fits reached' validates.1
    have get' : IsGetData (touched comm (comm.head + 9) byte) := by
      unfold IsGetData
      rw [same.bytes 2 (by omega)]
      exact get
    have result := keeps _ reached' validates.1 frame
    rw [isbResult_eq reached validates, isbResult_eq reached' validates'] at result
    have ptype := congrArg IsbResult.ptype result
    dsimp only at ptype
    rw [← getData_accepted get, ← ptype, getData_accepted get', touched_there rfl]
  have low := (decided 0).mpr (by
    have := ((touched comm (comm.head + 9) 0).byteAt 8).toNat_lt
    unfold Comm.word Comm.maxDatasetSize
    rw [show (0 : UInt8).toNat = 0 from rfl]
    omega)
  have high := (decided 0xFF).mp low
  unfold Comm.word Comm.maxDatasetSize at high
  rw [show (0xFF : UInt8).toNat = 255 from rfl] at high
  omega

private theorem fits_of_keeps (reached : comm.Reached) (validates : comm.ValidatesIsb)
    (keeps : FrameLocal comm) (own : OwnRequest comm) : RequestFits comm := by
  have small := fits_of_frameLocal reached validates keeps
  refine ⟨small, fun get => ?_⟩
  have two := sized_of_frameLocal reached validates keeps small get
  by_cases large : Comm.maxDatasetSize < Comm.word (comm.byteAt 8) (comm.byteAt 9)
  · exact .inr ⟨two, large⟩
  · obtain ⟨ptype, -, pkt, -⟩ := processIsbPkt_validated reached validates
    have accepted := (getData_accepted get).mpr (Nat.le_of_not_lt large)
    obtain ⟨address, pointer, low, high⟩ := own get (ptype.trans accepted)
    rw [pkt, dataPtr_eq] at pointer
    split at pointer
    case isTrue => cases pointer
    case isFalse some =>
      have inside := dataStart_add some
      have same := Option.some.inj pointer
      exact .inl (by omega)

theorem keepsToFrame_iff (reached : comm.Reached) :
    KeepsToFrame comm ↔ (comm.ValidatesIsb → RequestFits comm) := by
  refine forall_congr' fun validates => ?_
  constructor
  · rintro ⟨keeps, own⟩
    exact fits_of_keeps reached validates keeps own
  · intro fits
    exact ⟨frameLocal_of_fits reached validates fits, ownRequest_of_fits reached validates fits⟩

end Validated

/-- In every run, each ISB frame that is validated is treated on its own, and the request in it
is its own, if and only if the frame's length fits and a `GET_DATA` frame has room for a
request. -/
theorem isb_frame_local_iff (mem : Nat → UInt8) (bufferSize : Nat) (enabledMask : UInt32)
    (operations : List Comm.Operation) :
    Along Comm.Instance.operate (Comm.Instance.Passes KeepsToFrame)
        (Comm.started mem bufferSize enabledMask) operations ↔
      Along Comm.Instance.operate
        (Comm.Instance.Passes fun comm => comm.ValidatesIsb → RequestFits comm)
        (Comm.started mem bufferSize enabledMask) operations :=
  Comm.Instance.Reached.along_iff (fun _ reached => keepsToFrame_iff reached)
    (Comm.Instance.started_reached mem bufferSize enabledMask) operations

/-- A `GET_DATA` frame without a payload. -/
def emptyRequest : List UInt8 := [0xEF, 0x49, 0x03, 0x00, 0x00, 0x00, 0x3B, 0x13]

/-- It is accepted, on the bytes that happen to be behind it. -/
theorem isb_frame_local_empty :
    ¬∀ operations : List Comm.Operation,
      Along Comm.Instance.operate (Comm.Instance.Passes KeepsToFrame)
        (Comm.started (fun _ => 0) 64 0x0F) operations := by
  intro keeps
  have fits := (Comm.Instance.Reached.along_iff (fun _ reached => keepsToFrame_iff reached)
    (Comm.Instance.started_reached (fun _ => 0) 64 0x0F) _).mp
    (keeps [.write emptyRequest, .parse 0])
  exact absurd fits (by decide +kernel)

end InertialSense.ComManager
