import InertialSense.ComManager.Receiving

/-! Received data that is trimmed to the registered structure: whether the bytes that fall inside
are delivered, and no others. -/

namespace InertialSense.ComManager

open Foundation
open InertialSense.DataLog (DataHdr)

/-- How many of `size` bytes at an offset fall inside a structure. Less than four bytes are no
data set. -/
def fitting (structSize offset size : Nat) : Nat :=
  if offset + size ≤ structSize then size
  else if offset + 4 ≤ structSize then structSize - offset
  else 0

namespace Receiver

def structSize (cm : Receiver) (comm : Comm.Instance) : Nat :=
  (cm.regData comm.rxPkt.hdrId).size.toNat

/-- How many bytes of the packet fall inside the structure. -/
def inside (cm : Receiver) (comm : Comm.Instance) : Nat :=
  fitting (cm.structSize comm) comm.rxPkt.offset comm.rxPkt.dataSize

/-- There is neither a structure nor a function that would get the data of the packet. -/
def NobodyReceives (cm : Receiver) (comm : Comm.Instance) : Prop :=
  (cm.regData comm.rxPkt.hdrId).rxPtr = none ∧ cm.callees comm.rxPkt.hdrId = []

end Receiver

/-- So many bytes of the packet are written to the structure and handed to the functions, with
their number and the offset of the packet. -/
structure Delivers (cm : Receiver) (comm : Comm.Instance) (mem : Nat → UInt8) (count : Nat)
    (out : Processed) : Prop where
  result : out.result = 0
  written : out.mem = (cm.regData comm.rxPkt.hdrId).rxPtr.elim mem fun rxPtr =>
    store mem (rxPtr + comm.rxPkt.offset) (comm.packetData.take count)
  handed : out.calls = (cm.callees comm.rxPkt.hdrId).map fun callee =>
    { callee
      hdr := { (isCommToIsbPData comm).hdr with size := UInt16.ofNat count }
      bytes := comm.packetData.take count }

/-- The packet changes no structure and calls no function. -/
structure Refuses (mem : Nat → UInt8) (out : Processed) : Prop where
  result : out.result = -1
  mem : out.mem = mem
  calls : out.calls = []

/-- Those bytes of the packet are delivered that fall inside the structure, if there are any. -/
structure Trims (cm : Receiver) (comm : Comm.Instance) (mem : Nat → UInt8) : Prop where
  delivers : cm.inside comm ≠ 0 →
    Delivers cm comm mem (cm.inside comm) (cm.processIsb comm mem)
  refuses : cm.inside comm = 0 → Refuses mem (cm.processIsb comm mem)
  frame : ∀ place,
    (∀ rxPtr ∈ (cm.regData comm.rxPkt.hdrId).rxPtr,
      ¬(rxPtr + comm.rxPkt.offset ≤ place ∧
        place < rxPtr + min (comm.rxPkt.offset + comm.rxPkt.dataSize) (cm.structSize comm))) →
    (cm.processIsb comm mem).mem place = mem place
  bounded : ∀ call ∈ (cm.processIsb comm mem).calls,
    call.hdr.offset.toNat + call.hdr.size.toNat ≤ cm.structSize comm

section Constrained

variable {structSize : UInt32} {hdr : DataHdr}

private theorem constrainedSize_whole
    (fits : hdr.offset.toNat + hdr.size.toNat ≤ structSize.toNat) :
    constrainedSize structSize hdr = some hdr.size := by
  unfold constrainedSize
  rw [if_neg fun exceeds => absurd exceeds.2 (Nat.not_lt.mpr fits)]

private theorem min_toNat (size other : UInt16) :
    (min size other).toNat = min size.toNat other.toNat := by
  change (if size ≤ other then size else other).toNat = _
  split
  case isTrue less => exact (Nat.min_eq_left (UInt16.le_iff_toNat_le.mp less)).symm
  case isFalse more =>
    rw [UInt16.le_iff_toNat_le] at more
    exact (Nat.min_eq_right (Nat.le_of_not_le more)).symm

private theorem left_toNat (structSize : UInt32) (offset : UInt16) :
    (structSize - offset.toUInt32).toUInt16.toNat =
      (structSize.toNat + 65536 - offset.toNat) % 65536 := by
  have small := offset.toNat_lt
  rw [UInt32.toNat_toUInt16, UInt32.toNat_sub, UInt16.toNat_toUInt32]
  omega

private theorem constrainedSize_part (registered : structSize ≠ 0)
    (exceeds : structSize.toNat < hdr.offset.toNat + hdr.size.toNat) {left : Nat}
    (leaves : (structSize.toNat + 65536 - hdr.offset.toNat) % 65536 = left) :
    constrainedSize structSize hdr =
      if left < 4 then none else some (UInt16.ofNat (min hdr.size.toNat (left % 256))) := by
  unfold constrainedSize
  rw [if_pos ⟨registered, exceeds⟩]
  dsimp only
  have size := left_toNat structSize hdr.offset
  rw [leaves] at size
  have few : (structSize - hdr.offset.toUInt32).toUInt16 < 4 ↔ left < 4 := by
    rw [UInt16.lt_iff_toNat_lt, size]
    exact Iff.rfl
  simp only [few]
  split
  · rfl
  · congr 1
    apply UInt16.toNat_inj.mp
    have small : min hdr.size.toNat (left % 256) < 2 ^ 16 :=
      Nat.lt_of_le_of_lt (Nat.min_le_left ..) hdr.size.toNat_lt
    rw [min_toNat, UInt8.toNat_toUInt16, UInt16.toNat_toUInt8, size,
      UInt16.toNat_ofNat_of_lt' small]

end Constrained

section Trims

variable {cm : Receiver} {comm : Comm.Instance} {mem : Nat → UInt8} {out : Processed}
  {count : Nat}

private theorem fitting_le (structSize offset size : Nat) :
    fitting structSize offset size ≤ size := by
  unfold fitting
  repeat' split
  all_goals omega

private theorem fitting_inside {structSize offset size : Nat}
    (some : fitting structSize offset size ≠ 0) :
    offset + fitting structSize offset size ≤ structSize := by
  unfold fitting at some ⊢
  split
  case isTrue fits => exact fits
  case isFalse exceeds =>
    rw [if_neg exceeds] at some
    split
    · omega
    case isFalse none => exact absurd (if_neg none) some

/-- Data that fits into the structure after its size was constrained. -/
private theorem deliver_delivers (data : DataPkt comm.rxPkt)
    (fewer : count ≤ comm.rxPkt.dataSize)
    (fits : comm.rxPkt.offset + count ≤ cm.structSize comm) :
    Delivers cm comm mem count (cm.deliver comm mem
      { hdr := { (isCommToIsbPData comm).hdr with size := UInt16.ofNat count }
        ptr := comm.rxPkt.dataPtr }) := by
  have size : (UInt16.ofNat count).toNat = count := by
    have small : comm.rxPkt.dataSize < 2 ^ 16 := Nat.lt_of_le_of_lt data.small (by decide)
    exact UInt16.toNat_ofNat_of_lt' (Nat.lt_of_le_of_lt fewer small)
  have bytes := @PData.bytes_take comm
    { (isCommToIsbPData comm).hdr with size := UInt16.ofNat count } (by rw [size]; exact fewer)
  dsimp only at bytes
  rw [size] at bytes
  refine ⟨rfl, ?_, ?_⟩
  · change (cm.regData comm.rxPkt.hdrId).rxPtr.elim mem _ = _
    congr 1
    funext rxPtr
    rw [bytes]
    unfold copyDataPToStructP
    dsimp only
    rw [data.hdr_offset, size, Nat.add_comm]
    exact congrArg (Option.getD · mem) (if_pos fits)
  · change (cm.callees comm.rxPkt.hdrId).map _ = _
    rw [bytes]

private theorem Delivers.frame (delivers : Delivers cm comm mem count out)
    (data : DataPkt comm.rxPkt) (fewer : count ≤ comm.rxPkt.dataSize)
    (fits : comm.rxPkt.offset + count ≤ cm.structSize comm) {place : Nat}
    (outside : ∀ rxPtr ∈ (cm.regData comm.rxPkt.hdrId).rxPtr,
      ¬(rxPtr + comm.rxPkt.offset ≤ place ∧
        place < rxPtr + min (comm.rxPkt.offset + comm.rxPkt.dataSize) (cm.structSize comm))) :
    out.mem place = mem place := by
  rw [delivers.written]
  cases pointed : (cm.regData comm.rxPkt.hdrId).rxPtr with
  | none => rfl
  | some rxPtr =>
    have beyond := outside rxPtr pointed
    apply store_outside
    rw [List.length_take, data.packetData_length]
    omega

private theorem Delivers.bounded (delivers : Delivers cm comm mem count out)
    (data : DataPkt comm.rxPkt) (fits : comm.rxPkt.offset + count ≤ cm.structSize comm) :
    ∀ call ∈ out.calls, call.hdr.offset.toNat + call.hdr.size.toNat ≤ cm.structSize comm := by
  rw [delivers.handed]
  intro call member
  obtain ⟨callee, -, rfl⟩ := List.mem_map.mp member
  dsimp only
  rw [data.hdr_offset]
  exact Nat.le_trans (Nat.add_le_add_left (Nat.mod_le count (2 ^ 16)) _) fits

private theorem trims_of_delivers (data : DataPkt comm.rxPkt) (some : cm.inside comm ≠ 0)
    (delivers : Delivers cm comm mem (cm.inside comm) (cm.processIsb comm mem)) :
    Trims cm comm mem where
  delivers _ := delivers
  refuses none := absurd none some
  frame _ := delivers.frame data (fitting_le ..) (fitting_inside some)
  bounded := delivers.bounded data (fitting_inside some)

private theorem trims_of_refuses (none : cm.inside comm = 0)
    (refuses : Refuses mem (cm.processIsb comm mem)) : Trims cm comm mem where
  delivers some := absurd none some
  refuses _ := refuses
  frame _ _ := congrFun refuses.mem _
  bounded := by
    rw [refuses.calls]
    nofun

private theorem DataPkt.valid (data : DataPkt comm.rxPkt)
    (known : comm.rxPkt.hdrId.toNat < didCount) (filled : comm.rxPkt.dataSize ≠ 0) :
    ¬InvalidData comm := by
  rintro (unknown | empty)
  · exact absurd known (Nat.not_lt.mpr unknown)
  · exact filled (data.sizes.symm.trans empty)

private theorem processIsb_whole (data : DataPkt comm.rxPkt)
    (known : comm.rxPkt.hdrId.toNat < didCount) (filled : comm.rxPkt.dataSize ≠ 0)
    (fits : comm.rxPkt.offset + comm.rxPkt.dataSize ≤ cm.structSize comm) :
    Delivers cm comm mem comm.rxPkt.dataSize (cm.processIsb comm mem) := by
  rw [processIsb_valid (data.valid known filled), constrainedSize_whole]
  · exact deliver_delivers data (Nat.le_refl _) fits
  · rw [data.hdr_offset, data.hdr_size]
    exact fits

private theorem processIsb_part (data : DataPkt comm.rxPkt)
    (known : comm.rxPkt.hdrId.toNat < didCount)
    (registered : (cm.regData comm.rxPkt.hdrId).size ≠ 0) (filled : comm.rxPkt.dataSize ≠ 0)
    (exceeds : cm.structSize comm < comm.rxPkt.offset + comm.rxPkt.dataSize) {left : Nat}
    (leaves : (cm.structSize comm + 65536 - comm.rxPkt.offset) % 65536 = left) :
    if left < 4 then Refuses mem (cm.processIsb comm mem)
    else
      (cm.processIsb comm mem).result = 0 ∧
        (comm.rxPkt.offset ≤ cm.structSize comm →
          Delivers cm comm mem (left % 256) (cm.processIsb comm mem)) := by
  rw [← data.hdr_offset] at leaves
  have constrained := constrainedSize_part registered
    (by rw [data.hdr_offset, data.hdr_size]; exact exceeds) leaves
  rw [processIsb_valid (data.valid known filled), constrained, data.hdr_size]
  split
  case isTrue => exact ⟨rfl, rfl, rfl⟩
  case isFalse =>
    refine ⟨rfl, fun before => ?_⟩
    have small := data.small
    rw [data.hdr_offset] at leaves
    have less : left % 256 ≤ cm.structSize comm - comm.rxPkt.offset := by
      unfold Comm.maxDatasetSize at small
      omega
    have fewer : left % 256 ≤ comm.rxPkt.dataSize := by omega
    rw [Nat.min_eq_right fewer]
    exact deliver_delivers data fewer (by omega)

/-- A structure or a function that gets the data gets only so much of it. -/
private theorem Delivers.fewer_bytes (data : DataPkt comm.rxPkt) {more : Nat}
    (somebody : ¬cm.NobodyReceives comm) (less : count < more) (within : more ≤ comm.rxPkt.dataSize)
    (delivers : ∀ mem, Delivers cm comm mem count (cm.processIsb comm mem)) :
    ¬∀ mem, Delivers cm comm mem more (cm.processIsb comm mem) := by
  intro all
  have length := data.packetData_length
  have inside : count < comm.packetData.length := by omega
  apply somebody
  constructor
  · cases pointed : (cm.regData comm.rxPkt.hdrId).rxPtr with
    | none => rfl
    | some rxPtr =>
      -- the first byte that is missing, in a memory that differs from it everywhere
      have written := (all fun _ => comm.packetData[count] + 1).written
      rw [(delivers _).written, pointed] at written
      have cell := congrFun written (rxPtr + comm.rxPkt.offset + count)
      simp only [Option.elim] at cell
      rw [store_outside _ (Or.inr (by rw [List.length_take]; omega)),
        store_inside _ (by rw [List.length_take]; omega), List.getElem_take] at cell
      exact absurd cell (by simp)
  · have handed := (all fun _ => 0).handed
    rw [(delivers _).handed] at handed
    cases callees : cm.callees comm.rxPkt.hdrId with
    | nil => rfl
    | cons callee others =>
      rw [callees, List.map_cons, List.map_cons] at handed
      have bytes := congrArg (fun call => call.bytes.length) (List.head_eq_of_cons_eq handed)
      simp only [List.length_take] at bytes
      omega

private theorem inside_whole
    (fits : comm.rxPkt.offset + comm.rxPkt.dataSize ≤ cm.structSize comm) :
    cm.inside comm = comm.rxPkt.dataSize := if_pos fits

private theorem inside_part
    (exceeds : cm.structSize comm < comm.rxPkt.offset + comm.rxPkt.dataSize) :
    cm.inside comm =
      if comm.rxPkt.offset + 4 ≤ cm.structSize comm then cm.structSize comm - comm.rxPkt.offset
      else 0 := if_neg (Nat.not_le.mpr exceeds)

/-- The offset is behind the structure: most packets are not refused then. -/
private theorem trims_beyond_iff (data : DataPkt comm.rxPkt)
    (known : comm.rxPkt.hdrId.toNat < didCount)
    (registered : (cm.regData comm.rxPkt.hdrId).size ≠ 0) (filled : comm.rxPkt.dataSize ≠ 0)
    (beyond : cm.structSize comm < comm.rxPkt.offset) :
    (∀ mem, Trims cm comm mem) ↔ cm.structSize comm + 65533 ≤ comm.rxPkt.offset := by
  have offset := data.offset
  have exceeds : cm.structSize comm < comm.rxPkt.offset + comm.rxPkt.dataSize :=
    Nat.lt_add_right _ beyond
  have none := inside_part exceeds
  rw [if_neg (by omega)] at none
  have leaves : (cm.structSize comm + 65536 - comm.rxPkt.offset) % 65536 =
      cm.structSize comm + 65536 - comm.rxPkt.offset := by omega
  have part (mem : Nat → UInt8) := @processIsb_part cm comm mem data known registered filled
    exceeds _ leaves
  constructor
  · intro trims
    have accepted := part fun _ => 0
    split at accepted
    case isTrue few => omega
    case isFalse =>
      have refused := ((trims fun _ => 0).refuses none).result
      rw [accepted.1] at refused
      cases refused
  · intro far mem
    have refuses := part mem
    rw [if_pos (by omega)] at refuses
    exact trims_of_refuses none refuses

private theorem Delivers.nobody (delivers : Delivers cm comm mem count out)
    (nobody : cm.NobodyReceives comm) (other : Nat) : Delivers cm comm mem other out := by
  obtain ⟨result, written, handed⟩ := delivers
  obtain ⟨pointed, callees⟩ := nobody
  rw [pointed] at written
  rw [callees] at handed
  refine ⟨result, ?_, ?_⟩
  · rw [pointed]
    exact written
  · rw [callees]
    exact handed

/-- The structure ends within the data: the number of bytes that fall inside keeps its low byte
only. -/
private theorem trims_within_iff (data : DataPkt comm.rxPkt)
    (known : comm.rxPkt.hdrId.toNat < didCount)
    (registered : (cm.regData comm.rxPkt.hdrId).size ≠ 0) (filled : comm.rxPkt.dataSize ≠ 0)
    (before : comm.rxPkt.offset ≤ cm.structSize comm)
    (exceeds : cm.structSize comm < comm.rxPkt.offset + comm.rxPkt.dataSize) :
    (∀ mem, Trims cm comm mem) ↔
      cm.structSize comm < comm.rxPkt.offset + 256 ∨ cm.NobodyReceives comm := by
  have small : comm.rxPkt.dataSize ≤ 1024 := data.small
  have inside := inside_part exceeds
  have leaves : (cm.structSize comm + 65536 - comm.rxPkt.offset) % 65536 =
      cm.structSize comm - comm.rxPkt.offset := by omega
  have part (mem : Nat → UInt8) := @processIsb_part cm comm mem data known registered filled
    exceeds _ leaves
  rcases Nat.lt_or_ge (cm.structSize comm - comm.rxPkt.offset) 4 with few | many
  · rw [if_neg (by omega)] at inside
    refine iff_of_true (fun mem => trims_of_refuses inside ?_) (.inl (by omega))
    have refuses := part mem
    rw [if_pos few] at refuses
    exact refuses
  rw [if_pos (by omega)] at inside
  have delivers (mem : Nat → UInt8) :
      Delivers cm comm mem ((cm.structSize comm - comm.rxPkt.offset) % 256)
        (cm.processIsb comm mem) := by
    have accepts := part mem
    rw [if_neg (Nat.not_lt.mpr many)] at accepts
    exact accepts.2 before
  constructor
  · intro trims
    by_contra otherwise
    obtain ⟨long, somebody⟩ := not_or.mp otherwise
    refine Delivers.fewer_bytes data somebody ?_ (fitting_le ..) delivers fun mem =>
      (trims mem).delivers (by omega)
    show _ < cm.inside comm
    omega
  · rintro (short | nobody) mem
    · have whole := delivers mem
      rw [Nat.mod_eq_of_lt (by omega), ← inside] at whole
      exact trims_of_delivers data (by omega) whole
    · exact trims_of_delivers data (by omega) ((delivers mem).nobody nobody _)

/-- Exactly when the bytes that fall inside are delivered. -/
theorem trims_iff (received : IsReceived comm) (known : comm.rxPkt.hdrId.toNat < didCount)
    (registered : (cm.regData comm.rxPkt.hdrId).size ≠ 0) :
    (∀ mem, Trims cm comm mem) ↔
      comm.rxPkt.dataSize = 0 ∨
        comm.rxPkt.offset + comm.rxPkt.dataSize ≤ cm.structSize comm ∨
        comm.rxPkt.offset ≤ cm.structSize comm ∧
          (cm.structSize comm < comm.rxPkt.offset + 256 ∨ cm.NobodyReceives comm) ∨
        cm.structSize comm + 65533 ≤ comm.rxPkt.offset := by
  have data := received.dataPkt
  rcases Nat.eq_zero_or_pos comm.rxPkt.dataSize with empty | filled
  · refine iff_of_true (fun mem => trims_of_refuses ?_ ?_) (.inl empty)
    · exact Nat.eq_zero_of_le_zero (Nat.le_trans (fitting_le ..) (Nat.le_of_eq empty))
    · rw [processIsb_invalid (.inr (data.sizes.trans empty))]
      exact ⟨rfl, rfl, rfl⟩
  have nonempty := Nat.ne_of_gt filled
  rcases Nat.lt_or_ge (cm.structSize comm) (comm.rxPkt.offset + comm.rxPkt.dataSize) with
    exceeds | fits
  · rcases Nat.lt_or_ge (cm.structSize comm) comm.rxPkt.offset with beyond | before
    · rw [trims_beyond_iff data known registered nonempty beyond]
      refine ⟨fun far => .inr (.inr (.inr far)), fun cases => ?_⟩
      omega
    · rw [trims_within_iff data known registered nonempty before exceeds]
      refine ⟨fun short => .inr (.inr (.inl ⟨before, short⟩)), ?_⟩
      rintro (empty | fits | ⟨-, short⟩ | far)
      · exact absurd empty nonempty
      · omega
      · exact short
      · omega
  · refine iff_of_true (fun mem => ?_) (.inr (.inl fits))
    have delivers : Delivers cm comm mem _ _ := processIsb_whole data known nonempty fits
    have whole := inside_whole fits
    rw [← whole] at delivers
    exact trims_of_delivers data (by omega) delivers

end Trims

/-- A general callback, and structures of so many bytes for all data sets. -/
def structsOf (size : UInt32) : Receiver :=
  { regData := fun _ => { rxPtr := some 0, size, pstRxFnc := false }, pstRxFnc := true }

/-- So many zero bytes as data of `DID_DEV_INFO`, at the offset 0. -/
def zeroFrame (size : Nat) : Comm.Instance :=
  atLastByte (Comm.isbFrame Comm.pktTypeData 1 (List.replicate size 0))

def zeroData (size : Nat) : Comm.Instance := (zeroFrame size).processIsbPkt.1

private theorem zeroFrame_found {size : Nat} (small : size ≤ Comm.maxDatasetSize) :
    (zeroFrame size).processIsbPkt.2 = .inertialSenseData := by
  have length : (List.replicate size (0 : UInt8)).length = size := List.length_replicate
  apply atLastByte_found
  · unfold Comm.maxDatasetSize at small
    unfold Comm.pktBufSize
    omega
  · unfold Comm.isbFrameType
    rw [if_neg fun get => absurd get.1 (by decide)]
    unfold Comm.isbDispatch
    rw [if_pos (.inr (by decide)), if_pos]
    unfold Comm.isbFrameDataSize
    rw [if_neg (not_not.mpr (by decide)), length]
    exact small

private theorem zeroData_received {size : Nat} (small : size ≤ Comm.maxDatasetSize) :
    IsReceived (zeroData size) :=
  ⟨zeroFrame size, Prod.ext rfl (zeroFrame_found small)⟩

private theorem zeroData_rxPkt {size : Nat} (small : size ≤ Comm.maxDatasetSize) :
    (zeroData size).rxPkt = (zeroFrame size).isbPkt :=
  processIsbPkt_rxPkt (zeroFrame_found small)

theorem trims_iff_short : (structsOf 8).inside (zeroData 12) = 8 ∧
    ∀ mem, Trims (structsOf 8) (zeroData 12) mem :=
  ⟨by decide, (trims_iff (zeroData_received (by decide)) (by decide) (by decide)).mpr
    (.inr (.inr (.inl ⟨by decide, .inl (by decide)⟩)))⟩

/-- 256 of 260 bytes fall inside, but none is delivered. -/
theorem trims_none : IsReceived (zeroData 260) ∧ (structsOf 256).inside (zeroData 260) = 256 ∧
    ¬∀ mem, Trims (structsOf 256) (zeroData 260) mem := by
  have received := zeroData_received (show 260 ≤ Comm.maxDatasetSize by decide)
  have pkt := zeroData_rxPkt (show 260 ≤ Comm.maxDatasetSize by decide)
  have offset : (zeroData 260).rxPkt.offset = 0 := by rw [pkt]; decide
  have size : (zeroData 260).rxPkt.dataSize = 260 := by rw [pkt]; decide +kernel
  have id : (zeroData 260).rxPkt.hdrId = 1 := by rw [pkt]; decide
  have inside : (structsOf 256).inside (zeroData 260) = 256 := by
    unfold Receiver.inside
    rw [offset, size]
    rfl
  refine ⟨received, inside, fun trims => ?_⟩
  have registered : ((structsOf 256).regData (zeroData 260).rxPkt.hdrId).size ≠ 0 := by
    show (256 : UInt32) ≠ 0
    decide
  have short := (trims_within_iff received.dataPkt (by rw [id]; decide) registered
    (by rw [size]; decide) (by rw [offset]; decide) (by rw [offset, size]; decide)).mp trims
  rcases short with short | nobody
  · rw [offset] at short
    exact absurd short (by decide)
  · cases nobody.1

end InertialSense.ComManager
