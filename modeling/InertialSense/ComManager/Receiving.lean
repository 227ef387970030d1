import InertialSense.ComManager.Broadcast
import InertialSense.DataLog.Serial

/-! Received data: the cases `PKT_TYPE_DATA` and `PKT_TYPE_SET_DATA` of `processIsb` in
`com_manager.c`, which write to a registered structure, call back and acknowledge. -/

namespace InertialSense.ComManager

open Foundation
open InertialSense.DataLog (DataHdr)

/-- What `registered_data_t` says about a data set that is received; of `pstRxFnc`, whether there
is one. -/
structure ReceivedData where
  rxPtr : Option Nat
  size : UInt32
  pstRxFnc : Bool

/-- `com_manager_t`, as far as received data is concerned. -/
structure Receiver where
  regData : UInt8 → ReceivedData
  pstRxFnc : Bool

/-- `p_data_t`. -/
structure PData where
  hdr : DataHdr
  ptr : Option Nat

/-- `p_ack_t`. There is no `dataHdr` if it is copied from a null pointer. -/
structure PAck where
  pktInfo : UInt16
  pktCounter : UInt16
  dataHdr : Option DataHdr
deriving DecidableEq

/-- The two functions that are called with received data. -/
inductive Callee where
  | dataSet
  | general
deriving DecidableEq

/-- A call of a `pstRxFnc`: the header and the bytes that it finds at the pointer. -/
structure RxCall where
  callee : Callee
  hdr : DataHdr
  bytes : List UInt8
deriving DecidableEq

/-- What `processIsb` returns, leaves in the memory of the registered structures, calls and
sends as an acknowledgement. -/
structure Processed where
  result : Int
  mem : Nat → UInt8
  calls : List RxCall
  ack : Option (UInt8 × PAck)

def isCommToIsbPData (comm : Comm.Instance) : PData :=
  { hdr :=
      { id := comm.rxPkt.hdrId
        size := UInt16.ofNat comm.rxPkt.dataSize
        offset := UInt16.ofNat comm.rxPkt.offset }
    ptr := comm.rxPkt.dataPtr }

/-- The bytes at the pointer, in the buffer of the parser. -/
def PData.bytes (data : PData) (comm : Comm.Instance) : List UInt8 :=
  data.ptr.elim [] fun ptr => window comm.mem ptr data.hdr.size.toNat

/-- `copyDataPToStructP`: nothing if the data does not fit. -/
def copyDataPToStructP (mem : Nat → UInt8) (sptr : Nat) (hdr : DataHdr) (bytes : List UInt8)
    (maxsize : UInt32) : Option (Nat → UInt8) :=
  if hdr.size.toNat + hdr.offset.toNat ≤ maxsize.toNat then
    some (store mem (sptr + hdr.offset.toNat) bytes)
  else none

/-- The size as `processIsb` constrains it to the local data struct; nothing if the data is
completely out of bounds. -/
def constrainedSize (structSize : UInt32) (hdr : DataHdr) : Option UInt16 :=
  if structSize ≠ 0 ∧ structSize.toNat < hdr.offset.toNat + hdr.size.toNat then
    let size := (structSize - hdr.offset.toUInt32).toUInt16
    if size < 4 then none else some (min hdr.size size.toUInt8.toUInt16)
  else some hdr.size

/-- The acknowledgement that `sendAck` builds. The header is read where the data is. -/
def sendAck (comm : Comm.Instance) : PAck :=
  { pktInfo := comm.rxPkt.flags.toUInt16
    pktCounter := 0
    dataHdr :=
      if comm.rxPkt.flags &&& Comm.pktTypeMask = Comm.pktTypeSetData then
        comm.rxPkt.dataPtr.map fun ptr => DataHdr.ofMemory (fun place => comm.mem place.toNat) ptr
      else some { id := 0, size := 0, offset := 0 } }

namespace Receiver

def callees (cm : Receiver) (id : UInt8) : List Callee :=
  (if (cm.regData id).pstRxFnc then [.dataSet] else []) ++ if cm.pstRxFnc then [.general] else []

/-- What `processIsb` does with data once its size is constrained. -/
def deliver (cm : Receiver) (comm : Comm.Instance) (mem : Nat → UInt8) (data : PData) :
    Processed :=
  { result := 0
    mem :=
      (cm.regData data.hdr.id).rxPtr.elim mem fun rxPtr =>
        (copyDataPToStructP mem rxPtr data.hdr (data.bytes comm) (cm.regData data.hdr.id).size).getD
          mem
    calls := (cm.callees data.hdr.id).map fun callee => ⟨callee, data.hdr, data.bytes comm⟩
    ack :=
      if comm.rxPkt.flags &&& Comm.pktTypeMask = Comm.pktTypeSetData then
        some (Comm.pktTypeAck, sendAck comm)
      else none }

/-- `processIsb` for the packet types `PKT_TYPE_DATA` and `PKT_TYPE_SET_DATA`. -/
def processIsb (cm : Receiver) (comm : Comm.Instance) (mem : Nat → UInt8) : Processed :=
  let data := isCommToIsbPData comm
  let ignored : Processed := { result := -1, mem, calls := [], ack := none }
  if didCount ≤ data.hdr.id.toNat ∨ comm.rxPkt.payloadSize = 0 then ignored
  else
    match constrainedSize (cm.regData data.hdr.id).size data.hdr with
    | none => ignored
    | some size => cm.deliver comm mem { data with hdr := { data.hdr with size } }

end Receiver

/-- The parser has just returned `_PTYPE_INERTIAL_SENSE_DATA`, for which `processIsb` is called. -/
def IsReceived (comm : Comm.Instance) : Prop :=
  ∃ before : Comm.Instance, before.processIsbPkt = (comm, .inertialSenseData)

/-- The parser with an ISB frame in its buffer, of which the last byte is at `scan`. -/
def atLastByte (frame : List UInt8) : Comm.Instance :=
  { Comm.isCommInit (fun _ => 0) Comm.pktBufSize with
    mem := fun k => frame.getD k 0
    scan := frame.length - 1
    tail := frame.length
    processPkt := some .isb
    parser := { state := 3, size := frame.length, timeMs := 0 } }

/-- The fields of `rxPkt` that concern the data are as `processIsbPkt` fills them. -/
structure DataPkt (pkt : Comm.Packet) : Prop where
  sizes : pkt.payloadSize = pkt.dataSize
  small : pkt.dataSize ≤ Comm.maxDatasetSize
  offset : pkt.offset < 2 ^ 16
  ptr : pkt.dataPtr = none ↔ pkt.dataSize = 0

section Received

variable {comm before : Comm.Instance}

private theorem word_lt (low high : UInt8) : Comm.word low high < 2 ^ 16 := by
  have lowLt := low.toNat_lt
  have highLt := high.toNat_lt
  unfold Comm.word
  omega

private theorem parseErrorResetState_no_data (error : Comm.ParseErrorType) :
    (before.parseErrorResetState error).2 ≠ .inertialSenseData := by
  unfold Comm.Instance.parseErrorResetState
  rw [Comm.Instance.reportParseError_ptype]
  split <;> nofun

private theorem isbDispatch_data {ptype : UInt8} {dataSize getSize : Nat}
    (dispatched : (Comm.isbDispatch ptype dataSize getSize).1 = some .inertialSenseData) :
    dataSize ≤ Comm.maxDatasetSize := by
  unfold Comm.isbDispatch at dispatched
  split at dispatched
  · split at dispatched
    case isTrue small => exact small
    case isFalse => cases dispatched
  · split at dispatched
    · split at dispatched <;> cases dispatched
    · split at dispatched
      · cases dispatched
      · split at dispatched <;> cases dispatched

private theorem isbPktEnd_data (found : before.isbPktEnd = (comm, .inertialSenseData)) :
    comm.rxPkt = before.isbPkt ∧ before.isbDataSize ≤ Comm.maxDatasetSize := by
  unfold Comm.Instance.isbPktEnd at found
  split at found
  · cases dispatched : before.isbSwitch.1 with
    | none =>
      simp only [dispatched] at found
      exact absurd (congrArg Prod.snd found) (parseErrorResetState_no_data _)
    | some ptype =>
      simp only [dispatched] at found
      obtain ⟨rfl, rfl⟩ := Prod.mk.inj found
      exact ⟨rfl, isbDispatch_data dispatched⟩
  · exact absurd (congrArg Prod.snd found) (parseErrorResetState_no_data _)

private theorem processIsbPkt_data (found : before.processIsbPkt = (comm, .inertialSenseData)) :
    before.isbPktEnd = (comm, .inertialSenseData) := by
  unfold Comm.Instance.processIsbPkt at found
  split at found
  · unfold Comm.Instance.processStart at found
    split at found <;> cases found
  · split at found
    · split at found
      · cases found
      · exact absurd (congrArg Prod.snd found) (parseErrorResetState_no_data _)
    · split at found
      · split at found
        · cases found
        · split at found
          · exact absurd (congrArg Prod.snd found) (parseErrorResetState_no_data _)
          · cases found
      · split at found
        · cases found
        · exact found

theorem IsReceived.dataPkt (received : IsReceived comm) : DataPkt comm.rxPkt := by
  obtain ⟨before, found⟩ := received
  obtain ⟨pkt, small⟩ := isbPktEnd_data (processIsbPkt_data found)
  rw [pkt]
  refine ⟨rfl, small, ?_, ?_⟩
  · show (if _ then Comm.word _ _ else 0) < 2 ^ 16
    split
    · exact word_lt _ _
    · exact Nat.zero_lt_succ _
  · show (if _ then none else some _) = none ↔ before.isbDataSize = 0
    split
    case isTrue empty => exact iff_of_true rfl empty
    case isFalse filled => exact iff_of_false nofun filled

/-- `rxPkt` is filled from the frame. -/
theorem processIsbPkt_rxPkt (found : before.processIsbPkt.2 = .inertialSenseData) :
    before.processIsbPkt.1.rxPkt = before.isbPkt :=
  (isbPktEnd_data (processIsbPkt_data (Prod.ext rfl found))).1

theorem atLastByte_found {flags id : UInt8} {payload : List UInt8}
    (fits : 8 + payload.length ≤ Comm.pktBufSize)
    (supported : Comm.isbFrameType flags id payload = some .inertialSenseData) :
    (atLastByte (Comm.isbFrame flags id payload)).processIsbPkt.2 = .inertialSenseData := by
  have length := Comm.isbFrame_length flags id payload
  have held : (atLastByte (Comm.isbFrame flags id payload)).held = 7 + payload.length := by
    show (Comm.isbFrame flags id payload).length - 1 - 0 = 7 + payload.length
    omega
  have whole : (atLastByte (Comm.isbFrame flags id payload)).numBytes =
      (Comm.isbFrame flags id payload).length := by
    show (Comm.isbFrame flags id payload).length - 1 - 0 + 1 = _
    omega
  have started : 0 < (Comm.isbFrame flags id payload).length - 1 := by omega
  have bytes (k : Nat) : (atLastByte (Comm.isbFrame flags id payload)).byteAt k =
      (Comm.isbFrame flags id payload).getD k 0 := by
    show (Comm.isbFrame flags id payload).getD (0 + k) 0 = _
    rw [Nat.zero_add]
  have size : (atLastByte (Comm.isbFrame flags id payload)).payloadSize = payload.length := by
    unfold Comm.Instance.payloadSize
    rw [bytes, bytes]
    exact Comm.word_lowByte_highByte (by unfold Comm.pktBufSize at fits; omega)
  have holds : (atLastByte (Comm.isbFrame flags id payload)).Holds .isb := by
    refine .inr (.inr ⟨rfl, by omega, ?_⟩)
    show (Comm.isbFrame flags id payload).length = _
    unfold Comm.pktBufSize at fits
    rw [size, length, Nat.mod_eq_of_lt (by omega)]
  obtain ⟨pkt, ackNeeded, given, -⟩ := (Comm.isbFrame_conforms _ fits supported).accepts _ rfl holds
    ⟨started, Nat.le_of_eq whole, fun k _ => bytes k⟩ whole
  exact congrArg Prod.snd given

end Received

theorem PData.bytes_take {comm : Comm.Instance} (hdr : DataHdr) (fewer : hdr.size.toNat ≤ comm.rxPkt.dataSize) :
    PData.bytes { hdr, ptr := comm.rxPkt.dataPtr } comm =
      comm.packetData.take hdr.size.toNat := by
  unfold PData.bytes Comm.Instance.packetData
  cases comm.rxPkt.dataPtr with
  | none => exact List.take_nil.symm
  | some ptr => exact (take_window comm.mem fewer).symm

namespace DataPkt

variable {comm : Comm.Instance}

theorem hdr_size (data : DataPkt comm.rxPkt) :
    (isCommToIsbPData comm).hdr.size.toNat = comm.rxPkt.dataSize := by
  have small : comm.rxPkt.dataSize < 2 ^ 16 := Nat.lt_of_le_of_lt data.small (by decide)
  exact UInt16.toNat_ofNat_of_lt' small

theorem hdr_offset (data : DataPkt comm.rxPkt) :
    (isCommToIsbPData comm).hdr.offset.toNat = comm.rxPkt.offset :=
  UInt16.toNat_ofNat_of_lt' data.offset

theorem packetData_length (data : DataPkt comm.rxPkt) :
    comm.packetData.length = comm.rxPkt.dataSize := by
  unfold Comm.Instance.packetData
  split
  · exact window_length ..
  case h_2 missing => exact (data.ptr.mp missing).symm

end DataPkt

section Processed

variable {cm : Receiver} {comm : Comm.Instance} {mem : Nat → UInt8}

/-- The checks of a data packet that do not depend on the size of the structure. -/
def InvalidData (comm : Comm.Instance) : Prop :=
  didCount ≤ comm.rxPkt.hdrId.toNat ∨ comm.rxPkt.payloadSize = 0

theorem processIsb_invalid (invalid : InvalidData comm) :
    cm.processIsb comm mem = { result := -1, mem, calls := [], ack := none } := if_pos invalid

theorem processIsb_valid (valid : ¬InvalidData comm) :
    cm.processIsb comm mem =
      match constrainedSize (cm.regData comm.rxPkt.hdrId).size (isCommToIsbPData comm).hdr with
      | none => { result := -1, mem, calls := [], ack := none }
      | some size =>
        cm.deliver comm mem
          { hdr := { (isCommToIsbPData comm).hdr with size }, ptr := comm.rxPkt.dataPtr } :=
  if_neg valid

end Processed

end InertialSense.ComManager
