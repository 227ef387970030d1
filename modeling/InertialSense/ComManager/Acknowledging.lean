import InertialSense.ComManager.Receiving

/-! The acknowledgement of `PKT_TYPE_SET_DATA`: whether the header in its body is that of the
received packet, and whether `sendAck` reads within the payload. -/

namespace InertialSense.ComManager

open Foundation
open InertialSense.DataLog (DataHdr bytesAt)

/-- The buffer of the parser holds other bytes. -/
def withMem (comm : Comm.Instance) (mem : Nat → UInt8) : Comm.Instance := { comm with mem }

/-- The acknowledgement that is sent carries the id, the size and the offset of the packet, and
depends on no byte of the buffer but those of the payload. -/
structure Identifies (cm : Receiver) (comm : Comm.Instance) (mem : Nat → UInt8) : Prop where
  echoes : ∃ ack, (cm.processIsb comm mem).ack = some (Comm.pktTypeAck, ack) ∧
    ack.dataHdr = some (isCommToIsbPData comm).hdr
  reads : ∀ other, (withMem comm other).packetData = comm.packetData →
    (cm.processIsb (withMem comm other) mem).ack = (cm.processIsb comm mem).ack

section Acknowledged

variable {cm : Receiver} {comm : Comm.Instance} {mem : Nat → UInt8}

/-- The bytes that `sendAck` takes for the header of the data. -/
private def ackBytes (comm : Comm.Instance) (ptr : Nat) : List UInt8 :=
  window comm.mem ptr DataHdr.sizeOf

private theorem bytes_ofMemory (comm : Comm.Instance) (ptr : Nat) :
    (DataHdr.ofMemory (fun place => comm.mem place.toNat) ptr).bytes = ackBytes comm ptr := by
  have half (start : Nat) : toBytes 2
      (halfAt (fun k : Nat => comm.mem ((ptr : Int) + k).toNat) start).toNat =
        window comm.mem (ptr + start) 2 := by
    rw [toBytes_halfAt]
    exact window_congr fun k _ => congrArg comm.mem (by omega)
  unfold ackBytes DataHdr.bytes DataHdr.ofMemory
  dsimp only
  rw [half, half]
  rfl

private theorem ofMemory_eq_iff {ptr : Nat} {hdr : DataHdr} :
    DataHdr.ofMemory (fun place => comm.mem place.toNat) ptr = hdr ↔
      ackBytes comm ptr = hdr.bytes := by
  constructor
  · rintro rfl
    exact (bytes_ofMemory comm ptr).symm
  · intro same
    apply DataHdr.ofMemory_bytes
    rw [← same]
    exact window_congr fun k _ => congrArg comm.mem (by omega)

private theorem accepted_valid (accepted : (cm.processIsb comm mem).result = 0) :
    ¬InvalidData comm ∧ ∃ size,
      constrainedSize (cm.regData comm.rxPkt.hdrId).size (isCommToIsbPData comm).hdr = some size := by
  have valid : ¬InvalidData comm := by
    intro invalid
    rw [processIsb_invalid invalid] at accepted
    cases accepted
  refine ⟨valid, Option.ne_none_iff_exists'.mp fun constrained => ?_⟩
  rw [processIsb_valid valid, constrained] at accepted
  cases accepted

private theorem ack_of_valid (valid : ¬InvalidData comm) {size : UInt16}
    (constrained : constrainedSize (cm.regData comm.rxPkt.hdrId).size (isCommToIsbPData comm).hdr =
      some size)
    (setData : comm.rxPkt.flags &&& Comm.pktTypeMask = Comm.pktTypeSetData) :
    (cm.processIsb comm mem).ack = some (Comm.pktTypeAck, sendAck comm) := by
  rw [processIsb_valid valid, constrained]
  exact if_pos setData

private theorem sendAck_dataHdr {ptr : Nat} (pointed : comm.rxPkt.dataPtr = some ptr)
    (setData : comm.rxPkt.flags &&& Comm.pktTypeMask = Comm.pktTypeSetData) :
    (sendAck comm).dataHdr =
      some (DataHdr.ofMemory (fun place => comm.mem place.toNat) ptr) := by
  unfold sendAck
  dsimp only
  rw [if_pos setData, pointed]
  rfl

private theorem packetData_eq {ptr : Nat} (pointed : comm.rxPkt.dataPtr = some ptr) :
    comm.packetData = window comm.mem ptr comm.rxPkt.dataSize := by
  unfold Comm.Instance.packetData
  rw [pointed]

/-- The payload starts with the header just if it is long enough for it and the bytes are
those. -/
private theorem prefix_iff {ptr : Nat} (pointed : comm.rxPkt.dataPtr = some ptr) (hdr : DataHdr) :
    hdr.bytes <+: comm.packetData ↔
      DataHdr.sizeOf ≤ comm.rxPkt.dataSize ∧ ackBytes comm ptr = hdr.bytes := by
  rw [packetData_eq pointed, List.prefix_iff_eq_take, DataHdr.bytes_length]
  constructor
  · intro same
    have long : DataHdr.sizeOf ≤ comm.rxPkt.dataSize := by
      have length := congrArg List.length same
      rw [List.length_take, window_length, DataHdr.bytes_length] at length
      omega
    rw [take_window _ long] at same
    exact ⟨long, same.symm⟩
  · rintro ⟨long, same⟩
    rw [take_window _ long]
    exact same.symm

private theorem reads_beyond {ptr : Nat} (pointed : comm.rxPkt.dataPtr = some ptr)
    (short : comm.rxPkt.dataSize < DataHdr.sizeOf) :
    ∃ other, (withMem comm other).packetData = comm.packetData ∧
      ackBytes (withMem comm other) ptr ≠ ackBytes comm ptr := by
  unfold DataHdr.sizeOf at short
  obtain ⟨other, changed, kept⟩ : ∃ other : Nat → UInt8,
      other (ptr + 4) = comm.mem (ptr + 4) + 1 ∧ ∀ k ≠ ptr + 4, other k = comm.mem k :=
    ⟨Function.update comm.mem (ptr + 4) (comm.mem (ptr + 4) + 1), Function.update_self ..,
      fun k elsewhere => Function.update_of_ne elsewhere ..⟩
  refine ⟨other, ?_, fun same => ?_⟩
  · have there : (withMem comm other).packetData = _ := packetData_eq pointed
    rw [there, packetData_eq pointed]
    refine window_congr fun k inside => kept _ ?_
    have small : k < comm.rxPkt.dataSize := inside
    omega
  · have cell : other (ptr + 4) = _ := cell_of_window_eq same (show 4 < DataHdr.sizeOf by decide)
    rw [changed] at cell
    exact absurd cell (by simp)

/-- Exactly when the acknowledgement identifies the packet. -/
theorem identifies_iff (received : IsReceived comm)
    (setData : comm.rxPkt.flags &&& Comm.pktTypeMask = Comm.pktTypeSetData)
    (accepted : (cm.processIsb comm mem).result = 0) :
    Identifies cm comm mem ↔ (isCommToIsbPData comm).hdr.bytes <+: comm.packetData := by
  have data := received.dataPkt
  obtain ⟨valid, size, constrained⟩ := accepted_valid accepted
  obtain ⟨ptr, pointed⟩ : ∃ ptr, comm.rxPkt.dataPtr = some ptr :=
    Option.ne_none_iff_exists'.mp fun none =>
      valid (.inr (data.sizes.trans (data.ptr.mp none)))
  have ack : (cm.processIsb comm mem).ack = _ := ack_of_valid valid constrained setData
  have otherAck (other : Nat → UInt8) : (cm.processIsb (withMem comm other) mem).ack =
      some (Comm.pktTypeAck, sendAck (withMem comm other)) :=
    ack_of_valid valid constrained setData
  have taken (other : Nat → UInt8) : (sendAck (withMem comm other)).dataHdr = _ :=
    sendAck_dataHdr pointed setData
  constructor
  · rintro ⟨⟨_, sent, echoed⟩, reads⟩
    obtain rfl := (Prod.mk.inj (Option.some.inj (ack.symm.trans sent))).2
    rw [sendAck_dataHdr pointed setData] at echoed
    refine (prefix_iff pointed _).mpr
      ⟨Nat.le_of_not_lt fun short => ?_, ofMemory_eq_iff.mp (Option.some.inj echoed)⟩
    obtain ⟨other, same, differs⟩ := reads_beyond pointed short
    have acks := reads other same
    rw [ack, otherAck] at acks
    have hdrs := congrArg PAck.dataHdr (Prod.mk.inj (Option.some.inj acks)).2
    rw [taken, sendAck_dataHdr pointed setData] at hdrs
    have bytes := ofMemory_eq_iff.mp (Option.some.inj hdrs)
    rw [bytes_ofMemory] at bytes
    exact differs bytes
  · intro starts
    have echo (other : Nat → UInt8)
        (starts : (isCommToIsbPData comm).hdr.bytes <+: (withMem comm other).packetData) :
        (sendAck (withMem comm other)).dataHdr = some (isCommToIsbPData comm).hdr := by
      have pointed' : (withMem comm other).rxPkt.dataPtr = some ptr := pointed
      rw [taken]
      exact congrArg some (ofMemory_eq_iff.mpr ((prefix_iff pointed' _).mp starts).2)
    refine ⟨⟨_, ack, echo comm.mem starts⟩, fun other same => ?_⟩
    have hdrs := (echo other (by rw [same]; exact starts)).trans (echo comm.mem starts).symm
    rw [ack, otherAck]
    show some (_, PAck.mk _ _ (sendAck (withMem comm other)).dataHdr) = _
    rw [hdrs]
    rfl

end Acknowledged

/-- No data set is registered, and all are given to the general callback. -/
def unregistered : Receiver :=
  { regData := fun _ => { rxPtr := none, size := 0, pstRxFnc := false }, pstRxFnc := true }

/-- `PKT_TYPE_SET_DATA` for `DID_DEV_INFO` with this payload. -/
def setDataFrame (payload : List UInt8) : Comm.Instance :=
  atLastByte (Comm.isbFrame Comm.pktTypeSetData 1 payload)

def setData (payload : List UInt8) : Comm.Instance := (setDataFrame payload).processIsbPkt.1

private theorem setData_received {payload : List UInt8}
    (found : (setDataFrame payload).processIsbPkt.2 = .inertialSenseData) :
    IsReceived (setData payload) := ⟨setDataFrame payload, Prod.ext rfl found⟩

theorem identifies_iff_own_header :
    Identifies unregistered (setData [1, 5, 0, 0, 0]) fun _ => 0 :=
  (identifies_iff (setData_received (by decide)) (by decide) (by decide)).mpr
    (List.prefix_iff_eq_take.mpr (by decide))

/-- Four zero bytes for data set 1 are acknowledged as data set 0 of size 0. -/
theorem unidentified : IsReceived (setData [0, 0, 0, 0]) ∧
    (unregistered.processIsb (setData [0, 0, 0, 0]) fun _ => 0).result = 0 ∧
    ¬Identifies unregistered (setData [0, 0, 0, 0]) fun _ => 0 := by
  refine ⟨setData_received (by decide), by decide, fun identifies => ?_⟩
  obtain ⟨ack, sent, echoed⟩ := identifies.echoes
  have taken : (unregistered.processIsb (setData [0, 0, 0, 0]) fun _ => 0).ack.bind
      (fun sent => sent.2.dataHdr.map DataHdr.id) = some 0 := by decide
  rw [sent, Option.bind_some, echoed] at taken
  revert taken
  decide

end InertialSense.ComManager
