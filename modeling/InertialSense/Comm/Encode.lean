import InertialSense.Comm.Frames

/-! The encoder of ISB packets: a header with a precomputed checksum, an offset that is left
out when it is zero, the data, and the checksum of all of it. -/

namespace InertialSense.Comm

open Foundation

/-- `packet_t`, as `is_comm_encode_hdr` fills it. `data` are the `data.size` bytes at
`data.ptr`. -/
structure TxPacket where
  flags : UInt8
  id : UInt8
  payloadSize : UInt16
  offset : UInt16
  data : List UInt8
  size : UInt16
  hdrCksum : Checksum16

def wordBytes (value : UInt16) : List UInt8 := [lowByte value.toNat, highByte value.toNat]

/-- The bytes of `packet_hdr_t`. -/
def headerBytes (flags id : UInt8) (payloadSize : UInt16) : List UInt8 :=
  [0xEF, 0x49, flags, id] ++ wordBytes payloadSize

/-- `is_comm_encode_hdr`, for `data_size` bytes of data. -/
def isCommEncodeHdr (flags : UInt8) (did dataSize offset : UInt16) (data : List UInt8) :
    TxPacket :=
  let flags := if offset ≠ 0 then flags ||| isbFlagsPayloadWOffset else flags
  let payloadSize := if offset ≠ 0 then dataSize + 2 else dataSize
  let header := fletcher16 { a := 0, b := 0 } (headerBytes flags did.toUInt8 payloadSize)
  { flags
    id := did.toUInt8
    payloadSize
    offset
    data
    size := payloadSize + 6 + 2
    hdrCksum := if offset ≠ 0 then fletcher16 header (wordBytes offset) else header }

/-- `is_comm_write_isb_precomp_to_buffer`: the bytes written to a buffer of `bufSize` bytes,
or nothing if the packet does not fit. -/
def isCommWriteIsbPrecompToBuffer (bufSize : Nat) (comm : Instance) (pkt : TxPacket) :
    Instance × Option (List UInt8) :=
  if bufSize < pkt.size.toNat then (comm, none)
  else
    let checksum := fletcher16 pkt.hdrCksum pkt.data
    ({ comm with txPktCount := comm.txPktCount + 1 },
      some (headerBytes pkt.flags pkt.id pkt.payloadSize ++
        (if pkt.offset ≠ 0 then wordBytes pkt.offset else []) ++ pkt.data ++
        [checksum.a, checksum.b]))

def isCommWriteToBuf (bufSize : Nat) (comm : Instance) (flags : UInt8)
    (did dataSize offset : UInt16) (data : List UInt8) : Instance × Option (List UInt8) :=
  isCommWriteIsbPrecompToBuffer bufSize comm (isCommEncodeHdr flags did dataSize offset data)

/-- The bytes of a `p_data_get_t`. -/
def dataGetBytes (did size offset periodMultiple : UInt32) : List UInt8 :=
  wordBytes did.toUInt16 ++ wordBytes size.toUInt16 ++ wordBytes offset.toUInt16 ++
    wordBytes periodMultiple.toUInt16

def isCommGetDataToBuf (bufSize : Nat) (comm : Instance)
    (did size offset periodMultiple : UInt32) : Instance × Option (List UInt8) :=
  isCommWriteToBuf bufSize comm pktTypeGetData 0 8 0 (dataGetBytes did size offset periodMultiple)

/-! ### What is written is a frame -/

/-- The flags of the frame. -/
def sentFlags (flags : UInt8) (offset : UInt16) : UInt8 :=
  if offset ≠ 0 then flags ||| isbFlagsPayloadWOffset else flags

/-- The payload of the frame. -/
def sentPayload (offset : UInt16) (data : List UInt8) : List UInt8 :=
  if offset ≠ 0 then wordBytes offset ++ data else data

private theorem payload_split (flags : UInt8) (did size offset : UInt16) (data : List UInt8) :
    headerBytes (sentFlags flags offset) did.toUInt8 size ++
        (if offset ≠ 0 then wordBytes offset else []) ++ data =
      headerBytes (sentFlags flags offset) did.toUInt8 size ++ sentPayload offset data := by
  unfold sentPayload
  split <;> simp

/-- The checksum of the header and the offset, continued over the data, is the checksum of
all bytes before it. -/
private theorem isCommEncodeHdr_cksum (flags : UInt8) (did dataSize offset : UInt16)
    (data : List UInt8) :
    fletcher16 (isCommEncodeHdr flags did dataSize offset data).hdrCksum data =
      fletcher16 { a := 0, b := 0 }
        (headerBytes (sentFlags flags offset) did.toUInt8
          (if offset ≠ 0 then dataSize + 2 else dataSize) ++ sentPayload offset data) := by
  rw [← payload_split, fletcher16_append, fletcher16_append]
  unfold isCommEncodeHdr sentFlags
  by_cases some : offset ≠ 0
  · simp only [if_pos some]
  · simp only [if_neg some]
    rfl

private theorem isCommWriteToBuf_withFletcher {bufSize : Nat} {comm : Instance} {flags : UInt8}
    {did dataSize offset : UInt16} {data bytes : List UInt8}
    (written : (isCommWriteToBuf bufSize comm flags did dataSize offset data).2 = some bytes) :
    bytes = withFletcher (headerBytes (sentFlags flags offset) did.toUInt8
      (if offset ≠ 0 then dataSize + 2 else dataSize) ++ sentPayload offset data) := by
  unfold isCommWriteToBuf isCommWriteIsbPrecompToBuffer at written
  split at written
  case isTrue => cases written
  case isFalse =>
    unfold withFletcher
    rw [← isCommEncodeHdr_cksum, ← payload_split]
    exact (Option.some.inj written).symm

/-- A packet that is written is the frame of its payload. The size of the data is a 16-bit
argument. -/
theorem isCommWriteToBuf_frame {bufSize : Nat} {comm : Instance} {flags : UInt8}
    {did dataSize offset : UInt16} {data bytes : List UInt8}
    (size : dataSize.toNat = data.length) (small : bytes.length < 65536)
    (written : (isCommWriteToBuf bufSize comm flags did dataSize offset data).2 = some bytes) :
    bytes = isbFrame (sentFlags flags offset) did.toUInt8 (sentPayload offset data) := by
  obtain rfl := isCommWriteToBuf_withFletcher written
  rw [withFletcher_length, List.length_append] at small
  have payload : (if offset ≠ 0 then dataSize + 2 else dataSize).toNat =
      (sentPayload offset data).length := by
    unfold sentPayload at small ⊢
    split
    case isTrue more =>
      have two : (2 : UInt16).toNat = 2 := rfl
      have length : (wordBytes offset ++ data).length = data.length + 2 := rfl
      rw [if_pos more, if_pos more] at small
      rw [UInt16.toNat_add, two]
      omega
    case isFalse => exact size
  unfold isbFrame headerBytes wordBytes isbBody
  rw [payload]
  rfl

end InertialSense.Comm
