import InertialSense.Comm.Nmea

/-! The six packet processors of `ISComm.c`. Each is called with the byte at `scan` and
either waits, rejects what it holds from `head` on, or accepts it as a packet. -/

namespace InertialSense.Comm

open Foundation

namespace Instance

/-- `p->state = state`. -/
def setState (c : Instance) (state : Int) : Instance :=
  { c with parser := { c.parser with state } }

/-- `p->state++`. -/
def nextState (c : Instance) : Instance := c.setState (c.parser.state + 1)

/-- `p->size = size`. -/
def setSize (c : Instance) (size : Nat) : Instance :=
  { c with parser := { c.parser with size } }

/-- The `case 0` every processor starts with. -/
def processStart (c : Instance) (startByte : UInt8) : Instance × ProtocolType :=
  if c.current = startByte then (c.nextState, .none) else (c, .none)

/-- The 16-bit field at bytes 4 and 5, where ISB and UBX keep their payload size. -/
def payloadSize (c : Instance) : Nat := word (c.byteAt 4) (c.byteAt 5)

end Instance

/-- The packet types of `eISBPacketFlags` the parser distinguishes. -/
def pktTypeAck : UInt8 := 1
def pktTypeNack : UInt8 := 2
def pktTypeGetData : UInt8 := 3
def pktTypeData : UInt8 := 4
def pktTypeSetData : UInt8 := 5
def pktTypeStopBroadcastsAllPorts : UInt8 := 6
def pktTypeStopDidBroadcast : UInt8 := 7
def pktTypeStopBroadcastsCurrentPort : UInt8 := 8

def pktTypeMask : UInt8 := 0x0F

def isbFlagsPayloadWOffset : UInt8 := 0x20

def pktBufSize : Nat := 2048

def maxDatasetSize : Nat := 1024

/-- The `switch` on the packet type of a frame whose checksum passed: what is returned, if
it does not fall through to the invalid data type, and `ackNeeded`. -/
def isbDispatch (ptype : UInt8) (dataSize getSize : Nat) : Option ProtocolType × UInt32 :=
  if ptype = pktTypeSetData ∨ ptype = pktTypeData then
    if dataSize ≤ maxDatasetSize then
      (some .inertialSenseData, if ptype = pktTypeSetData then pktTypeAck.toUInt32 else 0)
    else (none, pktTypeNack.toUInt32)
  else if ptype = pktTypeGetData then
    (if getSize ≤ maxDatasetSize then some .inertialSenseCmd else none, 0)
  else if ptype = pktTypeStopBroadcastsAllPorts ∨ ptype = pktTypeStopDidBroadcast ∨
      ptype = pktTypeStopBroadcastsCurrentPort then
    (some .inertialSenseCmd, 0)
  else if ptype = pktTypeAck ∨ ptype = pktTypeNack then (some .inertialSenseAck, 0)
  else (none, 0)

namespace Instance

/-- `pkt->data.size` of the ISB frame at `head`. -/
def isbDataSize (c : Instance) : Nat :=
  if c.byteAt 2 &&& isbFlagsPayloadWOffset ≠ 0 then c.payloadSize - 2 else c.payloadSize

/-- `rxPkt` as `processIsbPkt` fills it from the frame at `head`. -/
def isbPkt (c : Instance) : Packet :=
  let payload := c.head + 6
  let withOffset := c.byteAt 2 &&& isbFlagsPayloadWOffset ≠ 0
  { preamble := word (c.byteAt 0) (c.byteAt 1)
    flags := c.byteAt 2
    hdrId := c.byteAt 3
    payloadSize := c.isbDataSize
    offset := if withOffset then word (c.byteAt 6) (c.byteAt 7) else 0
    dataPtr :=
      if c.isbDataSize = 0 then none else some (if withOffset then payload + 2 else payload)
    dataSize := c.isbDataSize
    checksum :=
      { a := c.byteAt (6 + c.payloadSize), b := c.byteAt (6 + c.payloadSize + 1) }
    size := c.parser.size
    id := (c.byteAt 3).toNat }

/-- `cksum->ck == calcCksum` in `processIsbPkt`. The byte count `p->size - 2` is converted
to an unsigned 32-bit argument. -/
def isbCksumPasses (c : Instance) : Bool :=
  c.isbPkt.checksum =
    fletcher16 { a := 0, b := 0 } (window c.mem c.head ((c.parser.size + 2 ^ 32 - 2) % 2 ^ 32))

/-- The packet type switch on the frame at `head`; the size field of `p_data_get_t` is at
bytes 8 and 9, whether or not the payload reaches that far. -/
def isbSwitch (c : Instance) : Option ProtocolType × UInt32 :=
  isbDispatch (c.byteAt 2 &&& pktTypeMask) c.isbDataSize (word (c.byteAt 8) (c.byteAt 9))

/-- The end of `processIsbPkt`, once the whole frame is there. -/
def isbPktEnd (c : Instance) : Instance × ProtocolType :=
  if c.isbCksumPasses then
    let found :=
      { (c.setState 0).validPacketReset c.numBytes with
        rxPkt := c.isbPkt
        ackNeeded := c.isbSwitch.2 }
    match c.isbSwitch.1 with
    | some ptype => (found, ptype)
    | none => found.parseErrorResetState .invalidDatatype
  else (c.setState 0).parseErrorResetState .invalidChksum

def processIsbPkt (c : Instance) : Instance × ProtocolType :=
  if c.parser.state = 0 then c.processStart 0xEF
  else if c.parser.state = 1 then
    if c.current = 0x49 then (c.nextState, .none)
    else c.parseErrorResetState .invalidPreamble
  else if c.parser.state = 2 then
    if c.scan - c.head < 5 then (c, .none)
    else if pktBufSize < (8 + c.payloadSize) % 2 ^ 16 then
      (c.nextState.setSize ((8 + c.payloadSize) % 2 ^ 16)).parseErrorResetState .invalidSize
    else (c.nextState.setSize ((8 + c.payloadSize) % 2 ^ 16), .none)
  else if c.numBytes < c.parser.size then (c, .none)
  else c.isbPktEnd

/-- `msgChecksum == calChecksum` in `processNmeaPkt`. The byte before `scan` is replaced by
the end of the string while `strtol` runs. -/
def nmeaCksumPasses (c : Instance) : Bool :=
  strtol16 [c.mem (c.scan - 3), c.mem (c.scan - 2)] =
    (byteXor (window c.mem (c.head + 1) (c.scan - 4 - (c.head + 1)))).toNat

/-- The end of `processNmeaPkt`. -/
def nmeaPktEnd (c : Instance) : Instance × ProtocolType :=
  if c.numBytes < 8 then (c.setState 0).parseErrorResetState .incompletePacket
  else if c.nmeaCksumPasses then
    ((c.setState 0).validPacketFound c.numBytes c.numBytes
      (getNmeaMsgId c.byteAt c.numBytes % 2 ^ 16).toNat, .nmea)
  else (c.setState 0).parseErrorResetState .invalidChksum

/-- `processNmeaPkt`. The `switch` has no case 2, so the byte after the carriage return ends
the packet whatever it is. -/
def processNmeaPkt (c : Instance) : Instance × ProtocolType :=
  if c.parser.state = 0 then c.processStart 0x24
  else if c.parser.state = 1 then
    if c.current = 0x0D then (c.nextState, .none)
    else if 200 < c.scan - c.head then c.parseErrorResetState .invalidSize
    else (c, .none)
  else if c.parser.state = 3 ∧ c.current ≠ 0x0A then c.parseErrorResetState .missingEosMarker
  else c.nmeaPktEnd

/-- The end of `processUbloxPkt`. -/
def ubloxPktEnd (c : Instance) : Instance × ProtocolType :=
  if (⟨c.mem (c.scan - 1), c.current⟩ : Checksum16) =
      fletcher16 { a := 0, b := 0 } (window c.mem (c.head + 2) (c.scan - 1 - (c.head + 2))) then
    ((c.setState 0).validPacketFound c.numBytes c.parser.size (c.byteAt 2).toNat, .ublox)
  else (c.setState 0).parseErrorResetState .invalidChksum

def processUbloxPkt (c : Instance) : Instance × ProtocolType :=
  if c.parser.state = 0 then c.processStart 0xB5
  else if c.parser.state = 1 then
    if c.current = 0x62 then (c.nextState, .none)
    else c.parseErrorResetState .invalidPreamble
  else if c.parser.state = 2 then
    if c.scan - c.head < 5 then (c, .none)
    else ((c.setSize ((8 + c.payloadSize) % 2 ^ 16)).nextState, .none)
  else if c.numBytes < c.parser.size then (c, .none)
  else c.ubloxPktEnd

/-- The packet length in an RTCM3 header. -/
def rtcm3Size (c : Instance) : Nat := (getBitsAsUInt32 c.byteAt 14 10).toNat + 6

/-- The end of `processRtcm3Pkt`. -/
def rtcm3PktEnd (c : Instance) : Instance × ProtocolType :=
  let lenWithoutCrc := c.parser.size - 3
  let actualCRC := calculate24BitCRCQ (window c.mem c.head lenWithoutCrc)
  let correctCRC := getBitsAsUInt32 (fun k => c.byteAt (lenWithoutCrc + k)) 0 24
  if actualCRC = correctCRC then
    ((c.setState 0).validPacketFound c.numBytes c.parser.size
      (getBitsAsUInt32 c.byteAt 24 12).toNat, .rtcm3)
  else (c.setState 0).parseErrorResetState .invalidChksum

/-- `processRtcm3Pkt`. `rxBuf.size - 6` is unsigned. -/
def processRtcm3Pkt (c : Instance) : Instance × ProtocolType :=
  if c.parser.state = 0 then c.processStart 0xD3
  else if c.parser.state = 1 then (c.nextState, .none)
  else if c.parser.state = 2 then
    if 1023 < c.rtcm3Size ∨ (c.bufSize + 2 ^ 32 - 6) % 2 ^ 32 < c.rtcm3Size then
      (c.setSize c.rtcm3Size).nextState.parseErrorResetState .incompletePacket
    else ((c.setSize c.rtcm3Size).nextState, .none)
  else if c.numBytes < c.parser.size then (c, .none)
  else c.rtcm3PktEnd

/-- `hdr->dataSize` of a Sony header. -/
def sonyDataSize (c : Instance) : Nat := word (c.byteAt 1) (c.byteAt 2)

/-- The end of `processSonyByte`. -/
def sonyPktEnd (c : Instance) : Instance × ProtocolType :=
  if byteSum (window c.mem (c.head + 5) c.sonyDataSize) = c.current then
    ((c.setState 0).validPacketFound c.numBytes c.parser.size (c.byteAt 3).toNat, .sony)
  else (c.setState 0).parseErrorResetState .invalidChksum

def processSonyByte (c : Instance) : Instance × ProtocolType :=
  if c.parser.state = 0 then c.processStart 0x7F
  else if c.parser.state = 1 then
    if c.scan - c.head < 4 then (c, .none)
    else if byteSum (window c.mem c.head 4) ≠ c.byteAt 4 ∨ 4090 < c.sonyDataSize ∨
        c.bufSize < c.sonyDataSize then
      c.parseErrorResetState .invalidPreamble
    else ((c.setSize (c.sonyDataSize + 6)).nextState, .none)
  else if c.numBytes < c.parser.size then (c, .none)
  else c.sonyPktEnd

/-- The payload length in a SPARTN header with the checksum that ends the message. -/
def spartnPayloadLen (c : Instance) : Nat :=
  (((c.byteAt 1).toNat &&& 0x01) <<< 9 ||| (c.byteAt 2).toNat <<< 1 ||| (c.byteAt 3).toNat >>> 7)
    + (((c.byteAt 3).toNat >>> 4 &&& 0x03) + 1)

/-- The length of the authentication data announced by the byte `auth`. -/
def spartnAuthLen (auth : UInt8) : Nat :=
  if 1 < (auth.toNat >>> 3 &&& 0x07) then
    match auth.toNat &&& 0x07 with
    | 0 => 8
    | 1 => 12
    | 2 => 16
    | 3 => 32
    | 4 => 64
    | _ => 0
  else 0

/-- Cases 7 to 11 of `processSpartnByte`, where the header ends at a place that depends on
the time stamp and on encryption. -/
def spartnHeader (c : Instance) : Instance :=
  let extendedTs := c.byteAt 4 &&& 0x08 ≠ 0
  let encrypt := c.byteAt 3 &&& 0x40 ≠ 0
  if extendedTs then
    if ¬encrypt ∧ c.parser.state = 9 then c.setState (-c.spartnPayloadLen)
    else if encrypt ∧ c.parser.state = 11 then
      c.setState (-(c.spartnPayloadLen + spartnAuthLen (c.byteAt 11) : Nat))
    else c.nextState
  else
    if ¬encrypt ∧ c.parser.state = 7 then c.setState (-c.spartnPayloadLen)
    else if encrypt ∧ c.parser.state = 9 then
      c.setState (-(c.spartnPayloadLen + spartnAuthLen (c.byteAt 9) : Nat))
    else c.nextState

/-- `processSpartnByte`. A negative state counts the payload bytes that are missing. -/
def processSpartnByte (c : Instance) : Instance × ProtocolType :=
  if c.parser.state = 0 then c.processStart 0x73
  else if c.parser.state = 3 then
    if c.byteAt 3 &&& 0x0F ≠ computeCrc4Ccitt [c.byteAt 1, c.byteAt 2, c.byteAt 3 &&& 0xF0] then
      c.parseErrorResetState .invalidHeader
    else (c.nextState, .none)
  else if 1 ≤ c.parser.state ∧ c.parser.state ≤ 6 then (c.nextState, .none)
  else if 7 ≤ c.parser.state ∧ c.parser.state ≤ 11 then (c.spartnHeader, .none)
  else if c.parser.state + 1 = 0 then
    ((c.setState 0).validPacketFound c.numBytes c.numBytes 0, .spartn)
  else if 0 < c.parser.state + 1 then c.nextState.parseErrorResetState .invalidPayload
  else (c.nextState, .none)

/-! ### The processors, state by state -/

section States

variable {c : Instance}

theorem processIsbPkt_one (state : c.parser.state = 1) :
    c.processIsbPkt = if c.current = 0x49 then (c.setState 2, .none)
      else c.parseErrorResetState .invalidPreamble := by
  simp [processIsbPkt, nextState, state]

theorem processIsbPkt_two (state : c.parser.state = 2) :
    c.processIsbPkt = if c.scan - c.head < 5 then (c, .none)
      else if pktBufSize < (8 + c.payloadSize) % 2 ^ 16 then
        ((c.setState 3).setSize ((8 + c.payloadSize) % 2 ^ 16)).parseErrorResetState .invalidSize
      else ((c.setState 3).setSize ((8 + c.payloadSize) % 2 ^ 16), .none) := by
  simp [processIsbPkt, nextState, state]

theorem processIsbPkt_three (state : c.parser.state = 3) :
    c.processIsbPkt = if c.numBytes < c.parser.size then (c, .none) else c.isbPktEnd := by
  simp [processIsbPkt, state]

theorem processNmeaPkt_one (state : c.parser.state = 1) :
    c.processNmeaPkt = if c.current = 0x0D then (c.setState 2, .none)
      else if 200 < c.scan - c.head then c.parseErrorResetState .invalidSize else (c, .none) := by
  simp [processNmeaPkt, nextState, state]

theorem processNmeaPkt_two (state : c.parser.state = 2) : c.processNmeaPkt = c.nmeaPktEnd := by
  simp [processNmeaPkt, state]

theorem processUbloxPkt_one (state : c.parser.state = 1) :
    c.processUbloxPkt = if c.current = 0x62 then (c.setState 2, .none)
      else c.parseErrorResetState .invalidPreamble := by
  simp [processUbloxPkt, nextState, state]

theorem processUbloxPkt_two (state : c.parser.state = 2) :
    c.processUbloxPkt = if c.scan - c.head < 5 then (c, .none)
      else ((c.setState 3).setSize ((8 + c.payloadSize) % 2 ^ 16), .none) := by
  simp [processUbloxPkt, nextState, setState, setSize, state]

theorem processUbloxPkt_three (state : c.parser.state = 3) :
    c.processUbloxPkt = if c.numBytes < c.parser.size then (c, .none) else c.ubloxPktEnd := by
  simp [processUbloxPkt, state]

theorem processRtcm3Pkt_one (state : c.parser.state = 1) :
    c.processRtcm3Pkt = (c.setState 2, .none) := by
  simp [processRtcm3Pkt, nextState, state]

theorem processRtcm3Pkt_two (state : c.parser.state = 2) :
    c.processRtcm3Pkt =
      if 1023 < c.rtcm3Size ∨ (c.bufSize + 2 ^ 32 - 6) % 2 ^ 32 < c.rtcm3Size then
        ((c.setState 3).setSize c.rtcm3Size).parseErrorResetState .incompletePacket
      else ((c.setState 3).setSize c.rtcm3Size, .none) := by
  simp [processRtcm3Pkt, nextState, setState, setSize, state]

theorem processRtcm3Pkt_three (state : c.parser.state = 3) :
    c.processRtcm3Pkt = if c.numBytes < c.parser.size then (c, .none) else c.rtcm3PktEnd := by
  simp [processRtcm3Pkt, state]

theorem processSonyByte_one (state : c.parser.state = 1) :
    c.processSonyByte = if c.scan - c.head < 4 then (c, .none)
      else if byteSum (window c.mem c.head 4) ≠ c.byteAt 4 ∨ 4090 < c.sonyDataSize ∨
          c.bufSize < c.sonyDataSize then
        c.parseErrorResetState .invalidPreamble
      else ((c.setState 2).setSize (c.sonyDataSize + 6), .none) := by
  simp [processSonyByte, nextState, setState, setSize, state]

theorem processSonyByte_two (state : c.parser.state = 2) :
    c.processSonyByte = if c.numBytes < c.parser.size then (c, .none) else c.sonyPktEnd := by
  simp [processSonyByte, state]

theorem processSpartnByte_header (low : 1 ≤ c.parser.state) (high : c.parser.state ≤ 6)
    (other : c.parser.state ≠ 3) : c.processSpartnByte = (c.nextState, .none) := by
  have zero : c.parser.state ≠ 0 := by omega
  simp [processSpartnByte, zero, other, low, high]

theorem processSpartnByte_three (state : c.parser.state = 3) :
    c.processSpartnByte =
      if c.byteAt 3 &&& 0x0F ≠ computeCrc4Ccitt [c.byteAt 1, c.byteAt 2, c.byteAt 3 &&& 0xF0] then
        c.parseErrorResetState .invalidHeader
      else (c.nextState, .none) := by
  simp [processSpartnByte, state]

theorem processSpartnByte_lengths (low : 7 ≤ c.parser.state) (high : c.parser.state ≤ 11) :
    c.processSpartnByte = (c.spartnHeader, .none) := by
  have zero : c.parser.state ≠ 0 := by omega
  have three : c.parser.state ≠ 3 := by omega
  have six : ¬c.parser.state ≤ 6 := by omega
  simp [processSpartnByte, zero, three, six, low, high]

theorem processSpartnByte_payload (negative : c.parser.state < 0) :
    c.processSpartnByte =
      if c.parser.state + 1 = 0 then
        ((c.setState 0).validPacketFound c.numBytes c.numBytes 0, .spartn)
      else (c.nextState, .none) := by
  have zero : c.parser.state ≠ 0 := by omega
  have three : c.parser.state ≠ 3 := by omega
  have one : ¬1 ≤ c.parser.state := by omega
  have seven : ¬7 ≤ c.parser.state := by omega
  have positive : ¬0 < c.parser.state + 1 := by omega
  simp [processSpartnByte, zero, three, one, seven, positive]

end States

end Instance

/-- The call through `processPkt`. -/
def Processor.process : Processor → Instance → Instance × ProtocolType
  | .isb => Instance.processIsbPkt
  | .nmea => Instance.processNmeaPkt
  | .ublox => Instance.processUbloxPkt
  | .rtcm3 => Instance.processRtcm3Pkt
  | .spartn => Instance.processSpartnByte
  | .sony => Instance.processSonyByte

end InertialSense.Comm
