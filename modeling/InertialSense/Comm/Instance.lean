import InertialSense.Comm.Checksum

/-! The state of a communication instance: `is_comm_instance_t` of `ISComm.h`. -/

namespace InertialSense.Comm

open Foundation

/-- `protocol_type_t`. -/
inductive ProtocolType where
  | none
  | parseError
  | inertialSenseAck
  | inertialSenseCmd
  | inertialSenseData
  | nmea
  | ublox
  | rtcm3
  | spartn
  | sony
deriving DecidableEq

/-- `eParseErrorType`. -/
inductive ParseErrorType where
  | invalidPreamble
  | invalidSize
  | invalidChksum
  | invalidDatatype
  | missingEosMarker
  | incompletePacket
  | invalidHeader
  | invalidPayload
  | rxbufferFlushed
  | streamUnparsable
deriving DecidableEq

/-- The functions a `pFnProcessPkt` can point to. -/
inductive Processor where
  | isb
  | nmea
  | ublox
  | rtcm3
  | spartn
  | sony
deriving DecidableEq

/-- `is_comm_buffer_t`. Pointers are distances from `start`; `end` is `bufSize`. Addresses
from `bufSize` on are memory that does not belong to the buffer. -/
structure RxBuf where
  mem : Nat → UInt8
  bufSize : Nat
  head : Nat
  tail : Nat
  scan : Nat
  scanPrior : Nat

/-- `is_comm_parser_t`. -/
structure Parser where
  state : Int
  size : Nat
  timeMs : UInt32
deriving DecidableEq

/-- `packet_t`, as far as the parser fills it. `flags`, `hdrId` and `payloadSize` are the
header; `payloadSize` and `offset` share their memory with `dataHdr`. -/
structure Packet where
  preamble : Nat
  flags : UInt8
  hdrId : UInt8
  payloadSize : Nat
  offset : Nat
  dataPtr : Option Nat
  dataSize : Nat
  checksum : Checksum16
  size : Nat
  id : Nat
deriving DecidableEq

/-- `is_comm_instance_t`. -/
structure Instance extends RxBuf where
  enabledMask : UInt32
  txPktCount : UInt32
  rxPktCount : UInt32
  rxErrorCount : UInt32
  rxErrorType : ParseErrorType
  rxErrorTypeCount : ParseErrorType → UInt32
  processPkt : Option Processor
  parser : Parser
  ackNeeded : UInt32
  rxPkt : Packet
  rxErrorState : Bool

/-- `eProtocolMask`: the bit that enables a protocol. -/
def Processor.enableBit : Processor → UInt32
  | .isb => 0x01
  | .nmea => 0x02
  | .ublox => 0x04
  | .rtcm3 => 0x08
  | .spartn => 0x10
  | .sony => 0x20

/-- The byte that starts a packet of the protocol. -/
def Processor.startByte : Processor → UInt8
  | .isb => 0xEF
  | .nmea => 0x24
  | .ublox => 0xB5
  | .rtcm3 => 0xD3
  | .spartn => 0x73
  | .sony => 0x7F

/-- The cases of the `switch` that looks for a packet start. -/
def startOf (byte : UInt8) : Option Processor :=
  [Processor.isb, .nmea, .ublox, .rtcm3, .spartn, .sony].find? fun p => p.startByte = byte

/-- A little-endian 16-bit value. -/
def word (low high : UInt8) : Nat := low.toNat + 256 * high.toNat

/-- `is_comm_init` on a buffer of `bufferSize` bytes in the memory `mem`. -/
def isCommInit (mem : Nat → UInt8) (bufferSize : Nat) : Instance :=
  { mem := fun address => if address < bufferSize then 0 else mem address
    bufSize := bufferSize
    head := 0
    tail := 0
    scan := 0
    scanPrior := 0
    enabledMask := 0x0F
    txPktCount := 0
    rxPktCount := 0
    rxErrorCount := 0
    rxErrorType := .invalidPreamble
    rxErrorTypeCount := fun _ => 0
    processPkt := none
    parser := { state := 0, size := 0, timeMs := 0 }
    ackNeeded := 0
    rxPkt :=
      { preamble := 0
        flags := 0
        hdrId := 0
        payloadSize := 0
        offset := 0
        dataPtr := some 0
        dataSize := 0
        checksum := { a := 0, b := 0 }
        size := 0
        id := 0 }
    rxErrorState := true }

namespace Instance

/-- The byte at `head + k`. -/
def byteAt (c : Instance) (k : Nat) : UInt8 := c.mem (c.head + k)

/-- `*(c->rxBuf.scan)`. -/
def current (c : Instance) : UInt8 := c.mem c.scan

/-- `scan - head + 1`: the bytes of the packet up to the current one. -/
def numBytes (c : Instance) : Nat := c.scan - c.head + 1

def setParserStart (c : Instance) (processPkt : Processor) : Instance :=
  { c with
    parser := { c.parser with state := 1 }
    head := c.scan
    processPkt := some processPkt }

def resetParser (c : Instance) : Instance :=
  { c with
    parser := { c.parser with state := 0 }
    scanPrior := c.scan
    scan := c.head
    processPkt := none }

/-- `reportParseError`: only the first error after a valid packet is counted and reported. -/
def reportParseError (c : Instance) (errorType : ParseErrorType) : Instance × ProtocolType :=
  if c.rxErrorState then (c, .none)
  else
    ({ c with
        rxErrorState := true
        rxErrorCount := c.rxErrorCount + 1
        rxErrorType := errorType
        rxErrorTypeCount := fun e =>
          if e = errorType then c.rxErrorTypeCount e + 1 else c.rxErrorTypeCount e }, .parseError)

def parseErrorResetState (c : Instance) (errorType : ParseErrorType) : Instance × ProtocolType :=
  c.resetParser.reportParseError errorType

def validPacketReset (c : Instance) (pktSize : Nat) : Instance :=
  { c with
    head := c.head + pktSize
    rxPktCount := c.rxPktCount + 1
    processPkt := none
    rxErrorState := false }

def validPacketFound (c : Instance) (pktSize dataSize id : Nat) : Instance :=
  validPacketReset
    { c with
      rxPkt :=
        { c.rxPkt with
          size := pktSize % 2 ^ 16
          dataPtr := some c.head
          dataSize
          id
          hdrId := 0
          offset := 0 } } pktSize

end Instance

/-- What a caller reads from `rxPkt` after a valid packet: the packet type of an ISB
packet, the id, the offset, the packet size and the data. -/
structure View where
  pktType : UInt8
  id : Nat
  offset : Nat
  size : Nat
  data : List UInt8
deriving DecidableEq

/-- A result of the parser other than `_PTYPE_NONE`; an error has no packet. -/
structure Report where
  ptype : ProtocolType
  packet : Option View
deriving DecidableEq

def ProtocolType.isIsb : ProtocolType → Bool
  | .inertialSenseAck | .inertialSenseCmd | .inertialSenseData => true
  | _ => false

/-- The bytes `rxPkt.data` points to. -/
def Instance.packetData (c : Instance) : List UInt8 :=
  match c.rxPkt.dataPtr with
  | some ptr => window c.mem ptr c.rxPkt.dataSize
  | none => []

def Instance.report (c : Instance) (ptype : ProtocolType) : Report :=
  { ptype
    packet :=
      if ptype = .parseError then none
      else
        some
          { pktType := if ptype.isIsb then c.rxPkt.flags &&& 0x0F else 0
            id := c.rxPkt.id
            offset := c.rxPkt.offset
            size := c.rxPkt.size
            data := c.packetData } }

end InertialSense.Comm
