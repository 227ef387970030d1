import InertialSense.Comm.RoundTrip
import InertialSense.DataLog.Reading
import InertialSense.DataLog.Stored

/-! `DeviceLogRaw.cpp`: the log of type RAW, where the bytes go into the chunk as they come and
a parser finds the packets in them, once when they are saved and once when they are read. -/

namespace InertialSense.DataLog

open Foundation

/-- The format of `cDeviceLogRaw`. -/
def raw : LogFormat := { extension := ".raw".toList, chunkHeader := false }

/-- `rxPkt.dataHdr`. -/
def rxDataHdr (c : Comm.Instance) : DataHdr :=
  { id := c.rxPkt.hdrId
    size := UInt16.ofNat c.rxPkt.payloadSize
    offset := UInt16.ofNat c.rxPkt.offset }

/-- As many bytes as `rxPkt.dataHdr` says, from so far behind `rxPkt.data.ptr` on. Behind the
buffer of the instance is memory that is not its own. -/
def rxRecordAt (c : Comm.Instance) (offset : Nat) : Record :=
  { hdr := rxDataHdr c
    data := window c.mem (c.rxPkt.dataPtr.getD 0 + offset) (rxDataHdr c).size.toNat
    sized := window_length .. }

/-- The packet that was received. -/
def rxRecord (c : Comm.Instance) : Record := rxRecordAt c 0

/-- `m_pData` after a packet: the data is copied from `rxPkt.data.ptr + rxPkt.dataHdr.offset`,
although `rxPkt.data.ptr` is where the data begins. -/
def readRecord (c : Comm.Instance) : Record := rxRecordAt c (rxDataHdr c).offset.toNat

/-- The results of the parser that are packets with a data header. -/
def IsData (ptype : Comm.ProtocolType) : Prop :=
  ptype = .inertialSenseData ∨ ptype = .inertialSenseCmd

instance (ptype : Comm.ProtocolType) : Decidable (IsData ptype) :=
  inferInstanceAs (Decidable (_ ∨ _))

/-- `cDeviceLogRaw`. -/
structure RawLog extends DeviceLog where
  comm : Comm.Instance

namespace Raw

/-- `cDeviceLogRaw(dev)` and, without a device, `cDeviceLogRaw(hdwId, serialNo)`. The memory is
that of `m_commBuf` and what is behind it. -/
def cDeviceLogRaw (device : Option Device) (serialNo : UInt32)
    (disk : List (List Char × List UInt8)) (chunk : Chunk) (commBuf : Nat → UInt8) : RawLog :=
  { cDeviceLog device serialNo disk chunk with comm := Comm.isCommInit commBuf Comm.pktBufSize }

def initDeviceForWriting (log : RawLog) (timestamp directory : List Char)
    (maxFileSize : UInt32) : RawLog :=
  let portHandle := (log.device.map Device.portHandle).getD (-1)
  let chunk := log.chunk.clear.setHdr { log.chunk.clear.hdr with pHandle := uint32 portHandle }
  { log with
    toDeviceLog :=
      { log.toDeviceLog with chunk }.initDeviceForWriting timestamp directory maxFileSize }

/-- The loop of `SaveData` on one byte: the parser is asked for the serial number. -/
def saveByte (log : RawLog) (byte : UInt8) : RawLog :=
  let parsed := log.comm.isCommParseByte byte
  let log := { log with comm := parsed.1 }
  if IsData parsed.2 ∧ parsed.1.rxPkt.hdrId = didDevInfo then
    { log with toDeviceLog := log.toDeviceLog.saveDevInfo (rxRecord parsed.1) }
  else log

def saveData (log : RawLog) (dataBuf : List UInt8) : RawLog × Bool :=
  let log := dataBuf.foldl saveByte log
  let saved := log.toDeviceLog.saveBlocks raw dataBuf []
  ({ log with toDeviceLog := saved.1 }, saved.2)

theorem popFront_less {c : Chunk} (some : 0 < c.getDataSize) :
    (c.popFront 1).1.getDataSize = c.getDataSize - 1 := by
  have enough : (1 : Int) ≤ c.getDataSize := some
  unfold Chunk.popFront
  rw [if_pos enough]
  show int32 (c.dataTail - (c.dataHead + 1)) = int32 (c.dataTail - c.dataHead) - 1
  change 0 < int32 (c.dataTail - c.dataHead) at some
  unfold int32 Int.bmod at *
  dsimp only at *
  split at some <;> split <;> omega

/-- `ReadDataFromChunk`: one byte at a time goes to the parser. `GetDataPtr` returns nothing if
`GetDataSize` is not positive. -/
def readDataFromChunk (log : RawLog) : RawLog × Option Record :=
  if _ : log.chunk.getDataSize ≤ 0 then (log, none)
  else
    let parsed := log.comm.isCommParseByte (log.chunk.buff log.chunk.dataHead)
    let next := { log with chunk := (log.chunk.popFront 1).1, comm := parsed.1 }
    if IsData parsed.2 then (next, some (readRecord parsed.1)) else readDataFromChunk next
termination_by log.chunk.getDataSize.toNat
decreasing_by
  have less := popFront_less (c := log.chunk) (by omega)
  show (log.chunk.popFront 1).1.getDataSize.toNat < log.chunk.getDataSize.toNat
  omega

/-- The files are left as they are. -/
theorem readDataFromChunk_frame (log : RawLog) :
    (readDataFromChunk log).1.toDeviceLog =
      { log.toDeviceLog with chunk := (readDataFromChunk log).1.chunk } := by
  induction size : log.chunk.getDataSize.toNat using Nat.strong_induction_on generalizing log with
  | h count ih =>
    rw [readDataFromChunk]
    split
    case isTrue => rfl
    case isFalse some =>
      have less := popFront_less (c := log.chunk) (by omega)
      dsimp only
      split
      · rfl
      · exact ih _ (by omega) _ (congrArg Int.toNat less)

def readChunkFromFile (log : RawLog) : RawLog × Bool :=
  let read := log.toDeviceLog.readChunkFromFile raw
  ({ log with toDeviceLog := read.1 }, read.2)

/-- `ReadData`: nothing once the files are empty. -/
def readData (log : RawLog) : RawLog × Option Record :=
  let read := readDataFromChunk log
  if read.2.isSome then read
  else if _ : (readChunkFromFile read.1).2 = true then readData (readChunkFromFile read.1).1
  else ((readChunkFromFile read.1).1, none)
termination_by (log.filesLeft, log.bytesLeft)
decreasing_by
  have files : (readDataFromChunk log).1.filesLeft = log.filesLeft := by
    rw [readDataFromChunk_frame]
    rfl
  have bytes : (readDataFromChunk log).1.bytesLeft = log.bytesLeft := by
    rw [readDataFromChunk_frame]
    rfl
  obtain fewer | ⟨here, less⟩ := DeviceLog.readChunkFromFile_left ‹_›
  · exact .left _ _ (files ▸ fewer)
  · rw [Prod.lex_def]
    exact .inr ⟨here.trans files, bytes ▸ less⟩

/-- A log from its constructor to `CloseAllFiles`, in a directory without files of its own. -/
def writeLog (device : Option Device) (serialNo : UInt32) (chunk : Chunk) (commBuf : Nat → UInt8)
    (timestamp directory : List Char) (maxFileSize : UInt32) (pieces : List (List UInt8)) :
    DeviceLog :=
  let log := cDeviceLogRaw device serialNo [] chunk commBuf
  let log := initDeviceForWriting log timestamp directory maxFileSize
  (run saveData log pieces).1.closeAllFiles raw

/-- A log that is about to read the files of this disk. -/
def openLog (disk : List (List Char × List UInt8)) (serialNo : UInt32) (chunk : Chunk)
    (commBuf : Nat → UInt8) (timestamp directory : List Char) : RawLog :=
  let log := cDeviceLogRaw none serialNo disk chunk commBuf
  { log with
    toDeviceLog := (log.setupReadInfo directory serialNo timestamp).initDeviceForReading }

/-- What so many calls of `ReadData` return. -/
def readLog (log : RawLog) (count : Nat) : List (Option Record) :=
  (run (fun log (_ : Unit) => readData log) log (List.replicate count ())).2

end Raw

end InertialSense.DataLog
