import InertialSense.DataLog.Chunk
import InertialSense.Foundation.Numerals
import Mathlib.Data.Char
import Mathlib.Data.List.Lex

/-! `DeviceLog.cpp`: a log that goes into numbered files, and the calls by which the logs with
a chunk (`cDeviceLogSerial`, `cDeviceLogRaw`) fill and read those files. -/

namespace InertialSense.DataLog

open Foundation

variable {φ : Type*}

/-- `p_data_hdr_t`. -/
structure DataHdr where
  id : UInt8
  size : UInt16
  offset : UInt16
deriving DecidableEq

namespace DataHdr

def sizeOf : Nat := 5

def bytes (hdr : DataHdr) : List UInt8 :=
  hdr.id :: (toBytes 2 hdr.size.toNat ++ toBytes 2 hdr.offset.toNat)

/-- The header that a pointer points to. -/
def ofMemory (mem : Int → UInt8) (place : Int) : DataHdr :=
  { id := mem place
    size := halfAt (fun k => mem (place + k)) 1
    offset := halfAt (fun k => mem (place + k)) 3 }

end DataHdr

/-- A `p_data_hdr_t` and as many data bytes as it says. -/
@[ext] structure Record where
  hdr : DataHdr
  data : List UInt8
  sized : data.length = hdr.size.toNat
deriving DecidableEq

def didDevInfo : UInt8 := 1

/-- `sizeof(dev_info_t)`. -/
def devInfoSize : Nat := 84

/-- `offsetof(dev_info_t, serialNumber)`. -/
def serialNumberOffset : Nat := 4

/-- `offsetof(dev_info_t, firmwareVer)`. -/
def firmwareVerOffset : Nat := 12

/-- `copyDataPToStructP2`: nothing if the data does not fit. -/
def copyDataPToStructP2 (struct : Nat → UInt8) (record : Record) (maxsize : Nat) :
    Option (Nat → UInt8) :=
  if record.hdr.size.toNat + record.hdr.offset.toNat ≤ maxsize then
    some (store struct record.hdr.offset.toNat record.data)
  else none

/-- What a log uses of an `ISDevice`. -/
structure Device where
  devInfo : Nat → UInt8
  portHandle : Int

def Device.serialNumber (device : Device) : UInt32 := wordAt device.devInfo serialNumberOffset

/-- A `cISLogFile` that is open: of one opened with "wb" what was written, of one opened with
"rb" what is left to read. -/
inductive OpenFile where
  | writing (name : List Char) (contents : List UInt8)
  | reading (rest : List UInt8)

/-- A file system that stores every byte and returns it. -/
def logFile : LogFile OpenFile :=
  { write := fun file bytes =>
      match file with
      | .writing name contents => (.writing name (contents ++ bytes), bytes.length)
      | .reading rest => (.reading rest, 0)
    read := fun file len =>
      match file with
      | .writing name contents => (.writing name contents, [])
      | .reading rest => (.reading (rest.drop len), rest.take len)
    read_length := fun file len =>
      match file with
      | .writing _ _ => Nat.zero_le len
      | .reading rest => List.length_take_le len rest }

theorem logFile_writing (name : List Char) (contents bytes : List UInt8) :
    logFile.write (.writing name contents) bytes =
      (.writing name (contents ++ bytes), bytes.length) := rfl

theorem logFile_reading (rest : List UInt8) (len : Nat) :
    logFile.read (.reading rest) len = (.reading (rest.drop len), rest.take len) := rfl

def OpenFile.left : OpenFile → Nat
  | .writing _ _ => 0
  | .reading rest => rest.length

theorem OpenFile.read_left (file : OpenFile) (len : Nat) :
    (logFile.read file len).1.left + (logFile.read file len).2.length ≤ file.left := by
  cases file with
  | writing name contents => exact Nat.le_refl 0
  | reading rest =>
    show (rest.drop len).length + (rest.take len).length ≤ rest.length
    rw [List.length_drop, List.length_take]
    omega

/-- What tells the logs with a chunk apart: `LogFileExtention` and whether chunks go into the
file with their header. -/
structure LogFormat where
  extension : List Char
  chunkHeader : Bool

/-- `cDeviceLog` and the chunk of its subclasses, with the files of the log directory. The
statistics and the sizes kept for them are left out. -/
structure DeviceLog where
  disk : List (List Char × List UInt8)
  device : Option Device
  devSerialNo : UInt32
  fileNames : List (List Char)
  pFile : Option OpenFile
  directory : List Char
  timeStamp : List Char
  writeMode : Bool
  fileSize : UInt64
  fileCount : Nat
  maxFileSize : UInt32
  chunk : Chunk

/-- `cDeviceLog(dev)` and, without a device, `cDeviceLog(hdwId, serial)`. -/
def cDeviceLog (device : Option Device) (serial : UInt32) (disk : List (List Char × List UInt8))
    (chunk : Chunk) : DeviceLog :=
  { disk
    device
    devSerialNo := (device.map Device.serialNumber).getD serial
    fileNames := []
    pFile := none
    directory := []
    timeStamp := []
    writeMode := false
    fileSize := 0
    fileCount := 0
    maxFileSize := 0
    chunk }

theorem Chunk.readFromFile_shrinks {files : LogFile φ} {left : φ → Nat}
    (shrinks : ∀ file len,
      left (files.read file len).1 + (files.read file len).2.length ≤ left file)
    {c : Chunk} {pFile : Option φ} {readHeader : Bool}
    (read : 0 ≤ (c.readFromFile files pFile readHeader).2.2) :
    ∃ file file', pFile = some file ∧
      (c.readFromFile files pFile readHeader).2.1 = some file' ∧ left file' < left file := by
  cases pFile with
  | none => exact absurd (show (0 : Int) ≤ -1 from read) (by decide)
  | some file =>
    refine ⟨file, ?_⟩
    cases readHeader with
    | true =>
      have first := shrinks file ChunkHeader.size
      have second := shrinks (files.read file ChunkHeader.size).1
        (c.clear.hdr.overwrite (files.read file ChunkHeader.size).2).dataSize.toNat
      revert read
      refine iteInduction (motive := fun answer : Chunk × Option φ × Int => 0 ≤ answer.2.2 →
        ∃ file', some file = some file ∧ answer.2.1 = some file' ∧ left file' < left file)
        (fun _ read => ?_) fun good => ?_
      · exact absurd (show (0 : Int) ≤ -1 from read) (by decide)
      have some := Nat.pos_of_ne_zero (not_or.mp good).2
      refine iteInduction (motive := fun answer : Chunk × Option φ × Int => 0 ≤ answer.2.2 →
        ∃ file', Option.some file = Option.some file ∧ answer.2.1 = Option.some file' ∧
          left file' < left file)
        (fun _ _ => ⟨_, rfl, rfl, ?_⟩) fun _ read => ?_
      · show left (files.read (files.read file ChunkHeader.size).1
          (c.clear.hdr.overwrite (files.read file ChunkHeader.size).2).dataSize.toNat).1 < left file
        omega
      · exact absurd (show (0 : Int) ≤ -1 from read) (by decide)
    | false =>
      have taken := shrinks file (uint32 c.clear.getBuffFree).toNat
      refine ⟨_, rfl, rfl, ?_⟩
      show left (files.read file (uint32 c.clear.getBuffFree).toNat).1 < left file
      by_contra longer
      have empty : (files.read file (uint32 c.clear.getBuffFree).toNat).2 = [] :=
        List.length_eq_zero_iff.mp (by omega)
      have none : ((c.clear.setDataSize (uint32 c.clear.getBuffFree)).readData files
          file).1.getDataSize = 0 := by
        have tail : int32 (files.read file (uint32 c.clear.getBuffFree).toNat).2.length = 0 := by
          rw [empty]
          decide
        show int32 (0 + int32 (files.read file (uint32 c.clear.getBuffFree).toNat).2.length - 0) = 0
        rw [tail]
        decide
      have nothing : (c.readFromFile files (some file) false).2.2 = -1 := by
        have zero : ¬uint32 0 > 0 := by decide
        show (c.clear.readWithoutHeader files file).2.2 = -1
        unfold readWithoutHeader measureData
        dsimp only
        rw [none, if_neg zero]
      omega

namespace DeviceLog

/-- `InitDeviceForWriting` of the base class. -/
def initDeviceForWriting (log : DeviceLog) (timestamp directory : List Char)
    (maxFileSize : UInt32) : DeviceLog :=
  { log with
    timeStamp := timestamp
    directory
    fileCount := 0
    maxFileSize
    writeMode := true }

def initDeviceForReading (log : DeviceLog) : DeviceLog :=
  { log with fileSize := 0, fileCount := 0, writeMode := false }

def setSerialNumber (log : DeviceLog) (serialNumber : UInt32) : DeviceLog :=
  { log with devSerialNo := serialNumber, chunk := log.chunk.setDevSerialNum serialNumber }

/-- `GetDirectorySpaceUsed` without `sortByDate`: the files of the log, sorted by name. -/
def listing (log : DeviceLog) : List (List Char) :=
  (log.disk.map Prod.fst).insertionSort (· ≤ ·)

def setupReadInfo (log : DeviceLog) (directory : List Char) (serialNum : UInt32)
    (timeStamp : List Char) : DeviceLog :=
  { log.setSerialNumber serialNum with
    directory
    fileCount := 0
    timeStamp
    fileNames := log.listing }

def closeISLogFile (log : DeviceLog) : DeviceLog :=
  match log.pFile with
  | some (.writing name contents) =>
    { log with
      disk := log.disk.filter (fun file => file.1 ≠ name) ++ [(name, contents)]
      pFile := none }
  | _ => { log with pFile := none }

def getNewFileName (format : LogFormat) (log : DeviceLog) (serialNumber : UInt32)
    (fileCount : Nat) (suffix : List Char) : List Char :=
  log.directory ++ '/' :: "LOG_SN".toList ++ decimal (int32 serialNumber.toNat) ++
    '_' :: log.timeStamp ++ '_' :: padded 4 10 (fileCount % 10000) ++
    (if suffix = [] then [] else '_' :: suffix) ++ format.extension

/-- The serial number that goes into the file names. -/
def serNum (log : DeviceLog) : UInt32 :=
  match log.device with
  | some device => device.serialNumber
  | none => log.devSerialNo

def openNewSaveFile (format : LogFormat) (log : DeviceLog) : DeviceLog × Bool :=
  let log := log.closeISLogFile
  if log.directory = [] then (log, false)
  else
    let log := { log with fileCount := log.fileCount + 1 }
    if log.serNum = 0 then (log, false)
    else
      let fileName := log.getNewFileName format log.serNum log.fileCount []
      ({ log with pFile := some (.writing fileName []), fileSize := 0 }, true)

def openNextReadFile (log : DeviceLog) : DeviceLog × Bool :=
  let log := log.closeISLogFile
  match log.fileNames[log.fileCount]? with
  | none => (log, false)
  | some fileName =>
    ({ log with
        fileCount := log.fileCount + 1
        -- a file that cannot be opened has nothing to read
        pFile := some (.reading ((log.disk.lookup fileName).getD [])) }, true)

def ensureSaveFile (format : LogFormat) (log : DeviceLog) : DeviceLog :=
  if log.pFile.isNone then (log.openNewSaveFile format).1 else log

/-- The chunk goes into the open file. -/
def writeChunk (format : LogFormat) (log : DeviceLog) : DeviceLog :=
  let wrote := log.chunk.writeToFile logFile log.pFile 0 format.chunkHeader
  { log with
    chunk := wrote.1
    pFile := wrote.2.1
    fileSize := log.fileSize + UInt64.ofInt wrote.2.2 }

def writeChunkToFile (format : LogFormat) (log : DeviceLog) : DeviceLog × Bool :=
  if log.chunk.getDataSize = 0 then (log, false)
  else if (log.ensureSaveFile format).pFile.isNone then (log.ensureSaveFile format, false)
  else ((log.ensureSaveFile format).writeChunk format, true)

def flushToFile (format : LogFormat) (log : DeviceLog) : DeviceLog × Bool :=
  if log.writeMode then ((log.writeChunkToFile format).1, true) else (log, false)

def closeAllFiles (format : LogFormat) (log : DeviceLog) : DeviceLog :=
  (log.flushToFile format).1.closeISLogFile

def flush (format : LogFormat) (log : DeviceLog) : DeviceLog := (log.writeChunkToFile format).1

/-- The part of `SaveData` that ensures that data will fit in the chunk. -/
def ensureRoom (format : LogFormat) (log : DeviceLog) (dataBytes : Int) : DeviceLog × Bool :=
  if dataBytes > log.chunk.getBuffFree then
    let wrote := log.writeChunkToFile format
    if wrote.2 ∧ wrote.1.maxFileSize.toUInt64 ≤ wrote.1.fileSize then
      (wrote.1.closeAllFiles format, true)
    else wrote
  else (log, true)

/-- The end of `SaveData`: two blocks go into the chunk. -/
def saveBlocks (format : LogFormat) (log : DeviceLog) (d1 d2 : List UInt8) : DeviceLog × Bool :=
  let room := log.ensureRoom format (d1.length + d2.length)
  if room.2 then
    let pushed := room.1.chunk.pushBack (fun k => d1.getD k 0) d1.length (fun k => d2.getD k 0)
      d2.length
    ({ room.1 with chunk := pushed.1 }, decide (pushed.2 ≠ 0))
  else (room.1, false)

/-- What both `SaveData` do with the data of a `DID_DEV_INFO`. -/
def saveDevInfo (log : DeviceLog) (record : Record) : DeviceLog :=
  let devInfo := (log.device.map Device.devInfo).getD fun _ => 0
  match copyDataPToStructP2 devInfo record devInfoSize with
  | none => log
  | some devInfo =>
    let log := { log with device := log.device.map fun device => { device with devInfo } }
    let start := record.hdr.offset.toNat
    if start ≤ serialNumberOffset ∧ serialNumberOffset + 4 ≤ start + record.hdr.size.toNat then
      { log with chunk := log.chunk.setDevSerialNum (wordAt devInfo serialNumberOffset) }
    else log

/-- `ReadFromFile` into the chunk of the log. -/
def readChunk (format : LogFormat) (log : DeviceLog) : DeviceLog × Int :=
  let read := log.chunk.readFromFile logFile log.pFile format.chunkHeader
  ({ log with chunk := read.1, pFile := read.2.1 }, read.2.2)

/-- How many files are still to open. -/
def filesLeft (log : DeviceLog) : Nat := log.fileNames.length - log.fileCount

def bytesLeft (log : DeviceLog) : Nat := (log.pFile.map OpenFile.left).getD 0

theorem openNextReadFile_filesLeft {log : DeviceLog} (opened : log.openNextReadFile.2 = true) :
    log.openNextReadFile.1.filesLeft < log.filesLeft := by
  have same : log.closeISLogFile.fileNames = log.fileNames ∧
      log.closeISLogFile.fileCount = log.fileCount := by
    unfold closeISLogFile
    split <;> exact ⟨rfl, rfl⟩
  obtain ⟨names, count⟩ := same
  unfold openNextReadFile filesLeft at *
  dsimp only at *
  split at opened
  case h_1 => cases opened
  case h_2 fileName found =>
    have inside := (List.getElem?_eq_some_iff.mp found).1
    rw [names, count] at inside
    show log.closeISLogFile.fileNames.length - (log.closeISLogFile.fileCount + 1) < _
    rw [names, count]
    omega

/-- `ReadChunkFromFile`: open the next file until there is one with something to read. -/
def readChunkFromFile (format : LogFormat) (log : DeviceLog) : DeviceLog × Bool :=
  let read := log.readChunk format
  if 0 ≤ read.2 then (read.1, true)
  else if _ : read.1.openNextReadFile.2 = true then
    readChunkFromFile format read.1.openNextReadFile.1
  else (read.1.openNextReadFile.1, false)
termination_by log.filesLeft
decreasing_by exact openNextReadFile_filesLeft ‹_›

/-- A chunk that could be read was not empty. -/
theorem readChunk_bytesLeft {format : LogFormat} {log : DeviceLog}
    (read : 0 ≤ (log.readChunk format).2) :
    (log.readChunk format).1.bytesLeft < log.bytesLeft := by
  obtain ⟨file, file', before, after, less⟩ := Chunk.readFromFile_shrinks OpenFile.read_left read
  have before' : log.bytesLeft = file.left := by
    unfold bytesLeft
    rw [before]
    rfl
  have after' : (log.readChunk format).1.bytesLeft = file'.left := by
    show ((log.chunk.readFromFile logFile log.pFile format.chunkHeader).2.1.map _).getD 0 = _
    rw [after]
    rfl
  rwa [before', after']

theorem readChunkFromFile_left {format : LogFormat} {log : DeviceLog}
    (read : (log.readChunkFromFile format).2 = true) :
    (log.readChunkFromFile format).1.filesLeft < log.filesLeft ∨
      (log.readChunkFromFile format).1.filesLeft = log.filesLeft ∧
        (log.readChunkFromFile format).1.bytesLeft < log.bytesLeft := by
  induction log using readChunkFromFile.induct format with
  | case1 log result here =>
    unfold readChunkFromFile
    simp only [show 0 ≤ (log.readChunk format).2 from here, if_true]
    exact .inr ⟨rfl, readChunk_bytesLeft here⟩
  | case2 log result missing opened ih =>
    have missing' : ¬0 ≤ (log.readChunk format).2 := missing
    have opened' : (log.readChunk format).1.openNextReadFile.2 = true := opened
    have unfolded : log.readChunkFromFile format =
        readChunkFromFile format (log.readChunk format).1.openNextReadFile.1 := by
      rw [readChunkFromFile]
      simp only [missing', opened', if_false, dite_true]
    have less : (log.readChunk format).1.openNextReadFile.1.filesLeft < log.filesLeft :=
      openNextReadFile_filesLeft opened'
    rw [unfolded] at read ⊢
    obtain fewer | ⟨same, -⟩ := ih read
    · exact .inl (fewer.trans less)
    · exact .inl (same.trans_lt less)
  | case3 log result missing closed =>
    have missing' : ¬0 ≤ (log.readChunk format).2 := missing
    have closed' : ¬(log.readChunk format).1.openNextReadFile.2 = true := closed
    rw [readChunkFromFile] at read
    simp only [missing', closed', if_false] at read
    cases read

end DeviceLog

end InertialSense.DataLog
