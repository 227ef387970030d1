import InertialSense.DataLog.Reading
import InertialSense.DataLog.Stored

/-! `DeviceLogSerial.cpp`: the log of type DAT, where each record goes into the chunk with its
header. What is saved is read back. -/

namespace InertialSense.DataLog

open Foundation

/-- The format of `cDeviceLogSerial`. -/
def dat : LogFormat := { extension := ".dat".toList, chunkHeader := true }

/-- The record as `PushBack` gets it. -/
def Record.bytes (record : Record) : List UInt8 := record.hdr.bytes ++ record.data

/-- The record that a `p_data_buf_t*` points to. -/
def Record.ofMemory (mem : Int → UInt8) (place : Int) : Record :=
  { hdr := DataHdr.ofMemory mem place
    data := bytesAt mem (place + DataHdr.sizeOf) (DataHdr.ofMemory mem place).size.toNat
    sized := window_length .. }

def Chunk.setDevInfo (c : Chunk) (device : Device) : Chunk :=
  { c with
    hdr :=
      { c.hdr with
        devSerialNum := device.serialNumber
        fwVersion := .ofFn fun k => device.devInfo (firmwareVerOffset + k) } }

namespace Serial

/-- `cDeviceLogSerial(dev)` and, without a device, `cDeviceLogSerial(hdwId, serialNo)`. -/
def cDeviceLogSerial (device : Option Device) (serialNo : UInt32)
    (disk : List (List Char × List UInt8)) (chunk : Chunk) : DeviceLog :=
  let log := cDeviceLog device serialNo disk chunk
  let chunk :=
    match device with
    | some device => log.chunk.clear.setDevInfo device
    | none => log.chunk.clear
  { log with chunk := chunk.setDevSerialNum log.devSerialNo }

def initDeviceForWriting (log : DeviceLog) (timestamp directory : List Char)
    (maxFileSize : UInt32) : DeviceLog :=
  let chunk :=
    match log.device with
    | some device =>
      log.chunk.clear.setHdr
        { log.chunk.clear.hdr with
          devSerialNum := device.serialNumber
          pHandle := uint32 device.portHandle }
    | none => log.chunk.clear
  { log with chunk }.initDeviceForWriting timestamp directory maxFileSize

def saveData (log : DeviceLog) (record : Record) : DeviceLog × Bool :=
  let log :=
    if record.hdr.id = didDevInfo then log.saveDevInfo record
    else { log with chunk := log.chunk.setDevSerialNum log.devSerialNo }
  log.saveBlocks dat record.hdr.bytes record.data

def readDataFromChunk (log : DeviceLog) : DeviceLog × Option Record :=
  if log.chunk.getDataSize ≤ 0 then (log, none)
  else
    let data := Record.ofMemory log.chunk.buff log.chunk.dataHead
    let popped := log.chunk.popFront (data.hdr.size.toNat + DataHdr.sizeOf)
    ({ log with chunk := popped.1 }, if popped.2 then some data else none)

theorem readDataFromChunk_frame (log : DeviceLog) :
    (readDataFromChunk log).1 = { log with chunk := (readDataFromChunk log).1.chunk } := by
  unfold readDataFromChunk
  split <;> rfl

/-- `ReadData`: nothing once there is nothing left to read. -/
def readData (log : DeviceLog) : DeviceLog × Option Record :=
  let read := readDataFromChunk log
  if read.2.isSome then read
  else if _ : (read.1.readChunkFromFile dat).2 = true then
    readData (read.1.readChunkFromFile dat).1
  else ((read.1.readChunkFromFile dat).1, none)
termination_by (log.filesLeft, log.bytesLeft)
decreasing_by
  have files : (readDataFromChunk log).1.filesLeft = log.filesLeft := by
    rw [readDataFromChunk_frame]
    rfl
  have bytes : (readDataFromChunk log).1.bytesLeft = log.bytesLeft := by
    rw [readDataFromChunk_frame]
    rfl
  obtain fewer | ⟨here, less⟩ := DeviceLog.readChunkFromFile_left ‹_›
  · exact .left _ _ (files ▸ fewer)
  · rw [Prod.lex_def]
    exact .inr ⟨here.trans files, bytes ▸ less⟩

/-- A call on a log that is written. -/
inductive Call where
  | saveData (record : Record)
  | flushToFile
  | flush

def step (log : DeviceLog) : Call → DeviceLog × Bool
  | .saveData record => saveData log record
  | .flushToFile => log.flushToFile dat
  | .flush => (log.flush dat, true)

def saved (calls : List Call) : List Record :=
  calls.filterMap fun call =>
    match call with
    | .saveData record => some record
    | _ => none

theorem saved_cons (call : Call) (rest : List Call) :
    saved (call :: rest) = saved [call] ++ saved rest := List.filterMap_append (l := [call])

/-- A log from its constructor to `CloseAllFiles`, in a directory without files of its own. -/
def writeLog (device : Option Device) (serialNo : UInt32) (chunk : Chunk)
    (timestamp directory : List Char) (maxFileSize : UInt32) (calls : List Call) : DeviceLog :=
  let log := cDeviceLogSerial device serialNo [] chunk
  let log := initDeviceForWriting log timestamp directory maxFileSize
  (run step log calls).1.closeAllFiles dat

def openLog (disk : List (List Char × List UInt8)) (serialNo : UInt32) (chunk : Chunk)
    (timestamp directory : List Char) : DeviceLog :=
  let log := cDeviceLogSerial none serialNo disk chunk
  (log.setupReadInfo directory serialNo timestamp).initDeviceForReading

/-- What so many calls of `ReadData` return. -/
def readLog (log : DeviceLog) (count : Nat) : List (Option Record) :=
  (run (fun log (_ : Unit) => readData log) log (List.replicate count ())).2

end Serial

theorem DataHdr.bytes_length (hdr : DataHdr) : hdr.bytes.length = DataHdr.sizeOf := rfl

theorem DataHdr.ofMemory_bytes {mem : Int → UInt8} {place : Int} {hdr : DataHdr}
    (here : bytesAt mem place DataHdr.sizeOf = hdr.bytes) : DataHdr.ofMemory mem place = hdr := by
  have part (start count : Nat) (inside : start + count ≤ DataHdr.sizeOf) :
      window (fun k : Nat => mem (place + k)) start count = (hdr.bytes.drop start).take count := by
    rw [← here, bytesAt, drop_window _ (by omega), take_window _ (by omega), Nat.zero_add]
  have half (value : UInt16) : UInt16.ofNat (fromBytes (toBytes 2 value.toNat)) = value := by
    rw [fromBytes_toBytes value.toNat_lt, UInt16.ofNat_toNat]
  have id : mem place = hdr.id := by
    have first := List.head_eq_of_cons_eq (part 0 1 (by decide))
    simpa using first
  have size : halfAt (fun k => mem (place + k)) 1 = hdr.size := by
    rw [halfAt, part 1 2 (by decide)]
    exact half hdr.size
  have offset : halfAt (fun k => mem (place + k)) 3 = hdr.offset := by
    rw [halfAt, part 3 2 (by decide)]
    exact half hdr.offset
  unfold DataHdr.ofMemory
  rw [id, size, offset]

namespace Record

variable {record : Record}

theorem bytes_length (record : Record) :
    record.bytes.length = DataHdr.sizeOf + record.hdr.size.toNat := by
  rw [bytes, List.length_append, record.sized, DataHdr.bytes_length]

theorem bytes_ne_nil (record : Record) : record.bytes ≠ [] := List.cons_ne_nil _ _

theorem ofMemory_bytes {mem : Int → UInt8} {place : Int}
    (here : bytesAt mem place record.bytes.length = record.bytes) :
    ofMemory mem place = record := by
  rw [bytes_length, bytesAt_add] at here
  obtain ⟨first, second⟩ := List.append_inj here (bytesAt_length ..)
  have hdr := DataHdr.ofMemory_bytes first
  cases record
  unfold ofMemory
  congr 1
  rw [hdr]
  exact second

end Record

namespace Serial

open DeviceLog

variable {log : DeviceLog}

theorem step_fileCount (log : DeviceLog) (call : Call) :
    log.fileCount ≤ (step log call).1.fileCount := by
  cases call with
  | saveData record =>
    have same : (log.saveDevInfo record).fileCount = log.fileCount := by
      unfold DeviceLog.saveDevInfo
      dsimp only
      split
      · rfl
      · split <;> rfl
    show _ ≤ (DeviceLog.saveBlocks _ _ _ _).1.fileCount
    rw [saveBlocks_fileCount]
    refine Nat.le_trans ?_ (ensureRoom_fileCount ..)
    split
    · exact same.ge
    · exact Nat.le_refl _
  | flushToFile => exact flushToFile_fileCount dat log
  | flush => exact writeChunkToFile_fileCount dat log

theorem step_holds {blocks : List (List UInt8)} (holds : log.Holds dat blocks) (call : Call)
    (other : ∀ record ∈ saved [call], record.hdr.id ≠ didDevInfo)
    (fewer : (step log call).1.fileCount < 10000) :
    (step log call).1.Holds dat (blocks ++ (saved [call]).map Record.bytes) := by
  cases call with
  | saveData record =>
    have short : record.hdr.bytes.length + record.data.length ≤ defaultChunkDataSize := by
      have size := record.hdr.size.toNat_lt
      rw [record.sized, DataHdr.bytes_length, DataHdr.sizeOf, defaultChunkDataSize]
      omega
    have same : { log with device := log.device }.serNum = log.serNum := rfl
    have serial := holds.setDevice log.devSerialNo same
    have ready : step log (.saveData record) =
        { log with chunk := log.chunk.setDevSerialNum log.devSerialNo }.saveBlocks dat
          record.hdr.bytes record.data := by
      show (if record.hdr.id = didDevInfo then _ else _ : DeviceLog).saveBlocks _ _ _ = _
      rw [if_neg (other record (List.mem_singleton_self _))]
    rw [ready] at fewer ⊢
    exact serial.saveBlocks record.bytes_ne_nil short fewer
  | flushToFile =>
    rw [show (saved [Call.flushToFile]).map Record.bytes = [] from rfl, List.append_nil]
    exact holds.flushToFile
  | flush =>
    rw [show (saved [Call.flush]).map Record.bytes = [] from rfl, List.append_nil]
    exact holds.flush

theorem run_fileCount (log : DeviceLog) (calls : List Call) :
    log.fileCount ≤ (run step log calls).1.fileCount := by
  induction calls generalizing log with
  | nil => exact Nat.le_refl _
  | cons call rest ih => exact (step_fileCount log call).trans (ih _)

theorem run_holds {blocks : List (List UInt8)} (holds : log.Holds dat blocks) {calls : List Call}
    (others : ∀ record ∈ saved calls, record.hdr.id ≠ didDevInfo)
    (fewer : (run step log calls).1.fileCount < 10000) :
    (run step log calls).1.Holds dat (blocks ++ (saved calls).map Record.bytes) := by
  induction calls generalizing log blocks with
  | nil =>
    rw [show (saved []).map Record.bytes = [] from rfl, List.append_nil]
    exact holds
  | cons call rest ih =>
    rw [saved_cons] at others ⊢
    have now := step_holds holds call
      (fun record member => others record (List.mem_append_left _ member))
      ((run_fileCount _ rest).trans_lt fewer)
    have later := ih now (fun record member => others record (List.mem_append_right _ member)) fewer
    rwa [List.append_assoc, ← List.map_append] at later

/-- What the chunk of a reader holds: whole blocks. -/
def ChunkHolds (contents : List UInt8) (held : List (List UInt8)) : Prop := contents = held.flatten

/-- Chunks are read back as they were written. -/
theorem readsChunks : ReadsChunks ChunkHolds (FileHolds true) dat.chunkHeader := by
  intro c rest items ordered holds
  rw [show dat.chunkHeader = true from rfl]
  cases holds with
  | nil =>
    rw [Chunk.readFromFile_end]
    exact ⟨ordered.clear, [], rfl, .inr ⟨(Int.negSucc_not_nonneg 0).mp, rfl⟩⟩
  | @chunk hdr blocks more file announced some short remaining =>
    rw [if_pos rfl]
    obtain ⟨ordered', contents, left, good⟩ :=
      Chunk.readFromFile_header ordered.capacity announced short file
    exact ⟨ordered', file, left, .inl ⟨good, blocks, more, contents, remaining, rfl, some⟩⟩

/-- What a reader has still to return: the records in its chunk, in the open file and in the
later ones. -/
def Remaining (log : DeviceLog) (records : List Record) : Prop :=
  ∃ held here later, ChunkHolds log.chunk.contents held ∧ log.Unread (FileHolds true) here later ∧
    held ++ (here ++ later.flatten) = records.map Record.bytes

theorem readDataFromChunk_nil (ordered : log.chunk.Ordered) (empty : log.chunk.contents = []) :
    readDataFromChunk log = (log, none) := by
  unfold readDataFromChunk
  rw [if_pos]
  rw [ordered.getDataSize_eq, empty]
  exact Int.le_refl _

/-- The first record of a chunk is returned and taken off it. -/
theorem readDataFromChunk_cons (ordered : log.chunk.Ordered) {record : Record}
    {more : List UInt8} (contents : log.chunk.contents = record.bytes ++ more) :
    (readDataFromChunk log).2 = some record ∧
      (readDataFromChunk log).1.chunk.Ordered ∧
      (readDataFromChunk log).1.chunk.contents = more := by
  have length := record.bytes_length
  have whole : log.chunk.contents.length = record.bytes.length + more.length := by
    rw [contents, List.length_append]
  have first : bytesAt log.chunk.buff log.chunk.dataHead record.bytes.length = record.bytes := by
    have size := ordered.contents_length
    have split : (log.chunk.dataTail - log.chunk.dataHead).toNat =
        record.bytes.length + more.length := by omega
    have here := contents
    rw [Chunk.contents, split, bytesAt_add] at here
    exact List.append_inj_left here (bytesAt_length ..)
  have inside : record.bytes.length ≤ log.chunk.contents.length := by omega
  obtain ⟨ordered', rest, popped⟩ := ordered.popFront inside
  have data := Record.ofMemory_bytes first
  have some : ¬log.chunk.getDataSize ≤ 0 := by
    rw [ordered.getDataSize_eq, whole, length, DataHdr.sizeOf]
    omega
  have size : ((record.hdr.size.toNat : Int) + DataHdr.sizeOf) = record.bytes.length := by
    rw [length]
    omega
  unfold readDataFromChunk
  rw [if_neg some, data]
  dsimp only
  rw [size, popped]
  refine ⟨rfl, ordered', ?_⟩
  rw [rest, contents, List.drop_left]

theorem readData_held {record : Record} {rest : List Record} {held : List (List UInt8)}
    {here : List (List UInt8)} {later : List (List (List UInt8))}
    (contents : ChunkHolds log.chunk.contents held) (unread : log.Unread (FileHolds true) here later)
    (all : held ++ (here ++ later.flatten) = (record :: rest).map Record.bytes)
    (nonempty : held ≠ []) :
    (readData log).2 = some record ∧ Remaining (readData log).1 rest := by
  obtain ⟨block, held, rfl⟩ := List.exists_cons_of_ne_nil nonempty
  obtain ⟨rfl, all'⟩ := List.cons.inj all
  obtain ⟨data, ordered, less⟩ := readDataFromChunk_cons unread.ordered contents
  have returned : readData log = readDataFromChunk log := by
    rw [readData, data, Option.isSome_some, if_pos rfl]
  have frame : (readDataFromChunk log).1.Unread (FileHolds true) here later := by
    have file := unread.file
    have files := unread.files
    rw [readDataFromChunk_frame] at ordered ⊢
    exact ⟨ordered, file, files⟩
  rw [returned]
  exact ⟨data, held, here, later, less, frame, all'⟩

theorem readData_empty {here : List (List UInt8)} {later : List (List (List UInt8))}
    (unread : log.Unread (FileHolds true) here later) (empty : log.chunk.contents = []) :
    readData log =
      if (log.readChunkFromFile dat).2 = true then readData (log.readChunkFromFile dat).1
      else ((log.readChunkFromFile dat).1, none) := by
  rw [readData, readDataFromChunk_nil unread.ordered empty]
  rfl

theorem readData_cons {record : Record} {rest : List Record}
    (remaining : Remaining log (record :: rest)) :
    (readData log).2 = some record ∧ Remaining (readData log).1 rest := by
  obtain ⟨held, here, later, contents, unread, all⟩ := remaining
  obtain rfl | some := eq_or_ne held []
  · rw [readData_empty unread contents]
    obtain ⟨read, held, here', later', contents', unread', all', some⟩ | ⟨-, nothing⟩ :=
      unread.readChunkFromFile readsChunks
    · rw [if_pos read]
      exact readData_held contents' unread' (all'.trans all) some
    · cases nothing.symm.trans all
  · exact readData_held contents unread all some

/-- After the last record `ReadData` returns nothing. -/
theorem readData_nil (remaining : Remaining log []) : (readData log).2 = none := by
  obtain ⟨held, here, later, contents, unread, all⟩ := remaining
  obtain ⟨rfl, nothing⟩ := List.append_eq_nil_iff.mp all
  rw [readData_empty unread contents]
  obtain ⟨-, held, here', later', -, -, all', some⟩ | ⟨ended, -⟩ :=
    unread.readChunkFromFile readsChunks
  · exact absurd (List.append_eq_nil_iff.mp (all'.trans nothing)).1 some
  · rw [if_neg (ended ▸ Bool.false_ne_true)]

theorem readLog_remaining {records : List Record} (remaining : Remaining log records) :
    readLog log (records.length + 1) = records.map some ++ [none] := by
  induction records generalizing log with
  | nil => exact congrArg (· :: []) (readData_nil remaining)
  | cons record rest ih =>
    obtain ⟨first, later⟩ := readData_cons remaining
    exact congrArg₂ List.cons first (ih later)

theorem writer_holds {device : Option Device} {serialNo : UInt32}
    (serial : (device.map Device.serialNumber).getD serialNo ≠ 0) (pHandle : UInt32)
    (buff : Int → UInt8) (timestamp : List Char) {directory : List Char}
    (place : directory ≠ []) (maxFileSize : UInt32) :
    (initDeviceForWriting (cDeviceLogSerial device serialNo [] (Chunk.cDataChunk pHandle buff))
      timestamp directory maxFileSize).Holds dat [] := by
  cases device with
  | none => exact holds_nil place serial rfl (Chunk.clear_kept rfl) rfl rfl rfl rfl rfl rfl
  | some device =>
    have kept := Chunk.clear_kept (c := (cDeviceLogSerial (some device) serialNo []
      (Chunk.cDataChunk pHandle buff)).chunk) rfl
    exact holds_nil place serial rfl ⟨kept.toOrdered.withHdr _, kept.dataSize, kept.invDataSize⟩
      rfl rfl rfl rfl rfl rfl

/-- Whatever the sizes of the records and wherever chunks and files end, the records that are
saved are read back, each once and in order. -/
theorem saved_records_read {device : Option Device} {serialNo : UInt32}
    (serial : (device.map Device.serialNumber).getD serialNo ≠ 0) (pHandle pHandle' : UInt32)
    (buff buff' : Int → UInt8) {timestamp directory : List Char} (place : directory ≠ [])
    {maxFileSize : UInt32} {calls : List Call}
    (others : ∀ record ∈ saved calls, record.hdr.id ≠ didDevInfo)
    (fewer : (writeLog device serialNo (Chunk.cDataChunk pHandle buff) timestamp directory
      maxFileSize calls).fileCount < 10000) :
    readLog
        (openLog (writeLog device serialNo (Chunk.cDataChunk pHandle buff) timestamp directory
          maxFileSize calls).disk serialNo (Chunk.cDataChunk pHandle' buff') timestamp directory)
        ((saved calls).length + 1) = (saved calls).map some ++ [none] := by
  have ended : (run step (initDeviceForWriting (cDeviceLogSerial device serialNo []
      (Chunk.cDataChunk pHandle buff)) timestamp directory maxFileSize) calls).1.fileCount <
        10000 := by
    refine Nat.lt_of_le_of_lt ?_ fewer
    unfold writeLog
    rw [closeAllFiles_fileCount]
    exact flushToFile_fileCount dat _
  have written := run_holds (writer_holds serial pHandle buff timestamp place maxFileSize) others
    ended
  obtain ⟨parts, all, files⟩ := written.closeAllFiles fewer
  have empty := (Chunk.clear_kept (c := Chunk.cDataChunk pHandle' buff') rfl).toOrdered
  exact readLog_remaining ⟨[], [], parts, rfl, ⟨⟨empty.capacity, empty.head, empty.order,
    empty.tail⟩, rfl, files⟩, all⟩

/-- A record with eight data bytes. -/
def sampleRecord (id : UInt8) (offset : UInt16) : Record :=
  { hdr := { id, size := 8, offset }
    data := [1, 2, 3, 4, 5, 6, 7, 8]
    sized := rfl }

theorem saved_records_read_flushed :
    readLog
        (openLog (writeLog none 7 (Chunk.cDataChunk 0 fun _ => 0) "20240101_000000".toList
          "IS_logs".toList 0 [.saveData (sampleRecord 4 0), .flushToFile,
            .saveData (sampleRecord 5 16)]).disk 7 (Chunk.cDataChunk 0 fun _ => 0)
          "20240101_000000".toList "IS_logs".toList) 3 =
      [some (sampleRecord 4 0), some (sampleRecord 5 16), none] :=
  saved_records_read (by decide) 0 0 (fun _ => 0) (fun _ => 0) (by decide) (by decide)
    (by decide +kernel)

end Serial

end InertialSense.DataLog
