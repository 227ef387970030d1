import InertialSense.DataLog.Csv
import InertialSense.DataLog.FileNames
import InertialSense.Foundation.Loop
import Mathlib.Data.List.Infix

/-! `cDeviceLogCSV`: a log with a file for each data set. A row begins with the number of the
record, and records are read back in the order of these numbers. The files of all logs lie in
one directory. -/

namespace InertialSense.DataLog

open Foundation

/-- `p_data_buf_t`, and what `SaveData` gets. -/
structure DataBuf where
  hdr : DataHdr
  buf : Nat → UInt8

def didCount : Nat := 132

/-- A text in small letters, for comparisons that ignore case. -/
def lower (text : List Char) : List Char := text.map Char.toLower

/-- What `cDataCSV` and `cISDataMappings` make of the data sets, as the log uses them: names,
sizes, headers, rows, the columns that a header stands for, and what a row is read to, with
`errno` being `ERANGE` before and after. -/
structure CsvFormat (γ : Type) where
  dataName : Nat → List Char
  dataSize : Nat → Nat
  header : Nat → List Char
  row : DataBuf → Option (List Char)
  noColumns : γ
  columns : Nat → List Char → γ
  read : Bool → Nat → List Char → γ → Bool × Option DataBuf
  mapped : ∀ id, dataSize id ≠ 0 → 0 < id ∧ id < didCount
  /-- No name is the end of another one. -/
  apart : ∀ id other, dataSize id ≠ 0 → dataName other ≠ [] →
    lower (dataName id) <:+ lower (dataName other) ∨
      lower (dataName other) <:+ lower (dataName id) → id = other
  /-- No name ends like the number of a file. -/
  unnumbered : ∀ id, dataSize id ≠ 0 →
    ∃ c ∈ (lower (dataName id)).reverse.take 4, isDigitOf 10 c = false
  header_line : ∀ id, header id = [] ∧ dataSize id = 0 ∨
    ∃ line, header id = line ++ ['\n'] ∧ line ≠ [] ∧ (∀ c ∈ line, c ≠ '\n' ∧ c ≠ '\x00') ∧
      line.length < 8191
  row_line : ∀ data, dataSize data.hdr.id.toNat ≠ 0 →
    ∃ body, row data = some (',' :: body ++ ['\n'])
  unread : ∀ errno id line columns, dataSize id = 0 → read errno id line columns = (errno, none)
  readable : ∀ errno id line line', dataSize id ≠ 0 →
    ∃ data, (read errno id line (columns id line')).2 = some data ∧ data.hdr.id.toNat = id

/-- A `FILE` opened with "w", and one opened with "r" with what is left of it. -/
inductive CsvFile where
  | writing (name : List Char)
  | reading (rest : List Char)

/-- `cCsvLog`. -/
structure CsvLog (γ : Type) where
  pFile : Option CsvFile
  fileCount : Nat
  fileSize : Nat
  dataId : Nat
  dataSize : Nat
  orderId : Nat
  nextLine : List Char
  columnHeaders : γ

/-- `cDeviceLogCSV`. Of the files of a data set, those still to open are kept. -/
structure DeviceLogCSV (γ : Type) where
  base : DeviceLog
  logs : Nat → Option (CsvLog γ)
  currentFiles : Nat → List (List Char)
  nextId : UInt64
  errno : Bool

/-- The files of the log directory. -/
abbrev CsvDisk := List (List Char × List Char)

/-- `LogFileExtention`. -/
def csv : LogFormat := { extension := ".csv".toList, chunkHeader := false }

variable {γ : Type}

/-- `cCsvLog()`. -/
def CsvFormat.newLog (format : CsvFormat γ) : CsvLog γ :=
  { pFile := none
    fileCount := 0
    fileSize := 0
    dataId := 0
    dataSize := 0
    orderId := 0
    nextLine := []
    columnHeaders := format.noColumns }

/-- `fopen` with "w". -/
def fopenWrite (disk : CsvDisk) (name : List Char) : CsvDisk :=
  disk.filter (fun file => file.1 ≠ name) ++ [(name, [])]

def fputs (disk : CsvDisk) (name text : List Char) : CsvDisk :=
  disk.map fun file => if file.1 = name then (name, file.2 ++ text) else file

/-- The start of `ReadHeaderFromFile`, and what is left of the file. -/
def CsvFormat.readHeader (format : CsvFormat γ) (id : Nat) (file : List Char) :
    Option (γ × List Char) :=
  let line := fgets 8192 file
  let text := line.takeWhile (· ≠ '\x00')
  if text = [] then none else some (format.columns id text, file.drop line.length)

namespace DeviceLogCSV

/-- `cDeviceLogCSV(dev)` and, without a device, `cDeviceLogCSV(hdwId, serialNo)`. -/
def cDeviceLogCSV (device : Option Device) (serialNo : UInt32) : DeviceLogCSV γ :=
  { base := cDeviceLog device serialNo [] (Chunk.cDataChunk 0 fun _ => 0)
    logs := fun _ => none
    currentFiles := fun _ => []
    nextId := 0
    errno := false }

def initDeviceForWriting (log : DeviceLogCSV γ) (timestamp directory : List Char)
    (maxFileSize : UInt32) : DeviceLogCSV γ :=
  { log with
    base := log.base.initDeviceForWriting timestamp directory maxFileSize
    logs := fun _ => none
    nextId := 0 }

/-- `memcpy` of a `DID_DEV_INFO` to the device. -/
def setDevInfo (log : DeviceLogCSV γ) (data : DataBuf) : DeviceLogCSV γ :=
  let device := log.base.device.map fun device =>
    { device with devInfo := store device.devInfo 0 (window data.buf 0 devInfoSize) }
  { log with base := { log.base with device } }

/-- `OpenNewFile` without `readonly`. -/
def openNewFile (format : CsvFormat γ) (disk : CsvDisk) (log : DeviceLogCSV γ) (file : CsvLog γ) :
    CsvDisk × CsvLog γ × Bool :=
  if log.base.directory = [] ∨ log.base.serNum = 0 then (disk, { file with pFile := none }, false)
  else
    let fileCount := file.fileCount + 1
    let fileName := log.base.getNewFileName csv log.base.serNum fileCount
      (format.dataName file.dataId)
    let header := format.header file.dataId
    (fputs (fopenWrite disk fileName) fileName header,
      { file with
        pFile := some (.writing fileName)
        fileCount
        fileSize := header.length }, true)

/-- The row that `WriteDataToFile` writes. -/
def rowText (format : CsvFormat γ) (orderId : Nat) (data : DataBuf) : List Char :=
  if format.dataSize data.hdr.id.toNat = 0 then []
  else
    match format.row data with
    | none => []
    | some text => decimal orderId ++ text

/-- `SaveData` once there is a file. -/
def saveRow (format : CsvFormat γ) (disk : CsvDisk) (log : DeviceLogCSV γ) (file : CsvLog γ)
    (data : DataBuf) : CsvDisk × DeviceLogCSV γ :=
  let row := rowText format log.nextId.toNat data
  let disk :=
    match file.pFile with
    | some (.writing name) => fputs disk name row
    | _ => disk
  -- one more than the characters of a row is counted
  let fileSize := file.fileSize + (if row = [] then 0 else row.length + 1)
  let file :=
    if log.base.maxFileSize.toNat ≤ fileSize then { file with pFile := none, fileSize := 0 }
    else { file with fileSize }
  (disk,
    { log with
      logs := Function.update log.logs data.hdr.id.toNat (some file)
      nextId := log.nextId + 1 })

def saveData (format : CsvFormat γ) (disk : CsvDisk) (log : DeviceLogCSV γ) (data : DataBuf) :
    CsvDisk × DeviceLogCSV γ × Bool :=
  let id := data.hdr.id.toNat
  let file := { (log.logs id).getD format.newLog with dataId := id }
  match file.pFile with
  | none =>
    let opened := openNewFile format disk log file
    if opened.2.2 then
      let saved := saveRow format opened.1 log opened.2.1 data
      (saved.1, saved.2, true)
    else
      (opened.1, { log with logs := Function.update log.logs id (some opened.2.1) }, false)
  | some _ =>
    let log := if data.hdr.id = didDevInfo then log.setDevInfo data else log
    let saved := saveRow format disk log file data
    (saved.1, saved.2, true)

/-- A regular expression of a start, anything on one line, and an end of the text, whatever the
case of letters. -/
def regexSearch (start ending path : List Char) : Bool :=
  (lower ending).isSuffixOf (lower path) &&
    ((lower path).take (path.length - ending.length)).tails.any fun rest =>
      (lower start).isPrefixOf rest && (rest.drop start.length).all fun c => !isLineBreak c

/-- The expression that a file of a data set matches. -/
def selects (format : CsvFormat γ) (serialNo : UInt32) (id : Nat) (path : List Char) : Bool :=
  let ending := format.dataName id ++ csv.extension
  -- the serial number is in it if it is valid
  if 0 < serialNo ∧ serialNo < 0xFFFFFFFF then
    regexSearch (logFilePrefix ++ decimal serialNo.toNat) ending path
  else (lower ending).isSuffixOf (lower path)

/-- The files of a data set, sorted by name. -/
def filesOf (format : CsvFormat γ) (disk : CsvDisk) (log : DeviceLogCSV γ) (id : Nat) :
    List (List Char) :=
  ((disk.map Prod.fst).filter (selects format log.base.devSerialNo id)).insertionSort (· ≤ ·)

/-- The loop over `tryNextFile`: the first file with a header is opened. -/
def tryNextFile (format : CsvFormat γ) (disk : CsvDisk) :
    CsvLog γ → List (List Char) → CsvLog γ × List (List Char) × Bool
  | file, [] => (file, [], false)
  | file, name :: files =>
    let contents := (disk.lookup name).getD []
    let file := { file with
      pFile := some (.reading contents), fileCount := file.fileCount + 1, fileSize := contents.length }
    match format.readHeader file.dataId contents with
    | none => tryNextFile format disk file files
    | some (columnHeaders, rest) =>
      ({ file with pFile := some (.reading rest), columnHeaders }, files, true)

/-- `OpenNewFile` with `readonly`. -/
def openNextFile (format : CsvFormat γ) (disk : CsvDisk) (log : DeviceLogCSV γ) (file : CsvLog γ) :
    DeviceLogCSV γ × CsvLog γ × Bool :=
  let file := { file with pFile := none }
  if log.base.directory = [] ∨ log.base.serNum = 0 then (log, file, false)
  else
    let (file, files, opened) := tryNextFile format disk file (log.currentFiles file.dataId)
    let log := { log with currentFiles := Function.update log.currentFiles file.dataId files }
    if opened then (log, file, true)
    else ({ log with logs := Function.update log.logs file.dataId none }, file, false)

def getNextLineForFile (log : DeviceLogCSV γ) (file : CsvLog γ) :
    DeviceLogCSV γ × CsvLog γ × Bool :=
  match file.pFile with
  | some (.reading text) =>
    let line := fgets 8192 text
    if line = [] then (log, file, false)
    else
      let nextLine := line.takeWhile (· ≠ '\x00')
      let file := { file with pFile := some (.reading (text.drop line.length)), nextLine }
      if ',' ∈ nextLine then
        let (orderId, erange) := strtoul 10 nextLine
        ({ log with errno := log.errno || erange }, { file with orderId := orderId.toNat }, true)
      else (log, file, false)
  | _ => (log, file, false)

theorem tryNextFile_files (format : CsvFormat γ) (disk : CsvDisk) (file : CsvLog γ)
    (files : List (List Char)) :
    (tryNextFile format disk file files).1.dataId = file.dataId ∧
      ((tryNextFile format disk file files).2.2 = true →
        (tryNextFile format disk file files).2.1.length < files.length) := by
  induction files generalizing file with
  | nil => exact ⟨rfl, Bool.noConfusion⟩
  | cons name files ih =>
    unfold tryNextFile
    dsimp only
    split
    case h_1 _ =>
      obtain ⟨same, fewer⟩ := ih _
      exact ⟨same, fun opened => (fewer opened).trans (Nat.lt_succ_self _)⟩
    case h_2 _ => exact ⟨rfl, fun _ => Nat.lt_succ_self _⟩

theorem openNextFile_files {format : CsvFormat γ} {disk : CsvDisk} {log : DeviceLogCSV γ}
    {file : CsvLog γ} (opened : (openNextFile format disk log file).2.2 = true) :
    ((openNextFile format disk log file).1.currentFiles
        (openNextFile format disk log file).2.1.dataId).length <
      (log.currentFiles file.dataId).length := by
  revert opened
  unfold openNextFile
  dsimp only
  split
  case isTrue _ => exact Bool.noConfusion
  case isFalse _ =>
    obtain ⟨same, fewer⟩ := tryNextFile_files format disk { file with pFile := none }
      (log.currentFiles file.dataId)
    split
    case isTrue opened =>
      intro _
      dsimp only
      rw [Function.update_self]
      exact fewer opened
    case isFalse _ => exact Bool.noConfusion

theorem getNextLineForFile_frame (log : DeviceLogCSV γ) (file : CsvLog γ) :
    (getNextLineForFile log file).1 =
        { log with errno := (getNextLineForFile log file).1.errno } ∧
      (getNextLineForFile log file).2.1.dataId = file.dataId := by
  unfold getNextLineForFile
  dsimp only
  repeat' split
  all_goals exact ⟨rfl, rfl⟩

/-- `while (!GetNextLineForFile(log) && OpenNewFile(log, true)) {}`. -/
def nextLineOrFile (format : CsvFormat γ) (disk : CsvDisk) (log : DeviceLogCSV γ)
    (file : CsvLog γ) : DeviceLogCSV γ × CsvLog γ :=
  let line := getNextLineForFile log file
  if line.2.2 then (line.1, line.2.1)
  else
    let opened := openNextFile format disk line.1 line.2.1
    if _ : opened.2.2 = true then nextLineOrFile format disk opened.1 opened.2.1
    else (opened.1, opened.2.1)
termination_by (log.currentFiles file.dataId).length
decreasing_by
  obtain ⟨frame, same⟩ := getNextLineForFile_frame log file
  have fewer := openNextFile_files ‹_›
  rw [same, show (getNextLineForFile log file).1.currentFiles = log.currentFiles by rw [frame]]
    at fewer
  exact fewer

/-- What `InitDeviceForReading` does for one data set. -/
def initDataSet (format : CsvFormat γ) (disk : CsvDisk) (log : DeviceLogCSV γ) (id : Nat) :
    DeviceLogCSV γ :=
  let files := filesOf format disk log id
  if files = [] then log
  else
    let file := { format.newLog with dataId := id, dataSize := format.dataSize id }
    let log := { log with currentFiles := Function.update log.currentFiles id files }
    let opened := openNextFile format disk log file
    let (log, file) :=
      if opened.2.2 then nextLineOrFile format disk opened.1 opened.2.1 else (opened.1, opened.2.1)
    if file.nextLine ≠ [] then { log with logs := Function.update log.logs id (some file) } else log

def initDeviceForReading (format : CsvFormat γ) (disk : CsvDisk) (log : DeviceLogCSV γ) :
    DeviceLogCSV γ :=
  let log := { log with base := log.base.initDeviceForReading, logs := fun _ => none }
  ((List.range (didCount - 1)).map (· + 1)).foldl (initDataSet format disk) log

/-- What `ReadData` comes to: data, `NULL`, or a write through a device that is not there. -/
inductive ReadEnd where
  | data (data : DataBuf)
  | null
  | fault

/-- The end of `ReadDataFromFile`: the next row of the file, if the file is still there. -/
def advance (format : CsvFormat γ) (disk : CsvDisk) (log : DeviceLogCSV γ) (file : CsvLog γ) :
    DeviceLogCSV γ :=
  let next := nextLineOrFile format disk log { file with nextLine := [] }
  { next.1 with
    logs := Function.update next.1.logs file.dataId
      ((next.1.logs file.dataId).map fun _ => next.2) }

/-- `ReadDataFromFile`; `none` is the end of the program. -/
def readDataFromFile (format : CsvFormat γ) (disk : CsvDisk) (log : DeviceLogCSV γ)
    (file : CsvLog γ) : Option (DeviceLogCSV γ × Option DataBuf) :=
  if file.pFile.isNone then none
  else
    let read := format.read log.errno file.dataId file.nextLine file.columnHeaders
    let log := { log with errno := read.1 }
    match read.2 with
    | none => some (advance format disk log file, none)
    | some data =>
      if data.hdr.id = didDevInfo then
        if log.base.device.isNone then none
        else some (advance format disk (log.setDevInfo data) file, some data)
      else some (advance format disk log file, some data)

/-- One turn of the loop in `ReadData`. -/
def lesser (log : DeviceLogCSV γ) (next : Nat × Option (CsvLog γ)) (id : Nat) :
    Nat × Option (CsvLog γ) :=
  match log.logs id with
  | none => next
  | some file => if file.orderId < next.1 then (file.orderId, some file) else next

/-- The log with the least order id: the first one of those. -/
def nextLog (log : DeviceLogCSV γ) : Option (CsvLog γ) :=
  ((List.range 256).foldl log.lesser (2 ^ 64 - 1, none)).2

/-- `ReadData` from `tryAgain` on. -/
def readPass (format : CsvFormat γ) (disk : CsvDisk) (log : DeviceLogCSV γ) :
    DeviceLogCSV γ ⊕ DeviceLogCSV γ × ReadEnd :=
  match log.nextLog with
  | none => .inr (log, .null)
  | some file =>
    match readDataFromFile format disk log file with
    | none => .inr (log, .fault)
    | some (log, none) => .inl log
    | some (log, some data) => .inr (log, .data data)

/-- `ReadData` ends with this. -/
def ReadsData (format : CsvFormat γ) (disk : CsvDisk) (log : DeviceLogCSV γ)
    (result : DeviceLogCSV γ × ReadEnd) : Prop :=
  Ends (fun log answer => readPass format disk log = answer) log result

/-- The calls of `ReadData` up to the one that returns `NULL`, and what they return. -/
inductive Replays (format : CsvFormat γ) (disk : CsvDisk) : DeviceLogCSV γ → List DataBuf → Prop where
  | null {log log' : DeviceLogCSV γ} (ends : ReadsData format disk log (log', .null)) :
      Replays format disk log []
  | data {log log' : DeviceLogCSV γ} {data : DataBuf} {rest : List DataBuf}
      (read : ReadsData format disk log (log', .data data)) (later : Replays format disk log' rest) :
      Replays format disk log (data :: rest)

/-- A log that is about to read the files of this directory, as `LoadFromDirectory` makes it. -/
def openLog (format : CsvFormat γ) (disk : CsvDisk) (serialNo : UInt32)
    (timestamp directory : List Char) : DeviceLogCSV γ :=
  let log : DeviceLogCSV γ := cDeviceLogCSV none serialNo
  initDeviceForReading format disk
    { log with base := log.base.setupReadInfo directory serialNo timestamp }

end DeviceLogCSV

end InertialSense.DataLog
