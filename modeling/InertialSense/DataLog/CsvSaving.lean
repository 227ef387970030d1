import InertialSense.DataLog.CsvFiles

/-! What a CSV log leaves in its directory: the files of a data set hold its rows, in order. -/

namespace InertialSense.DataLog

open Foundation

variable {γ : Type} {format : CsvFormat γ}

/-! ### Rows -/

/-- A row as it is saved. -/
structure CsvRow where
  orderId : Nat
  dataId : Nat
  text : List Char
deriving DecidableEq

def CsvRow.line (row : CsvRow) : List Char := decimal row.orderId ++ row.text

/-- A row that is read as one line, with a number that `ReadData` compares. -/
structure CsvRow.Plain (row : CsvRow) : Prop where
  number : row.orderId < 2 ^ 64 - 1
  text : ∃ body, row.text = ',' :: body ++ ['\n'] ∧ ∀ c ∈ body, c ≠ '\n' ∧ c ≠ '\x00'
  short : row.line.length < 8192

/-- The row of a record, if its data set is mapped. -/
def CsvFormat.rowOf (format : CsvFormat γ) (orderId : Nat) (data : DataBuf) : List CsvRow :=
  if format.dataSize data.hdr.id.toNat = 0 then []
  else
    match format.row data with
    | none => []
    | some text => [⟨orderId, data.hdr.id.toNat, text⟩]

theorem rowText_eq (orderId : Nat) (data : DataBuf) :
    DeviceLogCSV.rowText format orderId data = (format.rowOf orderId data).flatMap CsvRow.line := by
  unfold DeviceLogCSV.rowText CsvFormat.rowOf
  split
  · rfl
  · cases format.row data with
    | none => rfl
    | some text => exact (List.append_nil _).symm

/-- A mapped data set has one row for a record, another one none. -/
theorem CsvFormat.rowOf_cases (format : CsvFormat γ) (orderId : Nat) (data : DataBuf) :
    format.dataSize data.hdr.id.toNat = 0 ∧ format.rowOf orderId data = [] ∨
      format.dataSize data.hdr.id.toNat ≠ 0 ∧ ∃ text, format.row data = some text ∧
        format.rowOf orderId data = [⟨orderId, data.hdr.id.toNat, text⟩] := by
  unfold rowOf
  split
  case isTrue unmapped => exact .inl ⟨unmapped, rfl⟩
  case isFalse mapped =>
    obtain ⟨body, row⟩ := format.row_line data mapped
    refine .inr ⟨mapped, _, row, ?_⟩
    rw [row]

/-! ### The disk -/

section Disk

variable {disk : CsvDisk} {name : List Char} {picked : List Char → Bool}

theorem filter_fputs (disk : CsvDisk) (name text : List Char) (picked : List Char → Bool) :
    (fputs disk name text).filter (fun file => picked file.1) =
      fputs (disk.filter fun file => picked file.1) name text := by
  unfold fputs
  rw [List.filter_map]
  congr 1
  refine List.filter_congr fun file _ => ?_
  show picked (if file.1 = name then (name, file.2 ++ text) else file).1 = picked file.1
  split
  case isTrue same => rw [same]
  case isFalse _ => rfl

theorem fputs_absent {text : List Char} (absent : name ∉ disk.map Prod.fst) :
    fputs disk name text = disk := by
  unfold fputs
  refine (List.map_congr_left fun file member => ?_).trans (List.map_id disk)
  have other : file.1 ≠ name := by
    rintro rfl
    exact absent (List.mem_map_of_mem member)
  exact if_neg other

theorem fputs_nil (disk : CsvDisk) (name : List Char) : fputs disk name [] = disk := by
  unfold fputs
  refine (List.map_congr_left fun file _ => ?_).trans (List.map_id disk)
  split
  case isTrue same => rw [List.append_nil, ← same]; rfl
  case isFalse _ => rfl

theorem fputs_last {contents text : List Char} (absent : name ∉ disk.map Prod.fst) :
    fputs (disk ++ [(name, contents)]) name text = disk ++ [(name, contents ++ text)] := by
  have before := @fputs_absent disk name text absent
  unfold fputs at before ⊢
  rw [List.map_append, before, List.map_singleton, if_pos rfl]

theorem filter_fopenWrite (disk : CsvDisk) (name : List Char) (picked : List Char → Bool) :
    (fopenWrite disk name).filter (fun file => picked file.1) =
      (disk.filter fun file => picked file.1).filter (fun file => file.1 ≠ name) ++
        if picked name then [(name, [])] else [] := by
  unfold fopenWrite
  rw [List.filter_append, List.filter_filter, List.filter_filter]
  congr 1
  · exact List.filter_congr fun file _ => Bool.and_comm _ _
  · rw [List.filter_singleton]
    exact Bool.cond_eq_ite ..

theorem filter_absent (absent : name ∉ disk.map Prod.fst) :
    disk.filter (fun file => file.1 ≠ name) = disk := by
  rw [List.filter_eq_self]
  intro file member
  refine decide_eq_true ?_
  rintro rfl
  exact absent (List.mem_map_of_mem member)

theorem filter_fputs_other {text : List Char} (other : picked name = false) :
    (fputs disk name text).filter (fun file => picked file.1) =
      disk.filter fun file => picked file.1 := by
  rw [filter_fputs, fputs_absent]
  rintro member
  obtain ⟨file, inside, rfl⟩ := List.mem_map.mp member
  have kept := (List.mem_filter.mp inside).2
  rw [other] at kept
  cases kept

theorem filter_fopenWrite_other (other : picked name = false) :
    (fopenWrite disk name).filter (fun file => picked file.1) =
      disk.filter fun file => picked file.1 := by
  rw [filter_fopenWrite, other, filter_absent]
  · simp
  · intro member
    obtain ⟨file, inside, rfl⟩ := List.mem_map.mp member
    have kept := (List.mem_filter.mp inside).2
    rw [other] at kept
    cases kept

end Disk

/-! ### The files of a device -/

/-- Where the logs of a device write: directory, time stamp and serial number. -/
structure CsvPlace where
  directory : List Char
  timeStamp : List Char
  serialNo : UInt32

namespace CsvPlace

def fileName (format : CsvFormat γ) (place : CsvPlace) (id count : Nat) : List Char :=
  DeviceLogCSV.fileStem place.directory place.timeStamp place.serialNo count ++
    (if format.dataName id = [] then [] else '_' :: format.dataName id) ++ csv.extension

/-- The log writes here. -/
structure Of (place : CsvPlace) (log : DeviceLogCSV γ) : Prop where
  directory : log.base.directory = place.directory
  timeStamp : log.base.timeStamp = place.timeStamp
  serialNo : log.base.serNum = place.serialNo

/-- A place where files can be written, whose names are lines and show the serial number. -/
structure Usable (place : CsvPlace) : Prop where
  directory : place.directory ≠ []
  timeStamp : ∀ c ∈ place.timeStamp, isLineBreak c = false
  serialNo : DeviceLogCSV.Valid place.serialNo

variable {place : CsvPlace} {id : Nat}

theorem Of.fileName {log : DeviceLogCSV γ} (of : place.Of log) (count : Nat) :
    log.base.getNewFileName csv log.base.serNum count (format.dataName id) =
      place.fileName format id count := by
  rw [DeviceLogCSV.getNewFileName_stem, of.directory, of.timeStamp, of.serialNo]
  rfl

theorem named (mapped : format.dataSize id ≠ 0) : format.dataName id ≠ [] := by
  intro unnamed
  obtain ⟨c, member, -⟩ := format.unnumbered id mapped
  rw [unnamed] at member
  cases member

theorem selects_fileName (usable : place.Usable) (mapped : format.dataSize id ≠ 0) (count : Nat) :
    DeviceLogCSV.selects format place.serialNo id (place.fileName format id count) = true :=
  DeviceLogCSV.selects_own usable.serialNo usable.timeStamp (named mapped) _ _

theorem selects_fileName_other (usable : place.Usable) {other : Nat}
    (mapped : format.dataSize id ≠ 0) (different : id ≠ other) (count : Nat) :
    DeviceLogCSV.selects format place.serialNo id (place.fileName format other count) = false :=
  DeviceLogCSV.selects_other usable.serialNo mapped different _ count

/-- The files of a data set are in the order of their numbers. -/
theorem fileName_lt (place : CsvPlace) (id : Nat) {low high : Nat} (less : low < high)
    (fits : high < 10000) : place.fileName format id low < place.fileName format id high := by
  have numbers := @padded_lt 4 10 (by decide) (by decide) (by decide) low high less fits
  unfold CsvPlace.fileName DeviceLogCSV.fileStem
  rw [Nat.mod_eq_of_lt fits, Nat.mod_eq_of_lt (less.trans fits)]
  simp only [List.append_assoc, List.cons_append]
  refine List.append_left_lt (List.cons_lt_cons_iff.mpr (.inr ⟨rfl, ?_⟩))
  refine List.append_left_lt (List.append_left_lt (List.cons_lt_cons_iff.mpr (.inr ⟨rfl, ?_⟩)))
  refine List.append_left_lt (List.cons_lt_cons_iff.mpr (.inr ⟨rfl, ?_⟩))
  refine append_lt_append numbers ?_ _ _
  rw [padded_length (by decide) (by decide) (less.trans fits),
    padded_length (by decide) (by decide) fits]

/-- The text of a file with these rows. -/
def contents (format : CsvFormat γ) (id : Nat) (rows : List CsvRow) : List Char :=
  format.header id ++ rows.flatMap CsvRow.line

/-- The files that hold these rows. -/
def partFiles (format : CsvFormat γ) (place : CsvPlace) (id : Nat) (parts : List (List CsvRow)) :
    CsvDisk :=
  parts.zipIdx.map fun part => (place.fileName format id (part.2 + 1), contents format id part.1)

theorem partFiles_concat (parts : List (List CsvRow)) (part : List CsvRow) :
    place.partFiles format id (parts ++ [part]) = place.partFiles format id parts ++
      [(place.fileName format id (parts.length + 1), contents format id part)] := by
  unfold partFiles
  rw [List.zipIdx_append, List.map_append]
  simp

/-- The next file is none of those there are. -/
theorem partFiles_absent {parts : List (List CsvRow)} (fewer : parts.length + 1 < 10000) :
    place.fileName format id (parts.length + 1) ∉ (place.partFiles format id parts).map Prod.fst := by
  intro member
  obtain ⟨file, inside, same⟩ := List.mem_map.mp member
  obtain ⟨part, found, rfl⟩ := List.mem_map.mp inside
  have place' := (List.mem_zipIdx found).2.1
  have less := @fileName_lt γ format place id (part.2 + 1) (parts.length + 1) (by omega) fewer
  exact absurd same less.ne

end CsvPlace

/-- The path shows the serial number of the device. -/
def CsvPlace.Marks (place : CsvPlace) (path : List Char) : Prop :=
  lower (DeviceLogCSV.mark place.serialNo) <:+: lower path

instance (place : CsvPlace) (path : List Char) : Decidable (place.Marks path) :=
  inferInstanceAs (Decidable (_ <:+: _))

/-- A header that is read as one line. -/
def HeaderLine (line : List Char) : Prop :=
  line ≠ [] ∧ (∀ c ∈ line, c ≠ '\n' ∧ c ≠ '\x00') ∧ line.length < 8191

/-- A file that is empty, or has a header and rows. -/
def HoldsRows (contents : List Char) : Prop :=
  contents = [] ∨ ∃ (line : List Char) (rows : List CsvRow),
    contents = line ++ '\n' :: rows.flatMap CsvRow.line ∧ HeaderLine line ∧ ∀ row ∈ rows, row.Plain

/-- The files of a device, with the rows in each of them. -/
structure Files (format : CsvFormat γ) (place : CsvPlace) (disk : CsvDisk)
    (parts : Nat → List (List CsvRow)) : Prop where
  files : ∀ id, format.dataSize id ≠ 0 →
    disk.filter (fun file => DeviceLogCSV.selects format place.serialNo id file.1) =
      place.partFiles format id (parts id)
  fewer : ∀ id, format.dataSize id ≠ 0 → (parts id).length < 10000
  marked : ∀ file ∈ disk, place.Marks file.1 → HoldsRows file.2

namespace Files

variable {place : CsvPlace} {disk disk' : CsvDisk} {parts : Nat → List (List CsvRow)} {id : Nat}

/-- A new file begins with its header. -/
theorem opened (files : Files format place disk parts) (usable : place.Usable) {count : Nat}
    (next : format.dataSize id ≠ 0 → count = (parts id).length + 1 ∧ count < 10000) :
    Files format place
      (fputs (fopenWrite disk (place.fileName format id count)) (place.fileName format id count)
        (format.header id))
      (Function.update parts id (parts id ++ [[]])) := by
  refine ⟨fun other mapped => ?_, fun other mapped => ?_, fun file member has => ?_⟩
  · by_cases same : other = id
    · subst same
      obtain ⟨rfl, fits⟩ := next mapped
      have absent := @CsvPlace.partFiles_absent γ format place other (parts other) fits
      rw [filter_fputs, filter_fopenWrite, files.files other mapped, filter_absent absent,
        CsvPlace.selects_fileName usable mapped, if_pos rfl, fputs_last absent,
        Function.update_self, CsvPlace.partFiles_concat]
      unfold CsvPlace.contents
      rw [List.nil_append, List.flatMap_nil, List.append_nil]
    · have unpicked := CsvPlace.selects_fileName_other usable mapped same count
      rw [filter_fputs_other unpicked, filter_fopenWrite_other unpicked, Function.update_of_ne same]
      exact files.files other mapped
  · by_cases same : other = id
    · subst same
      obtain ⟨rfl, fits⟩ := next mapped
      rw [Function.update_self, List.length_append, List.length_singleton]
      exact fits
    · rw [Function.update_of_ne same]
      exact files.fewer other mapped
  · obtain ⟨old, inside, rfl⟩ := List.mem_map.mp member
    obtain kept | new := List.mem_append.mp inside
    · obtain ⟨kept, other⟩ := List.mem_filter.mp kept
      rw [if_neg (of_decide_eq_true other)] at has ⊢
      exact files.marked old kept has
    · rw [List.mem_singleton.mp new, if_pos rfl]
      obtain ⟨empty, -⟩ | ⟨line, header, some, plain, short⟩ := format.header_line id
      · exact .inl empty
      · exact .inr ⟨line, [], header, ⟨some, plain, short⟩, by simp⟩

theorem appended (files : Files format place disk parts) (usable : place.Usable)
    (mapped : format.dataSize id ≠ 0) {before : List (List CsvRow)} {part : List CsvRow}
    (last : parts id = before ++ [part]) {row : CsvRow} (plain : row.Plain) :
    Files format place (fputs disk (place.fileName format id (parts id).length) row.line)
      (Function.update parts id (before ++ [part ++ [row]])) := by
  have length : (parts id).length = before.length + 1 := by
    rw [last, List.length_append, List.length_singleton]
  have fewer := files.fewer id mapped
  refine ⟨fun other mapped' => ?_, fun other mapped' => ?_, fun file member has => ?_⟩
  · by_cases same : other = id
    · subst same
      rw [filter_fputs, files.files other mapped, Function.update_self, length, last,
        CsvPlace.partFiles_concat, CsvPlace.partFiles_concat,
        fputs_last (CsvPlace.partFiles_absent (by omega))]
      unfold CsvPlace.contents
      rw [List.flatMap_append, List.flatMap_singleton, List.append_assoc]
    · rw [filter_fputs_other (CsvPlace.selects_fileName_other usable mapped' same _),
        Function.update_of_ne same]
      exact files.files other mapped'
  · by_cases same : other = id
    · subst same
      rw [Function.update_self, List.length_append, List.length_singleton, ← length]
      exact fewer
    · rw [Function.update_of_ne same]
      exact files.fewer other mapped'
  · obtain ⟨old, inside, rfl⟩ := List.mem_map.mp member
    split at has
    case isFalse other =>
      rw [if_neg other]
      exact files.marked old inside has
    case isTrue same =>
      -- the file is one of the data set, so it has a header
      have picked : old ∈ place.partFiles format id (parts id) := by
        rw [← files.files id mapped, List.mem_filter, same]
        exact ⟨inside, CsvPlace.selects_fileName usable mapped _⟩
      obtain ⟨here, found, rfl⟩ := List.mem_map.mp picked
      rw [if_pos same]
      obtain empty | ⟨line, rows, holds, header, all⟩ := files.marked _ inside (by rwa [same])
      · exfalso
        obtain ⟨-, unmapped⟩ | ⟨line, header, some, -⟩ := format.header_line id
        · exact mapped unmapped
        · rw [CsvPlace.contents, header] at empty
          simp at empty
      · refine .inr ⟨line, rows ++ [row], ?_, header, fun row' member => ?_⟩
        · dsimp only at holds ⊢
          rw [holds]
          simp
        · obtain old | new := List.mem_append.mp member
          · exact all row' old
          · rwa [List.mem_singleton.mp new]

end Files

/-! ### One record -/

def CsvFile.put (disk : CsvDisk) (text : List Char) : CsvFile → CsvDisk
  | .writing name => fputs disk name text
  | .reading _ => disk

/-- The log of a data set, also before its first file. -/
def CsvFormat.current (format : CsvFormat γ) (log : DeviceLogCSV γ) (id : Nat) : CsvLog γ :=
  (log.logs id).getD format.newLog

theorem CsvFormat.current_update {log log' : DeviceLogCSV γ} {id : Nat} {file : CsvLog γ}
    (logs : log'.logs = Function.update log.logs id (some file)) (other : Nat) :
    format.current log' other = if other = id then file else format.current log other := by
  unfold CsvFormat.current
  rw [logs, Function.update_apply]
  split <;> rfl

/-- The name of the file that is opened next for a data set. -/
def CsvFormat.newName (format : CsvFormat γ) (log : DeviceLogCSV γ) (id : Nat) : List Char :=
  log.base.getNewFileName csv log.base.serNum ((format.current log id).fileCount + 1)
    (format.dataName id)

/-- The file that a record goes into is opened, or is open. -/
inductive Ready (format : CsvFormat γ) (disk : CsvDisk) (log : DeviceLogCSV γ) (data : DataBuf) :
    DeviceLog → CsvFile → CsvDisk → Nat → Prop where
  | opened (closed : (format.current log data.hdr.id.toNat).pFile = none) :
      Ready format disk log data log.base (.writing (format.newName log data.hdr.id.toNat))
        (fputs (fopenWrite disk (format.newName log data.hdr.id.toNat))
          (format.newName log data.hdr.id.toNat) (format.header data.hdr.id.toNat))
        ((format.current log data.hdr.id.toNat).fileCount + 1)
  | open {base : DeviceLog} {file : CsvFile}
      (current : (format.current log data.hdr.id.toNat).pFile = some file)
      (same : data.hdr.id ≠ didDevInfo → base = log.base) :
      Ready format disk log data base file disk (format.current log data.hdr.id.toNat).fileCount

section Step

variable {disk : CsvDisk} {log : DeviceLogCSV γ} {data : DataBuf}

private theorem saveRow_eq {file : CsvLog γ} {current : CsvFile}
    (writes : file.pFile = some current) :
    ∃ file', log.saveRow format disk file data =
        (current.put disk (DeviceLogCSV.rowText format log.nextId.toNat data),
          { log with
            logs := Function.update log.logs data.hdr.id.toNat (some file')
            nextId := log.nextId + 1 }) ∧
      file'.fileCount = file.fileCount ∧ (file'.pFile = none ∨ file'.pFile = some current) := by
  unfold DeviceLogCSV.saveRow
  dsimp only
  rw [writes]
  refine ⟨_, Prod.ext ?_ rfl, ?_⟩
  · cases current <;> rfl
  · by_cases full : log.base.maxFileSize.toNat ≤ file.fileSize +
        (if DeviceLogCSV.rowText format log.nextId.toNat data = [] then 0
          else (DeviceLogCSV.rowText format log.nextId.toNat data).length + 1)
    · rw [if_pos full]
      exact ⟨rfl, .inl rfl⟩
    · rw [if_neg full]
      exact ⟨rfl, .inr rfl⟩

private theorem openNewFile_eq (file : CsvLog γ)
    (somewhere : ¬(log.base.directory = [] ∨ log.base.serNum = 0)) :
    log.openNewFile format disk file =
      let name := log.base.getNewFileName csv log.base.serNum (file.fileCount + 1)
        (format.dataName file.dataId)
      (fputs (fopenWrite disk name) name (format.header file.dataId),
        { file with
          pFile := some (.writing name)
          fileCount := file.fileCount + 1
          fileSize := (format.header file.dataId).length }, true) := by
  unfold DeviceLogCSV.openNewFile
  rw [if_neg somewhere]

/-- `SaveData` fails without a place to write to; otherwise a row is written. -/
theorem saveData_cases (format : CsvFormat γ) (disk : CsvDisk) (log : DeviceLogCSV γ)
    (data : DataBuf) :
    ((log.base.directory = [] ∨ log.base.serNum = 0) ∧
        (format.current log data.hdr.id.toNat).pFile = none ∧
        ∃ file', file'.pFile = none ∧ log.saveData format disk data =
          (disk, { log with logs := Function.update log.logs data.hdr.id.toNat (some file') },
            false)) ∨
      ∃ base current disk' count file', Ready format disk log data base current disk' count ∧
        log.saveData format disk data =
          (current.put disk' (DeviceLogCSV.rowText format log.nextId.toNat data),
            { log with
              base
              logs := Function.update log.logs data.hdr.id.toNat (some file')
              nextId := log.nextId + 1 }, true) ∧
        file'.fileCount = count ∧ (file'.pFile = none ∨ file'.pFile = some current) := by
  have current : format.current log data.hdr.id.toNat =
      (log.logs data.hdr.id.toNat).getD format.newLog := rfl
  unfold DeviceLogCSV.saveData
  dsimp only
  rw [← current]
  cases writes : (format.current log data.hdr.id.toNat).pFile with
  | none =>
    dsimp only
    by_cases nowhere : log.base.directory = [] ∨ log.base.serNum = 0
    · unfold DeviceLogCSV.openNewFile
      rw [if_pos nowhere]
      exact .inl ⟨nowhere, rfl, { format.current log data.hdr.id.toNat with
        dataId := data.hdr.id.toNat, pFile := none }, rfl, rfl⟩
    · rw [openNewFile_eq _ nowhere]
      dsimp only
      obtain ⟨file', saved, count, later⟩ := @saveRow_eq γ format
        (fputs (fopenWrite disk (format.newName log data.hdr.id.toNat))
          (format.newName log data.hdr.id.toNat) (format.header data.hdr.id.toNat)) log data
        { format.current log data.hdr.id.toNat with
          dataId := data.hdr.id.toNat
          pFile := some (.writing (format.newName log data.hdr.id.toNat))
          fileCount := (format.current log data.hdr.id.toNat).fileCount + 1
          fileSize := (format.header data.hdr.id.toNat).length } _ rfl
      refine .inr ⟨_, _, _, _, file', .opened writes, ?_, count, later⟩
      rw [if_pos rfl]
      exact congrArg (fun saved => (saved.1, saved.2, true)) saved
  | some current =>
    dsimp only
    obtain ⟨file', saved, count, later⟩ := @saveRow_eq γ format disk
      (if data.hdr.id = didDevInfo then log.setDevInfo data else log) data
      { format.current log data.hdr.id.toNat with
        dataId := data.hdr.id.toNat, pFile := some current } current rfl
    refine .inr ⟨(if data.hdr.id = didDevInfo then log.setDevInfo data else log).base, current, disk,
      _, file', .open writes fun other => by rw [if_neg other], ?_, count, later⟩
    refine (congrArg (fun saved => (saved.1, saved.2, true)) saved).trans ?_
    split <;> rfl

end Step

/-! ### The log of the device -/

section Own

variable {place : CsvPlace} {disk disk' : CsvDisk} {log : DeviceLogCSV γ} {data : DataBuf}
  {parts : Nat → List (List CsvRow)} {rows : List CsvRow}

/-- What the log of a device has saved. -/
structure Saved (format : CsvFormat γ) (place : CsvPlace) (disk : CsvDisk) (log : DeviceLogCSV γ)
    (parts : Nat → List (List CsvRow)) (rows : List CsvRow) : Prop where
  of : place.Of log
  files : Files format place disk parts
  count : ∀ id, format.dataSize id ≠ 0 → (format.current log id).fileCount = (parts id).length
  current : ∀ id file, format.dataSize id ≠ 0 → (format.current log id).pFile = some file →
    parts id ≠ [] ∧ file = .writing (place.fileName format id (parts id).length)
  all : ∀ id, format.dataSize id ≠ 0 → (parts id).flatten = rows.filter (·.dataId = id)
  plain : ∀ row ∈ rows, row.Plain ∧ format.dataSize row.dataId ≠ 0 ∧
    row.dataId ≠ didDevInfo.toNat ∧ row.orderId < log.nextId.toNat
  sorted : rows.Pairwise fun first second => first.orderId < second.orderId

/-- A record that is replayed: it has a number, it is no `DID_DEV_INFO`, its file has a name of
its own, and its row is one line. -/
structure Replayable (format : CsvFormat γ) (log : DeviceLogCSV γ) (data : DataBuf) : Prop where
  number : log.nextId.toNat < 2 ^ 64 - 1
  other : data.hdr.id ≠ didDevInfo
  fits : format.dataSize data.hdr.id.toNat ≠ 0 →
    (format.current log data.hdr.id.toNat).pFile = none →
      (format.current log data.hdr.id.toNat).fileCount + 1 < 10000
  plain : ∀ row ∈ format.rowOf log.nextId.toNat data, row.Plain

/-- The row of a record goes into the file of its data set. -/
private theorem Files.put (files : Files format place disk parts) (usable : place.Usable)
    {current : CsvFile} (target : format.dataSize data.hdr.id.toNat ≠ 0 →
      parts data.hdr.id.toNat ≠ [] ∧ current = .writing
        (place.fileName format data.hdr.id.toNat (parts data.hdr.id.toNat).length))
    {orderId : Nat} (plain : ∀ row ∈ format.rowOf orderId data, row.Plain) :
    ∃ parts', Files format place (current.put disk (DeviceLogCSV.rowText format orderId data)) parts' ∧
      (∀ id, id ≠ data.hdr.id.toNat → parts' id = parts id) ∧
      (format.dataSize data.hdr.id.toNat ≠ 0 →
        (parts' data.hdr.id.toNat).length = (parts data.hdr.id.toNat).length ∧
        (parts' data.hdr.id.toNat).flatten =
          (parts data.hdr.id.toNat).flatten ++ format.rowOf orderId data) := by
  rw [rowText_eq]
  obtain ⟨unmapped, none⟩ | ⟨mapped, text, -, one⟩ := format.rowOf_cases orderId data
  · refine ⟨parts, ?_, fun _ _ => rfl, fun mapped => absurd unmapped mapped⟩
    rw [none, List.flatMap_nil]
    cases current with
    | reading rest => exact files
    | writing name =>
      show Files format place (fputs disk name []) parts
      rwa [fputs_nil]
  · obtain ⟨some, rfl⟩ := target mapped
    obtain ⟨before, part, last⟩ : ∃ before part,
        parts data.hdr.id.toNat = before ++ [part] := ⟨_, _, (List.dropLast_append_getLast some).symm⟩
    rw [one] at plain ⊢
    rw [List.flatMap_singleton]
    refine ⟨_, files.appended usable mapped last (plain _ (.head _)),
      fun id other => Function.update_of_ne other _ _, fun _ => ?_⟩
    rw [Function.update_self, last]
    simp

/-- The file that the record goes into is one of the device. -/
private theorem Saved.ready (saved : Saved format place disk log parts rows) (usable : place.Usable)
    (replayable : Replayable format log data) {base : DeviceLog} {current : CsvFile} {count : Nat}
    (ready : Ready format disk log data base current disk' count) :
    base = log.base ∧ ∃ parts', Files format place disk' parts' ∧
      (∀ id, id ≠ data.hdr.id.toNat → parts' id = parts id) ∧
      (format.dataSize data.hdr.id.toNat ≠ 0 → count = (parts' data.hdr.id.toNat).length ∧
        (parts' data.hdr.id.toNat).flatten = (parts data.hdr.id.toNat).flatten ∧
        parts' data.hdr.id.toNat ≠ [] ∧ current = .writing
          (place.fileName format data.hdr.id.toNat (parts' data.hdr.id.toNat).length)) := by
  cases ready with
  | opened closed =>
    have name : format.newName log data.hdr.id.toNat = place.fileName format data.hdr.id.toNat
        ((format.current log data.hdr.id.toNat).fileCount + 1) := saved.of.fileName _
    rw [name]
    refine ⟨rfl, _, saved.files.opened usable fun mapped => ?_,
      fun id other => Function.update_of_ne other _ _, fun mapped => ?_⟩
    · rw [saved.count _ mapped]
      have fits := replayable.fits mapped closed
      rw [saved.count _ mapped] at fits
      exact ⟨rfl, fits⟩
    · rw [Function.update_self, saved.count _ mapped]
      simp
  | «open» now same =>
    refine ⟨same replayable.other, parts, saved.files, fun _ _ => rfl, fun mapped => ?_⟩
    obtain ⟨some, target⟩ := saved.current _ _ mapped now
    exact ⟨saved.count _ mapped, rfl, some, target⟩

/-- The row of a record is in order behind the rows there are. -/
private theorem Saved.rows_next (saved : Saved format place disk log parts rows)
    (replayable : Replayable format log data) :
    (∀ row ∈ rows ++ format.rowOf log.nextId.toNat data, row.Plain ∧
      format.dataSize row.dataId ≠ 0 ∧ row.dataId ≠ didDevInfo.toNat ∧
        row.orderId < log.nextId.toNat + 1) ∧
      (rows ++ format.rowOf log.nextId.toNat data).Pairwise fun first second =>
        first.orderId < second.orderId := by
  have old : ∀ row ∈ rows, row.Plain ∧ format.dataSize row.dataId ≠ 0 ∧
      row.dataId ≠ didDevInfo.toNat ∧ row.orderId < log.nextId.toNat + 1 := by
    intro row member
    obtain ⟨plain, mapped, other, less⟩ := saved.plain row member
    exact ⟨plain, mapped, other, less.trans (Nat.lt_succ_self _)⟩
  have plain := replayable.plain
  obtain ⟨-, none⟩ | ⟨mapped, text, -, one⟩ := format.rowOf_cases log.nextId.toNat data
  · rw [none, List.append_nil]
    exact ⟨old, saved.sorted⟩
  · rw [one] at plain ⊢
    refine ⟨fun row member => ?_, List.pairwise_append.mpr
      ⟨saved.sorted, List.pairwise_singleton .., fun row member row' new => ?_⟩⟩
    · obtain before | new := List.mem_append.mp member
      · exact old row before
      · obtain rfl := List.mem_singleton.mp new
        exact ⟨plain _ new, mapped, fun same => replayable.other (UInt8.toNat_inj.mp same),
          Nat.lt_succ_self _⟩
    · rw [List.mem_singleton.mp new]
      exact (saved.plain row member).2.2.2

private theorem rowOf_filter (orderId id : Nat) :
    (format.rowOf orderId data).filter (·.dataId = id) =
      if id = data.hdr.id.toNat then format.rowOf orderId data else [] := by
  obtain ⟨-, none⟩ | ⟨-, text, -, one⟩ := format.rowOf_cases orderId data
  · rw [none, List.filter_nil, ite_self]
  · rw [one, List.filter_singleton]
    simp only [eq_comm (a := id)]
    split <;> simp_all

/-- A record that is saved adds its row. -/
theorem Saved.save (saved : Saved format place disk log parts rows) (usable : place.Usable)
    (replayable : Replayable format log data) :
    (log.saveData format disk data).2.2 = true ∧ ∃ parts',
      Saved format place (log.saveData format disk data).1 (log.saveData format disk data).2.1 parts'
        (rows ++ format.rowOf log.nextId.toNat data) := by
  obtain ⟨nowhere, -⟩ | ⟨base, current, disk', count, file', ready, result, counted, later⟩ :=
    saveData_cases format disk log data
  · rw [saved.of.directory, saved.of.serialNo] at nowhere
    exact absurd nowhere (not_or.mpr ⟨usable.directory, usable.serialNo.1⟩)
  obtain ⟨rfl, opened, files, others, target⟩ := saved.ready usable replayable ready
  obtain ⟨parts', files', others', here⟩ := files.put usable (fun mapped => (target mapped).2.2)
    replayable.plain
  obtain ⟨plain, sorted⟩ := saved.rows_next replayable
  have next : (log.nextId + 1).toNat = log.nextId.toNat + 1 := by
    have number := replayable.number
    rw [UInt64.toNat_add]
    exact Nat.mod_eq_of_lt (by rw [UInt64.toNat_one]; omega)
  have now := @CsvFormat.current_update γ format log (log.saveData format disk data).2.1
    data.hdr.id.toNat file' (by rw [result])
  rw [result] at now ⊢
  refine ⟨rfl, parts', ⟨saved.of.directory, saved.of.timeStamp, saved.of.serialNo⟩, files',
    fun id mapped => ?_, fun id file mapped writes => ?_, fun id mapped => ?_, ?_, sorted⟩
  · rw [now]
    split
    case isTrue same =>
      subst same
      rw [counted, (here mapped).1, (target mapped).1]
    case isFalse other =>
      rw [others' id other, others id other]
      exact saved.count id mapped
  · rw [now] at writes
    split at writes
    case isTrue same =>
      subst same
      obtain ⟨-, -, some, name⟩ := target mapped
      obtain ⟨length, -⟩ := here mapped
      obtain closed | still := later
      · cases closed.symm.trans writes
      · cases still.symm.trans writes
        rw [length]
        refine ⟨fun none => some (List.length_eq_zero_iff.mp ?_), name⟩
        rw [← length, none]
        rfl
    case isFalse other =>
      rw [others' id other, others id other]
      exact saved.current id file mapped writes
  · rw [List.filter_append, rowOf_filter]
    split
    case isTrue same =>
      subst same
      rw [(here mapped).2, (target mapped).2.1, saved.all _ mapped]
    case isFalse other =>
      rw [others' id other, others id other, List.append_nil]
      exact saved.all id mapped
  · show ∀ row ∈ rows ++ format.rowOf log.nextId.toNat data, row.Plain ∧
      format.dataSize row.dataId ≠ 0 ∧ row.dataId ≠ didDevInfo.toNat ∧
        row.orderId < (log.nextId + 1).toNat
    rwa [next]

end Own

end InertialSense.DataLog
