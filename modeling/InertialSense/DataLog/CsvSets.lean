import InertialSense.DataLog.CsvLog

/-! The texts that a CSV log writes and reads are those of `cDataCSV`, for the data sets that
`cISDataMappings` has. -/

namespace InertialSense.DataLog

open Foundation

def headerColumns (set : DataSet) (line : List Char) : List (Option DataInfo) :=
  (line.splitOn ',').map (columnHeader set)

/-- The data sets of `cISDataMappings` and their names. -/
structure CsvSets where
  dataName : Nat → List Char
  sets : Nat → Option DataSet
  mapped : ∀ id set, sets id = some set → set.size ≠ 0 → 0 < id ∧ id < didCount
  fields : ∀ id set, sets id = some set → set.size ≠ 0 → set.nameToInfo ≠ []
  short : ∀ id set, sets id = some set → (writeHeaderToFile set).length < 8192
  room : ∀ id set, sets id = some set → set.size ≤ maxDatasetSize
  /-- No name is the end of another one. -/
  apart : ∀ id other set, sets id = some set → set.size ≠ 0 → dataName other ≠ [] →
    lower (dataName id) <:+ lower (dataName other) ∨
      lower (dataName other) <:+ lower (dataName id) → id = other
  /-- No name ends like the number of a file. -/
  unnumbered : ∀ id set, sets id = some set → set.size ≠ 0 →
    ∃ c ∈ (lower (dataName id)).reverse.take 4, isDigitOf 10 c = false

section Rows

variable {set : DataSet} {hdr : DataHdr}

private theorem readColumn_isSome {column : Option DataInfo}
    (known : ∀ info, column = some info → info ∈ set.nameToInfo) (start : hdr.offset = 0)
    (whole : hdr.size.toNat = set.size) (buf : Buffer) (text : List Char) :
    ∃ buf', readColumn set hdr buf column text = some buf' := by
  unfold readColumn
  cases column with
  | none => exact ⟨buf, rfl⟩
  | some info =>
    have here := known info rfl
    have some := (set.mapped info here).some
    have inside := set.inside info here
    have place : fieldData set.size info 0 hdr = .some (info.offset + 0 * info.elementSize) := by
      rw [fieldData_whole here (by omega) (by omega) start whole, if_pos (by omega)]
    dsimp only
    split
    case isTrue _ =>
      unfold stringToData
      rw [place]
      exact ⟨_, rfl⟩
    case isFalse _ => exact ⟨buf, rfl⟩

/-- No row is refused because of its columns. -/
private theorem scanCsv_isSome {columns : List (Option DataInfo)}
    (known : ∀ column ∈ columns, ∀ info, column = some info → info ∈ set.nameToInfo)
    (start : hdr.offset = 0) (whole : hdr.size.toNat = set.size) (s rest : List Char) (i : Nat)
    (scan : CsvScan) (buf : Buffer) :
    ∃ buf', scanCsv set hdr s i rest columns scan buf = some buf' := by
  induction rest generalizing i columns scan buf with
  | nil => exact ⟨buf, by rw [scanCsv]⟩
  | cons c rest ih =>
    cases columns with
    | nil => exact ⟨buf, by rw [scanCsv]⟩
    | cons column columns =>
      obtain ⟨first, later⟩ := List.forall_mem_cons.mp known
      rw [scanCsv]
      split
      case isTrue _ =>
        dsimp only
        obtain ⟨buf', read⟩ := readColumn_isSome first start whole buf
          ((s.drop (scan.start + scan.foundQuotes)).take
            (i - scan.foundQuotes - (scan.start + scan.foundQuotes)))
        rw [read]
        exact ih later _ _ buf'
      case isFalse _ =>
        split
        case isTrue _ => exact ih known _ _ buf
        case isFalse _ => exact ih known _ _ buf

private theorem headerColumns_known (line : List Char) :
    ∀ column ∈ headerColumns set line, ∀ info, column = some info → info ∈ set.nameToInfo := by
  intro column member info same
  obtain ⟨name, -, rfl⟩ := List.mem_map.mp member
  unfold columnHeader DataSet.find at same
  dsimp only at same
  generalize (if name.rdropWhile isLineBreak = [] then ['U', 'N', 'K', 'N', 'O', 'W', 'N']
    else name.rdropWhile isLineBreak) = name' at same
  split at same
  case isTrue _ => cases same
  case isFalse _ => exact List.mem_of_find?_eq_some same

private theorem columnTexts_ne_nil (info : DataInfo) (dataSize : Nat) (bytes : Nat → UInt8) :
    info.columnTexts dataSize hdr bytes ≠ [] := by
  unfold DataInfo.columnTexts
  split
  case isTrue _ => exact List.cons_ne_nil _ _
  case isFalse array =>
    intro none
    have length := congrArg List.length none
    rw [List.length_map, List.length_range] at length
    exact array length

end Rows

namespace CsvSets

def dataSize (sets : CsvSets) (id : Nat) : Nat := (sets.sets id).elim 0 DataSet.size

/-- `WriteHeaderToFile`: nothing without a map of names. -/
def header (sets : CsvSets) (id : Nat) : List Char := (sets.sets id).elim [] writeHeaderToFile

def row (sets : CsvSets) (data : DataBuf) : Option (List Char) :=
  -- all of `tmpBuffer` that is used is filled before
  dataToStringCSV (fun id => sets.sets id.toNat) data.hdr data.buf fun _ => 0

def columns (sets : CsvSets) (id : Nat) (line : List Char) : List (Option DataInfo) :=
  (sets.sets id).elim [] fun set => headerColumns set line

/-- `StringCSVToData` into `m_data`. -/
def read (sets : CsvSets) (errno : Bool) (id : Nat) (line : List Char)
    (columns : List (Option DataInfo)) : Bool × Option DataBuf :=
  let hdr : DataHdr := { id := UInt8.ofNat id, size := UInt16.ofNat (sets.dataSize id), offset := 0 }
  let buf : Buffer := { bytes := fun _ => 0, erange := errno }
  match stringCSVToData (fun id => sets.sets id.toNat) line hdr buf maxDatasetSize columns with
  | none => (errno, none)
  | some (hdr, buf) => (buf.erange, some ⟨hdr, buf.bytes⟩)

variable {sets : CsvSets} {id : Nat}

private theorem dataSize_set (mapped : sets.dataSize id ≠ 0) :
    ∃ set, sets.sets id = some set ∧ sets.dataSize id = set.size ∧ set.size ≠ 0 := by
  unfold dataSize at mapped ⊢
  cases known : sets.sets id with
  | none =>
    rw [known] at mapped
    exact absurd rfl mapped
  | some set =>
    rw [known] at mapped
    exact ⟨set, rfl, rfl, mapped⟩

private theorem header_line (sets : CsvSets) (id : Nat) : sets.header id = [] ∧ sets.dataSize id = 0 ∨
    ∃ line, sets.header id = line ++ ['\n'] ∧ line ≠ [] ∧ (∀ c ∈ line, c ≠ '\n' ∧ c ≠ '\x00') ∧
      line.length < 8191 := by
  unfold header dataSize
  cases known : sets.sets id with
  | none => exact .inl ⟨rfl, rfl⟩
  | some set =>
    obtain ⟨line, written, some, clean⟩ := writeHeaderToFile_line set
    have short := sets.short id set known
    rw [written, List.length_append, List.length_singleton] at short
    exact .inr ⟨line, written, some, clean, Nat.lt_of_succ_lt_succ short⟩

private theorem row_line {data : DataBuf} (mapped : sets.dataSize data.hdr.id.toNat ≠ 0) :
    ∃ body, sets.row data = some (',' :: body ++ ['\n']) := by
  obtain ⟨set, known, -, nonempty⟩ := dataSize_set mapped
  obtain ⟨info, fields, split⟩ := List.exists_cons_of_ne_nil (sets.fields _ set known nonempty)
  unfold row dataToStringCSV
  dsimp only
  rw [known, Option.bind_eq_bind, Option.bind_some, split, List.flatMap_cons]
  obtain ⟨text, texts, first⟩ := List.exists_cons_of_ne_nil (columnTexts_ne_nil info set.size
    (wholeRecord set.size data.hdr data.buf fun _ => 0))
  rw [first]
  exact ⟨_, rfl⟩

private theorem unread (errno : Bool) (line : List Char) (columns : List (Option DataInfo))
    (unmapped : sets.dataSize id = 0) : sets.read errno id line columns = (errno, none) := by
  have refused : stringCSVToData (fun id => sets.sets id.toNat) line
      { id := UInt8.ofNat id, size := 0, offset := 0 } { bytes := fun _ => 0, erange := errno }
      maxDatasetSize columns = none := by
    unfold stringCSVToData
    dsimp only
    cases sets.sets (UInt8.ofNat id).toNat <;> rfl
  unfold read
  rw [unmapped]
  dsimp only
  rw [show UInt16.ofNat 0 = 0 from rfl, refused]

private theorem readable (errno : Bool) (line line' : List Char) (mapped : sets.dataSize id ≠ 0) :
    ∃ data, (sets.read errno id line (sets.columns id line')).2 = some data ∧
      data.hdr.id.toNat = id := by
  obtain ⟨set, known, size, nonempty⟩ := dataSize_set mapped
  have small := (sets.mapped id set known nonempty).2
  have own : (UInt8.ofNat id).toNat = id := by
    exact UInt8.toNat_ofNat_of_lt' (small.trans (by decide))
  have whole : (UInt16.ofNat set.size).toNat = set.size := UInt16.toNat_ofNat_of_lt' set.small
  have room := sets.room id set known
  unfold read columns stringCSVToData
  dsimp only
  rw [own, known, Option.bind_eq_bind, Option.bind_some, size, if_neg]
  · dsimp only [Option.elim_some]
    obtain ⟨buf, read⟩ := @scanCsv_isSome set
      { id := UInt8.ofNat id, size := UInt16.ofNat set.size, offset := 0 } (headerColumns set line')
      (headerColumns_known line') rfl whole (line.rdropWhile isLineBreak ++ [','])
      (line.rdropWhile isLineBreak ++ [',']) 0 { start := 0, inQuotes := false, foundQuotes := 0 }
      { bytes := store (fun _ => 0) 0 (List.replicate (UInt16.ofNat set.size).toNat 0), erange := errno }
    rw [read]
    exact ⟨_, rfl, own⟩
  · rw [not_or, not_or, whole]
    refine ⟨not_not.mpr rfl, fun none => nonempty ?_, not_lt.mpr room⟩
    rw [← whole, none]
    rfl

/-- The texts of `cDataCSV`. -/
def format (sets : CsvSets) : CsvFormat (List (Option DataInfo)) where
  dataName := sets.dataName
  dataSize := sets.dataSize
  header := sets.header
  row := sets.row
  noColumns := []
  columns := sets.columns
  read := sets.read
  mapped id mapped := by
    obtain ⟨set, known, -, nonempty⟩ := dataSize_set mapped
    exact sets.mapped id set known nonempty
  apart id other mapped := by
    obtain ⟨set, known, -, nonempty⟩ := dataSize_set mapped
    exact sets.apart id other set known nonempty
  unnumbered id mapped := by
    obtain ⟨set, known, -, nonempty⟩ := dataSize_set mapped
    exact sets.unnumbered id set known nonempty
  header_line := sets.header_line
  row_line _ mapped := row_line mapped
  unread errno _ line columns unmapped := unread errno line columns unmapped
  readable errno _ line line' mapped := readable errno line line' mapped

end CsvSets

end InertialSense.DataLog
