import InertialSense.DataLog.FieldText
import Mathlib.Data.List.DropRight

/-! `cDataCSV`: a file with a row for each record of a data set, under a header that names the
columns. -/

namespace InertialSense.DataLog

open Foundation

/-- `name[i]`, the column of an element of an array. -/
def DataInfo.elementName (info : DataInfo) (i : Nat) : List Char :=
  info.name ++ ['['] ++ decimal i ++ [']']

def DataInfo.columnNames (info : DataInfo) : List (List Char) :=
  if info.arraySize = 0 then [info.name]
  else (List.range info.arraySize).map info.elementName

def writeHeaderToFile (set : DataSet) : List Char :=
  ['_', 'I', 'D', '_'] ++ (set.nameToInfo.flatMap DataInfo.columnNames).flatMap (',' :: ·) ++ ['\n']

/-- A line with its end, at most as much of it as `fgets` has room for. -/
def fgets (count : Nat) (file : List Char) : List Char :=
  let text := file.take (count - 1)
  if '\n' ∈ text then text.takeWhile (· ≠ '\n') ++ ['\n'] else text

def isLineBreak (c : Char) : Bool := c = '\r' ∨ c = '\n'

/-- The field that a column is read to. Columns that are skipped have the offset 0xFFFFFFFF in the
source. -/
def columnHeader (set : DataSet) (column : List Char) : Option DataInfo :=
  let name := column.rdropWhile isLineBreak
  let name := if name = [] then ['U', 'N', 'K', 'N', 'O', 'W', 'N'] else name
  if name = ['_', 'I', 'D', '_'] then none else set.find name

/-- `ReadHeaderFromFile`: nothing if there is no line to read. -/
def readHeaderFromFile (set : DataSet) (file : List Char) : Option (List (Option DataInfo)) :=
  if file = [] then none
  else
    let line := (fgets 8192 file).takeWhile (· ≠ '\x00')
    some ((line.splitOn ',').map (columnHeader set))

def DataInfo.columnTexts (info : DataInfo) (dataSize : Nat) (hdr : DataHdr) (bytes : Nat → UInt8) :
    List (List Char) :=
  if info.arraySize = 0 then [dataToString dataSize info hdr bytes 0 false]
  else (List.range info.arraySize).map fun i => dataToString dataSize info hdr bytes i false

def dataToStringCSV (sets : UInt8 → Option DataSet) (hdr : DataHdr) (buf tmpBuffer : Nat → UInt8) :
    Option (List Char) := do
  let set ← sets hdr.id
  let bytes := wholeRecord set.size hdr buf tmpBuffer
  let hdrCopy := { hdr with offset := 0, size := UInt16.ofNat set.size }
  let texts := set.nameToInfo.flatMap fun info => info.columnTexts set.size hdrCopy bytes
  pure (texts.flatMap (',' :: ·) ++ ['\n'])

def maxDatasetSize : Nat := 1024

/-- A column of a row: nothing if it cannot be read. -/
def readColumn (set : DataSet) (hdr : DataHdr) (buf : Buffer) (column : Option DataInfo)
    (columnData : List Char) : Option Buffer :=
  match column with
  | none => some buf
  | some info =>
    if info.offset < maxDatasetSize then stringToData set.size columnData hdr buf info 0 false
    else some buf

/-- The variables of the loop of `StringCSVToData`. -/
structure CsvScan where
  start : Nat
  inQuotes : Bool
  foundQuotes : Nat

/-- The loop of `StringCSVToData`, from this place of the text on, with the columns that are left. -/
def scanCsv (set : DataSet) (hdr : DataHdr) (s : List Char) :
    Nat → List Char → List (Option DataInfo) → CsvScan → Buffer → Option Buffer
  | _, [], _, _, buf => some buf
  | _, _ :: _, [], _, buf => some buf
  | i, c :: rest, column :: columns, scan, buf =>
    if c = ',' ∧ !scan.inQuotes then do
      let first := scan.start + scan.foundQuotes
      let columnData := (s.drop first).take (i - scan.foundQuotes - first)
      let buf ← readColumn set hdr buf column columnData
      scanCsv set hdr s (i + 1) rest columns { scan with start := i + 1, foundQuotes := 0 } buf
    else if c = '"' then
      let inQuotes := !scan.inQuotes
      scanCsv set hdr s (i + 1) rest (column :: columns)
        { scan with inQuotes, foundQuotes := scan.foundQuotes ||| inQuotes.toNat } buf
    else scanCsv set hdr s (i + 1) rest (column :: columns) scan buf

/-- `StringCSVToData`: nothing if it returns false. -/
def stringCSVToData (sets : UInt8 → Option DataSet) (s : List Char) (hdr : DataHdr) (buf : Buffer)
    (bufSize : Nat) (columnHeaders : List (Option DataInfo)) : Option (DataHdr × Buffer) := do
  let set ← sets hdr.id
  if hdr.offset ≠ 0 ∨ hdr.size = 0 ∨ bufSize < hdr.size.toNat then none
  else
    let s := s.rdropWhile isLineBreak ++ [',']
    let hdr := { hdr with offset := 0, size := UInt16.ofNat set.size }
    let buf := { buf with bytes := store buf.bytes 0 (List.replicate hdr.size.toNat 0) }
    let start : CsvScan := { start := 0, inQuotes := false, foundQuotes := 0 }
    let buf ← scanCsv set hdr s 0 s columnHeaders start buf
    pure (hdr, buf)

section Scan

variable {set : DataSet} {hdr : DataHdr} {s : List Char}

/-- A column is read at the comma behind it. -/
private theorem scanCsv_column {text : List Char} (plain : ∀ c ∈ text, c ∉ [',', '"'])
    {before passed rest : List Char} {column : Option DataInfo} {columns : List (Option DataInfo)}
    (whole : s = before ++ (passed ++ text ++ ',' :: rest)) (buf : Buffer) :
    scanCsv set hdr s (before ++ passed).length (text ++ ',' :: rest) (column :: columns)
        { start := before.length, inQuotes := false, foundQuotes := 0 } buf =
      (readColumn set hdr buf column (passed ++ text)).bind fun buf =>
        scanCsv set hdr s (before ++ (passed ++ text ++ [','])).length rest columns
          { start := (before ++ (passed ++ text ++ [','])).length, inQuotes := false,
            foundQuotes := 0 } buf := by
  induction text generalizing passed with
  | nil =>
    have data : (s.drop (before.length + 0)).take
        (before.length + passed.length - 0 - (before.length + 0)) = passed := by
      rw [whole]
      simp
    rw [List.nil_append, scanCsv, if_pos ⟨rfl, rfl⟩]
    simp only [List.append_nil, List.length_append, List.length_singleton, ← Nat.add_assoc]
    rw [data]
    rfl
  | cons c text ih =>
    obtain ⟨first, plain⟩ := List.forall_mem_cons.mp plain
    simp only [List.mem_cons, List.not_mem_nil, or_false, not_or] at first
    obtain ⟨comma, quote⟩ := first
    have joined : passed ++ [c] ++ text = passed ++ c :: text := by simp
    have next := @ih plain (passed ++ [c]) (by rw [joined]; exact whole)
    have length : (before ++ (passed ++ [c])).length = (before ++ passed).length + 1 := by
      simp only [List.length_append, List.length_singleton, Nat.add_assoc]
    rw [joined, length] at next
    rw [List.cons_append, scanCsv, if_neg fun separates => comma separates.1, if_neg quote]
    exact next

theorem scanCsv_row {columns : List (Option DataInfo)} {texts : List (List Char)}
    (plain : ∀ text ∈ texts, ∀ c ∈ text, c ∉ [',', '"']) (same : columns.length = texts.length)
    {before : List Char} (whole : s = before ++ texts.flatMap (· ++ [','])) (buf : Buffer) :
    scanCsv set hdr s before.length (texts.flatMap (· ++ [','])) columns
        { start := before.length, inQuotes := false, foundQuotes := 0 } buf =
      (columns.zip texts).foldlM (fun buf column => readColumn set hdr buf column.1 column.2) buf := by
  induction texts generalizing columns before buf with
  | nil =>
    obtain rfl := List.length_eq_zero_iff.mp same
    rfl
  | cons text texts ih =>
    obtain ⟨first, plain⟩ := List.forall_mem_cons.mp plain
    cases columns with
    | nil => cases same
    | cons column columns =>
      rw [List.flatMap_cons] at whole ⊢
      have read := @scanCsv_column set hdr s text first before [] (texts.flatMap (· ++ [',']))
        column columns (by rw [whole]; simp) buf
      have more : text ++ [','] ++ texts.flatMap (· ++ [',']) =
          text ++ ',' :: texts.flatMap (· ++ [',']) := by simp
      rw [List.append_nil, List.nil_append] at read
      rw [more, read, List.zip_cons_cons, List.foldlM_cons]
      refine congrArg _ (funext fun buf => ?_)
      exact ih plain (Nat.succ.inj same) (by rw [whole]; simp) buf

end Scan

section Header

variable {set : DataSet}

private theorem columnHeader_line (name : List Char) :
    columnHeader set (name ++ ['\n']) = columnHeader set name := by
  unfold columnHeader
  rw [List.rdropWhile_concat_pos _ _ _ rfl]

private theorem splitOn_names {first : List Char} {names : List (List Char)}
    (plain : ∀ name ∈ first :: names, ',' ∉ name) :
    ((first ++ names.flatMap (',' :: ·) ++ ['\n']).splitOn ',').map (columnHeader set) =
      (first :: names).map (columnHeader set) := by
  induction names generalizing first with
  | nil =>
    have single : ',' ∉ first ++ ['\n'] := by
      simp only [List.mem_append, List.mem_singleton, Char.reduceEq, or_false]
      exact plain first (.head _)
    rw [List.flatMap_nil, List.append_nil, List.splitOn_eq_singleton single, List.map_singleton,
      List.map_singleton, columnHeader_line]
  | cons name names ih =>
    obtain ⟨here, plain⟩ := List.forall_mem_cons.mp plain
    have more : first ++ (name :: names).flatMap (',' :: ·) ++ ['\n'] =
        first ++ ',' :: (name ++ names.flatMap (',' :: ·) ++ ['\n']) := by simp
    rw [more, List.splitOn_append_cons_self_of_not_mem here, List.map_cons, ih plain, ← List.map_cons]

theorem columnNames_plain {info : DataInfo} (known : info ∈ set.nameToInfo) {name : List Char}
    (member : name ∈ info.columnNames) : ∀ c ∈ name, c ∉ [',', '\n', '\x00'] := by
  have own : ∀ c ∈ info.name, c ∉ [',', '\n', '\x00'] := by
    intro c inside
    have others := (set.mapped info known).name.2 c inside
    simp only [List.mem_cons, List.not_mem_nil, or_false, not_or] at others ⊢
    exact ⟨others.2.2.2.1, others.2.2.2.2.1, others.2.2.2.2.2.2⟩
  unfold DataInfo.columnNames at member
  split at member
  · rwa [List.mem_singleton.mp member]
  · obtain ⟨i, -, rfl⟩ := List.mem_map.mp member
    intro c inside
    unfold DataInfo.elementName at inside
    simp only [List.mem_append, List.mem_singleton] at inside
    rcases inside with ((name | rfl) | digit) | rfl
    · exact own c name
    · decide
    · have others := decimal_plain digit
      simp only [List.mem_cons, List.not_mem_nil, or_false, not_or] at others ⊢
      exact ⟨others.2.1, others.2.2.2.2.1, others.2.2.2.2.2.2⟩
    · decide

/-- A line that is not too long is read to its end. -/
theorem fgets_line {line : List Char} (one : '\n' ∉ line) {count : Nat}
    (short : line.length + 1 < count) (rest : List Char) :
    fgets count (line ++ ['\n'] ++ rest) = line ++ ['\n'] := by
  have text : (line ++ ['\n'] ++ rest).take (count - 1) =
      line ++ '\n' :: rest.take (count - 1 - (line ++ ['\n']).length) := by
    rw [List.take_append, List.take_of_length_le]
    · simp
    · simp only [List.length_append, List.length_singleton]
      omega
  have stop : (line ++ '\n' :: rest.take (count - 1 - (line ++ ['\n']).length)).takeWhile
      (· ≠ '\n') = line := by
    rw [List.takeWhile_append_of_pos, List.takeWhile_cons_of_neg (by decide), List.append_nil]
    intro c inside
    exact decide_eq_true fun same => one (same ▸ inside)
  unfold fgets
  dsimp only
  rw [text, if_pos (by simp), stop]

theorem writeHeaderToFile_line (set : DataSet) : ∃ line, writeHeaderToFile set = line ++ ['\n'] ∧
    line ≠ [] ∧ ∀ c ∈ line, c ≠ '\n' ∧ c ≠ '\x00' := by
  refine ⟨['_', 'I', 'D', '_'] ++ (set.nameToInfo.flatMap DataInfo.columnNames).flatMap (',' :: ·), rfl,
    List.cons_ne_nil _ _, fun c inside => ?_⟩
  rw [List.mem_append, List.mem_flatMap] at inside
  rcases inside with first | ⟨name, member, inside⟩
  · have others : ∀ c ∈ ['_', 'I', 'D', '_'], c ≠ '\n' ∧ c ≠ '\x00' := by simp
    exact others c first
  · obtain rfl | inside := List.mem_cons.mp inside
    · decide
    · obtain ⟨info, known, column⟩ := List.mem_flatMap.mp member
      have others := columnNames_plain known column c inside
      simp only [List.mem_cons, List.not_mem_nil, or_false, not_or] at others
      exact others.2

theorem readHeaderFromFile_written (short : (writeHeaderToFile set).length < 8191)
    (rest : List Char) :
    readHeaderFromFile set (writeHeaderToFile set ++ rest) =
      some (none :: (set.nameToInfo.flatMap DataInfo.columnNames).map (columnHeader set)) := by
  obtain ⟨line, written, -, clean⟩ := writeHeaderToFile_line set
  have whole : (line ++ ['\n']).takeWhile (· ≠ '\x00') = line ++ ['\n'] := by
    rw [List.takeWhile_eq_self_iff]
    intro c inside
    rcases List.mem_append.mp inside with inside | inside
    · exact decide_eq_true (clean c inside).2
    · rw [List.mem_singleton.mp inside]
      decide
  have length : line.length + 1 < 8192 := by
    rw [written, List.length_append, List.length_singleton] at short
    omega
  have separate : ∀ name ∈ ['_', 'I', 'D', '_'] :: set.nameToInfo.flatMap DataInfo.columnNames,
      ',' ∉ name := by
    refine List.forall_mem_cons.mpr ⟨by decide, fun name member inside => ?_⟩
    obtain ⟨info, known, column⟩ := List.mem_flatMap.mp member
    exact columnNames_plain known column ',' inside (.head _)
  unfold readHeaderFromFile
  rw [written, if_neg (by simp), fgets_line (fun inside => (clean _ inside).1 rfl) length]
  dsimp only
  rw [whole, ← written]
  exact congrArg some (splitOn_names separate)

end Header

end InertialSense.DataLog
