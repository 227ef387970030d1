import InertialSense.DataLog.CsvSaving

/-! What a CSV log reads of one data set: the rows of its files, in the order of the files, each
of them once. -/

namespace InertialSense.DataLog

open Foundation

variable {γ : Type} {format : CsvFormat γ}

/-! ### Lines -/

private theorem fgets_plain {line : List Char} (plain : ∀ c ∈ line, c ≠ '\n' ∧ c ≠ '\x00')
    (short : line.length + 1 < 8192) (rest : List Char) :
    fgets 8192 (line ++ '\n' :: rest) = line ++ ['\n'] ∧
      (line ++ ['\n']).takeWhile (· ≠ '\x00') = line ++ ['\n'] := by
  have read := fgets_line (fun inside => (plain _ inside).1 rfl) short rest
  rw [List.append_assoc, List.singleton_append] at read
  refine ⟨read, List.takeWhile_eq_self_iff.mpr fun c inside => ?_⟩
  obtain inside | last := List.mem_append.mp inside
  · exact decide_eq_true (plain c inside).2
  · rw [List.mem_singleton.mp last]
    decide

namespace CsvRow.Plain

variable {row : CsvRow}

/-- A row is a line that begins with its number. -/
theorem line_eq (plain : row.Plain) : ∃ line, row.line = line ++ ['\n'] ∧
    (∀ c ∈ line, c ≠ '\n' ∧ c ≠ '\x00') ∧ line.length + 1 < 8192 ∧ ',' ∈ row.line ∧
      strtoul 10 row.line = ((row.orderId : Int), false) := by
  obtain ⟨body, text, clean⟩ := plain.text
  have short := plain.short
  have line : row.line = (decimal row.orderId ++ ',' :: body) ++ ['\n'] := by
    rw [CsvRow.line, text, List.append_assoc]
  refine ⟨_, line, fun c inside => ?_, ?_, ?_, ?_⟩
  · obtain number | inside := List.mem_append.mp inside
    · have others := decimal_plain number
      simp only [List.mem_cons, List.not_mem_nil, or_false, not_or] at others
      exact ⟨others.2.2.2.2.1, others.2.2.2.2.2.2⟩
    · obtain rfl | inside := List.mem_cons.mp inside
      · decide
      · exact clean c inside
  · rwa [line, List.length_append, List.length_singleton] at short
  · rw [line]
    simp
  · have number := plain.number
    rw [CsvRow.line, text]
    exact strtoul_decimal (by omega) rfl

theorem line_ne_nil (plain : row.Plain) : row.line ≠ [] := by
  obtain ⟨line, same, -⟩ := plain.line_eq
  rw [same]
  exact List.append_ne_nil_of_right_ne_nil _ (List.cons_ne_nil _ _)

end CsvRow.Plain

namespace DeviceLogCSV

theorem getNextLineForFile_row (log : DeviceLogCSV γ) {file : CsvLog γ} {row : CsvRow}
    {rest : List Char} (plain : row.Plain)
    (opened : file.pFile = some (.reading (row.line ++ rest))) :
    getNextLineForFile log file = (log,
      { file with
        pFile := some (.reading rest)
        nextLine := row.line
        orderId := row.orderId }, true) := by
  obtain ⟨line, same, clean, short, comma, number⟩ := plain.line_eq
  obtain ⟨read, whole⟩ := fgets_plain clean short rest
  rw [← List.singleton_append, ← List.append_assoc, ← same] at read
  rw [← same] at whole
  unfold getNextLineForFile
  rw [opened]
  dsimp only
  rw [read, if_neg plain.line_ne_nil, whole, if_pos comma, number, Bool.or_false, List.drop_left]
  rfl

theorem getNextLineForFile_end (log : DeviceLogCSV γ) {file : CsvLog γ}
    (opened : file.pFile = none ∨ file.pFile = some (.reading [])) :
    getNextLineForFile log file = (log, file, false) := by
  unfold getNextLineForFile
  obtain closed | done := opened
  · rw [closed]
  · rw [done]
    rfl

end DeviceLogCSV

/-! ### Files -/

/-- What a file of a data set holds. -/
def Holding (format : CsvFormat γ) (id : Nat) (contents : List Char) (rows : List CsvRow) : Prop :=
  contents = [] ∧ rows = [] ∨ ∃ line : List Char, contents = line ++ '\n' :: rows.flatMap CsvRow.line ∧
    HeaderLine line ∧ (∀ row ∈ rows, row.Plain) ∧
      (format.dataSize id ≠ 0 → format.header id = line ++ ['\n'])

def Listed (format : CsvFormat γ) (disk : CsvDisk) (id : Nat) (files : List (List Char))
    (parts : List (List CsvRow)) : Prop :=
  List.Forall₂ (fun name rows => Holding format id ((disk.lookup name).getD []) rows) files parts

/-- A log between two files, or within one that still has these rows. -/
inductive Position (format : CsvFormat γ) (id : Nat) (file : CsvLog γ) : List CsvRow → Prop where
  | before (closed : file.pFile = none) : Position format id file []
  | inside {part : List CsvRow} (opened : file.pFile = some (.reading (part.flatMap CsvRow.line)))
      (columns : format.dataSize id ≠ 0 →
        file.columnHeaders = format.columns id (format.header id))
      (plain : ∀ row ∈ part, row.Plain) : Position format id file part

/-- What is left to read of a data set. -/
structure Reads (format : CsvFormat γ) (disk : CsvDisk) (log : DeviceLogCSV γ) (file : CsvLog γ)
    (id : Nat) (part : List CsvRow) (later : List (List CsvRow)) : Prop where
  dataId : file.dataId = id
  position : Position format id file part
  listed : Listed format disk id (log.currentFiles id) later

section Open

variable {disk : CsvDisk} {id : Nat}

theorem Holding.readHeader {contents : List Char} {rows : List CsvRow}
    (holding : Holding format id contents rows) :
    format.readHeader id contents = none ∧ rows = [] ∨
      ∃ text, format.readHeader id contents =
          some (format.columns id text, rows.flatMap CsvRow.line) ∧
        (∀ row ∈ rows, row.Plain) ∧ (format.dataSize id ≠ 0 → format.header id = text) := by
  obtain ⟨rfl, rfl⟩ | ⟨line, rfl, ⟨some, clean, short⟩, plain, header⟩ := holding
  · exact .inl ⟨rfl, rfl⟩
  · obtain ⟨read, whole⟩ := fgets_plain clean (by omega) (rows.flatMap CsvRow.line)
    refine .inr ⟨line ++ ['\n'], ?_, plain, header⟩
    unfold CsvFormat.readHeader
    dsimp only
    rw [read, whole, if_neg (List.append_ne_nil_of_right_ne_nil _ (List.cons_ne_nil _ _)),
      List.append_cons line '\n' (rows.flatMap _), List.drop_left]

theorem tryNextFile_listed {file : CsvLog γ} {files : List (List Char)} {parts : List (List CsvRow)}
    (same : file.dataId = id) (listed : Listed format disk id files parts) :
    ∃ file' files' opened,
      DeviceLogCSV.tryNextFile format disk file files = (file', files', opened) ∧
        file'.dataId = id ∧ file'.nextLine = file.nextLine ∧
        if opened then ∃ part later, parts.flatten = part ++ later.flatten ∧
            later.length < parts.length ∧ Position format id file' part ∧
            Listed format disk id files' later
          else parts.flatten = [] := by
  induction listed generalizing file with
  | nil => exact ⟨file, [], false, rfl, same, rfl, rfl⟩
  | @cons name rows files parts holding listed ih =>
    unfold DeviceLogCSV.tryNextFile
    dsimp only
    rw [same]
    obtain ⟨unread, rfl⟩ | ⟨text, read, plain, header⟩ := holding.readHeader
    · rw [unread]
      obtain ⟨file', files', opened, result, same', line, outcome⟩ := @ih
        { file with
          dataId := id
          pFile := some (.reading ((disk.lookup name).getD []))
          fileCount := file.fileCount + 1
          fileSize := ((disk.lookup name).getD []).length } rfl
      refine ⟨file', files', opened, result, same', line, ?_⟩
      cases opened with
      | false => exact outcome
      | true =>
        obtain ⟨part, later, rows, fewer, rest⟩ := outcome
        exact ⟨part, later, rows, fewer.trans (Nat.lt_succ_self _), rest⟩
    · rw [read]
      refine ⟨_, _, true, rfl, rfl, rfl, rows, parts, rfl, Nat.lt_succ_self _, ?_, listed⟩
      exact .inside rfl (fun mapped => by rw [header mapped]) plain

/-- What is done for one data set leaves the others as they are. -/
structure Frame (id : Nat) (log log' : DeviceLogCSV γ) : Prop where
  base : log'.base = log.base
  logs : ∀ other, other ≠ id → log'.logs other = log.logs other
  currentFiles : ∀ other, other ≠ id → log'.currentFiles other = log.currentFiles other

theorem Frame.trans {log log' log'' : DeviceLogCSV γ} (first : Frame id log log')
    (second : Frame id log' log'') : Frame id log log'' :=
  ⟨second.base.trans first.base,
    fun other different => (second.logs other different).trans (first.logs other different),
    fun other different =>
      (second.currentFiles other different).trans (first.currentFiles other different)⟩

/-- The log has a directory and a serial number. -/
def Opens (log : DeviceLogCSV γ) : Prop := ¬(log.base.directory = [] ∨ log.base.serNum = 0)

theorem openNextFile_listed {log : DeviceLogCSV γ} {file : CsvLog γ} {parts : List (List CsvRow)}
    (opens : Opens log) (same : file.dataId = id)
    (listed : Listed format disk id (log.currentFiles id) parts) :
    ∃ log' file' opened, DeviceLogCSV.openNextFile format disk log file = (log', file', opened) ∧
      Frame id log log' ∧ file'.nextLine = file.nextLine ∧
        if opened then log'.logs = log.logs ∧ ∃ part later, parts.flatten = part ++ later.flatten ∧
            later.length < parts.length ∧ Reads format disk log' file' id part later
          else parts.flatten = [] ∧ log'.logs id = none := by
  subst same
  obtain ⟨file', files', opened, result, same', line, outcome⟩ :=
    @tryNextFile_listed γ format disk file.dataId { file with pFile := none } _ _ rfl listed
  unfold DeviceLogCSV.openNextFile
  dsimp only at same' line ⊢
  rw [if_neg opens, result]
  dsimp only
  rw [same']
  cases opened with
  | true =>
    obtain ⟨part, later, rows, fewer, position, listed'⟩ := outcome
    refine ⟨_, file', true, rfl, ⟨rfl, fun _ _ => rfl, fun other different =>
      Function.update_of_ne different _ _⟩, line, rfl, part, later, rows, fewer, same', position, ?_⟩
    dsimp only
    rwa [Function.update_self]
  | false =>
    refine ⟨_, file', false, rfl, ⟨rfl, fun other different => Function.update_of_ne different _ _,
      fun other different => Function.update_of_ne different _ _⟩, line, outcome, ?_⟩
    exact Function.update_self ..

/-- The log is at this row, with these behind it. -/
structure OnRow (format : CsvFormat γ) (disk : CsvDisk) (log : DeviceLogCSV γ) (file : CsvLog γ)
    (id : Nat) (row : CsvRow) (rest : List CsvRow) : Prop where
  nextLine : file.nextLine = row.line
  orderId : file.orderId = row.orderId
  plain : row.Plain
  opened : file.pFile ≠ none
  left : ∃ part later, rest = part ++ later.flatten ∧ Reads format disk log file id part later

theorem nextLineOrFile_reads {log : DeviceLogCSV γ} {file : CsvLog γ} {part : List CsvRow}
    {later : List (List CsvRow)} (opens : Opens log) (reads : Reads format disk log file id part later) :
    ∃ log' file', DeviceLogCSV.nextLineOrFile format disk log file = (log', file') ∧
      Frame id log log' ∧
        ((part ++ later.flatten = [] ∧ log'.logs id = none ∧ file'.nextLine = file.nextLine) ∨
          ∃ row rest, part ++ later.flatten = row :: rest ∧ log'.logs = log.logs ∧
            OnRow format disk log' file' id row rest) := by
  induction bound : later.length using Nat.strongRecOn generalizing log file part later with
  | ind bound ih =>
    subst bound
    obtain ⟨same, position, listed⟩ := reads
    rw [DeviceLogCSV.nextLineOrFile]
    dsimp only
    by_cases done : part = []
    · subst done
      have ended : file.pFile = none ∨ file.pFile = some (.reading []) := by
        cases position with
        | before closed => exact .inl closed
        | inside opened => exact .inr opened
      obtain ⟨log', file', opened, result, frame, line, outcome⟩ :=
        openNextFile_listed opens same listed
      rw [DeviceLogCSV.getNextLineForFile_end log ended]
      dsimp only
      rw [if_neg Bool.false_ne_true, result, List.nil_append]
      cases opened with
      | false =>
        rw [dif_neg Bool.false_ne_true]
        exact ⟨_, _, rfl, frame, .inl ⟨outcome.1, outcome.2, line⟩⟩
      | true =>
        obtain ⟨kept, part', later', rows, fewer, reads⟩ := outcome
        have opens' : Opens log' := by
          unfold Opens
          rw [frame.base]
          exact opens
        obtain ⟨log'', file'', result', frame', outcome⟩ := ih _ fewer opens' reads rfl
        rw [dif_pos rfl, rows]
        refine ⟨log'', file'', result', frame.trans frame', ?_⟩
        obtain ⟨none, erased, line'⟩ | ⟨row, rest, split, kept', onRow⟩ := outcome
        · exact .inl ⟨none, erased, line'.trans line⟩
        · exact .inr ⟨row, rest, split, kept'.trans kept, onRow⟩
    · obtain ⟨row, part, rfl⟩ := List.exists_cons_of_ne_nil done
      cases position with
      | inside opened columns plain =>
        obtain ⟨first, plain⟩ := List.forall_mem_cons.mp plain
        rw [List.flatMap_cons] at opened
        rw [DeviceLogCSV.getNextLineForFile_row log first opened]
        dsimp only
        rw [if_pos rfl]
        refine ⟨_, _, rfl, ⟨rfl, fun _ _ => rfl, fun _ _ => rfl⟩, .inr ⟨row, part ++ later.flatten, rfl,
          rfl, rfl, rfl, first, Option.some_ne_none _, part, later, rfl, same, ?_, listed⟩⟩
        exact .inside rfl columns plain

end Open

/-! ### A data set in the map -/

section Waiting

variable {disk : CsvDisk} {id : Nat}

/-- These rows of a data set are still to be returned. -/
def Waiting (format : CsvFormat γ) (disk : CsvDisk) (log : DeviceLogCSV γ) (id : Nat) :
    List CsvRow → Prop
  | [] => log.logs id = none
  | row :: rest => ∃ file, log.logs id = some file ∧ OnRow format disk log file id row rest

/-- Only the map entry and the files of the data set matter. -/
theorem Waiting.congr {log log' : DeviceLogCSV γ} {rows : List CsvRow}
    (waiting : Waiting format disk log id rows) (logs : log'.logs id = log.logs id)
    (files : log'.currentFiles id = log.currentFiles id) : Waiting format disk log' id rows := by
  cases rows with
  | nil => exact logs.trans waiting
  | cons row rest =>
    obtain ⟨file, here, nextLine, orderId, plain, opened, part, later, split, same, position, listed⟩ :=
      waiting
    refine ⟨file, logs.trans here, nextLine, orderId, plain, opened, part, later, split, same,
      position, ?_⟩
    rwa [files]

theorem Waiting.frame {log log' : DeviceLogCSV γ} {other : Nat} {rows : List CsvRow}
    (waiting : Waiting format disk log other rows) (frame : Frame id log log') (different : other ≠ id) :
    Waiting format disk log' other rows :=
  waiting.congr (frame.logs other different) (frame.currentFiles other different)

/-- After a row has been returned the next one is read. -/
theorem advance_waiting {log : DeviceLogCSV γ} {file : CsvLog γ} {row : CsvRow} {rest : List CsvRow}
    (opens : Opens log) (here : log.logs id = some file)
    (onRow : OnRow format disk log file id row rest) :
    Frame id log (DeviceLogCSV.advance format disk log file) ∧
      Waiting format disk (DeviceLogCSV.advance format disk log file) id rest := by
  obtain ⟨part, later, rfl, same, position, listed⟩ := onRow.left
  have reads : Reads format disk log { file with nextLine := [] } id part later := by
    refine ⟨same, ?_, listed⟩
    cases position with
    | before closed => exact .before closed
    | inside opened columns plain => exact .inside opened columns plain
  obtain ⟨log', file', result, frame, outcome⟩ := nextLineOrFile_reads opens reads
  unfold DeviceLogCSV.advance
  rw [result]
  dsimp only
  rw [same]
  refine ⟨⟨frame.base, fun other different => ?_, frame.currentFiles⟩, ?_⟩
  · dsimp only
    rw [Function.update_of_ne different]
    exact frame.logs other different
  · obtain ⟨none, erased, -⟩ | ⟨row', rest', split, kept, onRow'⟩ := outcome
    · rw [none, erased]
      exact Function.update_self ..
    · rw [split, kept, here]
      obtain ⟨nextLine, orderId, plain, opened, part', later', split', same', position', listed'⟩ := onRow'
      exact ⟨file', Function.update_self .., nextLine, orderId, plain, opened, part', later', split',
        same', position', listed'⟩

theorem initDataSet_waiting {log : DeviceLogCSV γ} {parts : List (List CsvRow)} (opens : Opens log)
    (absent : log.logs id = none)
    (listed : Listed format disk id (DeviceLogCSV.filesOf format disk log id) parts) :
    Frame id log (DeviceLogCSV.initDataSet format disk log id) ∧
      Waiting format disk (DeviceLogCSV.initDataSet format disk log id) id parts.flatten := by
  unfold DeviceLogCSV.initDataSet
  dsimp only
  by_cases none : DeviceLogCSV.filesOf format disk log id = []
  · rw [if_pos none]
    rw [none] at listed
    cases listed
    exact ⟨⟨rfl, fun _ _ => rfl, fun _ _ => rfl⟩, absent⟩
  · rw [if_neg none]
    obtain ⟨file, fresh⟩ : ∃ file : CsvLog γ, file =
        { format.newLog with dataId := id, dataSize := format.dataSize id } := ⟨_, rfl⟩
    obtain ⟨log', prepared⟩ : ∃ log' : DeviceLogCSV γ, log' = { log with
        currentFiles := Function.update log.currentFiles id (DeviceLogCSV.filesOf format disk log id) } :=
      ⟨_, rfl⟩
    have first : Frame id log log' := by
      rw [prepared]
      exact ⟨rfl, fun _ _ => rfl, fun other different => Function.update_of_ne different _ _⟩
    have opens' : Opens log' := by
      rw [prepared]
      exact opens
    have reads : Reads format disk log' file id [] parts := by
      rw [fresh, prepared]
      refine ⟨rfl, .before rfl, ?_⟩
      dsimp only
      rwa [Function.update_self]
    have loop : DeviceLogCSV.nextLineOrFile format disk log' file =
        if (DeviceLogCSV.openNextFile format disk log' file).2.2 then
          DeviceLogCSV.nextLineOrFile format disk (DeviceLogCSV.openNextFile format disk log' file).1
            (DeviceLogCSV.openNextFile format disk log' file).2.1
        else ((DeviceLogCSV.openNextFile format disk log' file).1,
          (DeviceLogCSV.openNextFile format disk log' file).2.1) := by
      have closed : file.pFile = .none := by rw [fresh]; rfl
      rw [DeviceLogCSV.nextLineOrFile, DeviceLogCSV.getNextLineForFile_end log' (.inl closed)]
      dsimp only
      rw [if_neg Bool.false_ne_true]
      split <;> rfl
    obtain ⟨log'', file'', result, frame, outcome⟩ := nextLineOrFile_reads opens' reads
    rw [← fresh, ← prepared, ← loop, result]
    dsimp only
    obtain ⟨all, erased, line⟩ | ⟨row, rest, split, kept, onRow⟩ := outcome
    · have blank : file''.nextLine = [] := by
        rw [line, fresh]
        rfl
      rw [if_neg (not_not.mpr blank)]
      rw [List.nil_append] at all
      rw [all]
      exact ⟨first.trans frame, erased⟩
    · rw [List.nil_append] at split
      have some : file''.nextLine ≠ [] := by
        rw [onRow.nextLine]
        exact onRow.plain.line_ne_nil
      rw [if_pos some, split]
      refine ⟨first.trans ⟨frame.base, fun other different => ?_, frame.currentFiles⟩, file'',
        Function.update_self .., onRow.nextLine, onRow.orderId, onRow.plain, onRow.opened, ?_⟩
      · dsimp only
        rw [Function.update_of_ne different]
        exact frame.logs other different
      · obtain ⟨part, later, rows, same, position, listed'⟩ := onRow.left
        exact ⟨part, later, rows, same, position, listed'⟩

end Waiting

end InertialSense.DataLog
