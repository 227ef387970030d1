import InertialSense.DataLog.ChunkContent

/-! The files of a log that is read: what is still to come, while chunks are read and files are
opened. What a chunk and a file hold is a parameter. -/

namespace InertialSense.DataLog.DeviceLog

open Foundation

section

variable {β : Type*} (chunkHolds fileHolds : List UInt8 → List β → Prop)

/-- A read from the open file brings what the file holds first, and fails only at its end. -/
def ReadsChunks (chunkHeader : Bool) : Prop :=
  ∀ (c : Chunk) (rest : List UInt8) (items : List β), c.Ordered → fileHolds rest items →
    let read := c.readFromFile logFile (some (.reading rest)) chunkHeader
    read.1.Ordered ∧ ∃ rest', read.2.1 = some (.reading rest') ∧
      (0 ≤ read.2.2 ∧
          (∃ held left, chunkHolds read.1.contents held ∧ fileHolds rest' left ∧
            items = held ++ left ∧ held ≠ []) ∨
        ¬0 ≤ read.2.2 ∧ items = [])

/-- What is left in the open file and in the files that are still to open. -/
structure Unread (log : DeviceLog) (here : List β) (later : List (List β)) : Prop where
  ordered : log.chunk.Ordered
  file : match log.pFile with
    | none => here = []
    | some (.reading rest) => fileHolds rest here
    | some (.writing _ _) => False
  files : List.Forall₂ (fun name part => ∃ file, log.disk.lookup name = some file ∧
    fileHolds file part) (log.fileNames.drop log.fileCount) later

variable {chunkHolds fileHolds} {log : DeviceLog} {here : List β} {later : List (List β)}

theorem closeISLogFile_reading {rest : List UInt8} (reading : log.pFile = some (.reading rest)) :
    log.closeISLogFile = { log with pFile := none } := by
  unfold closeISLogFile
  rw [reading]

theorem closeISLogFile_none (unopened : log.pFile = none) : log.closeISLogFile = log := by
  cases log
  subst unopened
  rfl

theorem Unread.openNextReadFile (unread : log.Unread fileHolds [] later)
    (unopened : log.pFile = none) :
    log.openNextReadFile = (log, false) ∧ later = [] ∨
      ∃ part others, later = part :: others ∧ log.openNextReadFile.2 = true ∧
        log.openNextReadFile.1.Unread fileHolds part others := by
  have files := unread.files
  unfold DeviceLog.openNextReadFile
  rw [closeISLogFile_none unopened]
  dsimp only
  split
  case h_1 missing =>
    rw [List.drop_eq_nil_of_le (List.getElem?_eq_none_iff.mp missing)] at files
    cases files
    exact .inl ⟨rfl, rfl⟩
  case h_2 fileName found =>
    obtain ⟨inside, named⟩ := List.getElem?_eq_some_iff.mp found
    rw [List.drop_eq_getElem_cons inside, named] at files
    cases files with
    | cons opened others =>
      obtain ⟨file, stored, holds⟩ := opened
      refine .inr ⟨_, _, rfl, rfl, unread.ordered, ?_, others⟩
      show fileHolds ((log.disk.lookup fileName).getD []) _
      rw [stored]
      exact holds

theorem openNextReadFile_close (log : DeviceLog) :
    log.closeISLogFile.openNextReadFile = log.openNextReadFile := by
  have closed : log.closeISLogFile.pFile = none := by
    unfold closeISLogFile
    split <;> rfl
  unfold DeviceLog.openNextReadFile
  rw [closeISLogFile_none closed]

/-- A chunk from the open file, or the open file is at its end. -/
theorem Unread.readChunk {format : LogFormat}
    (reads : ReadsChunks chunkHolds fileHolds format.chunkHeader)
    (unread : log.Unread fileHolds here later) :
    (0 ≤ (log.readChunk format).2 ∧ ∃ held left,
        chunkHolds (log.readChunk format).1.chunk.contents held ∧
          (log.readChunk format).1.Unread fileHolds left later ∧ here = held ++ left ∧
            held ≠ []) ∨
      ¬0 ≤ (log.readChunk format).2 ∧ here = [] ∧
        (log.readChunk format).1.closeISLogFile.Unread fileHolds [] later ∧
          (log.readChunk format).1.closeISLogFile.pFile = none := by
  have file := unread.file
  split at file
  case h_1 unopened =>
    have fails : log.readChunk format = (log, -1) := by
      unfold DeviceLog.readChunk Chunk.readFromFile
      rw [unopened]
      cases log
      subst unopened
      rfl
    rw [fails, closeISLogFile_none unopened]
    subst file
    exact .inr ⟨(Int.negSucc_not_nonneg 0).mp, rfl, unread, unopened⟩
  case h_3 => exact file.elim
  case h_2 rest reading =>
    obtain ⟨ordered, rest', left, outcome⟩ := reads log.chunk rest here unread.ordered file
    rw [← reading] at ordered left outcome
    have reading' : (log.readChunk format).1.pFile = some (.reading rest') := left
    obtain ⟨good, held, items, contents, remaining, rfl, some⟩ | ⟨bad, rfl⟩ := outcome
    · refine .inl ⟨good, held, items, contents, ⟨ordered, ?_, unread.files⟩, rfl, some⟩
      rw [reading']
      exact remaining
    · rw [closeISLogFile_reading reading']
      exact .inr ⟨bad, rfl, ⟨ordered, rfl, unread.files⟩, rfl⟩

/-- The next chunk, from whichever file it is in; there is none only if nothing is left. -/
theorem Unread.readChunkFromFile {format : LogFormat}
    (reads : ReadsChunks chunkHolds fileHolds format.chunkHeader)
    (unread : log.Unread fileHolds here later) :
    ((log.readChunkFromFile format).2 = true ∧ ∃ held here' later',
        chunkHolds (log.readChunkFromFile format).1.chunk.contents held ∧
          (log.readChunkFromFile format).1.Unread fileHolds here' later' ∧
            held ++ (here' ++ later'.flatten) = here ++ later.flatten ∧ held ≠ []) ∨
      (log.readChunkFromFile format).2 = false ∧ here ++ later.flatten = [] := by
  induction files : log.filesLeft using Nat.strong_induction_on generalizing log here later with
  | h count ih =>
    subst files
    rw [DeviceLog.readChunkFromFile]
    obtain ⟨good, held, left, contents, remaining, rfl, some⟩ | ⟨bad, rfl, closed, unopened⟩ :=
      unread.readChunk reads
    · rw [if_pos good]
      exact .inl ⟨rfl, held, left, later, contents, remaining, (List.append_assoc ..).symm, some⟩
    · rw [if_neg bad]
      obtain ⟨stops, rfl⟩ | ⟨part, others, rfl, opens, next⟩ := closed.openNextReadFile unopened
      · rw [openNextReadFile_close] at stops
        rw [dif_neg (by rw [stops]; exact Bool.false_ne_true)]
        exact .inr ⟨rfl, rfl⟩
      · rw [openNextReadFile_close] at opens next
        rw [dif_pos opens]
        have less : (log.readChunk format).1.openNextReadFile.1.filesLeft < log.filesLeft :=
          openNextReadFile_filesLeft opens
        have rest := ih _ less next rfl
        rwa [← List.flatten_cons] at rest

end

end InertialSense.DataLog.DeviceLog
