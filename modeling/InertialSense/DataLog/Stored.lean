import InertialSense.DataLog.ChunkContent

/-! The files of a log that is written: which blocks are in them, in which order, while chunks
fill up and files are closed and begun. -/

namespace InertialSense.DataLog

open Foundation

theorem lookup_of_mem {κ υ : Type*} [BEq κ] [LawfulBEq κ] {table : List (κ × υ)}
    (distinct : (table.map Prod.fst).Nodup) {entry : κ × υ} (member : entry ∈ table) :
    table.lookup entry.1 = some entry.2 := by
  induction table with
  | nil => cases member
  | cons first rest ih =>
    obtain ⟨fresh, distinct⟩ := List.nodup_cons.mp distinct
    obtain rfl | later := List.mem_cons.mp member
    · exact List.lookup_cons_self
    · have other : (entry.1 == first.1) = false := by
        rw [beq_eq_false_iff_ne]
        intro same
        exact fresh (same ▸ List.mem_map_of_mem later)
      rw [List.lookup_cons, other]
      exact ih distinct later

theorem forall₂_of_mem {α β : Type*} {related related' : α → β → Prop} {first : List α}
    {second : List β} (all : List.Forall₂ related first second)
    (implies : ∀ a b, a ∈ first → related a b → related' a b) :
    List.Forall₂ related' first second := by
  induction all with
  | nil => exact .nil
  | cons holds rest ih =>
    refine .cons (implies _ _ (List.mem_cons_self ..) holds) (ih fun a b member => ?_)
    exact implies a b (List.mem_cons_of_mem _ member)

/-- Chunks one behind the other, each of whole blocks. -/
inductive FileHolds (chunkHeader : Bool) : List UInt8 → List (List UInt8) → Prop where
  | nil : FileHolds chunkHeader [] []
  | chunk {hdr : ChunkHeader} {blocks more : List (List UInt8)} {file : List UInt8}
      (announced : hdr.Announces blocks.flatten) (some : blocks ≠ [])
      (short : blocks.flatten.length ≤ defaultChunkDataSize)
      (rest : FileHolds chunkHeader file more) :
      FileHolds chunkHeader ((if chunkHeader then hdr.bytes else []) ++ (blocks.flatten ++ file))
        (blocks ++ more)

namespace FileHolds

variable {chunkHeader : Bool} {first second : List UInt8} {blocks more : List (List UInt8)}

theorem append (before : FileHolds chunkHeader first blocks)
    (behind : FileHolds chunkHeader second more) :
    FileHolds chunkHeader (first ++ second) (blocks ++ more) := by
  induction before with
  | nil => exact behind
  | chunk announced some short rest ih =>
    rw [List.append_assoc, List.append_assoc, List.append_assoc]
    exact chunk announced some short ih

theorem plain (holds : FileHolds false first blocks) : first = blocks.flatten := by
  induction holds with
  | nil => rfl
  | chunk announced some short rest ih =>
    rw [List.flatten_append, ← ih]
    rfl

end FileHolds

namespace DeviceLog

variable {format : LogFormat} {log : DeviceLog}

def fileName (format : LogFormat) (log : DeviceLog) (count : Nat) : List Char :=
  log.getNewFileName format log.serNum count []

theorem fileName_lt (format : LogFormat) (log : DeviceLog) {low high : Nat} (less : low < high)
    (fewer : high < 10000) : log.fileName format low < log.fileName format high := by
  have numbers : padded 4 10 (low % 10000) < padded 4 10 (high % 10000) := by
    rw [Nat.mod_eq_of_lt fewer, Nat.mod_eq_of_lt (less.trans fewer)]
    exact padded_lt (by decide) (by decide) (by decide) less fewer
  have length (count : Nat) : (padded 4 10 (count % 10000)).length = 4 :=
    padded_length (by decide) (by decide) (Nat.mod_lt count (by decide))
  unfold fileName getNewFileName
  simp only [if_true, List.append_assoc, List.cons_append, List.nil_append]
  refine List.append_left_lt (List.cons_lt_cons_iff.mpr (.inr ⟨rfl, ?_⟩))
  refine List.append_left_lt (List.append_left_lt (List.cons_lt_cons_iff.mpr (.inr ⟨rfl, ?_⟩)))
  refine List.append_left_lt (List.cons_lt_cons_iff.mpr (.inr ⟨rfl, ?_⟩))
  exact append_lt_append numbers ((length low).trans (length high).symm) _ _

/-- The file being written is the next one behind the closed ones. -/
def Current (format : LogFormat) (log : DeviceLog) (closed : Nat) (blocks : List (List UInt8)) :
    Prop :=
  match log.pFile with
  | none => blocks = [] ∧ log.fileCount = closed
  | some (.writing name contents) =>
    name = log.fileName format (closed + 1) ∧ log.fileCount = closed + 1 ∧
      FileHolds format.chunkHeader contents blocks
  | some (.reading _) => False

/-- A log in write mode: the blocks in each closed file, those in the open one and those that
still wait in the chunk. -/
structure Saved (format : LogFormat) (log : DeviceLog) (closed : List (List (List UInt8)))
    (current pending : List (List UInt8)) : Prop where
  serial : log.serNum ≠ 0
  directory : log.directory ≠ []
  writeMode : log.writeMode = true
  kept : log.chunk.Kept
  marker : log.chunk.hdr.marker = dataChunkMarker
  head : log.chunk.dataHead = 0
  contents : log.chunk.contents = pending.flatten
  nonempty : ∀ block ∈ pending, block ≠ []
  names : log.disk.map Prod.fst =
    (List.range closed.length).map fun k => log.fileName format (k + 1)
  files : List.Forall₂ (FileHolds format.chunkHeader) (log.disk.map Prod.snd) closed
  file : log.Current format closed.length current

variable {closed : List (List (List UInt8))} {current pending : List (List UInt8)}

theorem openNewSaveFile_eq (unopened : log.pFile = none) (directory : log.directory ≠ [])
    (serial : log.serNum ≠ 0) :
    (log.openNewSaveFile format).1 =
      { log with
        fileCount := log.fileCount + 1
        pFile := some (.writing (log.fileName format (log.fileCount + 1)) [])
        fileSize := 0 } := by
  have closes : log.closeISLogFile = log := by
    cases log
    subst unopened
    rfl
  unfold openNewSaveFile
  rw [closes, if_neg directory]
  exact congrArg Prod.fst (if_neg serial)

/-- A new file holds nothing yet. -/
theorem Saved.ensureSaveFile (saved : log.Saved format closed current pending) :
    (log.ensureSaveFile format).Saved format closed current pending ∧
      (log.ensureSaveFile format).pFile.isNone = false := by
  have file := saved.file
  unfold Current at file
  unfold DeviceLog.ensureSaveFile
  cases opened : log.pFile with
  | some openFile =>
    rw [Option.isNone_some, if_neg Bool.false_ne_true, opened]
    exact ⟨saved, rfl⟩
  | none =>
    rw [opened] at file
    obtain ⟨rfl, count⟩ := file
    rw [Option.isNone_none, if_pos rfl, openNewSaveFile_eq opened saved.directory saved.serial]
    refine ⟨⟨saved.serial, saved.directory, saved.writeMode, saved.kept, saved.marker,
      saved.head, saved.contents, saved.nonempty, saved.names, saved.files, ?_⟩, rfl⟩
    show _ = _ ∧ log.fileCount + 1 = closed.length + 1 ∧ FileHolds format.chunkHeader [] []
    rw [count]
    exact ⟨rfl, rfl, .nil⟩

theorem Saved.writeChunk (saved : log.Saved format closed current pending)
    (opened : log.pFile.isNone = false) (some : pending ≠ []) :
    (log.writeChunk format).Saved format closed (current ++ pending) [] := by
  have file := saved.file
  unfold Current at file
  split at file
  case h_1 unopened =>
    rw [unopened] at opened
    cases opened
  case h_3 => exact file.elim
  case h_2 name contents writing =>
    obtain ⟨rfl, count, holds⟩ := file
    obtain ⟨hdr, announced, file, chunk⟩ :=
      saved.kept.writeToFile_contents saved.marker (log.fileName format (closed.length + 1))
        contents format.chunkHeader
    rw [← writing] at file chunk
    have kept : (log.writeChunk format).chunk.Kept := saved.kept.writeToFile ..
    have emptied : (log.writeChunk format).chunk = (log.chunk.setGrpNum (uint32 0)).clear := chunk
    refine ⟨saved.serial, saved.directory, saved.writeMode, kept, ?_, ?_, ?_, ?_, saved.names,
      saved.files, ?_⟩
    · rw [emptied]
      exact saved.marker
    · rw [emptied]
      rfl
    · rw [emptied]
      rfl
    · exact fun block member => absurd member List.not_mem_nil
    · have written : (log.writeChunk format).pFile = Option.some (.writing _ _) := file
      unfold Current
      rw [written]
      refine ⟨rfl, count, holds.append ?_⟩
      rw [saved.contents] at announced ⊢
      have short := saved.kept.contents_le
      rw [saved.contents] at short
      have added : FileHolds format.chunkHeader _ _ := .chunk announced some short .nil
      rwa [List.append_nil, List.append_nil] at added

/-- A chunk with blocks goes into the open file, or into a new one. -/
theorem Saved.writeChunkToFile (saved : log.Saved format closed current pending)
    (some : pending ≠ []) :
    (log.writeChunkToFile format).1.Saved format closed (current ++ pending) [] ∧
      (log.writeChunkToFile format).2 = true := by
  have data : ¬log.chunk.getDataSize = 0 := by
    rw [saved.kept.getDataSize_eq, saved.contents]
    obtain ⟨block, member⟩ := List.exists_mem_of_ne_nil _ some
    intro none
    have empty := List.length_eq_zero_iff.mp (Int.natCast_eq_zero.mp none)
    exact saved.nonempty block member (List.flatten_eq_nil_iff.mp empty block member)
  obtain ⟨ensured, opened⟩ := saved.ensureSaveFile
  have written := ensured.writeChunk opened some
  unfold DeviceLog.writeChunkToFile
  rw [if_neg data, opened, if_neg Bool.false_ne_true]
  exact ⟨written, rfl⟩

/-- Without blocks nothing is written. -/
theorem Saved.writeChunkToFile_nil (saved : log.Saved format closed current []) :
    log.writeChunkToFile format = (log, false) := by
  have none : log.chunk.getDataSize = 0 := by
    rw [saved.kept.getDataSize_eq, saved.contents]
    rfl
  unfold DeviceLog.writeChunkToFile
  rw [if_pos none]

/-- Without blocks the whole buffer is free. -/
theorem Saved.room (saved : log.Saved format closed current []) :
    log.chunk.buffTail - log.chunk.dataTail = defaultChunkDataSize := by
  have length := saved.kept.contents_length
  have empty : log.chunk.contents.length = 0 := congrArg List.length saved.contents
  have head := saved.head
  have capacity := saved.kept.capacity
  omega

/-- Everything that waits goes into the file. -/
theorem Saved.flush (saved : log.Saved format closed current pending) :
    (log.writeChunkToFile format).1.Saved format closed (current ++ pending) [] := by
  obtain rfl | some := eq_or_ne pending []
  · rw [saved.writeChunkToFile_nil, List.append_nil]
    exact saved
  · exact (saved.writeChunkToFile some).1

/-- Closing moves the blocks of the open file to a closed one. -/
theorem Saved.closeISLogFile (saved : log.Saved format closed current pending)
    (fewer : log.fileCount < 10000) :
    ∃ closed', log.closeISLogFile.Saved format closed' [] pending ∧
      closed'.flatten = closed.flatten ++ current ∧ log.closeISLogFile.pFile = none := by
  have file := saved.file
  unfold Current at file
  split at file
  case h_3 => exact file.elim
  case h_1 unopened =>
    obtain ⟨rfl, count⟩ := file
    have closes : log.closeISLogFile = log := by
      cases log
      subst unopened
      rfl
    rw [closes, List.append_nil]
    exact ⟨closed, saved, rfl, unopened⟩
  case h_2 name contents writing =>
    obtain ⟨rfl, count, holds⟩ := file
    have others : log.disk.filter (fun file => file.1 ≠ log.fileName format (closed.length + 1)) =
        log.disk := by
      refine List.filter_eq_self.mpr fun file member => decide_eq_true ?_
      have named : file.1 ∈ log.disk.map Prod.fst := List.mem_map_of_mem member
      rw [saved.names] at named
      obtain ⟨k, inside, name⟩ := List.mem_map.mp named
      have earlier := List.mem_range.mp inside
      have less : log.fileName format (k + 1) < log.fileName format (closed.length + 1) :=
        log.fileName_lt format (by omega) (by omega)
      intro same
      rw [name, same] at less
      exact List.lt_irrefl _ less
    have closes : log.closeISLogFile =
        { log with
          disk := log.disk ++ [(log.fileName format (closed.length + 1), contents)]
          pFile := none } := by
      unfold DeviceLog.closeISLogFile
      rw [writing]
      dsimp only
      rw [others]
    rw [closes]
    refine ⟨closed ++ [current], ⟨saved.serial, saved.directory, saved.writeMode, saved.kept,
      saved.marker, saved.head, saved.contents, saved.nonempty, ?_, ?_, ?_⟩, ?_, rfl⟩
    · rw [List.map_append, saved.names, List.length_append, List.length_singleton, List.range_succ,
        List.map_append]
      rfl
    · rw [List.map_append]
      exact List.rel_append saved.files (.cons holds .nil)
    · refine ⟨rfl, count.trans ?_⟩
      rw [List.length_append, List.length_singleton]
    · rw [List.flatten_append, List.flatten_singleton]

theorem closeISLogFile_fileCount (log : DeviceLog) :
    log.closeISLogFile.fileCount = log.fileCount := by
  unfold DeviceLog.closeISLogFile
  split <;> rfl

theorem writeChunkToFile_fileCount (format : LogFormat) (log : DeviceLog) :
    log.fileCount ≤ (log.writeChunkToFile format).1.fileCount := by
  have opens : log.fileCount ≤ (log.openNewSaveFile format).1.fileCount := by
    have same := closeISLogFile_fileCount log
    unfold DeviceLog.openNewSaveFile
    dsimp only
    split
    · exact same.ge
    · split <;> exact same.ge.trans (Nat.le_succ _)
  have ensures : log.fileCount ≤ (log.ensureSaveFile format).fileCount := by
    unfold DeviceLog.ensureSaveFile
    split
    · exact opens
    · exact Nat.le_refl _
  unfold DeviceLog.writeChunkToFile
  split
  · exact Nat.le_refl _
  · split <;> exact ensures

theorem closeAllFiles_fileCount (format : LogFormat) (log : DeviceLog) :
    (log.closeAllFiles format).fileCount = (log.flushToFile format).1.fileCount :=
  closeISLogFile_fileCount _

theorem Saved.closeAllFiles (saved : log.Saved format closed current pending)
    (fewer : (log.closeAllFiles format).fileCount < 10000) :
    ∃ closed', (log.closeAllFiles format).Saved format closed' [] [] ∧
      closed'.flatten = closed.flatten ++ (current ++ pending) ∧
      (log.closeAllFiles format).pFile = none := by
  have flushes : (log.flushToFile format).1 = (log.writeChunkToFile format).1 := by
    unfold DeviceLog.flushToFile
    rw [if_pos saved.writeMode]
  rw [closeAllFiles_fileCount, flushes] at fewer
  have written := saved.flush
  rw [← flushes] at fewer written
  exact written.closeISLogFile fewer

/-- The log holds these blocks, in files or in its chunk. -/
def Holds (format : LogFormat) (log : DeviceLog) (blocks : List (List UInt8)) : Prop :=
  ∃ closed current pending, log.Saved format closed current pending ∧
    closed.flatten ++ (current ++ pending) = blocks

theorem Holds.flush {blocks : List (List UInt8)} (holds : log.Holds format blocks) :
    (log.flush format).Holds format blocks := by
  obtain ⟨closed, current, pending, saved, all⟩ := holds
  refine ⟨closed, current ++ pending, [], saved.flush, ?_⟩
  rw [List.append_nil]
  exact all

theorem Holds.flushToFile {blocks : List (List UInt8)} (holds : log.Holds format blocks) :
    (log.flushToFile format).1.Holds format blocks := by
  unfold DeviceLog.flushToFile
  split
  · exact holds.flush
  · exact holds

private theorem Saved.withChunk (saved : log.Saved format closed current pending) {chunk : Chunk}
    (kept : chunk.Kept) (marker : chunk.hdr.marker = log.chunk.hdr.marker)
    (head : chunk.dataHead = log.chunk.dataHead) {blocks : List (List UInt8)}
    (contents : chunk.contents = log.chunk.contents ++ blocks.flatten)
    (nonempty : ∀ block ∈ blocks, block ≠ []) :
    { log with chunk }.Saved format closed current (pending ++ blocks) := by
  refine ⟨saved.serial, saved.directory, saved.writeMode, kept, marker.trans saved.marker,
    head.trans saved.head, ?_, ?_, saved.names, saved.files, saved.file⟩
  · rw [contents, saved.contents, List.flatten_append]
  · intro block member
    obtain earlier | new := List.mem_append.mp member
    · exact saved.nonempty block earlier
    · exact nonempty block new

theorem Saved.pushBack (saved : log.Saved format closed current pending) {d1 d2 : List UInt8}
    (fits : (d1.length + d2.length : Int) ≤ log.chunk.buffTail - log.chunk.dataTail)
    {blocks : List (List UInt8)} (added : d1 ++ d2 = blocks.flatten)
    (nonempty : ∀ block ∈ blocks, block ≠ []) :
    { log with
      chunk := (log.chunk.pushBack (fun k => d1.getD k 0) d1.length (fun k => d2.getD k 0)
        d2.length).1 }.Saved format closed current (pending ++ blocks) := by
  obtain ⟨contents, -⟩ := saved.kept.pushBack_contents d1 d2 fits
  have capacity : log.chunk.buffTail = 131072 := saved.kept.capacity
  have start := saved.kept.toOrdered.head.trans saved.kept.toOrdered.order
  have bounded : (d1.length + d2.length : Int) < 2 ^ 31 := by omega
  have kept := saved.kept.pushBack (fun k => d1.getD k 0) (fun k => d2.getD k 0)
    ⟨Int.natCast_nonneg d1.length, Int.natCast_nonneg d2.length, bounded⟩
  obtain ⟨marker, head⟩ := log.chunk.pushBack_frame (fun k => d1.getD k 0) d1.length
    (fun k => d2.getD k 0) d2.length
  rw [added] at contents
  exact saved.withChunk kept marker head contents nonempty

theorem flushToFile_fileCount (format : LogFormat) (log : DeviceLog) :
    log.fileCount ≤ (log.flushToFile format).1.fileCount := by
  unfold DeviceLog.flushToFile
  split
  · exact log.writeChunkToFile_fileCount format
  · exact Nat.le_refl _

theorem ensureRoom_fileCount (format : LogFormat) (log : DeviceLog) (dataBytes : Int) :
    log.fileCount ≤ (log.ensureRoom format dataBytes).1.fileCount := by
  have writes := log.writeChunkToFile_fileCount format
  unfold DeviceLog.ensureRoom
  dsimp only
  split
  · split
    · rw [closeAllFiles_fileCount]
      exact writes.trans (flushToFile_fileCount format _)
    · exact writes
  · exact Nat.le_refl _

/-- Once there is room, the chunk is all that `SaveData` changes. -/
theorem saveBlocks_chunk (format : LogFormat) (log : DeviceLog) (d1 d2 : List UInt8) :
    ∃ chunk, (log.saveBlocks format d1 d2).1 =
      { (log.ensureRoom format (d1.length + d2.length)).1 with chunk } := by
  unfold DeviceLog.saveBlocks
  dsimp only
  generalize log.ensureRoom format (d1.length + d2.length) = room
  split
  · exact ⟨_, rfl⟩
  · exact ⟨room.1.chunk, rfl⟩

theorem saveBlocks_fileCount (format : LogFormat) (log : DeviceLog) (d1 d2 : List UInt8) :
    (log.saveBlocks format d1 d2).1.fileCount =
      (log.ensureRoom format (d1.length + d2.length)).1.fileCount := by
  obtain ⟨chunk, same⟩ := saveBlocks_chunk format log d1 d2
  rw [same]

theorem closeISLogFile_device (log : DeviceLog) : log.closeISLogFile.device = log.device := by
  unfold DeviceLog.closeISLogFile
  split <;> rfl

theorem writeChunkToFile_device (format : LogFormat) (log : DeviceLog) :
    (log.writeChunkToFile format).1.device = log.device := by
  have opens : (log.openNewSaveFile format).1.device = log.device := by
    have same := closeISLogFile_device log
    unfold DeviceLog.openNewSaveFile
    dsimp only
    split
    · exact same
    · split <;> exact same
  have ensures : (log.ensureSaveFile format).device = log.device := by
    unfold DeviceLog.ensureSaveFile
    split
    · exact opens
    · rfl
  unfold DeviceLog.writeChunkToFile
  split
  · rfl
  · split <;> exact ensures

theorem flushToFile_device (format : LogFormat) (log : DeviceLog) :
    (log.flushToFile format).1.device = log.device := by
  unfold DeviceLog.flushToFile
  split
  · exact log.writeChunkToFile_device format
  · rfl

theorem saveBlocks_device (format : LogFormat) (log : DeviceLog) (d1 d2 : List UInt8) :
    (log.saveBlocks format d1 d2).1.device = log.device := by
  have room (dataBytes : Int) : (log.ensureRoom format dataBytes).1.device = log.device := by
    have writes := log.writeChunkToFile_device format
    unfold DeviceLog.ensureRoom
    dsimp only
    split
    · split
      · exact (closeISLogFile_device _).trans ((flushToFile_device format _).trans writes)
      · exact writes
    · rfl
  obtain ⟨chunk, same⟩ := saveBlocks_chunk format log d1 d2
  rw [same]
  exact room _

/-- A block of at most the buffer's size fits once the chunk is written. -/
theorem Holds.ensureRoom {blocks : List (List UInt8)} (holds : log.Holds format blocks)
    {dataBytes : Int} (short : dataBytes ≤ defaultChunkDataSize)
    (fewer : (log.ensureRoom format dataBytes).1.fileCount < 10000) :
    (log.ensureRoom format dataBytes).1.Holds format blocks ∧
      (log.ensureRoom format dataBytes).2 = true ∧
      dataBytes ≤ (log.ensureRoom format dataBytes).1.chunk.buffTail -
        (log.ensureRoom format dataBytes).1.chunk.dataTail := by
  obtain ⟨closed, current, pending, saved, all⟩ := holds
  have free := saved.kept.getBuffFree
  unfold DeviceLog.ensureRoom at fewer ⊢
  by_cases full : dataBytes > log.chunk.getBuffFree
  · have some : pending ≠ [] := by
      rintro rfl
      have room := saved.room
      omega
    obtain ⟨written, wrote⟩ := saved.writeChunkToFile some
    rw [if_pos full] at fewer ⊢
    dsimp only at fewer ⊢
    split at fewer
    case isTrue large =>
      obtain ⟨closed', shut, all', -⟩ := written.closeAllFiles fewer
      rw [if_pos large]
      refine ⟨⟨closed', [], [], shut, ?_⟩, rfl, short.trans shut.room.ge⟩
      rw [List.append_nil, List.append_nil, all', List.append_nil, all]
    case isFalse small =>
      rw [if_neg small]
      refine ⟨⟨closed, current ++ pending, [], written, ?_⟩, wrote, short.trans written.room.ge⟩
      rw [List.append_nil, all]
  · rw [if_neg full]
    refine ⟨⟨closed, current, pending, saved, all⟩, rfl, ?_⟩
    show dataBytes ≤ log.chunk.buffTail - log.chunk.dataTail
    omega

/-- `SaveData` adds one block behind all others, whatever it has to write or to close for it. -/
theorem Holds.saveBlocks {blocks : List (List UInt8)} (holds : log.Holds format blocks)
    {d1 d2 : List UInt8} (block : d1 ++ d2 ≠ [])
    (short : d1.length + d2.length ≤ defaultChunkDataSize)
    (fewer : (log.saveBlocks format d1 d2).1.fileCount < 10000) :
    (log.saveBlocks format d1 d2).1.Holds format (blocks ++ [d1 ++ d2]) := by
  rw [saveBlocks_fileCount] at fewer
  obtain ⟨⟨closed, current, pending, saved, all⟩, room, fits⟩ :=
    holds.ensureRoom (by omega) fewer
  have pushed := saved.pushBack fits (List.flatten_singleton ..).symm
    (List.forall_mem_singleton.mpr block)
  unfold DeviceLog.saveBlocks
  dsimp only
  rw [if_pos room]
  refine ⟨closed, current, pending ++ [d1 ++ d2], pushed, ?_⟩
  rw [← all, ← List.append_assoc, ← List.append_assoc, ← List.append_assoc]

theorem Holds.saveBlocks_nil {blocks : List (List UInt8)} (holds : log.Holds format blocks)
    (fewer : (log.saveBlocks format [] []).1.fileCount < 10000) :
    (log.saveBlocks format [] []).1.Holds format blocks := by
  rw [saveBlocks_fileCount] at fewer
  have short : (([] : List UInt8).length + ([] : List UInt8).length : Int) ≤
      defaultChunkDataSize := Int.natCast_nonneg _
  obtain ⟨⟨closed, current, pending, saved, all⟩, room, fits⟩ := holds.ensureRoom short fewer
  have pushed := saved.pushBack fits List.flatten_nil.symm
    (List.forall_mem_nil _)
  rw [List.append_nil] at pushed
  unfold DeviceLog.saveBlocks
  dsimp only
  rw [if_pos room]
  exact ⟨closed, current, pending, pushed, all⟩

/-- A change of the device leaves the files and their names if the serial number stays. -/
theorem Holds.setDevice {blocks : List (List UInt8)} (holds : log.Holds format blocks)
    {device : Option Device} (devSerialNum : UInt32)
    (serial : { log with device }.serNum = log.serNum) :
    { log with
      device
      chunk := log.chunk.setDevSerialNum devSerialNum }.Holds format blocks := by
  obtain ⟨closed, current, pending, saved, all⟩ := holds
  have kept : (log.chunk.setDevSerialNum devSerialNum).Kept :=
    ⟨saved.kept.toOrdered.withHdr _, saved.kept.dataSize, saved.kept.invDataSize⟩
  have named (count : Nat) :
      { log with device, chunk := log.chunk.setDevSerialNum devSerialNum }.fileName format count =
        log.fileName format count :=
    congrArg (log.getNewFileName format · count []) serial
  refine ⟨closed, current, pending, ⟨?_, saved.directory, saved.writeMode, kept, saved.marker,
    saved.head, saved.contents, saved.nonempty, ?_, saved.files, ?_⟩, all⟩
  · show { log with device }.serNum ≠ 0
    exact serial ▸ saved.serial
  · simp only [named]
    exact saved.names
  · have file := saved.file
    unfold Current at file ⊢
    simp only [named]
    exact file

/-- A log after `InitDeviceForWriting`, in an empty directory. -/
theorem holds_nil (directory : log.directory ≠ []) (serial : log.serNum ≠ 0)
    (writeMode : log.writeMode = true) (kept : log.chunk.Kept)
    (marker : log.chunk.hdr.marker = dataChunkMarker) (head : log.chunk.dataHead = 0)
    (contents : log.chunk.contents = []) (disk : log.disk = []) (unopened : log.pFile = none)
    (count : log.fileCount = 0) : log.Holds format [] := by
  refine ⟨[], [], [], ⟨serial, directory, writeMode, kept, marker, head, contents, ?_, ?_, ?_, ?_⟩,
    rfl⟩
  · exact fun block member => absurd member List.not_mem_nil
  · rw [disk]
    rfl
  · rw [disk]
    exact .nil
  · unfold Current
    rw [unopened]
    exact ⟨rfl, count⟩

theorem Holds.closeAllFiles {blocks : List (List UInt8)} (holds : log.Holds format blocks)
    (fewer : (log.closeAllFiles format).fileCount < 10000) :
    ∃ parts, parts.flatten = blocks ∧
      List.Forall₂ (fun name part => ∃ file,
        (log.closeAllFiles format).disk.lookup name = some file ∧
          FileHolds format.chunkHeader file part) (log.closeAllFiles format).listing parts := by
  obtain ⟨closed, current, pending, saved, all⟩ := holds
  obtain ⟨parts, shut, all', unopened⟩ := saved.closeAllFiles fewer
  refine ⟨parts, all'.trans all, ?_⟩
  have count : (log.closeAllFiles format).fileCount = parts.length := by
    have file := shut.file
    unfold Current at file
    rw [unopened] at file
    exact file.2
  generalize log.closeAllFiles format = log at *
  have sorted : (log.disk.map Prod.fst).Pairwise (· < ·) := by
    rw [shut.names, List.pairwise_map]
    refine List.pairwise_lt_range.imp_of_mem fun _ inside less => ?_
    have bound := List.mem_range.mp inside
    exact log.fileName_lt format (Nat.succ_lt_succ less) (by omega)
  have listed : log.listing = log.disk.map Prod.fst :=
    (sorted.imp le_of_lt).insertionSort_eq
  have distinct : (log.disk.map Prod.fst).Nodup := by
    refine sorted.imp fun less same => ?_
    rw [same] at less
    exact List.lt_irrefl _ less
  rw [listed, List.forall₂_map_left_iff]
  have files := List.forall₂_map_left_iff.mp shut.files
  exact forall₂_of_mem files fun entry part member holds =>
    ⟨entry.2, lookup_of_mem distinct member, holds⟩

end DeviceLog

end InertialSense.DataLog
