import InertialSense.DataLog.ChunkInvariant
import InertialSense.DataLog.Serial

/-! What a read from a file may do to a chunk: how much `ReadFromFile` asks for, and which
records `ReadData` finds in what it gets. The file may hold anything. -/

namespace InertialSense.DataLog

open Foundation

namespace Chunk

variable {φ : Type*} {files : LogFile φ} {c : Chunk}

/-- A file that also keeps how much it was asked for. -/
def recording (files : LogFile φ) : LogFile (φ × List Nat) :=
  { write := fun file bytes =>
      let wrote := files.write file.1 bytes
      ((wrote.1, file.2), wrote.2)
    read := fun file len =>
      let read := files.read file.1 len
      ((read.1, file.2 ++ [len]), read.2)
    read_length := fun file len => files.read_length file.1 len }

/-- How much `ReadFromFile` asks the file to put at `m_buffHead`. With a header, what it asks
for first goes into `m_hdr`. -/
def buffRequests (files : LogFile φ) (c : Chunk) (file : φ) (readHeader : Bool) : List Nat :=
  let read := c.readFromFile (recording files) (some (file, [])) readHeader
  ((read.2.1.map Prod.snd).getD []).drop (if readHeader then 1 else 0)

/-- `ReadFromFile` asks for no more than the buffer holds and leaves `m_dataTail` in it. -/
def StaysInside (files : LogFile φ) (c : Chunk) (file : φ) (readHeader : Bool) : Prop :=
  (∀ len ∈ c.buffRequests files file readHeader, len ≤ defaultChunkDataSize) ∧
    (c.readFromFile files (some file) readHeader).1.dataTail ≤
      (c.readFromFile files (some file) readHeader).1.buffTail

theorem buffRequests_withoutHeader (capacity : c.buffTail = defaultChunkDataSize) (file : φ) :
    c.buffRequests files file false = [defaultChunkDataSize] :=
  congrArg (· :: []) ((clear_kept capacity).toOrdered.asked_whole rfl)

/-- Behind a header that is not taken, nothing is asked for. -/
theorem buffRequests_refused {file : φ} (refused : c.Refuses files file) :
    c.buffRequests files file true = [] := by
  have same := @readFromFile_refused _ (recording files) c (file, []) refused
  unfold buffRequests
  rw [same]
  rfl

theorem buffRequests_taken {file : φ} (taken : ¬c.Refuses files file) :
    c.buffRequests files file true = [(c.headerFrom files file).dataSize.toNat] := by
  have same := (@readFromFile_taken _ (recording files) c (file, []) taken).1
  unfold buffRequests
  dsimp only
  rw [same]
  rfl

theorem staysInside_iff (capacity : c.buffTail = defaultChunkDataSize) (file : φ)
    (readHeader : Bool) :
    c.StaysInside files file readHeader ↔ c.Announced files file readHeader := by
  refine ⟨fun ⟨requests, _⟩ header => ?_, fun announced =>
    ⟨?_, (readFromFile_ordered capacity announced).tail⟩⟩
  · subst header
    by_cases refused : c.Refuses files file
    · exact refused.symm.imp List.length_eq_zero_iff.mp .inl
    · rw [buffRequests_taken refused, List.forall_mem_singleton] at requests
      exact .inr (.inr requests)
  · cases readHeader with
    | false =>
      rw [buffRequests_withoutHeader capacity]
      exact fun len member => (List.mem_singleton.mp member).le
    | true =>
      by_cases refused : c.Refuses files file
      · rw [buffRequests_refused refused]
        exact fun len member => absurd member List.not_mem_nil
      · obtain ⟨agrees, some⟩ := not_or.mp refused
        rw [buffRequests_taken refused, List.forall_mem_singleton]
        exact ((announced rfl).resolve_left (mt List.length_eq_zero_iff.mpr some)).resolve_left
          agrees

/-- A call never moves the end of the buffer. -/
theorem operate_buffTail (c : Chunk) (call : ChunkCall φ) :
    (c.operate files call).1.buffTail = c.buffTail := by
  cases call with
  | pushBack d1 d1Size d2 d2Size =>
    unfold operate pushBack append
    dsimp only
    split_ifs <;> rfl
  | popFront size =>
    unfold operate popFront
    dsimp only
    split_ifs <;> rfl
  | clear => rfl
  | writeToFile pFile groupNumber writeHeader =>
    cases pFile with
    | none => rfl
    | some file =>
      unfold operate writeToFile
      dsimp only
      split_ifs <;> rfl
  | readFromFile pFile readHeader =>
    cases pFile with
    | none => rfl
    | some file =>
      cases readHeader with
      | false =>
        obtain ⟨dataSize, same⟩ := readFromFile_headless files c file
        show (c.readFromFile files (some file) false).1.buffTail = _
        rw [same]
        rfl
      | true =>
        show (c.readFromFile files (some file) true).1.buffTail = _
        by_cases refused : c.Refuses files file
        · rw [readFromFile_refused refused]
          rfl
        · obtain whole | cleared := (readFromFile_taken refused).2
          · rw [whole]
            rfl
          · rw [cleared]
            rfl

theorem run_buffTail (calls : List (ChunkCall φ)) (c : Chunk) :
    (run (Chunk.operate files) c calls).1.buffTail = c.buffTail := by
  induction calls generalizing c with
  | nil => rfl
  | cons call rest ih => exact (ih _).trans (operate_buffTail c call)

/-- The data ends within the range of `int32_t` from where it starts, and starts in the
buffer. -/
structure Spanned (c : Chunk) : Prop where
  head : 0 ≤ c.dataHead
  low : -2 ^ 31 ≤ c.dataTail - c.dataHead
  high : c.dataTail - c.dataHead < 2 ^ 31

def held (c : Chunk) : Nat := (c.dataTail - c.dataHead).toNat

theorem Spanned.getDataSize (spanned : c.Spanned) : c.getDataSize = c.dataTail - c.dataHead :=
  int32_of_lt spanned.low spanned.high

theorem clear_spanned (c : Chunk) : c.clear.Spanned :=
  ⟨Int.le_refl 0, show (-2 ^ 31 : Int) ≤ 0 - 0 by decide, show (0 - 0 : Int) < 2 ^ 31 by decide⟩

/-- The bounds of an `int32_t`; the cast never makes a length larger. -/
theorem int32_natCast (length : Nat) :
    -2 ^ 31 ≤ int32 length ∧ int32 length < 2 ^ 31 ∧ int32 length ≤ length := by
  unfold int32
  rw [Int.bmod_def]
  split <;> omega

theorem readData_spanned {left : φ → Nat}
    (shrinks : ∀ file len,
      left (files.read file len).1 + (files.read file len).2.length ≤ left file)
    (empty : c.dataHead = 0 ∧ c.dataTail = 0) (file : φ) :
    (c.readData files file).1.Spanned ∧
      (c.readData files file).1.held + left (c.readData files file).2 ≤ left file := by
  obtain ⟨head, tail⟩ := empty
  have taken := shrinks file c.hdr.dataSize.toNat
  obtain ⟨low, high, less⟩ := int32_natCast (files.read file c.hdr.dataSize.toNat).2.length
  have moved : (c.readData files file).1.dataTail =
      int32 (files.read file c.hdr.dataSize.toNat).2.length := by
    show c.dataTail + _ = _
    rw [tail, Int.zero_add]
  have stays : (c.readData files file).1.dataHead = 0 := head
  have rest : (c.readData files file).2 = (files.read file c.hdr.dataSize.toNat).1 := rfl
  refine ⟨⟨stays.ge, ?_, ?_⟩, ?_⟩
  · omega
  · omega
  · unfold held
    rw [rest]
    omega

/-- Whatever the file holds, the chunk has no more data than was taken from the file. -/
theorem readFromFile_spanned {left : φ → Nat} {allowed : φ → Prop}
    (shrinks : ∀ file len,
      left (files.read file len).1 + (files.read file len).2.length ≤ left file)
    (kept : ∀ file len, allowed file → allowed (files.read file len).1) (c : Chunk) {file : φ}
    (readHeader : Bool) (before : allowed file) :
    (c.readFromFile files (some file) readHeader).1.Spanned ∧
      ∃ file', (c.readFromFile files (some file) readHeader).2.1 = some file' ∧ allowed file' ∧
        (c.readFromFile files (some file) readHeader).1.held + left file' ≤ left file := by
  cases readHeader with
  | false =>
    obtain ⟨dataSize, same⟩ := readFromFile_headless files c file
    obtain ⟨spanned, taken⟩ := @readData_spanned _ files
      (c.clear.setDataSize (uint32 c.clear.getBuffFree)) _ shrinks ⟨rfl, rfl⟩ file
    rw [same]
    exact ⟨⟨spanned.head, spanned.low, spanned.high⟩, _, rfl, kept _ _ before, taken⟩
  | true =>
    have first := shrinks file ChunkHeader.size
    have before' := kept file ChunkHeader.size before
    by_cases refused : c.Refuses files file
    · have cleared := clear_spanned c
      rw [readFromFile_refused refused]
      refine ⟨⟨cleared.head, cleared.low, cleared.high⟩, _, rfl, before', ?_⟩
      show 0 + left (files.read file ChunkHeader.size).1 ≤ left file
      omega
    · obtain ⟨spanned, taken⟩ := @readData_spanned _ files
        (c.clear.setHdr (c.headerFrom files file)) _ shrinks ⟨rfl, rfl⟩
        (files.read file ChunkHeader.size).1
      obtain ⟨after, whole | cleared⟩ := readFromFile_taken refused
      · rw [whole]
        exact ⟨spanned, _, after, kept _ _ before', by omega⟩
      · rw [cleared]
        refine ⟨clear_spanned _, _, after, kept _ _ before', ?_⟩
        show 0 + _ ≤ left file
        omega

end Chunk

namespace DeviceLog

variable {log : DeviceLog}

/-- A log that only reads its files. -/
structure Reads (log : DeviceLog) : Prop where
  spanned : log.chunk.Spanned
  file : ∀ name contents, log.pFile ≠ some (.writing name contents)

/-- How much is in the files that are still to open. -/
def closedBytes (log : DeviceLog) : Nat :=
  ((log.fileNames.drop log.fileCount).map fun name =>
    ((log.disk.lookup name).getD []).length).sum

/-- How much is still to come: in the chunk, in the open file and in the later ones. -/
def unreadBytes (log : DeviceLog) : Nat := log.chunk.held + log.bytesLeft + log.closedBytes

theorem Reads.readChunk (reads : log.Reads) (format : LogFormat) :
    (log.readChunk format).1.Reads ∧ (log.readChunk format).1.unreadBytes ≤ log.unreadBytes := by
  have allowed (file : OpenFile) (len : Nat) (reading : ∀ name contents, file ≠ .writing name contents) :
      ∀ name contents, (logFile.read file len).1 ≠ .writing name contents := by
    cases file with
    | writing name contents => exact absurd rfl (reading name contents)
    | reading rest => exact fun name contents => OpenFile.noConfusion
  cases opened : log.pFile with
  | none =>
    have same : (log.readChunk format).1 = log := by
      unfold DeviceLog.readChunk
      rw [opened]
      cases log
      cases opened
      rfl
    rw [same]
    exact ⟨reads, Nat.le_refl _⟩
  | some file =>
    obtain ⟨spanned, file', after, reading, taken⟩ :=
      log.chunk.readFromFile_spanned OpenFile.read_left allowed format.chunkHeader
        fun name contents same => reads.file name contents (opened.trans (congrArg some same))
    have here : (log.readChunk format).1.pFile = some file' := by
      rw [← after, ← opened]
      rfl
    have chunk : (log.readChunk format).1.chunk =
        (log.chunk.readFromFile logFile (some file) format.chunkHeader).1 := by
      rw [← opened]
      rfl
    refine ⟨⟨chunk ▸ spanned, ?_⟩, ?_⟩
    · rw [here]
      exact fun name contents same => reading name contents (Option.some.inj same)
    · have closed : (log.readChunk format).1.closedBytes = log.closedBytes := rfl
      unfold unreadBytes bytesLeft
      rw [closed, here, chunk, opened]
      show _ + file'.left + _ ≤ _ + file.left + _
      omega

theorem Reads.openNextReadFile (reads : log.Reads) :
    log.openNextReadFile.1.Reads ∧ log.openNextReadFile.1.unreadBytes ≤ log.unreadBytes := by
  have closed : log.closeISLogFile = { log with pFile := none } := by
    cases opened : log.pFile with
    | none => rw [closeISLogFile_none opened, ← opened]
    | some file =>
      cases file with
      | writing name contents => exact absurd opened (reads.file name contents)
      | reading rest => exact closeISLogFile_reading opened
  unfold DeviceLog.openNextReadFile
  rw [closed]
  dsimp only
  split
  case h_1 missing =>
    refine ⟨⟨reads.spanned, fun name contents opened => nomatch opened⟩, ?_⟩
    show log.chunk.held + 0 + log.closedBytes ≤ log.unreadBytes
    unfold unreadBytes
    omega
  case h_2 fileName found =>
    refine ⟨⟨reads.spanned, ?_⟩, ?_⟩
    · exact fun name contents same => OpenFile.noConfusion (Option.some.inj same)
    · obtain ⟨inside, here⟩ := List.getElem?_eq_some_iff.mp found
      have split : log.closedBytes = ((log.disk.lookup fileName).getD []).length +
          { log with fileCount := log.fileCount + 1 }.closedBytes := by
        unfold closedBytes
        rw [List.drop_eq_getElem_cons inside, here, List.map_cons, List.sum_cons]
      show log.chunk.held + ((log.disk.lookup fileName).getD []).length +
        { log with fileCount := log.fileCount + 1 }.closedBytes ≤ log.unreadBytes
      unfold unreadBytes
      omega

theorem Reads.readChunkFromFile {format : LogFormat} (reads : log.Reads) :
    (log.readChunkFromFile format).1.Reads ∧
      (log.readChunkFromFile format).1.unreadBytes ≤ log.unreadBytes := by
  induction log using readChunkFromFile.induct format with
  | case1 log result here =>
    rw [DeviceLog.readChunkFromFile]
    simp only [show 0 ≤ (log.readChunk format).2 from here, if_true]
    exact reads.readChunk format
  | case2 log result missing opened ih =>
    have missing' : ¬0 ≤ (log.readChunk format).2 := missing
    have opened' : (log.readChunk format).1.openNextReadFile.2 = true := opened
    obtain ⟨read, less⟩ := reads.readChunk format
    obtain ⟨next, fewer⟩ := read.openNextReadFile
    obtain ⟨final, least⟩ := ih next
    rw [DeviceLog.readChunkFromFile]
    simp only [missing', opened', if_false, dite_true]
    exact ⟨final, least.trans (fewer.trans less)⟩
  | case3 log result missing closed =>
    have missing' : ¬0 ≤ (log.readChunk format).2 := missing
    have closed' : ¬(log.readChunk format).1.openNextReadFile.2 = true := closed
    obtain ⟨read, less⟩ := reads.readChunk format
    obtain ⟨next, fewer⟩ := read.openNextReadFile
    rw [DeviceLog.readChunkFromFile]
    simp only [missing', closed', if_false]
    exact ⟨next, fewer.trans less⟩

end DeviceLog

namespace Serial

variable {log : DeviceLog}

/-- The record lies in the data that was in the chunk, right in front of what is left of it. -/
def Taken (c : Chunk) (record : Record) : Prop :=
  ∃ start, 0 ≤ start ∧ Record.ofMemory c.buff start = record ∧
    start + (DataHdr.sizeOf + record.hdr.size.toNat) = c.dataHead ∧ c.dataHead ≤ c.dataTail

/-- A record that is returned lies in the chunk; one that does not is dropped with the chunk. -/
theorem readDataFromChunk_taken (reads : log.Reads) :
    (readDataFromChunk log).1.Reads ∧
      (readDataFromChunk log).1.unreadBytes ≤ log.unreadBytes ∧
      ∀ record, (readDataFromChunk log).2 = some record →
        Taken (readDataFromChunk log).1.chunk record ∧
          (readDataFromChunk log).1.unreadBytes < log.unreadBytes := by
  obtain ⟨head, low, high⟩ := reads.spanned
  have size := reads.spanned.getDataSize
  unfold readDataFromChunk
  split
  case isTrue empty => exact ⟨reads, Nat.le_refl _, fun record returned => nomatch returned⟩
  case isFalse some =>
    dsimp only
    generalize data : Record.ofMemory log.chunk.buff log.chunk.dataHead = first
    unfold Chunk.popFront
    split
    case isTrue fits =>
      rw [size, DataHdr.sizeOf] at fits
      have less : (log.chunk.dataTail - (log.chunk.dataHead + (first.hdr.size.toNat + 5))).toNat <
          log.chunk.held := by
        unfold Chunk.held
        omega
      have total : (log.chunk.dataTail - (log.chunk.dataHead + (first.hdr.size.toNat + 5))).toNat +
          log.bytesLeft + log.closedBytes < log.unreadBytes := by
        unfold DeviceLog.unreadBytes
        omega
      refine ⟨⟨⟨?_, ?_, ?_⟩, reads.file⟩, total.le, ?_⟩
      · show 0 ≤ log.chunk.dataHead + (first.hdr.size.toNat + 5)
        omega
      · show -2 ^ 31 ≤ log.chunk.dataTail - (log.chunk.dataHead + (first.hdr.size.toNat + 5))
        omega
      · show log.chunk.dataTail - (log.chunk.dataHead + (first.hdr.size.toNat + 5)) < 2 ^ 31
        omega
      · intro record returned
        obtain rfl : first = record := Option.some.inj returned
        refine ⟨⟨log.chunk.dataHead, head, data, ?_, ?_⟩, total⟩
        · show _ = log.chunk.dataHead + (first.hdr.size.toNat + 5)
          rw [DataHdr.sizeOf]
          omega
        · show log.chunk.dataHead + (first.hdr.size.toNat + 5) ≤ log.chunk.dataTail
          omega
    case isFalse longer =>
      refine ⟨⟨log.chunk.clear_spanned, reads.file⟩, ?_, fun record returned => ?_⟩
      · show 0 + log.bytesLeft + log.closedBytes ≤ log.unreadBytes
        unfold DeviceLog.unreadBytes
        omega
      · cases returned

theorem readData_taken (reads : log.Reads) :
    (readData log).1.Reads ∧
      ∀ record, (readData log).2 = some record →
        Taken (readData log).1.chunk record ∧ (readData log).1.unreadBytes < log.unreadBytes := by
  induction log using readData.induct with
  | case1 log read some =>
    obtain ⟨next, -, taken⟩ := readDataFromChunk_taken reads
    have now : readData log = readDataFromChunk log := by
      rw [readData, if_pos some]
    rw [now]
    exact ⟨next, taken⟩
  | case2 log read nothing found ih =>
    obtain ⟨next, less, -⟩ := readDataFromChunk_taken reads
    obtain ⟨chunk, fewer⟩ := @DeviceLog.Reads.readChunkFromFile _ dat next
    obtain ⟨final, taken⟩ := ih chunk
    have later : readData log = readData ((readDataFromChunk log).1.readChunkFromFile dat).1 := by
      rw [readData, if_neg nothing, dif_pos found]
    rw [later]
    refine ⟨final, fun record returned => ?_⟩
    obtain ⟨inside, shorter⟩ := taken record returned
    exact ⟨inside, shorter.trans_le (fewer.trans less)⟩
  | case3 log read nothing ended =>
    obtain ⟨next, -, -⟩ := readDataFromChunk_taken reads
    have last : readData log = (((readDataFromChunk log).1.readChunkFromFile dat).1, none) := by
      rw [readData, if_neg nothing, dif_neg ended]
    rw [last]
    refine ⟨(@DeviceLog.Reads.readChunkFromFile _ dat next).1, fun record returned => ?_⟩
    cases returned

theorem openLog_reads (disk : List (List Char × List UInt8)) (serialNo : UInt32) (chunk : Chunk)
    (timestamp directory : List Char) : (openLog disk serialNo chunk timestamp directory).Reads := by
  have cleared := chunk.clear_spanned
  exact ⟨⟨cleared.head, cleared.low, cleared.high⟩, fun name contents opened => nomatch opened⟩

theorem run_reads (reads : log.Reads) (calls : List Unit) :
    (run (fun log _ => readData log) log calls).1.Reads := by
  induction calls generalizing log with
  | nil => exact reads
  | cons call rest ih => exact ih (readData_taken reads).1

theorem readLog_ends (reads : log.Reads) : ∃ count, none ∈ readLog log count := by
  have falls (state : DeviceLog) (call : Unit) (reads : state.Reads) :
      (readData state).2 = none ∨
        (readData state).1.Reads ∧ (readData state).1.unreadBytes < state.unreadBytes := by
    obtain ⟨next, taken⟩ := readData_taken reads
    cases returned : (readData state).2 with
    | none => exact .inl rfl
    | some record => exact .inr ⟨next, (taken record returned).2⟩
  have long : log.unreadBytes < (List.replicate (log.unreadBytes + 1) ()).length := by
    rw [List.length_replicate]
    exact Nat.lt_succ_self _
  obtain ⟨answer, member, ended⟩ :=
    @run_ends _ _ _ (fun log _ => readData log) _ _ (· = none) falls log _ reads long
  exact ⟨log.unreadBytes + 1, ended ▸ member⟩

end Serial

/-- A read of a chunk stays inside the buffer exactly if its header, if any, announces no more
than the buffer holds. Of any files, `ReadData` returns only records that lie in the data of
the chunk, and comes to an end. -/
theorem reads_inside_iff {φ : Type*} (files : LogFile φ) (pHandle : UInt32) (buff : Int → UInt8) :
    (∀ (calls : List (ChunkCall φ)) (file : φ) (readHeader : Bool),
        (run (Chunk.operate files) (Chunk.cDataChunk pHandle buff) calls).1.StaysInside files file
            readHeader ↔
          (run (Chunk.operate files) (Chunk.cDataChunk pHandle buff) calls).1.Announced files file
            readHeader) ∧
      ∀ (disk : List (List Char × List UInt8)) (serialNo : UInt32)
        (timestamp directory : List Char),
        let log := Serial.openLog disk serialNo (Chunk.cDataChunk pHandle buff) timestamp directory
        let step := fun log (_ : Unit) => Serial.readData log
        (∀ before record, (Serial.readData (run step log before).1).2 = some record →
            Serial.Taken (Serial.readData (run step log before).1).1.chunk record) ∧
          ∃ count, none ∈ Serial.readLog log count := by
  refine ⟨fun calls file readHeader => ?_, fun disk serialNo timestamp directory => ?_⟩
  · exact Chunk.staysInside_iff (Chunk.run_buffTail calls _) file readHeader
  · have opened := Serial.openLog_reads disk serialNo (Chunk.cDataChunk pHandle buff) timestamp
      directory
    refine ⟨fun before record returned => ?_, Serial.readLog_ends opened⟩
    exact ((Serial.readData_taken (Serial.run_reads opened before)).2 record returned).1

/-- A header for one byte more than the buffer holds, and nothing behind it. -/
def oversizedChunkFile : List UInt8 :=
  { (Chunk.cDataChunk 0 fun _ => 0).hdr with dataSize := 131073, invDataSize := ~~~131073 }.bytes

/-- Only its own complement guards the size: the file is asked for more than fits. -/
theorem oversized_chunk_asked :
    (Chunk.cDataChunk 0 fun _ => 0).buffRequests storedFile oversizedChunkFile true = [131073] ∧
      ¬(Chunk.cDataChunk 0 fun _ => 0).StaysInside storedFile oversizedChunkFile true := by
  have asked : (Chunk.cDataChunk 0 fun _ => 0).buffRequests storedFile oversizedChunkFile true =
      [131073] := by decide +kernel
  refine ⟨asked, fun inside => ?_⟩
  have fits := inside.1 131073 (asked ▸ List.mem_singleton_self _)
  exact absurd fits (by decide)

end InertialSense.DataLog
