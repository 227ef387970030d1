import InertialSense.DataLog.ChunkInvariant
import InertialSense.DataLog.DeviceLog

/-! What each call on a chunk does to the bytes it holds, and to the file it is given. -/

namespace InertialSense.DataLog

open Foundation

theorem bytesAt_add (mem : Int → UInt8) (start : Int) (first second : Nat) :
    bytesAt mem start (first + second) =
      bytesAt mem start first ++ bytesAt mem (start + first) second := by
  unfold bytesAt
  rw [window_add]
  congr 1
  apply window_congr
  intro k _
  congr 1
  omega

theorem bytesAt_congr {mem mem' : Int → UInt8} {start : Int} {count : Nat}
    (same : ∀ k < count, mem (start + (k : Nat)) = mem' (start + (k : Nat))) :
    bytesAt mem start count = bytesAt mem' start count :=
  window_congr fun k inside => by simpa using same k inside

@[simp] theorem bytesAt_length (mem : Int → UInt8) (start : Int) (count : Nat) :
    (bytesAt mem start count).length = count := window_length ..

theorem bytesAt_copyTo (mem : Int → UInt8) (place : Int) (data : List UInt8) :
    bytesAt (copyTo mem place data) place data.length = data := by
  apply List.ext_getElem (bytesAt_length ..)
  intro k _ inside
  simp [bytesAt, window, copyTo, inside]

theorem bytesAt_copyTo_before (mem : Int → UInt8) {start place : Int} {count : Nat}
    (before : start + count ≤ place) (data : List UInt8) :
    bytesAt (copyTo mem place data) start count = bytesAt mem start count := by
  apply bytesAt_congr
  intro k inside
  unfold copyTo
  rw [if_neg]
  omega

namespace Chunk

variable {c : Chunk}

/-- The bytes between the two data pointers. -/
def contents (c : Chunk) : List UInt8 := bytesAt c.buff c.dataHead (c.dataTail - c.dataHead).toNat

theorem Ordered.contents_length (ordered : c.Ordered) :
    (c.contents.length : Int) = c.dataTail - c.dataHead := by
  have order := ordered.order
  unfold contents
  rw [bytesAt_length]
  omega

theorem Ordered.getDataSize_eq (ordered : c.Ordered) : c.getDataSize = c.contents.length :=
  ordered.getDataSize.trans ordered.contents_length.symm

theorem Kept.dataSize_eq (kept : c.Kept) : c.hdr.dataSize.toNat = c.contents.length := by
  have size := kept.dataSize
  have length := kept.contents_length
  omega

theorem Ordered.contents_le (ordered : c.Ordered) : c.contents.length ≤ defaultChunkDataSize := by
  have length := ordered.contents_length
  obtain ⟨capacity, head, order, tail⟩ := ordered
  omega

/-- The first byte is the one that `m_dataHead` points to. -/
theorem contents_head {byte : UInt8} {bytes : List UInt8} (contents : c.contents = byte :: bytes) :
    c.buff c.dataHead = byte := by
  have length := congrArg List.length contents
  unfold Chunk.contents at length contents
  rw [bytesAt_length, List.length_cons] at length
  rw [length, Nat.add_comm, bytesAt_add] at contents
  have first := List.head_eq_of_cons_eq contents
  simpa using first

private theorem append_contents (ordered : c.Ordered) (data : Nat → UInt8) {size : Int}
    (nonneg : 0 ≤ size) :
    (c.append data size).contents = c.contents ++ window data 0 size.toNat := by
  have order := ordered.order
  unfold append
  split
  case isTrue positive =>
    have longer : (c.dataTail + size - c.dataHead).toNat =
        (c.dataTail - c.dataHead).toNat + (window data 0 size.toNat).length := by
      rw [window_length]
      omega
    have behind : c.dataHead + ((c.dataTail - c.dataHead).toNat : Int) = c.dataTail := by omega
    show bytesAt (copyTo c.buff c.dataTail (window data 0 size.toNat)) c.dataHead
      (c.dataTail + size - c.dataHead).toNat = _
    rw [longer, bytesAt_add, behind, bytesAt_copyTo, bytesAt_copyTo_before _ (by omega)]
    rfl
  case isFalse none =>
    obtain rfl : size = 0 := by omega
    simp

theorem Ordered.clear (ordered : c.Ordered) : c.clear.Ordered :=
  (clear_kept ordered.capacity).toOrdered

theorem Ordered.int32_fitting (ordered : c.Ordered) {first second : Nat}
    (fits : (first + second : Int) ≤ c.buffTail - c.dataTail) :
    int32 (first + second) = first + second := by
  obtain ⟨capacity, head, order, tail⟩ := ordered
  unfold defaultChunkDataSize at capacity
  exact int32_of_lt (by omega) (by omega)

private theorem pushBack_fitting {d1Size d2Size : Int}
    (room : ¬int32 (d1Size + d2Size) > c.getBuffFree) (d1 d2 : Nat → UInt8) :
    (c.pushBack d1 d1Size d2 d2Size).1.contents = ((c.append d1 d1Size).append d2 d2Size).contents ∧
      (c.pushBack d1 d1Size d2 d2Size).2 = int32 (d1Size + d2Size) := by
  unfold Chunk.pushBack
  dsimp only
  rw [if_neg room]
  exact ⟨rfl, rfl⟩

/-- Two blocks that fit come behind the bytes the chunk holds. -/
theorem Kept.pushBack_contents (kept : c.Kept) (d1 d2 : List UInt8)
    (fits : (d1.length + d2.length : Int) ≤ c.buffTail - c.dataTail) :
    (c.pushBack (fun k => d1.getD k 0) d1.length (fun k => d2.getD k 0) d2.length).1.contents =
        c.contents ++ (d1 ++ d2) ∧
      (c.pushBack (fun k => d1.getD k 0) d1.length (fun k => d2.getD k 0) d2.length).2 =
        d1.length + d2.length := by
  have whole (data : List UInt8) : window (fun k => data.getD k 0) 0 (data.length : Int).toNat =
      data := by
    rw [Int.toNat_natCast, window_getD data 0 (by omega)]
    simp
  have sum := kept.toOrdered.int32_fitting fits
  have room : ¬int32 (d1.length + d2.length) > c.getBuffFree := by
    rw [sum, kept.toOrdered.getBuffFree]
    omega
  obtain ⟨ordered, -⟩ := kept.toOrdered.append (fun k => d1.getD k 0)
    (Int.natCast_nonneg d1.length) (by omega)
  have added := append_contents kept.toOrdered (fun k => d1.getD k 0)
    (Int.natCast_nonneg d1.length)
  have added' := append_contents ordered (fun k => d2.getD k 0) (Int.natCast_nonneg d2.length)
  obtain ⟨contents, count⟩ := pushBack_fitting room (fun k => d1.getD k 0) (fun k => d2.getD k 0)
  refine ⟨?_, count.trans sum⟩
  rw [contents, added', added, whole, whole, List.append_assoc]

theorem pushBack_frame (c : Chunk) (d1 : Nat → UInt8) (d1Size : Int) (d2 : Nat → UInt8)
    (d2Size : Int) :
    (c.pushBack d1 d1Size d2 d2Size).1.hdr.marker = c.hdr.marker ∧
      (c.pushBack d1 d1Size d2 d2Size).1.dataHead = c.dataHead := by
  have appends (c : Chunk) (data : Nat → UInt8) (size : Int) :
      (c.append data size).hdr.marker = c.hdr.marker ∧
        (c.append data size).dataHead = c.dataHead := by
    unfold append
    split <;> exact ⟨rfl, rfl⟩
  obtain ⟨marker, head⟩ := appends c d1 d1Size
  obtain ⟨marker', head'⟩ := appends (c.append d1 d1Size) d2 d2Size
  unfold pushBack
  dsimp only
  split
  · exact ⟨rfl, rfl⟩
  · exact ⟨marker'.trans marker, head'.trans head⟩

/-- Bytes that are there can be taken. -/
theorem Ordered.popFront (ordered : c.Ordered) {size : Nat} (inside : size ≤ c.contents.length) :
    (c.popFront size).1.Ordered ∧ (c.popFront size).1.contents = c.contents.drop size ∧
      (c.popFront size).2 = true := by
  have length := ordered.contents_length
  have available : (size : Int) ≤ c.getDataSize := by
    rw [ordered.getDataSize]
    omega
  have ordered' := popFront_ordered ordered (Int.natCast_nonneg size)
  have order := ordered.order
  have more : (c.dataTail - c.dataHead).toNat = size + (c.dataTail - (c.dataHead + size)).toNat := by
    omega
  refine ⟨ordered', ?_⟩
  unfold Chunk.popFront
  rw [if_pos available]
  refine ⟨?_, rfl⟩
  show bytesAt c.buff (c.dataHead + size) (c.dataTail - (c.dataHead + size)).toNat = _
  rw [contents, more, bytesAt_add, List.drop_left' (bytesAt_length ..)]

end Chunk

/-- The header that goes in front of these bytes. -/
structure ChunkHeader.Announces (hdr : ChunkHeader) (data : List UInt8) : Prop where
  marker : hdr.marker = dataChunkMarker
  dataSize : hdr.dataSize.toNat = data.length
  invDataSize : hdr.invDataSize = ~~~hdr.dataSize

namespace ChunkHeader

theorem ofMemory_congr {mem mem' : Nat → UInt8} (same : SameBelow size mem mem') :
    ofMemory mem = ofMemory mem' := by
  have word {place : Nat} (inside : place + 4 ≤ size) : wordAt mem place = wordAt mem' place :=
    same.wordAt inside
  have chars {count place : Nat} (inside : place + count ≤ size) :
      (Vector.ofFn fun k : Fin count => mem (place + k)) = .ofFn fun k => mem' (place + k) := by
    congr 1
    funext k
    exact same _ (by omega)
  unfold ofMemory
  rw [word (by decide), word (by decide), word (by decide), word (by decide), word (by decide),
    word (by decide), chars (by decide), chars (by decide), chars (by decide), chars (by decide),
    same 4 (by decide), same 5 (by decide)]

/-- A header that is read whole. -/
theorem overwrite_bytes (hdr hdr' : ChunkHeader) : hdr.overwrite hdr'.bytes = hdr' := by
  have copied : ofMemory (store (fun k => hdr.bytes.getD k 0) 0 hdr'.bytes) =
      ofMemory fun k => hdr'.bytes.getD k 0 := by
    apply ofMemory_congr
    intro k inside
    have here : k < hdr'.bytes.length := inside
    have found : store (fun k => hdr.bytes.getD k 0) 0 hdr'.bytes (0 + k) = hdr'.bytes[k] :=
      store_inside _ here
    rw [Nat.zero_add] at found
    show store (fun k => hdr.bytes.getD k 0) 0 hdr'.bytes k = hdr'.bytes.getD k 0
    rw [found, List.getD_eq_getElem?_getD, List.getElem?_eq_getElem here]
    rfl
  exact copied.trans (ofMemory_bytes hdr')

end ChunkHeader

namespace Chunk

variable {c : Chunk}

/-- The chunk goes behind what is in the file, and is empty afterwards. -/
theorem Kept.writeToFile_contents (kept : c.Kept) (marker : c.hdr.marker = dataChunkMarker)
    (name : List Char) (old : List UInt8) (writeHeader : Bool) :
    ∃ hdr : ChunkHeader, hdr.Announces c.contents ∧
      (c.writeToFile logFile (some (.writing name old)) 0 writeHeader).2.1 =
        some (.writing name (old ++ ((if writeHeader then hdr.bytes else []) ++ c.contents))) ∧
      (c.writeToFile logFile (some (.writing name old)) 0 writeHeader).1 =
        (c.setGrpNum (uint32 0)).clear := by
  have data : bytesAt (c.setGrpNum (uint32 0)).buff (c.setGrpNum (uint32 0)).dataHead
      (c.setGrpNum (uint32 0)).hdr.dataSize.toNat = c.contents := by
    have size := kept.dataSize
    show bytesAt c.buff c.dataHead c.hdr.dataSize.toNat = c.contents
    unfold contents
    congr 1
    omega
  have dataSize : (c.setGrpNum (uint32 0)).hdr.dataSize.toNat = c.contents.length :=
    kept.dataSize_eq
  refine ⟨(c.setGrpNum (uint32 0)).hdr, ⟨marker, dataSize, kept.invDataSize⟩, ?_⟩
  unfold Chunk.writeToFile
  dsimp only
  rw [data]
  generalize c.setGrpNum (uint32 0) = c' at dataSize
  cases writeHeader with
  | false => exact ⟨rfl, rfl⟩
  | true =>
    have whole : ¬int32 c'.hdr.bytes.length + int32 c.contents.length ≠
        ChunkHeader.size + int32 c'.hdr.dataSize.toNat := by
      rw [dataSize, ChunkHeader.bytes_length, int32_of_lt (by decide) (by decide)]
      exact not_not_intro rfl
    simp only [if_true, logFile_writing, List.append_assoc, true_and, if_neg whole, and_self]

/-- The data part of a read puts the bytes it gets into the empty chunk. -/
theorem readData_contents (capacity : c.buffTail = defaultChunkDataSize) (head : c.dataHead = 0)
    (tail : c.dataTail = 0) {data : List UInt8} (rest : List UInt8)
    (short : data.length ≤ defaultChunkDataSize)
    (whole : (data ++ rest).take c.hdr.dataSize.toNat = data) :
    (c.readData logFile (.reading (data ++ rest))).1.Ordered ∧
      (c.readData logFile (.reading (data ++ rest))).1.contents = data ∧
      (c.readData logFile (.reading (data ++ rest))).2 =
        .reading ((data ++ rest).drop c.hdr.dataSize.toNat) := by
  have read : (c.readData logFile (.reading (data ++ rest))).1 =
      { c with
        buff := copyTo c.buff 0 data
        dataTail := c.dataTail + int32 data.length } := by
    unfold Chunk.readData
    rw [logFile_reading, whole]
  unfold defaultChunkDataSize at short capacity
  have length : int32 data.length = data.length := int32_of_lt (by omega) (by omega)
  have moved : c.dataTail + int32 data.length = data.length := by omega
  rw [read, moved]
  refine ⟨⟨capacity, ?_, ?_, ?_⟩, ?_, rfl⟩
  · show 0 ≤ c.dataHead
    omega
  · show c.dataHead ≤ data.length
    omega
  · show (data.length : Int) ≤ c.buffTail
    omega
  · show bytesAt (copyTo c.buff 0 data) c.dataHead ((data.length : Int) - c.dataHead).toNat = data
    rw [head, Int.sub_zero, Int.toNat_natCast, bytesAt_copyTo]

theorem readFromFile_header (capacity : c.buffTail = defaultChunkDataSize) {hdr : ChunkHeader}
    {data : List UInt8} (announced : hdr.Announces data)
    (short : data.length ≤ defaultChunkDataSize) (rest : List UInt8) :
    (c.readFromFile logFile (some (.reading (hdr.bytes ++ (data ++ rest)))) true).1.Ordered ∧
      (c.readFromFile logFile (some (.reading (hdr.bytes ++ (data ++ rest)))) true).1.contents =
        data ∧
      (c.readFromFile logFile (some (.reading (hdr.bytes ++ (data ++ rest)))) true).2.1 =
        some (.reading rest) ∧
      0 ≤ (c.readFromFile logFile (some (.reading (hdr.bytes ++ (data ++ rest)))) true).2.2 := by
  have read : c.readFromFile logFile (some (.reading (hdr.bytes ++ (data ++ rest)))) true =
      (c.clear.setHdr hdr).readBehindHeader logFile (.reading (data ++ rest)) ChunkHeader.size := by
    unfold Chunk.readFromFile
    simp only [if_true]
    unfold Chunk.readWithHeader
    rw [logFile_reading]
    dsimp only
    rw [List.take_left' hdr.bytes_length, List.drop_left' hdr.bytes_length,
      ChunkHeader.overwrite_bytes, ChunkHeader.bytes_length]
  have taken : (data ++ rest).take hdr.dataSize.toNat = data := List.take_left' announced.dataSize.symm
  have left : (data ++ rest).drop hdr.dataSize.toNat = rest := List.drop_left' announced.dataSize.symm
  obtain ⟨ordered, contents, file⟩ := readData_contents (c := c.clear.setHdr hdr) capacity
    rfl rfl rest short taken
  rw [show (c.clear.setHdr hdr).hdr.dataSize.toNat = hdr.dataSize.toNat from rfl, left] at file
  have agrees : ¬((c.clear.setHdr hdr).hdr.dataSize ≠ ~~~(c.clear.setHdr hdr).hdr.invDataSize ∨
      ChunkHeader.size = 0) := by
    rintro (different | none)
    · refine different ?_
      show hdr.dataSize = ~~~hdr.invDataSize
      rw [announced.invDataSize, UInt32.not_not]
    · cases none
  have size := ordered.getDataSize_eq
  rw [contents] at size
  rw [read]
  unfold Chunk.readBehindHeader
  rw [if_neg agrees]
  dsimp only
  have total : (ChunkHeader.size : Int) + data.length =
      int32 (UInt32.ofNat ChunkHeader.size + hdr.dataSize).toNat := by
    rw [size_add (announced.dataSize.trans_le short), announced.dataSize]
  have stays : ((c.clear.setHdr hdr).readData logFile (.reading (data ++ rest))).1.hdr = hdr := rfl
  generalize (c.clear.setHdr hdr).readData logFile (.reading (data ++ rest)) = answer at *
  rw [stays, size, if_pos ⟨announced.marker, total⟩, file]
  refine ⟨ordered, contents, rfl, ?_⟩
  show (0 : Int) ≤ ChunkHeader.size + data.length
  omega

theorem readFromFile_end (c : Chunk) :
    c.readFromFile logFile (some (.reading [])) true = (c.clear, some (.reading []), -1) := by
  unfold Chunk.readFromFile
  simp only [if_true]
  unfold Chunk.readWithHeader
  rw [logFile_reading, List.take_nil, List.drop_nil]
  dsimp only
  rw [ChunkHeader.overwrite_nil]
  unfold Chunk.readBehindHeader
  rw [List.length_nil, if_pos (.inr rfl)]
  rfl

theorem Ordered.measureData (ordered : c.Ordered) :
    c.measureData.1.Ordered ∧ c.measureData.1.contents = c.contents ∧
      (0 ≤ c.measureData.2 ↔ c.contents ≠ []) := by
  refine ⟨ordered.withHdr _, rfl, ?_⟩
  have short := ordered.contents_le
  unfold defaultChunkDataSize at short
  have size : (uint32 c.getDataSize).toNat = c.contents.length := by
    have value : ((uint32 (c.contents.length : Int)).toNat : Int) = c.contents.length :=
      uint32_toNat (by omega) (by omega)
    rw [ordered.getDataSize_eq]
    omega
  have positive : uint32 c.getDataSize > 0 ↔ c.contents ≠ [] := by
    rw [gt_iff_lt, UInt32.lt_iff_toNat_lt, size, ← List.length_pos_iff]
    rfl
  unfold Chunk.measureData
  dsimp only
  split
  case isTrue some =>
    refine iff_of_true ?_ (positive.mp some)
    rw [size, int32_of_lt] <;> omega
  case isFalse none => exact iff_of_false (by decide) (mt positive.mpr none)

/-- Without a header, a read takes as much as the buffer holds. -/
theorem readFromFile_plain (capacity : c.buffTail = defaultChunkDataSize) (rest : List UInt8) :
    (c.readFromFile logFile (some (.reading rest)) false).1.Ordered ∧
      (c.readFromFile logFile (some (.reading rest)) false).1.contents =
        rest.take defaultChunkDataSize ∧
      (c.readFromFile logFile (some (.reading rest)) false).2.1 =
        some (.reading (rest.drop defaultChunkDataSize)) ∧
      (0 ≤ (c.readFromFile logFile (some (.reading rest)) false).2.2 ↔ rest ≠ []) := by
  have asked : (c.clear.setDataSize (uint32 c.clear.getBuffFree)).hdr.dataSize.toNat =
      defaultChunkDataSize := (clear_kept capacity).toOrdered.asked_whole rfl
  have whole : (rest.take defaultChunkDataSize ++ rest.drop defaultChunkDataSize).take
      (c.clear.setDataSize (uint32 c.clear.getBuffFree)).hdr.dataSize.toNat =
        rest.take defaultChunkDataSize := by
    rw [asked, List.take_append_drop]
  obtain ⟨ordered, contents, file⟩ := readData_contents
    (c := c.clear.setDataSize (uint32 c.clear.getBuffFree)) capacity rfl rfl
    _ (List.length_take_le ..) whole
  rw [List.take_append_drop] at ordered contents file
  rw [asked] at file
  obtain ⟨ordered', contents', nonempty⟩ := ordered.measureData
  rw [contents] at contents' nonempty
  have some : rest.take defaultChunkDataSize ≠ [] ↔ rest ≠ [] := by
    have room : defaultChunkDataSize ≠ 0 := by decide
    rw [Ne, List.take_eq_nil_iff, or_iff_right room]
  unfold Chunk.readFromFile
  simp only [Bool.false_eq_true, if_false]
  unfold Chunk.readWithoutHeader
  dsimp only
  generalize (c.clear.setDataSize (uint32 c.clear.getBuffFree)).readData logFile (.reading rest) =
    answer at *
  exact ⟨ordered', contents', congrArg Option.some file, nonempty.trans some⟩

end Chunk

end InertialSense.DataLog
