import InertialSense.DataLog.Chunk

/-! The header of a chunk repeats the distance between its two data pointers. When the two
agree over whole runs of calls, and which calls part them. -/

namespace InertialSense.DataLog

open Foundation

/-- A call on a chunk; each call with a file meets the file in a state of its own. -/
inductive ChunkCall (φ : Type*) where
  | pushBack (d1 : Nat → UInt8) (d1Size : Int) (d2 : Nat → UInt8) (d2Size : Int)
  | popFront (size : Int)
  | clear
  | writeToFile (pFile : Option φ) (groupNumber : Int) (writeHeader : Bool)
  | readFromFile (pFile : Option φ) (readHeader : Bool)

namespace Chunk

variable {φ : Type*}

def operate (files : LogFile φ) (c : Chunk) : ChunkCall φ → Chunk × Int
  | .pushBack d1 d1Size d2 d2Size => c.pushBack d1 d1Size d2 d2Size
  | .popFront size => ((c.popFront size).1, if (c.popFront size).2 then 1 else 0)
  | .clear => (c.clear, 0)
  | .writeToFile pFile groupNumber writeHeader =>
    let wrote := c.writeToFile files pFile groupNumber writeHeader
    (wrote.1, wrote.2.2)
  | .readFromFile pFile readHeader =>
    let read := c.readFromFile files pFile readHeader
    (read.1, read.2.2)

/-- The header says how much data there is, its complement beside it is right, and the
pointers are in order. -/
structure Consistent (c : Chunk) : Prop where
  dataSize : (c.hdr.dataSize.toNat : Int) = c.getDataSize
  invDataSize : c.hdr.invDataSize = ~~~c.hdr.dataSize
  head : 0 ≤ c.dataHead
  order : c.dataHead ≤ c.dataTail
  tail : c.dataTail ≤ c.buffTail

/-- The header that `ReadFromFile` has once it has read what the file gives for it. -/
def headerFrom (files : LogFile φ) (c : Chunk) (file : φ) : ChunkHeader :=
  c.clear.hdr.overwrite (files.read file ChunkHeader.size).2

/-- The header, if one is read, does not agree with itself or announces no more than the buffer
holds. -/
def Announced (files : LogFile φ) (c : Chunk) (file : φ) (readHeader : Bool) : Prop :=
  readHeader = true → (files.read file ChunkHeader.size).2 = [] ∨
    (c.headerFrom files file).dataSize ≠ ~~~(c.headerFrom files file).invDataSize ∨
      (c.headerFrom files file).dataSize.toNat ≤ defaultChunkDataSize

/-- The header is not taken: nothing of it was read, or it does not agree with itself. -/
def Refuses (files : LogFile φ) (c : Chunk) (file : φ) : Prop :=
  (c.headerFrom files file).dataSize ≠ ~~~(c.headerFrom files file).invDataSize ∨
    (files.read file ChunkHeader.size).2.length = 0

/-- The file takes the header of the chunk and as much data as the header says. -/
def WrittenWhole (files : LogFile φ) (c : Chunk) (file : φ) (groupNumber : Int) : Prop :=
  let c := c.setGrpNum (uint32 groupNumber)
  let header := files.write file c.hdr.bytes
  let data := files.write header.1 (bytesAt c.buff c.dataHead c.hdr.dataSize.toNat)
  int32 header.2 + int32 data.2 = ChunkHeader.size + int32 c.hdr.dataSize.toNat

end Chunk

namespace ChunkCall

variable {φ : Type*}

/-- `Clear`, and the other calls where they come to it. -/
def Clears (files : LogFile φ) (c : Chunk) : ChunkCall φ → Prop
  | pushBack .. => False
  | popFront size => c.getDataSize < size
  | clear => True
  | writeToFile none _ _ => False
  | writeToFile (some file) groupNumber writeHeader =>
    writeHeader = true → c.WrittenWhole files file groupNumber
  | readFromFile pFile _ => pFile.isSome

/-- The call touches no byte outside of the buffer, whether or not the header is right. -/
def Inside (files : LogFile φ) (c : Chunk) : ChunkCall φ → Prop
  | pushBack _ d1Size _ d2Size => 0 ≤ d1Size ∧ 0 ≤ d2Size ∧ d1Size + d2Size < 2 ^ 31
  | popFront size => 0 ≤ size
  | clear => True
  | writeToFile pFile _ _ =>
    pFile.isSome → (c.hdr.dataSize.toNat : Int) ≤ c.buffTail - c.dataHead
  | readFromFile none _ => True
  | readFromFile (some file) readHeader => c.Announced files file readHeader

/-- The sizes are those of blocks that can be, a chunk that is read without a header is empty,
and the header of one that is read with it agrees with itself and announces no more than the
buffer holds. -/
def Permitted (files : LogFile φ) (c : Chunk) : ChunkCall φ → Prop
  | pushBack _ d1Size _ d2Size => 0 ≤ d1Size ∧ 0 ≤ d2Size ∧ d1Size + d2Size < 2 ^ 31
  | popFront size => 0 ≤ size
  | clear => True
  | writeToFile .. => True
  | readFromFile none _ => True
  | readFromFile (some file) true =>
    (files.read file ChunkHeader.size).2 = [] ∨
      (c.headerFrom files file).dataSize = ~~~(c.headerFrom files file).invDataSize ∧
        (c.headerFrom files file).dataSize.toNat ≤ defaultChunkDataSize
  | readFromFile (some file) false => (files.read file defaultChunkDataSize).2 = []

end ChunkCall

namespace Chunk

variable {φ : Type*} {files : LogFile φ} {c : Chunk}

theorem int32_of_lt {value : Int} (low : -2 ^ 31 ≤ value) (high : value < 2 ^ 31) :
    int32 value = value := by
  unfold int32
  rw [Int.bmod_eq_of_le] <;> omega

theorem uint32_toNat {value : Int} (low : 0 ≤ value) (high : value < 2 ^ 32) :
    ((uint32 value).toNat : Int) = value := by
  unfold uint32
  rw [UInt32.toNat_ofNat', Int.emod_eq_of_lt low high]
  omega

theorem size_add {dataSize : UInt32} (fits : dataSize.toNat ≤ defaultChunkDataSize) :
    int32 (UInt32.ofNat ChunkHeader.size + dataSize).toNat = ChunkHeader.size + dataSize.toNat := by
  unfold ChunkHeader.size defaultChunkDataSize at *
  rw [UInt32.toNat_add, UInt32.toNat_ofNat', int32_of_lt] <;> omega

/-- The buffer has its size and the pointers are in it, in order. -/
structure Ordered (c : Chunk) : Prop where
  capacity : c.buffTail = defaultChunkDataSize
  head : 0 ≤ c.dataHead
  order : c.dataHead ≤ c.dataTail
  tail : c.dataTail ≤ c.buffTail

/-- Consistent, with the sizes as plain differences. -/
structure Kept (c : Chunk) : Prop extends c.Ordered where
  dataSize : (c.hdr.dataSize.toNat : Int) = c.dataTail - c.dataHead
  invDataSize : c.hdr.invDataSize = ~~~c.hdr.dataSize

theorem Ordered.getDataSize (ordered : c.Ordered) : c.getDataSize = c.dataTail - c.dataHead := by
  obtain ⟨capacity, head, order, tail⟩ := ordered
  unfold Chunk.getDataSize
  rw [capacity, defaultChunkDataSize] at tail
  exact int32_of_lt (by omega) (by omega)

theorem Ordered.getBuffFree (ordered : c.Ordered) : c.getBuffFree = c.buffTail - c.dataTail := by
  obtain ⟨capacity, head, order, tail⟩ := ordered
  unfold Chunk.getBuffFree
  rw [capacity, defaultChunkDataSize] at *
  exact int32_of_lt (by omega) (by omega)

theorem Ordered.asked_whole (ordered : c.Ordered) (empty : c.dataTail = 0) :
    (uint32 c.getBuffFree).toNat = defaultChunkDataSize := by
  have size : ((uint32 (defaultChunkDataSize : Int)).toNat : Int) = defaultChunkDataSize :=
    uint32_toNat (Int.natCast_nonneg _) (by decide)
  rw [ordered.getBuffFree, ordered.capacity, empty, Int.sub_zero]
  omega

/-- The order of the pointers is no matter of the header. -/
theorem Ordered.withHdr (ordered : c.Ordered) (hdr : ChunkHeader) : { c with hdr }.Ordered :=
  ⟨ordered.capacity, ordered.head, ordered.order, ordered.tail⟩

theorem Kept.consistent (kept : c.Kept) : c.Consistent :=
  ⟨kept.dataSize.trans kept.toOrdered.getDataSize.symm, kept.invDataSize, kept.head, kept.order,
    kept.tail⟩

/-- Whatever was in the chunk, `Clear` makes its header right. -/
theorem clear_kept (capacity : c.buffTail = defaultChunkDataSize) : c.clear.Kept := by
  have room : (0 : Int) ≤ c.buffTail := by
    rw [capacity]
    exact Int.natCast_nonneg _
  exact ⟨⟨capacity, Int.le_refl 0, Int.le_refl 0, room⟩, rfl, rfl⟩

/-- A block that fits makes the data longer by as much. -/
theorem Ordered.append (ordered : c.Ordered) (data : Nat → UInt8) {size : Int}
    (nonneg : 0 ≤ size) (fits : size ≤ c.buffTail - c.dataTail) :
    (c.append data size).Ordered ∧ (c.append data size).dataTail = c.dataTail + size ∧
      (c.append data size).buffTail = c.buffTail := by
  obtain ⟨capacity, head, order, tail⟩ := ordered
  unfold Chunk.append
  split
  case isTrue positive =>
    refine ⟨⟨capacity, head, ?_, ?_⟩, rfl, rfl⟩
    · show c.dataHead ≤ c.dataTail + size
      omega
    · show c.dataTail + size ≤ c.buffTail
      omega
  case isFalse none =>
    obtain rfl : size = 0 := by omega
    exact ⟨⟨capacity, head, order, tail⟩, by omega, rfl⟩

theorem Ordered.append_dataSize (ordered : c.Ordered) (data : Nat → UInt8) {size : Int}
    (nonneg : 0 ≤ size) (fits : size ≤ c.buffTail - c.dataTail)
    (dataSize : (c.hdr.dataSize.toNat : Int) = c.dataTail - c.dataHead) :
    ((c.append data size).hdr.dataSize.toNat : Int) =
      (c.append data size).dataTail - (c.append data size).dataHead := by
  obtain ⟨capacity, head, order, tail⟩ := ordered
  have bound : c.buffTail = 131072 := capacity
  have added : ((uint32 size).toNat : Int) = size := uint32_toNat nonneg (by omega)
  unfold Chunk.append
  split
  · show ((c.hdr.dataSize + uint32 size).toNat : Int) = c.dataTail + size - c.dataHead
    rw [UInt32.toNat_add]
    omega
  · exact dataSize

theorem Ordered.pushBack (ordered : c.Ordered) (d1 d2 : Nat → UInt8) {d1Size d2Size : Int}
    (sizes : 0 ≤ d1Size ∧ 0 ≤ d2Size ∧ d1Size + d2Size < 2 ^ 31) :
    (c.pushBack d1 d1Size d2 d2Size).1.Ordered := by
  obtain ⟨nonneg1, nonneg2, bounded⟩ := sizes
  refine iteInduction (motive := fun answer : Chunk × Int => answer.1.Ordered) (fun _ => ordered)
    fun fits => ?_
  rw [ordered.getBuffFree, int32_of_lt (by omega) bounded] at fits
  obtain ⟨first, tail, room⟩ := ordered.append d1 nonneg1 (by omega)
  exact (first.append d2 nonneg2 (by omega)).1.withHdr _

theorem Kept.pushBack (kept : c.Kept) (d1 d2 : Nat → UInt8) {d1Size d2Size : Int}
    (sizes : 0 ≤ d1Size ∧ 0 ≤ d2Size ∧ d1Size + d2Size < 2 ^ 31) :
    (c.pushBack d1 d1Size d2 d2Size).1.Kept := by
  have ordered := kept.toOrdered.pushBack d1 d2 sizes
  obtain ⟨nonneg1, nonneg2, bounded⟩ := sizes
  revert ordered
  refine iteInduction (motive := fun answer : Chunk × Int => answer.1.Ordered → answer.1.Kept)
    (fun _ _ => kept) fun fits ordered => ?_
  rw [kept.toOrdered.getBuffFree, int32_of_lt (by omega) bounded] at fits
  obtain ⟨first, tail, room⟩ := kept.toOrdered.append d1 nonneg1 (by omega)
  have dataSize := kept.toOrdered.append_dataSize d1 nonneg1 (by omega) kept.dataSize
  exact ⟨ordered, first.append_dataSize d2 nonneg2 (by omega) dataSize, rfl⟩

theorem popFront_ordered (ordered : c.Ordered) {size : Int} (nonneg : 0 ≤ size) :
    (c.popFront size).1.Ordered := by
  refine iteInduction (motive := fun answer : Chunk × Bool => answer.1.Ordered) (fun inside => ?_)
    fun _ => (clear_kept ordered.capacity).toOrdered
  rw [ordered.getDataSize] at inside
  obtain ⟨capacity, head, order, tail⟩ := ordered
  refine ⟨capacity, ?_, ?_, tail⟩
  · show 0 ≤ c.dataHead + size
    omega
  · show c.dataHead + size ≤ c.dataTail
    omega

theorem Kept.popFront (kept : c.Kept) {size : Int} (nonneg : 0 ≤ size) :
    (c.popFront size).1.Kept := by
  have ordered := popFront_ordered kept.toOrdered nonneg
  have bound : c.buffTail = 131072 := kept.capacity
  revert ordered
  refine iteInduction (motive := fun answer : Chunk × Bool => answer.1.Ordered → answer.1.Kept)
    (fun inside ordered => ⟨ordered, ?_, rfl⟩) fun _ _ => clear_kept kept.capacity
  rw [kept.toOrdered.getDataSize] at inside
  obtain ⟨⟨_, head, order, tail⟩, dataSize, -⟩ := kept
  have removed : ((uint32 size).toNat : Int) = size := uint32_toNat nonneg (by omega)
  show ((c.hdr.dataSize - uint32 size).toNat : Int) = c.dataTail - (c.dataHead + size)
  rw [UInt32.toNat_sub]
  omega

theorem writeToFile_ordered (ordered : c.Ordered) (pFile : Option φ) (groupNumber : Int)
    (writeHeader : Bool) : (c.writeToFile files pFile groupNumber writeHeader).1.Ordered := by
  cases pFile with
  | none => exact ordered
  | some file =>
    refine iteInduction (motive := fun answer : Chunk × Option φ × Int => answer.1.Ordered)
      (fun _ => ordered.withHdr _) fun _ => ?_
    exact (clear_kept (c := c.setGrpNum (uint32 groupNumber)) ordered.capacity).toOrdered

theorem Kept.writeToFile (kept : c.Kept) (pFile : Option φ) (groupNumber : Int)
    (writeHeader : Bool) : (c.writeToFile files pFile groupNumber writeHeader).1.Kept := by
  cases pFile with
  | none => exact kept
  | some file =>
    refine iteInduction (motive := fun answer : Chunk × Option φ × Int => answer.1.Kept)
      (fun _ => ?_) fun _ => clear_kept kept.capacity
    exact ⟨⟨kept.capacity, kept.head, kept.order, kept.tail⟩, kept.dataSize, kept.invDataSize⟩

theorem writeToFile_clears {file : φ} {groupNumber : Int} {writeHeader : Bool}
    (whole : writeHeader = true → c.WrittenWhole files file groupNumber) :
    (c.writeToFile files (some file) groupNumber writeHeader).1 =
      (c.setGrpNum (uint32 groupNumber)).clear := by
  unfold Chunk.writeToFile
  dsimp only
  rw [if_neg]
  rintro ⟨rfl, short⟩
  exact short (whole rfl)

theorem readData_kept (empty : c.dataHead = 0 ∧ c.dataTail = 0)
    (capacity : c.buffTail = defaultChunkDataSize) (file : φ)
    (fits : (files.read file c.hdr.dataSize.toNat).2.length ≤ defaultChunkDataSize) :
    (c.readData files file).1.Ordered ∧
      (c.readData files file).1.getDataSize =
        (files.read file c.hdr.dataSize.toNat).2.length := by
  obtain ⟨head, tail⟩ := empty
  unfold defaultChunkDataSize at capacity fits
  have length : int32 (files.read file c.hdr.dataSize.toNat).2.length =
      (files.read file c.hdr.dataSize.toNat).2.length := int32_of_lt (by omega) (by omega)
  have moved : (c.readData files file).1.dataTail =
      (files.read file c.hdr.dataSize.toNat).2.length := by
    show c.dataTail + _ = _
    rw [tail, length, Int.zero_add]
  have stays : (c.readData files file).1.dataHead = 0 := head
  have room : (c.readData files file).1.buffTail = 131072 := capacity
  have ordered : (c.readData files file).1.Ordered := by
    refine ⟨room, ?_, ?_, ?_⟩ <;> omega
  refine ⟨ordered, ?_⟩
  rw [ordered.getDataSize]
  omega

private theorem readWithoutHeader_kept (kept : c.Kept) (empty : c.dataHead = 0 ∧ c.dataTail = 0)
    (clear : c.hdr.invDataSize = ~~~0) {file : φ}
    (nothing : (files.read file defaultChunkDataSize).2 = []) :
    (c.readWithoutHeader files file).1.Kept := by
  have asked := kept.toOrdered.asked_whole empty.2
  have nothing' : (files.read file (c.setDataSize (uint32 c.getBuffFree)).hdr.dataSize.toNat).2 =
      [] := by
    show (files.read file (uint32 c.getBuffFree).toNat).2 = []
    rw [asked, nothing]
  obtain ⟨ordered, read⟩ := readData_kept (c := c.setDataSize (uint32 c.getBuffFree)) empty
    kept.capacity file (by rw [nothing']; exact Nat.zero_le _)
  rw [nothing', List.length_nil, Int.natCast_zero] at read
  refine ⟨ordered.withHdr _, ?_, ?_⟩
  · show ((uint32 (Chunk.getDataSize _)).toNat : Int) = _
    rw [uint32_toNat (by omega) (by omega)]
    exact ordered.getDataSize
  · show c.hdr.invDataSize = ~~~(uint32 (Chunk.getDataSize _))
    rw [read, clear]
    rfl

/-- A read with a header that agrees with itself and fits. -/
private theorem readWithHeader_kept (kept : c.Kept) (empty : c.dataHead = 0 ∧ c.dataTail = 0)
    {file : φ}
    (permitted : (files.read file ChunkHeader.size).2 = [] ∨
      (c.hdr.overwrite (files.read file ChunkHeader.size).2).dataSize =
          ~~~(c.hdr.overwrite (files.read file ChunkHeader.size).2).invDataSize ∧
        (c.hdr.overwrite (files.read file ChunkHeader.size).2).dataSize.toNat ≤
          defaultChunkDataSize) :
    (c.readWithHeader files file).1.Kept := by
  have short := files.read_length file ChunkHeader.size
  unfold readWithHeader
  dsimp only
  generalize files.read file ChunkHeader.size = header at *
  refine iteInduction (motive := fun answer : Chunk × Option φ × Int => answer.1.Kept)
    (fun bad => ?_) fun good => ?_
  · -- an empty read leaves the header that `Clear` has made
    have nothing := permitted.elim id fun agrees =>
      bad.elim (absurd agrees.1) List.length_eq_zero_iff.mp
    rw [nothing, ChunkHeader.overwrite_nil]
    exact kept
  · obtain ⟨agrees, fits⟩ := permitted.resolve_left fun nothing =>
      (not_or.mp good).2 (List.length_eq_zero_iff.mpr nothing)
    generalize c.hdr.overwrite header.2 = hdr at *
    have bounded := files.read_length header.1 hdr.dataSize.toNat
    obtain ⟨ordered, read⟩ := readData_kept (c := c.setHdr hdr) empty
      kept.capacity header.1 (Nat.le_trans bounded fits)
    change _ = ((files.read header.1 hdr.dataSize.toNat).2.length : Int) at read
    refine iteInduction (motive := fun answer : Chunk × Option φ × Int => answer.1.Kept)
      (fun whole => ?_) fun _ => clear_kept kept.capacity
    refine ⟨ordered, ?_, ?_⟩
    · rw [← ordered.getDataSize, read]
      show (hdr.dataSize.toNat : Int) = (files.read header.1 hdr.dataSize.toNat).2.length
      have counted : (header.2.length : Int) + (files.read header.1 hdr.dataSize.toNat).2.length =
          int32 (UInt32.ofNat ChunkHeader.size + hdr.dataSize).toNat := by
        rw [← read]
        exact whole.2
      rw [size_add fits] at counted
      omega
    · show hdr.invDataSize = ~~~hdr.dataSize
      rw [agrees, UInt32.not_not]

/-- Without a header, the pointers are those that the read of the data leaves. -/
theorem readFromFile_headless (files : LogFile φ) (c : Chunk) (file : φ) :
    ∃ dataSize, (c.readFromFile files (some file) false).1 =
      ((c.clear.setDataSize (uint32 c.clear.getBuffFree)).readData files file).1.setDataSize
        dataSize := ⟨_, rfl⟩

theorem readFromFile_refused {file : φ} (refused : c.Refuses files file) :
    c.readFromFile files (some file) true =
      (c.clear.setHdr (c.headerFrom files file), some (files.read file ChunkHeader.size).1, -1) :=
  if_pos refused

theorem readFromFile_taken {file : φ} (taken : ¬c.Refuses files file) :
    let read := (c.clear.setHdr (c.headerFrom files file)).readData files
      (files.read file ChunkHeader.size).1
    (c.readFromFile files (some file) true).2.1 = some read.2 ∧
      ((c.readFromFile files (some file) true).1 = read.1 ∨
        (c.readFromFile files (some file) true).1 = read.1.clear) := by
  have same : c.readFromFile files (some file) true = _ := if_neg taken
  rw [same]
  split
  · exact ⟨rfl, .inl rfl⟩
  · exact ⟨rfl, .inr rfl⟩

/-- A read whose data fits leaves the pointers in order. -/
theorem readFromFile_ordered (capacity : c.buffTail = defaultChunkDataSize) {file : φ}
    {readHeader : Bool} (announced : c.Announced files file readHeader) :
    (c.readFromFile files (some file) readHeader).1.Ordered := by
  have cleared := clear_kept capacity
  cases readHeader with
  | false =>
    have asked := cleared.toOrdered.asked_whole rfl
    have short := files.read_length file (uint32 c.clear.getBuffFree).toNat
    have ordered := (readData_kept (c := c.clear.setDataSize (uint32 c.clear.getBuffFree))
      ⟨rfl, rfl⟩ capacity file (Nat.le_trans short (Nat.le_of_eq asked))).1
    obtain ⟨dataSize, same⟩ := readFromFile_headless files c file
    rw [same]
    exact ordered.withHdr _
  | true =>
    by_cases refused : c.Refuses files file
    · rw [readFromFile_refused refused]
      exact cleared.toOrdered.withHdr _
    · obtain ⟨agrees, some⟩ := not_or.mp refused
      have fits := ((announced rfl).resolve_left (mt List.length_eq_zero_iff.mpr some)).resolve_left
        agrees
      have short := files.read_length (files.read file ChunkHeader.size).1
        (c.headerFrom files file).dataSize.toNat
      have ordered := (readData_kept (c := c.clear.setHdr (c.headerFrom files file)) ⟨rfl, rfl⟩
        capacity (files.read file ChunkHeader.size).1 (Nat.le_trans short fits)).1
      obtain whole | cleared := (readFromFile_taken refused).2
      · rw [whole]
        exact ordered
      · rw [cleared]
        exact (clear_kept ordered.capacity).toOrdered

theorem readFromFile_kept (capacity : c.buffTail = defaultChunkDataSize) {file : φ}
    {readHeader : Bool}
    (permitted : (ChunkCall.readFromFile (some file) readHeader).Permitted files c) :
    (c.readFromFile files (some file) readHeader).1.Kept := by
  have cleared := clear_kept capacity
  cases readHeader with
  | true => exact readWithHeader_kept cleared ⟨rfl, rfl⟩ permitted
  | false => exact readWithoutHeader_kept cleared ⟨rfl, rfl⟩ rfl permitted

/-- A call that stays inside the buffer keeps the pointers in order. -/
theorem Ordered.operate (ordered : c.Ordered) {call : ChunkCall φ} (inside : call.Inside files c) :
    (c.operate files call).1.Ordered := by
  cases call with
  | pushBack d1 d1Size d2 d2Size => exact ordered.pushBack d1 d2 inside
  | popFront size => exact popFront_ordered ordered inside
  | clear => exact (clear_kept ordered.capacity).toOrdered
  | writeToFile pFile groupNumber writeHeader =>
    exact writeToFile_ordered ordered pFile groupNumber writeHeader
  | readFromFile pFile readHeader =>
    cases pFile with
    | none => exact ordered
    | some file => exact readFromFile_ordered ordered.capacity inside

/-- A permitted call keeps the header right. -/
theorem Kept.operate (kept : c.Kept) {call : ChunkCall φ} (permitted : call.Permitted files c) :
    (c.operate files call).1.Kept := by
  cases call with
  | pushBack d1 d1Size d2 d2Size => exact kept.pushBack d1 d2 permitted
  | popFront size => exact kept.popFront permitted
  | clear => exact clear_kept kept.capacity
  | writeToFile pFile groupNumber writeHeader => exact kept.writeToFile pFile groupNumber writeHeader
  | readFromFile pFile readHeader =>
    cases pFile with
    | none => exact kept
    | some file => exact readFromFile_kept kept.capacity permitted

/-- A call that clears makes the header right, whatever it was before. -/
theorem clears_kept (capacity : c.buffTail = defaultChunkDataSize) {call : ChunkCall φ}
    (clears : call.Clears files c) (permitted : call.Permitted files c) :
    (c.operate files call).1.Kept := by
  cases call with
  | pushBack d1 d1Size d2 d2Size => cases clears
  | popFront size =>
    have cleared : (c.popFront size).1 = c.clear := congrArg Prod.fst (if_neg (Int.not_le.mpr clears))
    exact Eq.subst (motive := Chunk.Kept) cleared.symm (clear_kept capacity)
  | clear => exact clear_kept capacity
  | writeToFile pFile groupNumber writeHeader =>
    cases pFile with
    | none => cases clears
    | some file =>
      unfold operate
      dsimp only
      rw [writeToFile_clears clears]
      exact clear_kept capacity
  | readFromFile pFile readHeader =>
    obtain ⟨file, rfl⟩ := Option.isSome_iff_exists.mp clears
    exact readFromFile_kept capacity permitted

/-- As long as the calls stay inside the buffer, its pointers are in order. From a call that
clears on, a chunk whose calls are all permitted has a header that agrees with its data,
whatever the files answer. -/
theorem run_consistent (files : LogFile φ) (pHandle : UInt32) (buff : Int → UInt8)
    {before rest : List (ChunkCall φ)} {first : ChunkCall φ}
    (inside : Along (Chunk.operate files) (fun c call => call.Inside files c)
      (cDataChunk pHandle buff) before)
    (clears : first.Clears files (run (Chunk.operate files) (cDataChunk pHandle buff) before).1)
    (permitted : Along (Chunk.operate files) (fun c call => call.Permitted files c)
      (run (Chunk.operate files) (cDataChunk pHandle buff) before).1 (first :: rest)) :
    (run (Chunk.operate files) (cDataChunk pHandle buff) before).1.Ordered ∧
      (run (Chunk.operate files) (cDataChunk pHandle buff) (before ++ first :: rest)).1.Consistent := by
  have new : (cDataChunk pHandle buff).Ordered :=
    ⟨rfl, Int.le_refl 0, Int.le_refl 0, Int.natCast_nonneg defaultChunkDataSize⟩
  have ordered : (run (Chunk.operate files) (cDataChunk pHandle buff) before).1.Ordered :=
    run_invariant (fun _ _ ordered allowed => ordered.operate allowed) new inside
  obtain ⟨now, later⟩ := permitted
  have begun := clears_kept ordered.capacity clears now
  rw [run_append]
  exact ⟨ordered, (run_invariant (fun _ _ kept allowed => kept.operate allowed) begun
    later).consistent⟩

end Chunk

instance {φ : Type*} (files : LogFile φ) (c : Chunk) (file : φ) (readHeader : Bool) :
    Decidable (c.Announced files file readHeader) :=
  inferInstanceAs (Decidable (_ → _ ∨ _ ∨ _))

instance {φ : Type*} (files : LogFile φ) (c : Chunk) (call : ChunkCall φ) :
    Decidable (call.Inside files c) :=
  match call with
  | .pushBack .. => inferInstanceAs (Decidable (_ ∧ _ ∧ _))
  | .popFront _ => inferInstanceAs (Decidable (_ ≤ _))
  | .clear | .readFromFile none _ => isTrue trivial
  | .writeToFile .. => inferInstanceAs (Decidable (_ → _))
  | .readFromFile (some _) _ => inferInstanceAs (Decidable (Chunk.Announced ..))

instance {φ : Type*} (files : LogFile φ) (c : Chunk) (call : ChunkCall φ) :
    Decidable (call.Permitted files c) :=
  match call with
  | .pushBack .. => inferInstanceAs (Decidable (_ ∧ _ ∧ _))
  | .popFront _ => inferInstanceAs (Decidable (_ ≤ _))
  | .clear | .writeToFile .. | .readFromFile none _ => isTrue trivial
  | .readFromFile (some _) true => inferInstanceAs (Decidable (_ = _ ∨ _ = _ ∧ _ ≤ _))
  | .readFromFile (some _) false => inferInstanceAs (Decidable (_ = _))

def sampleChunkFile : List UInt8 :=
  { (Chunk.cDataChunk 0 fun _ => 0).hdr with dataSize := 3, invDataSize := ~~~3 }.bytes ++ [7, 8, 9]

/-- A new chunk that is filled, and read into from a file whose header does not agree with
itself. -/
def firstCalls : List (ChunkCall (List UInt8)) :=
  [.pushBack (fun k => UInt8.ofNat k) 2 (fun _ => 5) 4,
    .readFromFile (some (List.replicate 40 0)) true, .popFront 0]

def sampleCalls : List (ChunkCall (List UInt8)) :=
  [.pushBack (fun k => UInt8.ofNat k) 2 (fun _ => 5) 4, .writeToFile (some []) 0 true,
    .readFromFile (some sampleChunkFile) true, .popFront 2]

theorem run_consistent_read :
    ((run (Chunk.operate storedFile) (Chunk.cDataChunk 0 fun _ => 0) firstCalls).1.Ordered ∧
      (run (Chunk.operate storedFile) (Chunk.cDataChunk 0 fun _ => 0)
        (firstCalls ++ .popFront 1 :: sampleCalls)).1.Consistent) ∧
      (run (Chunk.operate storedFile) (Chunk.cDataChunk 0 fun _ => 0)
        (firstCalls ++ .popFront 1 :: sampleCalls)).2 = [6, -1, 1, 0, 6, 46, 43, 1] :=
  ⟨Chunk.run_consistent storedFile 0 (fun _ => 0) (by decide +kernel)
    (show Chunk.getDataSize _ < 1 by decide +kernel) (by decide +kernel), by decide +kernel⟩

/-- A new chunk announces 34 bytes that it does not have. Once it is cleared, a read without a
header leaves the complement of the size as it was, and a read of a header that does not agree
with itself leaves that header in the chunk. -/
theorem new_chunk_inconsistent :
    ¬(Chunk.cDataChunk 0 fun _ => 0).Consistent ∧
      ¬(run (Chunk.operate storedFile) (Chunk.cDataChunk 0 fun _ => 0)
          [.clear, .readFromFile (some [7]) false]).1.Consistent ∧
      ¬(run (Chunk.operate storedFile) (Chunk.cDataChunk 0 fun _ => 0)
          [.clear, .readFromFile (some (List.replicate 40 0)) true]).1.Consistent := by
  refine ⟨fun consistent => ?_, fun consistent => ?_, fun consistent => ?_⟩
  · exact absurd consistent.dataSize (by decide +kernel)
  · exact absurd consistent.invDataSize (by decide +kernel)
  · exact absurd consistent.invDataSize (by decide +kernel)

end InertialSense.DataLog
