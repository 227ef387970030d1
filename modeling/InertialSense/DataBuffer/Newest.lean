import InertialSense.DataBuffer.Model
import InertialSense.Foundation.Run

/-! What `ReadData` is to give: the newest of the records that have been pushed. -/

namespace InertialSense.DataBuffer

open Foundation
open DataLog (Record)

def expanded (structSize : Nat) (data : Record) : List UInt8 :=
  if structSize < data.hdr.offset.toNat + data.hdr.size.toNat then List.replicate structSize 0
  else
    List.replicate data.hdr.offset.toNat 0 ++ data.data ++
      List.replicate (structSize - (data.hdr.offset.toNat + data.hdr.size.toNat)) 0

/-- What has been pushed, with the ports. -/
abbrev History : Type := List (Nat × Record)

namespace History

def records (mappings : Mappings) (history : History) (pHandle id : Nat) : List (List UInt8) :=
  (history.filter fun pushed => pushed.1 = pHandle ∧ pushed.2.hdr.id.toNat = id).map fun pushed =>
    expanded (mappings.dataSize id) pushed.2

/-- The newest records, the oldest of them first. -/
def newest (mappings : Mappings) (history : History) (pHandle id : Nat) : List UInt8 :=
  let records := history.records mappings pHandle id
  (records.drop (records.length - maxItemHistory)).flatten

def step (mappings : Mappings) (history : History) : Call → History × Answer
  | .pushData pHandle data => (history ++ [(pHandle, data)], .pushed 0)
  | .readData pHandle dataId => (history, .read 0 (history.newest mappings pHandle dataId))

/-- The calls that are served: only ports that have been pushed to are read, the id has a file and a size,
the timestamp is in the data, and no offset is before data that fits. -/
def Served (mappings : Mappings) (history : History) : Call → Prop
  | .pushData _ data =>
    (1 ≤ data.hdr.id.toNat ∧ data.hdr.id.toNat < fileCount) ∧ 0 < mappings.dataSize data.hdr.id.toNat ∧
      mappings.timestampReads data ≤ data.hdr.size.toNat ∧
      (data.hdr.offset = 0 ∨
        mappings.dataSize data.hdr.id.toNat < data.hdr.offset.toNat + data.hdr.size.toNat)
  | .readData pHandle dataId =>
    (∃ pushed ∈ history, pushed.1 = pHandle) ∧ 1 ≤ dataId ∧ dataId < fileCount

end History

/-- A file holds the newest of some records, and its `writeOffset` is its position. -/
structure BufferFile.Keeps (b : BufferFile) (size : Nat) (records : List (List UInt8)) : Prop where
  ring : RingHolds maxItemHistory size records b.file
  offset : b.writeOffset = b.file.pos

theorem BufferFile.new_keeps (size : Nat) : BufferFile.new.Keeps size [] :=
  ⟨.empty maxItemHistory size, rfl⟩

section Files

variable {b : BufferFile} {size : Nat} {records : List (List UInt8)}

theorem BufferFile.append_isSome (b : BufferFile) (positive : 0 < size) (data : List UInt8) :
    ∃ written, b.append size data = some written := by
  unfold BufferFile.append
  dsimp only
  rw [if_neg (Nat.ne_of_gt positive)]
  split
  · exact ⟨_, rfl⟩
  · exact ⟨_, rfl⟩

theorem BufferFile.Keeps.append (keeps : b.Keeps size records) (positive : 0 < size) {record : List UInt8}
    (whole : record.length = size) :
    ∃ written, b.append size record = some written ∧ written.Keeps size (records ++ [record]) := by
  have ring := keeps.ring.append (by decide) positive whole
  unfold BufferFile.append
  dsimp only
  rw [if_neg (Nat.ne_of_gt positive), keeps.offset]
  unfold ringNext at ring
  split
  case isTrue full =>
    rw [if_pos full] at ring
    exact ⟨_, rfl, ring, rfl⟩
  case isFalse room =>
    rw [if_neg room] at ring
    have place : (b.file.write record).pos = b.file.pos + size := congrArg (b.file.pos + ·) whole
    rw [← place] at ring
    exact ⟨_, rfl, ring, place.symm⟩

/-- Everything is read, and the position is where it was. -/
theorem BufferFile.Keeps.readAll (keeps : b.Keeps size records) :
    b.readAll = some (b, (records.drop (records.length - maxItemHistory)).flatten) := by
  obtain ⟨⟨-, pos, length, rotated⟩, offset⟩ := keeps
  have inside : b.file.pos ≤ b.file.content.length := by
    rw [pos, length]
    refine Nat.mul_le_mul_right size (Nat.le_min.mpr ⟨Nat.mod_le .., ?_⟩)
    exact Nat.le_of_lt (Nat.mod_lt _ (by decide))
  have after : (b.file.content.drop b.file.pos).take (b.file.content.length - b.file.pos) =
      b.file.content.drop b.file.pos := by
    rw [← List.length_drop, List.take_length]
  have before : (b.file.content.take b.file.pos).length = b.file.pos := List.length_take_of_le inside
  have front : b.file.read (b.file.content.length - b.file.pos) =
      (⟨b.file.content, b.file.content.length⟩, b.file.content.drop b.file.pos) := by
    unfold PosFile.read
    dsimp only
    rw [after, List.length_drop, Nat.add_sub_of_le inside]
  have back : ((PosFile.mk b.file.content b.file.content.length).seek 0).read b.file.pos =
      (⟨b.file.content, b.file.pos⟩, b.file.content.take b.file.pos) := by
    unfold PosFile.read PosFile.seek
    dsimp only
    rw [List.drop_zero, before, Nat.zero_add]
  unfold BufferFile.readAll
  dsimp only
  rw [if_neg (Nat.not_lt.mpr inside), ← rotated, front, back]
  unfold PosFile.seek PosFile.rotated
  have same : BufferFile.mk b.file b.file.pos = b := by rw [← offset]
  rw [offset]
  split
  case isTrue => exact congrArg (fun b => some (b, _)) same
  case isFalse zero =>
    have nothing : b.file.content.take b.file.pos = [] := by rw [Classical.not_not.mp zero, List.take_zero]
    rw [nothing]
    exact congrArg (fun b => some (b, _)) same

end Files

section Records

variable {data : Record} {structSize : Nat}

theorem length_expanded (data : Record) (structSize : Nat) : (expanded structSize data).length = structSize := by
  unfold expanded
  split
  case isTrue => exact List.length_replicate
  case isFalse fits =>
    rw [List.length_append, List.length_append, List.length_replicate, List.length_replicate, data.sized]
    omega

theorem dataBuffer_eq_expanded
    (start : data.hdr.offset = 0 ∨ structSize < data.hdr.offset.toNat + data.hdr.size.toNat) :
    dataBuffer structSize data = expanded structSize data := by
  unfold dataBuffer expanded
  split
  case isTrue => rfl
  case isFalse fits =>
    have zero : data.hdr.offset.toNat = 0 := congrArg UInt16.toNat (start.resolve_right fits)
    rw [zero, Nat.zero_add]

theorem History.records_append (mappings : Mappings) (history : History) (pHandle : Nat) (data : Record)
    (port id : Nat) :
    History.records mappings (history ++ [(pHandle, data)]) port id =
      History.records mappings history port id ++
        if port = pHandle ∧ id = data.hdr.id.toNat then [expanded (mappings.dataSize id) data] else [] := by
  unfold History.records
  rw [List.filter_append, List.map_append, List.filter_singleton]
  congr 1
  by_cases here : port = pHandle ∧ id = data.hdr.id.toNat
  · simp [here]
  · have elsewhere : ¬(pHandle = port ∧ data.hdr.id.toNat = id) := fun same => here ⟨same.1.symm, same.2.symm⟩
    simp [here, elsewhere]

end Records

/-- The files hold what has been pushed. -/
structure Follows (mappings : Mappings) (history : History) (b : Buffers) : Prop where
  ports : ∀ pushed ∈ history, pushed.1 < b.ports
  keeps : ∀ port id, (b.buffers port id).Keeps (mappings.dataSize id) (history.records mappings port id)

namespace Follows

variable {mappings : Mappings} {history : History} {b : Buffers}

theorem fresh (mappings : Mappings) : Follows mappings [] .fresh :=
  ⟨nofun, fun _ _ => BufferFile.new_keeps _⟩

theorem ensureBuffers (follows : Follows mappings history b) (pHandle : Nat) :
    Follows mappings history (b.ensureBuffers pHandle) := by
  refine ⟨fun pushed member => Nat.lt_of_lt_of_le (follows.ports pushed member) (Nat.le_max_left ..), ?_⟩
  intro port id
  unfold Buffers.ensureBuffers
  dsimp only
  split
  case isFalse => exact follows.keeps port id
  case isTrue added =>
    have nothing : history.records mappings port id = [] := by
      unfold History.records
      rw [List.filter_eq_nil_iff.mpr, List.map_nil]
      intro pushed member
      have earlier := follows.ports pushed member
      simp only [decide_eq_true_eq, not_and]
      omega
    rw [nothing]
    exact BufferFile.new_keeps _

/-- A push appends its record to one file. -/
theorem pushData (follows : Follows mappings history b) {pHandle : Nat} {data : Record}
    (served : history.Served mappings (.pushData pHandle data)) :
    ∃ b', b.pushData mappings pHandle data = .ok (b', 0) ∧
      Follows mappings (history ++ [(pHandle, data)]) b' := by
  obtain ⟨⟨low, high⟩, positive, inside, start⟩ := served
  have ensured := follows.ensureBuffers pHandle
  obtain ⟨written, append, holds⟩ := (ensured.keeps pHandle data.hdr.id.toNat).append positive
    (length_expanded data (mappings.dataSize data.hdr.id.toNat))
  have known : ¬(data.hdr.id.toNat = 0 ∨ didCount ≤ data.hdr.id.toNat) := by
    unfold fileCount at high
    omega
  obtain ⟨stamped, stamp⟩ := @BufferFile.append_isSome 4 ((b.ensureBuffers pHandle).timestamps pHandle
    data.hdr.id.toNat) (by decide) (toBytes 4 (mappings.stamp data).toNat)
  have pushed : b.pushData mappings pHandle data = .ok ({ b.ensureBuffers pHandle with
      buffers := replaceFile (b.ensureBuffers pHandle).buffers pHandle data.hdr.id.toNat written
      timestamps := replaceFile (b.ensureBuffers pHandle).timestamps pHandle data.hdr.id.toNat stamped }, 0) := by
    unfold Buffers.pushData
    dsimp only
    rw [if_neg known, if_neg (by omega), dataBuffer_eq_expanded start, append, stamp]
  refine ⟨_, pushed, ?_, ?_⟩
  · intro pushed member
    obtain earlier | last := List.mem_append.mp member
    · exact ensured.ports pushed earlier
    · rw [List.mem_singleton.mp last]
      exact Nat.lt_of_lt_of_le (Nat.lt_succ_self pHandle) (Nat.le_max_right ..)
  · intro port id
    rw [History.records_append]
    unfold replaceFile
    dsimp only
    split
    case isTrue here => rw [here.1, here.2]; exact holds
    case isFalse => rw [List.append_nil]; exact ensured.keeps port id

/-- A read gives the newest records and leaves the files. -/
theorem readData (follows : Follows mappings history b) {pHandle dataId : Nat}
    (served : history.Served mappings (.readData pHandle dataId)) :
    b.readData pHandle dataId = .ok (b, 0, history.newest mappings pHandle dataId) := by
  obtain ⟨⟨pushed, member, rfl⟩, low, high⟩ := served
  have port := follows.ports pushed member
  have same : replaceFile b.buffers pushed.1 dataId (b.buffers pushed.1 dataId) = b.buffers := by
    funext port id
    unfold replaceFile
    split
    case isTrue here => rw [here.1, here.2]
    case isFalse => rfl
  have known : ¬(dataId = 0 ∨ didCount ≤ dataId) := by
    unfold fileCount at high
    omega
  unfold Buffers.readData
  rw [if_neg known, if_neg (Nat.not_le.mpr port), if_neg (Nat.not_le.mpr high),
    (follows.keeps pushed.1 dataId).readAll]
  dsimp only
  rw [same]
  rfl

end Follows

/-- If the calls are served, each read answers the newest records of its port and id. -/
theorem answers_newest (mappings : Mappings) (calls : List Call)
    (served : Along (History.step mappings) (History.Served mappings) [] calls) :
    (run (step mappings) (.ok .fresh) calls).2 = (run (History.step mappings) [] calls).2 := by
  let related : History → Except Fault Buffers → Prop :=
    fun history state => ∃ b, state = .ok b ∧ Follows mappings history b
  have simulated : ∀ history state call, related history state → history.Served mappings call →
      related (History.step mappings history call).1 (step mappings state call).1 ∧
        (History.step mappings history call).2 = (step mappings state call).2 := by
    rintro history _ call ⟨b, rfl, follows⟩ served
    cases call with
    | pushData pHandle data =>
      obtain ⟨b', pushed, follows⟩ := follows.pushData served
      unfold step
      dsimp only
      rw [pushed]
      exact ⟨⟨b', rfl, follows⟩, rfl⟩
    | readData pHandle dataId =>
      unfold step
      dsimp only
      rw [follows.readData served]
      exact ⟨⟨b, rfl, follows⟩, rfl⟩
  have initial : related [] (.ok .fresh) := ⟨.fresh, rfl, .fresh mappings⟩
  exact (run_refines simulated initial served).2.symm

/-- Every structure has the eight bytes of `system_command_t`, without a timestamp. -/
def eightByteMappings : Mappings := ⟨fun _ => ⟨8, none⟩, fun _ => 0⟩

/-- One of the words of `DID_SYS_CMD`. -/
def halfRecord (offset : UInt16) : Record := ⟨⟨7, 4, offset⟩, [10, 20, 30, 40], rfl⟩

theorem answers_newest_first_half :
    (run (step eightByteMappings) (.ok .fresh) [.pushData 0 (halfRecord 0), .readData 0 7]).2 =
      (run (History.step eightByteMappings) [] [.pushData 0 (halfRecord 0), .readData 0 7]).2 := by
  refine answers_newest _ _ ⟨⟨by decide, by decide, by decide, by decide⟩, ⟨?_, by decide⟩, trivial⟩
  exact ⟨_, List.mem_singleton_self _, rfl⟩

/-- The second half is behind four zeros, and four more zeros are behind it. -/
theorem second_half_too_long :
    (run (step eightByteMappings) (.ok .fresh) [.pushData 0 (halfRecord 4), .readData 0 7]).2 =
        [.pushed 0, .read 0 [0, 0, 0, 0, 10, 20, 30, 40, 0, 0, 0, 0]] ∧
      (run (History.step eightByteMappings) [] [.pushData 0 (halfRecord 4), .readData 0 7]).2 =
        [.pushed 0, .read 0 [0, 0, 0, 0, 10, 20, 30, 40]] := by
  decide

end InertialSense.DataBuffer
