import InertialSense.DataLog.DeviceLog
import InertialSense.Foundation.RecordRing

/-! `ISCommDataBuffer.cpp`: the history of received data, with a file for each port and each id that is
used as a ring of records. -/

namespace InertialSense.DataBuffer

open Foundation
open DataLog (Record)

def maxItemHistory : Nat := 2048

def didCount : Nat := 132

/-- The number of files of a port: `EnsureBuffers` counts from one. -/
def fileCount : Nat := didCount - 1

/-- How `Timestamp` reads a field. -/
inductive TimestampType where
  | f64
  | uint32
  | other
deriving DecidableEq

/-- How many bytes it reads. -/
def TimestampType.width : TimestampType → Nat
  | f64 => 8
  | uint32 => 4
  | other => 0

/-- `data_set_t`, as far as it is used here: `size` and the place and the type of `timestampFields`. -/
structure DataSet where
  size : Nat
  timestampField : Option (Nat × TimestampType)

/-- `cISDataMappings`, and the `float` that is made of a timestamp. -/
structure Mappings where
  dataSet : Nat → DataSet
  stamp : Record → UInt32

namespace Mappings

def dataSize (mappings : Mappings) (id : Nat) : Nat := (mappings.dataSet id).size

/-- The end of what `Timestamp` reads of the data. Raw GNSS data has a time in its first observation,
if its type (which is behind the receiver's index) is an observation and there is one. -/
def timestampReads (mappings : Mappings) (data : Record) : Nat :=
  if data.hdr.size = 0 then 0
  else if data.hdr.id ∈ [60, 69, 70] then
    if data.data.getD 1 0 = 1 then if data.data.getD 2 0 ≠ 0 then 20 else 3 else 2
  else
    match (mappings.dataSet data.hdr.id.toNat).timestampField with
    | none => 0
    | some (place, type) =>
      if data.hdr.offset.toNat ≤ place ∧ place < data.hdr.offset.toNat + data.hdr.size.toNat then
        place - data.hdr.offset.toNat + type.width
      else 0

end Mappings

/-- `buffer_file_t`. -/
structure BufferFile where
  file : PosFile UInt8
  writeOffset : Nat
deriving DecidableEq

def BufferFile.new : BufferFile := ⟨PosFile.empty, 0⟩

/-- What `PushData` does to a file, with the size of a record to count in. There is no answer if that is
zero, since it divides. -/
def BufferFile.append (b : BufferFile) (size : Nat) (data : List UInt8) : Option BufferFile :=
  let file := b.file.write data
  let writeOffset := b.writeOffset + size
  if size = 0 then none
  else if writeOffset / size ≥ maxItemHistory then some ⟨file.seek 0, 0⟩
  else some ⟨file, writeOffset⟩

/-- What `ReadData` reads of a file, first behind the position and then before it. There is no answer if
the position is behind the end, where the index into the data wraps. -/
def BufferFile.readAll (b : BufferFile) : Option (BufferFile × List UInt8) :=
  let size := b.file.content.length
  let pos := b.file.pos
  if size < pos then none
  else
    let after := b.file.read (size - pos)
    let before := if pos ≠ 0 then (after.1.seek 0).read pos else (after.1, [])
    some (⟨before.1.seek b.writeOffset, b.writeOffset⟩, after.2 ++ before.2)

/-- `cComDataBuffer`: the size of `m_buffers`, and the files by port and id. -/
structure Buffers where
  ports : Nat
  buffers : Nat → Nat → BufferFile
  timestamps : Nat → Nat → BufferFile

def Buffers.fresh : Buffers := ⟨0, fun _ _ => .new, fun _ _ => .new⟩

def replaceFile (files : Nat → Nat → BufferFile) (port id : Nat) (b : BufferFile) : Nat → Nat → BufferFile :=
  fun port' id' => if port' = port ∧ id' = id then b else files port' id'

/-- What C++ does not define. -/
inductive Fault where
  | outOfRange
  | divisionByZero
deriving DecidableEq

/-- The vector that is written: it is filled up by the size of the structure without that of the data, also
behind an offset. -/
def dataBuffer (structSize : Nat) (data : Record) : List UInt8 :=
  if structSize < data.hdr.offset.toNat + data.hdr.size.toNat then List.replicate structSize 0
  else
    List.replicate data.hdr.offset.toNat 0 ++ data.data ++
      List.replicate (structSize - data.hdr.size.toNat) 0

namespace Buffers

def ensureBuffers (b : Buffers) (pHandle : Nat) : Buffers :=
  let add (files : Nat → Nat → BufferFile) (port id : Nat) : BufferFile :=
    if b.ports ≤ port ∧ port ≤ pHandle then .new else files port id
  { ports := max b.ports (pHandle + 1), buffers := add b.buffers, timestamps := add b.timestamps }

def pushData (mappings : Mappings) (b : Buffers) (pHandle : Nat) (data : Record) : Except Fault (Buffers × Int) :=
  let id := data.hdr.id.toNat
  if id = 0 ∨ didCount ≤ id then .ok (b, -1)
  else
    let b := b.ensureBuffers pHandle
    let structSize := mappings.dataSize id
    if data.hdr.size.toNat < mappings.timestampReads data ∨ fileCount ≤ id then .error .outOfRange
    else
      match (b.timestamps pHandle id).append 4 (toBytes 4 (mappings.stamp data).toNat),
        (b.buffers pHandle id).append structSize (dataBuffer structSize data) with
      | some stamped, some written =>
        .ok ({ b with
          buffers := replaceFile b.buffers pHandle id written
          timestamps := replaceFile b.timestamps pHandle id stamped }, 0)
      | _, _ => .error .divisionByZero

/-- `ReadData`, with what it leaves in `data`. -/
def readData (b : Buffers) (pHandle dataId : Nat) : Except Fault (Buffers × Int × List UInt8) :=
  if dataId = 0 ∨ didCount ≤ dataId then .ok (b, -1, [])
  else if b.ports ≤ pHandle then .error .outOfRange
  else if fileCount ≤ dataId then .ok (b, -1, [])
  else
    match (b.buffers pHandle dataId).readAll with
    | some (file, data) => .ok ({ b with buffers := replaceFile b.buffers pHandle dataId file }, 0, data)
    | none => .error .outOfRange

end Buffers

/-- A call. -/
inductive Call where
  | pushData (pHandle : Nat) (data : Record)
  | readData (pHandle dataId : Nat)

/-- What comes of a call. -/
inductive Answer where
  | fault (fault : Fault)
  | pushed (result : Int)
  | read (result : Int) (data : List UInt8)
deriving DecidableEq

/-- One call. Nothing is left after a fault. -/
def step (mappings : Mappings) : Except Fault Buffers → Call → Except Fault Buffers × Answer
  | .error fault, _ => (.error fault, .fault fault)
  | .ok b, .pushData pHandle data =>
    match b.pushData mappings pHandle data with
    | .ok (b, result) => (.ok b, .pushed result)
    | .error fault => (.error fault, .fault fault)
  | .ok b, .readData pHandle dataId =>
    match b.readData pHandle dataId with
    | .ok (b, result, data) => (.ok b, .read result data)
    | .error fault => (.error fault, .fault fault)

end InertialSense.DataBuffer
