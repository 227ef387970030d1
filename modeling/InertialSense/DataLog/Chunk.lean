import InertialSense.Foundation.LittleEndian
import InertialSense.Foundation.Run

/-! `DataChunk.cpp`: a buffer of log data and the header under which it goes into a file.
Pointers into the buffer are kept as distances from `m_buffHead`. -/

namespace InertialSense.DataLog

open Foundation

/-- `static_cast<int32_t>`. -/
def int32 (value : Int) : Int := value.bmod (2 ^ 32)

/-- `static_cast<uint32_t>`. -/
def uint32 (value : Int) : UInt32 := UInt32.ofNat (value % 2 ^ 32).toNat

def defaultChunkDataSize : Nat := 128 * 1024

def dataChunkMarker : UInt32 := 0xFC05EA32

/-- `sChunkHeader`. -/
structure ChunkHeader where
  marker : UInt32
  version : UInt8
  dataOffset : UInt8
  protocolVersion : Vector UInt8 2
  name : Vector UInt8 4
  invName : Vector UInt8 4
  dataSize : UInt32
  invDataSize : UInt32
  grpNum : UInt32
  devSerialNum : UInt32
  pHandle : UInt32
  fwVersion : Vector UInt8 4

namespace ChunkHeader

/-- `sizeof(sChunkHeader)`. -/
def size : Nat := 40

/-- The bytes of a `char[4]`. -/
def chars (text : Vector UInt8 4) : List UInt8 := [text[0], text[1], text[2], text[3]]

/-- The header as it lies in memory. -/
def bytes (hdr : ChunkHeader) : List UInt8 :=
  toBytes 4 hdr.marker.toNat ++ [hdr.version, hdr.dataOffset] ++
    [hdr.protocolVersion[0], hdr.protocolVersion[1]] ++ chars hdr.name ++ chars hdr.invName ++
    toBytes 4 hdr.dataSize.toNat ++ toBytes 4 hdr.invDataSize.toNat ++
    toBytes 4 hdr.grpNum.toNat ++ toBytes 4 hdr.devSerialNum.toNat ++
    toBytes 4 hdr.pHandle.toNat ++ chars hdr.fwVersion

def ofMemory (mem : Nat → UInt8) : ChunkHeader :=
  { marker := wordAt mem 0
    version := mem 4
    dataOffset := mem 5
    protocolVersion := .ofFn fun k => mem (6 + k)
    name := .ofFn fun k => mem (8 + k)
    invName := .ofFn fun k => mem (12 + k)
    dataSize := wordAt mem 16
    invDataSize := wordAt mem 20
    grpNum := wordAt mem 24
    devSerialNum := wordAt mem 28
    pHandle := wordAt mem 32
    fwVersion := .ofFn fun k => mem (36 + k) }

/-- What `fread` leaves in the header: bytes that were not read stay. -/
def overwrite (hdr : ChunkHeader) (read : List UInt8) : ChunkHeader :=
  ofMemory (store (fun k => hdr.bytes.getD k 0) 0 read)

@[simp] theorem bytes_length (hdr : ChunkHeader) : hdr.bytes.length = size := rfl

private theorem ofFn_chars (text : Vector UInt8 4) {bytes : List UInt8} {place : Nat}
    (here : (bytes.drop place).take 4 = chars text) :
    (Vector.ofFn fun k : Fin 4 => bytes.getD (place + k) 0) = text := by
  apply Vector.ext
  intro k inside
  have found : bytes.getD (place + k) 0 = (chars text).getD k 0 := by
    rw [← here]
    simp [List.getD_eq_getElem?_getD, inside]
  rw [Vector.getElem_ofFn, found]
  match k, inside with
  | 0, _ | 1, _ | 2, _ | 3, _ => rfl

theorem ofMemory_bytes (hdr : ChunkHeader) : ofMemory (fun k => hdr.bytes.getD k 0) = hdr := by
  have word (value : UInt32) {place : Nat} (inside : place + 4 ≤ size)
      (here : (hdr.bytes.drop place).take 4 = toBytes 4 value.toNat) :
      wordAt (fun k => hdr.bytes.getD k 0) place = value := by
    rw [wordAt, window_getD _ _ inside, here, ofNat_fromBytes]
  have version : (Vector.ofFn fun k : Fin 2 => hdr.bytes.getD (6 + k) 0) =
      hdr.protocolVersion := by
    apply Vector.ext
    intro k inside
    have places : k = 0 ∨ k = 1 := by omega
    rcases places with rfl | rfl <;> simp [bytes, toBytes]
  unfold ofMemory
  rw [word hdr.marker, word hdr.dataSize, word hdr.invDataSize, word hdr.grpNum,
    word hdr.devSerialNum, word hdr.pHandle, version, ofFn_chars hdr.name, ofFn_chars hdr.invName,
    ofFn_chars hdr.fwVersion]
  all_goals first | decide | simp [bytes, toBytes, chars]

/-- A read that brings nothing leaves the header as it is. -/
theorem overwrite_nil (hdr : ChunkHeader) : hdr.overwrite [] = hdr := by
  unfold overwrite
  rw [store_nil, ofMemory_bytes]

end ChunkHeader

/-- A `cISLogFileBase`: `write` returns how many bytes were written, `read` the bytes it got,
never more than asked for. -/
structure LogFile (φ : Type*) where
  write : φ → List UInt8 → φ × Nat
  read : φ → Nat → φ × List UInt8
  read_length : ∀ file len, (read file len).2.length ≤ len

/-- A file that stores what is written and returns it: in write mode its state is what was
written so far, in read mode what is left to read. -/
def storedFile : LogFile (List UInt8) :=
  { write := fun contents bytes => (contents ++ bytes, bytes.length)
    read := fun rest len => (rest.drop len, rest.take len)
    read_length := fun rest len => List.length_take_le len rest }

/-- `count` bytes from the pointer on. -/
def bytesAt (mem : Int → UInt8) (start : Int) (count : Nat) : List UInt8 :=
  window (fun k : Nat => mem (start + k)) 0 count

/-- `memcpy` to a pointer. -/
def copyTo (mem : Int → UInt8) (place : Int) (data : List UInt8) : Int → UInt8 := fun address =>
  if place ≤ address then data[(address - place).toNat]?.getD (mem address) else mem address

/-- `cDataChunk`. -/
structure Chunk where
  hdr : ChunkHeader
  buff : Int → UInt8
  buffTail : Int
  dataHead : Int
  dataTail : Int

namespace Chunk

variable {φ : Type*}

def getBuffFree (c : Chunk) : Int := int32 (c.buffTail - c.dataTail)

def getDataSize (c : Chunk) : Int := int32 (c.dataTail - c.dataHead)

def setHdr (c : Chunk) (hdr : ChunkHeader) : Chunk := { c with hdr }

/-- `m_hdr.dataSize = ..`, with nothing else changed. -/
def setDataSize (c : Chunk) (dataSize : UInt32) : Chunk :=
  { c with hdr := { c.hdr with dataSize } }

/-- `m_hdr.devSerialNum = ..`. -/
def setDevSerialNum (c : Chunk) (devSerialNum : UInt32) : Chunk :=
  c.setHdr { c.hdr with devSerialNum }

/-- `m_hdr.grpNum = ..`. -/
def setGrpNum (c : Chunk) (grpNum : UInt32) : Chunk :=
  { c with hdr := { c.hdr with grpNum } }

def clear (c : Chunk) : Chunk :=
  { c with
    hdr := { c.hdr with dataSize := 0, invDataSize := ~~~0 }
    dataHead := 0
    dataTail := 0 }

/-- `cDataChunk()`. The buffer and `pHandle` are not initialised. -/
def cDataChunk (pHandle : UInt32) (buff : Int → UInt8) : Chunk :=
  { hdr :=
      { marker := dataChunkMarker
        version := 2
        dataOffset := 34
        protocolVersion := #v[2, 0]
        name := #v[0x50, 0x44, 0x41, 0x54]
        invName := #v[0x50, 0x44, 0x41, 0x54].map fun byte => ~~~byte
        -- `Clear` has set it to 0
        dataSize := 34
        invDataSize := ~~~0
        grpNum := 0
        devSerialNum := 0
        pHandle
        fwVersion := #v[0, 0, 0, 0] }
    buff
    buffTail := defaultChunkDataSize
    dataHead := 0
    dataTail := 0 }

/-- The `if` of `PushBack` for one of the two blocks. -/
def append (c : Chunk) (data : Nat → UInt8) (size : Int) : Chunk :=
  if size > 0 then
    { c with
      buff := copyTo c.buff c.dataTail (window data 0 size.toNat)
      dataTail := c.dataTail + size
      hdr := { c.hdr with dataSize := c.hdr.dataSize + uint32 size } }
  else c

/-- `PushBack`: the number of bytes added, 0 if they do not fit. -/
def pushBack (c : Chunk) (d1 : Nat → UInt8) (d1Size : Int) (d2 : Nat → UInt8) (d2Size : Int) :
    Chunk × Int :=
  let nBytes := int32 (d1Size + d2Size)
  if nBytes > c.getBuffFree then (c, 0)
  else
    let c := (c.append d1 d1Size).append d2 d2Size
    ({ c with hdr := { c.hdr with invDataSize := ~~~c.hdr.dataSize } }, nBytes)

/-- `GetDataPtr`: nothing if there is no data. -/
def getDataPtr (c : Chunk) : Option Int := if c.getDataSize ≤ 0 then none else some c.dataHead

def popFront (c : Chunk) (size : Int) : Chunk × Bool :=
  if size ≤ c.getDataSize then
    let dataSize := c.hdr.dataSize - uint32 size
    ({ c with
        dataHead := c.dataHead + size
        hdr := { c.hdr with dataSize, invDataSize := ~~~dataSize } }, true)
  else (c.clear, false)

/-- `WriteToFile`: the number of bytes written, or -1. -/
def writeToFile (files : LogFile φ) (c : Chunk) (pFile : Option φ) (groupNumber : Int)
    (writeHeader : Bool) : Chunk × Option φ × Int :=
  match pFile with
  | none => (c, none, -1)
  | some file =>
    let c := c.setGrpNum (uint32 groupNumber)
    let header := if writeHeader then files.write file c.hdr.bytes else (file, 0)
    let data := files.write header.1 (bytesAt c.buff c.dataHead c.hdr.dataSize.toNat)
    let nBytes := int32 header.2 + int32 data.2
    if writeHeader ∧ nBytes ≠ ChunkHeader.size + int32 c.hdr.dataSize.toNat then
      (c, some data.1, -1)
    else (c.clear, some data.1, nBytes)

/-- The data part of `ReadFromFile`. -/
def readData (files : LogFile φ) (c : Chunk) (file : φ) : Chunk × φ :=
  let read := files.read file c.hdr.dataSize.toNat
  ({ c with buff := copyTo c.buff 0 read.2, dataTail := c.dataTail + int32 read.2.length }, read.1)

/-- `ReadFromFile` behind the chunk header, of which so many bytes were read. -/
def readBehindHeader (files : LogFile φ) (c : Chunk) (file : φ) (nBytes : Nat) :
    Chunk × Option φ × Int :=
  if c.hdr.dataSize ≠ ~~~c.hdr.invDataSize ∨ nBytes = 0 then (c, some file, -1)
  else
    let read := c.readData files file
    let nBytes := nBytes + read.1.getDataSize
    if read.1.hdr.marker = dataChunkMarker ∧
        nBytes = int32 (UInt32.ofNat ChunkHeader.size + read.1.hdr.dataSize).toNat then
      (read.1, some read.2, nBytes)
    else (read.1.clear, some read.2, -1)

/-- `ReadFromFile` with a chunk header, once the chunk is cleared. -/
def readWithHeader (files : LogFile φ) (c : Chunk) (file : φ) : Chunk × Option φ × Int :=
  let header := files.read file ChunkHeader.size
  (c.setHdr (c.hdr.overwrite header.2)).readBehindHeader files header.1 header.2.length

/-- Without a chunk header, what was read tells the size; `invDataSize` stays as `Clear` has
left it. -/
def measureData (c : Chunk) : Chunk × Int :=
  let dataSize := uint32 c.getDataSize
  (c.setDataSize dataSize, if dataSize > 0 then int32 dataSize.toNat else -1)

/-- `ReadFromFile` without a chunk header, once the chunk is cleared. -/
def readWithoutHeader (files : LogFile φ) (c : Chunk) (file : φ) : Chunk × Option φ × Int :=
  let read := (c.setDataSize (uint32 c.getBuffFree)).readData files file
  (read.1.measureData.1, some read.2, read.1.measureData.2)

/-- `ReadFromFile`: the number of bytes read, or -1. -/
def readFromFile (files : LogFile φ) (c : Chunk) (pFile : Option φ) (readHeader : Bool) :
    Chunk × Option φ × Int :=
  match pFile with
  | none => (c, none, -1)
  | some file =>
    if readHeader then c.clear.readWithHeader files file
    else c.clear.readWithoutHeader files file

end Chunk

end InertialSense.DataLog
