import InertialSense.DataLog.DeviceLog
import InertialSense.Foundation.Strtol

/-! `ISDataMappings`: the fields of a data set, the texts that are made of them, and what is read
from a text. The fields here are integers and strings. -/

namespace InertialSense.DataLog

open Foundation

def maxStringLength : Nat := 2048

/-- `eDataType`. -/
inductive DataType where
  | int8
  | uint8
  | int16
  | uint16
  | int32
  | uint32
  | int64
  | uint64
  | string
deriving DecidableEq

namespace DataType

/-- `s_eDataTypeSize`. -/
def size : DataType → Nat
  | int8 | uint8 => 1
  | int16 | uint16 => 2
  | int32 | uint32 => 4
  | int64 | uint64 => 8
  | string => 0

def signed : DataType → Bool
  | int8 | int16 | int32 | int64 => true
  | _ => false

/-- The integer that is stored as these bytes. -/
def valueOf (type : DataType) (bytes : List UInt8) : Int :=
  if type.signed then Int.bmod (fromBytes bytes) (2 ^ (8 * type.size)) else fromBytes bytes

/-- An integer as a text. -/
def toText (type : DataType) (hex : Bool) (bytes : List UInt8) : List Char :=
  if hex then
    -- the small types are promoted to `int`
    upperHex (2 * type.size) (type.valueOf bytes % 2 ^ max 32 (8 * type.size)).toNat
  else decimal (type.valueOf bytes)

end DataType

/-- `data_info_t`. -/
structure DataInfo where
  offset : Nat
  size : Nat
  type : DataType
  arraySize : Nat
  elementSize : Nat
  flags : UInt32
  name : List Char

namespace DataInfo

def displayHex (info : DataInfo) : Bool := info.flags &&& 0x00000100 ≠ 0

/-- What `DataMapper` says of a field. -/
structure Mapped (info : DataInfo) : Prop where
  scalar : info.arraySize = 0 → info.elementSize = info.size
  elements : info.arraySize * info.elementSize ≤ info.size
  integer : info.type ≠ .string → info.elementSize = info.type.size
  some : 0 < info.size
  name : info.name ≠ [] ∧ ∀ c ∈ info.name, c ∉ ['"', ':', '\\', ',', '\n', '\r', '\x00']

end DataInfo

/-- `sCaseInsensitiveCompare`. -/
def nameLess : List Char → List Char → Bool
  | _, [] => false
  | [], _ :: _ => true
  | c1 :: s1, c2 :: s2 =>
    if c1.toLower ≠ c2.toLower then c1.toLower < c2.toLower else nameLess s1 s2

/-- `data_set_t`, with the fields in the order of `nameToInfo`: members of a struct. -/
structure DataSet where
  size : Nat
  nameToInfo : List DataInfo
  sorted : nameToInfo.Pairwise fun first second => nameLess first.name second.name
  mapped : ∀ info ∈ nameToInfo, info.Mapped
  inside : ∀ info ∈ nameToInfo, info.offset + info.size ≤ size
  disjoint : nameToInfo.Pairwise fun first second =>
    first.offset + first.size ≤ second.offset ∨ second.offset + second.size ≤ first.offset
  small : size < 2 ^ 16

/-- `find` in `nameToInfo`. -/
def DataSet.find (set : DataSet) (name : List Char) : Option DataInfo :=
  set.nameToInfo.find? fun info => !nameLess info.name name && !nameLess name info.name

/-- A buffer that is filled, and whether `errno` is `ERANGE`. -/
structure Buffer where
  bytes : Nat → UInt8
  erange : Bool

/-- `FieldData`, in a buffer: where the field is. -/
def fieldData (dataSize : Nat) (info : DataInfo) (arrayIndex : Nat) (hdr : DataHdr) : Option Nat :=
  if info.arraySize ≠ 0 ∧ info.arraySize ≤ arrayIndex then none
  else
    let fullSize := if hdr.size = 0 then dataSize else hdr.size.toNat
    let offset :=
      Int.bmod (info.offset + arrayIndex * info.elementSize - hdr.offset.toNat) (2 ^ 32)
    if 0 ≤ offset ∧ offset < fullSize then some offset.toNat else none

def isJsonEscapeChar (c : Char) : Bool :=
  c ∈ ['"', '\\', '/', '\x08', '\x0c', '\n', '\r', '\t']

def stringChars (json : Bool) : List UInt8 → List Char
  | [] => []
  | byte :: rest =>
    let c := Char.ofUInt8 byte
    if byte = 0 then []
    else if json ∧ isJsonEscapeChar c then
      if rest = [] then [] else '\\' :: c :: stringChars json rest
    else c :: stringChars json rest

def variableToString (type : DataType) (hex : Bool) (bytes : Nat → UInt8) (ptr dataSize : Nat)
    (json : Bool) : List Char :=
  match type with
  | .string => stringChars json (window bytes ptr (min maxStringLength dataSize - 1))
  | type => type.toText hex (window bytes ptr type.size)

def dataToString (dataSize : Nat) (info : DataInfo) (hdr : DataHdr) (bytes : Nat → UInt8)
    (arrayIndex : Nat) (json : Bool) : List Char :=
  match fieldData dataSize info arrayIndex hdr with
  | none => if info.type = .string then ['"', '"'] else ['0']
  | some ptr => variableToString info.type info.displayHex bytes ptr info.size json

def Buffer.assign (buffer : Buffer) (ptr : Nat) (bytes : List UInt8) : Buffer :=
  if buffer.erange then buffer else { buffer with bytes := store buffer.bytes ptr bytes }

def stringToVariable (text : List Char) (buffer : Buffer) (ptr : Nat) (type : DataType)
    (dataSize radix : Nat) (json : Bool) : Buffer :=
  match type with
  | .string =>
    let s2 := text.takeWhile (· ≠ '\x00')
    -- what the loop over an escaped text does is overwritten
    let s2 := if json then s2 else s2.filter (· ≠ '"')
    let data := (s2.map Char.toUInt8).take (dataSize - 1)
    { buffer with bytes := store buffer.bytes ptr (data.rightpad dataSize 0) }
  | type =>
    let (value, outOfRange) := if type.signed then strtol radix text else strtoul radix text
    { buffer with erange := buffer.erange || outOfRange }.assign ptr
      (toBytes type.size (value % 2 ^ (8 * type.size)).toNat)

/-- `StringToData`: nothing if it returns false. -/
def stringToData (dataSize : Nat) (text : List Char) (hdr : DataHdr) (buffer : Buffer)
    (info : DataInfo) (arrayIndex : Nat) (json : Bool) : Option Buffer := do
  let ptr ← fieldData dataSize info arrayIndex hdr
  let radix := if info.displayHex then 16 else 10
  pure (stringToVariable text buffer ptr info.type info.size radix json)

/-- The whole struct of which a packet may hold a part: what it does not hold is zero. -/
def wholeRecord (size : Nat) (hdr : DataHdr) (buf tmpBuffer : Nat → UInt8) : Nat → UInt8 :=
  if hdr.size.toNat < size then
    let before := store tmpBuffer 0 (List.replicate hdr.offset.toNat 0)
    let held := store before hdr.offset.toNat (window buf 0 hdr.size.toNat)
    let dataEnd := hdr.offset.toNat + hdr.size.toNat
    store held dataEnd (List.replicate (size - dataEnd) 0)
  else buf

end InertialSense.DataLog
