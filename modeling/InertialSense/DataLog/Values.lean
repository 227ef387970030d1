import InertialSense.DataLog.Conversions
import InertialSense.DataLog.Csv
import InertialSense.DataLog.Json

/-! Data sets with fields of every type, and their texts. What `snprintf` makes of a floating-point
number is a parameter. -/

namespace InertialSense.DataLog.Values

open Foundation

def typeSize : ValueType → Nat
  | .mapped type => type.size
  | .f32 => 4
  | .f64 => 8
  | .binary => 0

/-- Texts of numbers of so many bytes: no text has a comma, and not all are the same. -/
structure Shown (size : Nat) (text : List UInt8 → List Char) : Prop where
  plain : ∀ bytes, ',' ∉ text bytes
  apart : ∃ bytes bytes', bytes.length = size ∧ bytes'.length = size ∧ text bytes ≠ text bytes'

/-- What `snprintf` prints of a `float` and of a `double`, with so many decimals (none is `%.8g`)
and a finite conversion factor. A NaN has another text than zero. -/
structure FloatText (Number : Type) where
  float : Nat → Number → List UInt8 → List Char
  double : Nat → Number → List UInt8 → List Char
  float_shown : ∀ precision conversion, Shown 4 (float precision conversion)
  double_shown : ∀ precision conversion, Shown 8 (double precision conversion)

/-- `data_info_t`. -/
structure DataInfo (Number : Type) where
  offset : Nat
  size : Nat
  type : ValueType
  arraySize : Nat
  elementSize : Nat
  flags : UInt32
  name : List Char
  conversion : Number

namespace DataInfo

variable {Number : Type}

/-- The type of a field is no matter of its place. -/
def located (info : DataInfo Number) : DataLog.DataInfo :=
  { offset := info.offset
    size := info.size
    type := .string
    arraySize := info.arraySize
    elementSize := info.elementSize
    flags := info.flags
    name := info.name }

/-- `DATA_FLAGS_FIXED_DECIMAL_MASK`. -/
def precision (info : DataInfo Number) : Nat := (info.flags &&& 0x0000000F).toNat

/-- A field of a fixed size. -/
def IsNumber (info : DataInfo Number) : Prop :=
  info.type ≠ .mapped .string ∧ info.type ≠ .binary

/-- What `DataMapper` says of a field. -/
structure Mapped (info : DataInfo Number) : Prop where
  scalar : info.arraySize = 0 → info.elementSize = info.size
  elements : info.arraySize * info.elementSize ≤ info.size
  number : info.IsNumber → info.elementSize = typeSize info.type
  some : 0 < info.size

/-- The array indices of the columns of a field. -/
def indices (info : DataInfo Number) : List Nat :=
  if info.arraySize = 0 then [0] else List.range info.arraySize

/-- The text of a field that is not there. -/
def defaultString (info : DataInfo Number) : List Char :=
  match info.type with
  | .mapped .string => ['"', '"']
  | .binary => []
  | _ => ['0']

end DataInfo

/-- `data_set_t`. -/
structure DataSet (Number : Type) where
  size : Nat
  nameToInfo : List (DataInfo Number)
  mapped : ∀ info ∈ nameToInfo, info.Mapped
  inside : ∀ info ∈ nameToInfo, info.offset + info.size ≤ size
  small : size < 2 ^ 16

/-- One text of a row or an object, with what stands before it. -/
structure Column (Number : Type) where
  label : List Char
  info : DataInfo Number
  arrayIndex : Nat

section Texts

variable {Number : Type} (printed : FloatText Number)

/-- `VariableToString`, where `first` is what the buffer for the text starts with. -/
def variableToString (info : DataInfo Number) (bytes : Nat → UInt8) (ptr : Nat) (first : Char) :
    List Char :=
  match info.type with
  | .mapped type => DataLog.variableToString type info.located.displayHex bytes ptr info.size false
  | .f32 => printed.float info.precision info.conversion (window bytes ptr 4)
  | .f64 => printed.double info.precision info.conversion (window bytes ptr 8)
  | .binary => binaryToString (window bytes ptr info.size) false first

def dataToString (dataSize : Nat) (info : DataInfo Number) (hdr : DataHdr) (bytes : Nat → UInt8)
    (arrayIndex : Nat) (first : Char) : List Char :=
  match fieldData dataSize info.located arrayIndex hdr with
  | none => info.defaultString
  | some ptr => variableToString printed info bytes ptr first

/-- The texts of columns, printed into `tmp` one after another. -/
def columnTexts (dataSize : Nat) (hdr : DataHdr) (bytes : Nat → UInt8) :
    Char → List (Column Number) → List Char
  | _, [] => []
  | first, column :: columns =>
    let tmp := dataToString printed dataSize column.info hdr bytes column.arrayIndex first
    column.label ++ tmp ++ columnTexts dataSize hdr bytes (tmp.headD '\x00') columns

/-- The columns of a row. -/
def DataSet.csvColumns (set : DataSet Number) : List (Column Number) :=
  set.nameToInfo.flatMap fun info =>
    info.indices.map fun i => { label := [','], info, arrayIndex := i }

/-- The members of an object. -/
def DataSet.jsonColumns (set : DataSet Number) : List (Column Number) :=
  set.nameToInfo.map fun info =>
    -- `true` is passed as the array index
    { label := [',', '"'] ++ info.name ++ ['"', ':'], info, arrayIndex := 1 }

/-- `DataToStringCSV`, where `first` is what `tmp` starts with before anything is printed. -/
def dataToStringCSV (sets : UInt8 → Option (DataSet Number)) (hdr : DataHdr)
    (buf tmpBuffer : Nat → UInt8) (first : Char) : Option (List Char) := do
  let set ← sets hdr.id
  let bytes := wholeRecord set.size hdr buf tmpBuffer
  let hdrCopy := { hdr with offset := 0, size := UInt16.ofNat set.size }
  pure (columnTexts printed set.size hdrCopy bytes first set.csvColumns ++ ['\n'])

def dataToStringJSON (sets : UInt8 → Option (DataSet Number)) (hdr : DataHdr)
    (buf tmpBuffer : Nat → UInt8) : Option (List Char) := do
  let set ← sets hdr.id
  let bytes := wholeRecord set.size hdr buf tmpBuffer
  let hdrCopy := { hdr with offset := 0, size := UInt16.ofNat set.size }
  let start := ['{', '"', 'i', 'd', '"', ':'] ++ decimal hdr.id.toNat
  -- the start of the object is printed into `tmp` too
  pure (start ++ columnTexts printed set.size hdrCopy bytes '{' set.jsonColumns ++ ['}'])

end Texts

section Numbers

variable {Number : Type} (printed : FloatText Number)

private theorem integer_shown {type : DataType} (integer : type ≠ .string) (hex : Bool) :
    Shown type.size (type.toText hex) where
  plain bytes member := by
    have others := DataType.toText_plain hex member
    simp at others
  apart := by
    have positive : 0 < type.size := by
      cases type
      case string => exact absurd rfl integer
      all_goals decide
    refine ⟨List.replicate type.size 0, List.replicate type.size 1, by simp, by simp, fun same => ?_⟩
    have bytes := DataType.toText_inj (by simp) (by simp) same
    rw [List.replicate_right_inj positive.ne'] at bytes
    exact absurd bytes (by decide)

theorem number_shown {info : DataInfo Number} (number : info.IsNumber) :
    ∃ text, Shown (typeSize info.type) text ∧ ∀ bytes ptr first,
      variableToString printed info bytes ptr first =
        text (window bytes ptr (typeSize info.type)) := by
  obtain ⟨string, binary⟩ := number
  unfold variableToString
  cases kind : info.type with
  | mapped type =>
    have integer : type ≠ .string := fun same => string (kind.trans (congrArg _ same))
    exact ⟨_, integer_shown integer info.located.displayHex, fun bytes ptr _ =>
      variableToString_integer integer _ bytes ptr info.size false⟩
  | f32 => exact ⟨_, printed.float_shown info.precision info.conversion, fun _ _ _ => rfl⟩
  | f64 => exact ⟨_, printed.double_shown info.precision info.conversion, fun _ _ _ => rfl⟩
  | binary => exact absurd kind binary

end Numbers

section Mapped

variable {Number : Type} (printed : FloatText Number) (conversion : Number)

/-- A field that is an integer or a string. -/
def DataInfo.ofMapped (info : DataLog.DataInfo) : DataInfo Number :=
  { offset := info.offset
    size := info.size
    type := .mapped info.type
    arraySize := info.arraySize
    elementSize := info.elementSize
    flags := info.flags
    name := info.name
    conversion }

/-- A data set of integers and strings. -/
def DataSet.ofMapped (set : DataLog.DataSet) : DataSet Number where
  size := set.size
  nameToInfo := set.nameToInfo.map (DataInfo.ofMapped conversion)
  mapped := by
    intro info member
    obtain ⟨own, known, rfl⟩ := List.mem_map.mp member
    have mapped := set.mapped own known
    exact ⟨mapped.scalar, mapped.elements,
      fun number => mapped.integer fun string => number.1 (congrArg ValueType.mapped string),
      mapped.some⟩
  inside := by
    intro info member
    obtain ⟨own, known, rfl⟩ := List.mem_map.mp member
    exact set.inside own known
  small := set.small

private theorem dataToString_ofMapped (dataSize : Nat) (info : DataLog.DataInfo) (hdr : DataHdr)
    (bytes : Nat → UInt8) (arrayIndex : Nat) (first : Char) :
    dataToString printed dataSize (DataInfo.ofMapped conversion info) hdr bytes arrayIndex first =
      DataLog.dataToString dataSize info hdr bytes arrayIndex false := by
  unfold dataToString DataLog.dataToString
  have place : fieldData dataSize (DataInfo.ofMapped conversion info).located arrayIndex hdr =
      fieldData dataSize info arrayIndex hdr := rfl
  rw [place]
  cases fieldData dataSize info arrayIndex hdr with
  | some ptr => rfl
  | none =>
    unfold DataInfo.defaultString DataInfo.ofMapped
    cases info.type <;> rfl

private theorem columnTexts_ofMapped (dataSize : Nat) (hdr : DataHdr) (bytes : Nat → UInt8)
    (first : Char) (columns : List (List Char × DataLog.DataInfo × Nat)) :
    columnTexts printed dataSize hdr bytes first (columns.map fun column =>
        { label := column.1
          info := DataInfo.ofMapped conversion column.2.1
          arrayIndex := column.2.2 }) =
      columns.flatMap fun column =>
        column.1 ++ DataLog.dataToString dataSize column.2.1 hdr bytes column.2.2 false := by
  induction columns generalizing first with
  | nil => rfl
  | cons column columns ih =>
    rw [List.map_cons]
    unfold columnTexts
    dsimp only
    rw [dataToString_ofMapped, ih, List.flatMap_cons]

private theorem csvColumns_ofMapped (set : DataLog.DataSet) (hdr : DataHdr) (bytes : Nat → UInt8)
    (first : Char) :
    columnTexts printed set.size hdr bytes first (DataSet.ofMapped conversion set).csvColumns =
      (set.nameToInfo.flatMap fun info => info.columnTexts set.size hdr bytes).flatMap (',' :: ·) := by
  have columns : (DataSet.ofMapped conversion set).csvColumns =
      (set.nameToInfo.flatMap fun info =>
        (DataInfo.ofMapped conversion info).indices.map fun i => ([','], info, i)).map
          fun column => { label := column.1, info := DataInfo.ofMapped conversion column.2.1,
                          arrayIndex := column.2.2 } := by
    unfold DataSet.csvColumns DataSet.ofMapped
    simp only [List.flatMap_map, List.map_flatMap, List.map_map]
    rfl
  have texts (info : DataLog.DataInfo) :
      ((DataInfo.ofMapped conversion info).indices.map fun i => ([','], info, i)).flatMap
          (fun column => column.1 ++
            DataLog.dataToString set.size column.2.1 hdr bytes column.2.2 false) =
        (info.columnTexts set.size hdr bytes).flatMap (',' :: ·) := by
    unfold DataInfo.indices DataLog.DataInfo.columnTexts DataInfo.ofMapped
    split <;> simp [List.flatMap_map]
  rw [columns, columnTexts_ofMapped]
  simp only [List.flatMap_assoc, texts]

private theorem jsonColumns_ofMapped (set : DataLog.DataSet) (hdr : DataHdr)
    (bytes : Nat → UInt8) (first : Char) :
    columnTexts printed set.size hdr bytes first (DataSet.ofMapped conversion set).jsonColumns =
      set.nameToInfo.flatMap fun info => [',', '"'] ++ info.name ++ ['"', ':'] ++
        DataLog.dataToString set.size info hdr bytes 1 false := by
  have columns : (DataSet.ofMapped conversion set).jsonColumns =
      (set.nameToInfo.map fun info => ([',', '"'] ++ info.name ++ ['"', ':'], info, 1)).map
        fun column => { label := column.1, info := DataInfo.ofMapped conversion column.2.1,
                        arrayIndex := column.2.2 } := by
    unfold DataSet.jsonColumns DataSet.ofMapped
    simp only [List.map_map]
    rfl
  rw [columns, columnTexts_ofMapped, List.flatMap_map]

/-- On integers and strings these are the rows and objects of the other modules. -/
theorem texts_ofMapped (sets : UInt8 → Option DataLog.DataSet) (hdr : DataHdr)
    (buf tmpBuffer : Nat → UInt8) (first : Char) :
    dataToStringCSV printed (fun id => (sets id).map (DataSet.ofMapped conversion)) hdr buf
          tmpBuffer first = DataLog.dataToStringCSV sets hdr buf tmpBuffer ∧
      dataToStringJSON printed (fun id => (sets id).map (DataSet.ofMapped conversion)) hdr buf
          tmpBuffer = DataLog.dataToStringJSON sets hdr buf tmpBuffer := by
  unfold dataToStringCSV dataToStringJSON DataLog.dataToStringCSV DataLog.dataToStringJSON
  dsimp only
  cases sets hdr.id with
  | none => exact ⟨rfl, rfl⟩
  | some set =>
    have size : (DataSet.ofMapped conversion set).size = set.size := rfl
    simp only [Option.map_some, Option.bind_eq_bind, Option.bind_some, size]
    rw [csvColumns_ofMapped, jsonColumns_ofMapped]
    exact ⟨rfl, rfl⟩

end Mapped

end InertialSense.DataLog.Values
