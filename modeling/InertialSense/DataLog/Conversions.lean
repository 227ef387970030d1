import InertialSense.DataLog.BinaryText

/-! `StringToVariable` called again and again in a thread. `errno` is looked at before a number is
assigned, and is never cleared. -/

namespace InertialSense.DataLog

open Foundation

/-- `eDataType`, with the types of the fields that are no integers and no strings. -/
inductive ValueType where
  | mapped (type : DataType)
  | f32
  | f64
  | binary
deriving DecidableEq

/-- Floating-point numbers: `strtod`, and whether it sets `errno` to `ERANGE`, and the bytes of a
number that is divided by a conversion factor. -/
structure FloatingPoint (Number : Type) where
  strtod : List Char → Number × Bool
  float : Number → Number → List UInt8
  double : Number → Number → List UInt8

/-- The arguments of a call of `StringToVariable`. -/
structure Conversion (Number : Type) where
  text : List Char
  ptr : Nat
  type : ValueType
  dataSize : Nat
  radix : Nat
  conversion : Number
  json : Bool

/-- What a call stores at its destination. -/
inductive Stored where
  | nothing
  | bytes (data : List UInt8)
  /-- A number made of a variable that has never been assigned. -/
  | uninitialised
deriving DecidableEq

section Calls

variable {Number : Type} (numbers : FloatingPoint Number)

/-- The number in the text of a call, as the bytes that are stored, and whether it is out of range:
nothing if no number is read. -/
def Conversion.number (call : Conversion Number) : Option (List UInt8 × Bool) :=
  match call.type with
  | .mapped .string | .binary => none
  | .mapped type =>
    let (value, outOfRange) :=
      if type.signed then strtol call.radix call.text else strtoul call.radix call.text
    some (toBytes type.size (value % 2 ^ (8 * type.size)).toNat, outOfRange)
  | .f32 =>
    let (value, outOfRange) := numbers.strtod call.text
    some (numbers.float value call.conversion, outOfRange)
  | .f64 =>
    let (value, outOfRange) := numbers.strtod call.text
    some (numbers.double value call.conversion, outOfRange)

/-- What is stored if a number is not assigned. -/
def ValueType.unassigned : ValueType → Stored
  -- the quotient is stored all the same
  | .f32 | .f64 => .uninitialised
  | _ => .nothing

def Conversion.others (call : Conversion Number) : List UInt8 :=
  match call.type with
  | .binary =>
    let len := min 1020 call.text.length
    ((List.range (len / 2)).map fun i => pairAt call.text (2 * i)).getLast?.toList
  | _ =>
    let s2 := call.text.takeWhile (· ≠ '\x00')
    let s2 := if call.json then s2 else s2.filter (· ≠ '"')
    ((s2.map Char.toUInt8).take (call.dataSize - 1)).rightpad call.dataSize 0

/-- `StringToVariable`: what it stores, and whether `errno` is `ERANGE` behind it. -/
def storedBy (call : Conversion Number) (erange : Bool) : Stored × Bool :=
  match call.number numbers with
  | none => (.bytes call.others, erange)
  | some (data, outOfRange) =>
    let erange := erange || outOfRange
    (if erange then call.type.unassigned else .bytes data, erange)

def storedByAll : Bool → List (Conversion Number) → List Stored
  | _, [] => []
  | erange, call :: calls =>
    let (stored, erange) := storedBy numbers call erange
    stored :: storedByAll erange calls

def Conversion.OutOfRange (call : Conversion Number) : Prop :=
  ∃ data, call.number numbers = some (data, true)

def Conversion.InRange (call : Conversion Number) : Prop :=
  ∃ data, call.number numbers = some (data, false)

def EachAsFirst (calls : List (Conversion Number)) : Prop :=
  storedByAll numbers false calls = calls.map fun call => (storedBy numbers call false).1

private theorem storedBy_erange (call : Conversion Number) (erange : Bool) :
    (storedBy numbers call erange).2 = true ↔ erange = true ∨ call.OutOfRange numbers := by
  unfold storedBy Conversion.OutOfRange
  cases call.number numbers with
  | none => simp
  | some number => simp [Prod.ext_iff]

private theorem storedBy_same (call : Conversion Number) (erange : Bool) :
    (storedBy numbers call erange).1 = (storedBy numbers call false).1 ↔
      (erange = true → ¬call.InRange numbers) := by
  unfold storedBy Conversion.InRange
  cases found : call.number numbers with
  | none => simp
  | some number =>
    obtain ⟨data, outOfRange⟩ := number
    cases erange <;> cases outOfRange <;> simp
    unfold ValueType.unassigned
    split <;> simp

private theorem storedByAll_same (calls : List (Conversion Number)) (erange : Bool) :
    storedByAll numbers erange calls = calls.map (fun call => (storedBy numbers call false).1) ↔
      (erange = true → ∀ call ∈ calls, ¬call.InRange numbers) ∧
        calls.Pairwise fun earlier later =>
          earlier.OutOfRange numbers → ¬later.InRange numbers := by
  induction calls generalizing erange with
  | nil => simp [storedByAll]
  | cons call calls ih =>
    have unfolded : storedByAll numbers erange (call :: calls) =
        (storedBy numbers call erange).1 ::
          storedByAll numbers (storedBy numbers call erange).2 calls := rfl
    rw [unfolded, List.map_cons, List.cons_eq_cons, storedBy_same, ih, storedBy_erange,
      List.pairwise_cons, List.forall_mem_cons]
    constructor
    · rintro ⟨here, rest, pairs⟩
      exact ⟨fun set => ⟨here set, rest (.inl set)⟩,
        fun later member out => rest (.inr out) later member, pairs⟩
    · rintro ⟨set, first, pairs⟩
      refine ⟨fun was => (set was).1, ?_, pairs⟩
      rintro (was | out)
      · exact (set was).2
      · exact fun later member => first later member out

/-- Every call of a sequence stores what it would store as the first one, if and only if no number
that is in range comes after one that is out of range. -/
theorem eachAsFirst_iff (calls : List (Conversion Number)) :
    EachAsFirst numbers calls ↔
      calls.Pairwise fun earlier later =>
        earlier.OutOfRange numbers → ¬later.InRange numbers := by
  unfold EachAsFirst
  rw [storedByAll_same]
  simp

end Calls

/-- A number of 64 bits that is out of range, and a small one for another field. -/
theorem each_not_asFirst :
    ¬EachAsFirst
      { strtod := fun _ => ((), false), float := fun _ _ => [], double := fun _ _ => [] }
      [{ text := List.replicate 20 '9', ptr := 0, type := .mapped .uint64, dataSize := 8, radix := 10,
         conversion := (), json := false },
       { text := ['7'], ptr := 8, type := .mapped .uint8, dataSize := 1, radix := 10,
         conversion := (), json := false }] := by
  intro same
  have second := (List.cons.inj (List.cons.inj same).2).1
  have refused : Stored.nothing = .bytes [7] := second
  cases refused

section Memory

variable {Number : Type} (numbers : FloatingPoint Number)

def Stored.write (unassigned : List UInt8) (mem : Nat → UInt8) (ptr : Nat) : Stored → Nat → UInt8
  | .nothing => mem
  | .bytes data => store mem ptr data
  | .uninitialised => store mem ptr unassigned

/-- An integer or a string is stored in a buffer, with the state of `errno`. -/
theorem stringToVariable_storedBy (call : Conversion Number) {type : DataType}
    (mapped : call.type = .mapped type) (buffer : Buffer) (unassigned : List UInt8) :
    stringToVariable call.text buffer call.ptr type call.dataSize call.radix call.json =
      { bytes := (storedBy numbers call buffer.erange).1.write unassigned buffer.bytes call.ptr,
        erange := (storedBy numbers call buffer.erange).2 } := by
  by_cases string : type = .string
  · subst string
    have none : call.number numbers = none := by
      unfold Conversion.number
      rw [mapped]
    have others : call.others =
        (((if call.json then call.text.takeWhile (· ≠ '\x00')
          else (call.text.takeWhile (· ≠ '\x00')).filter (· ≠ '"')).map Char.toUInt8).take
            (call.dataSize - 1)).rightpad call.dataSize 0 := by
      unfold Conversion.others
      rw [mapped]
    unfold storedBy
    rw [none]
    dsimp only [Stored.write]
    rw [others]
    rfl
  · obtain ⟨read, same⟩ : ∃ read : Int × Bool, read =
        if type.signed then strtol call.radix call.text else strtoul call.radix call.text := ⟨_, rfl⟩
    have number : call.number numbers =
        some (toBytes type.size (read.1 % 2 ^ (8 * type.size)).toNat, read.2) := by
      unfold Conversion.number
      rw [mapped, same]
      cases type
      case string => exact absurd rfl string
      all_goals rfl
    have assigned : stringToVariable call.text buffer call.ptr type call.dataSize call.radix call.json =
        { buffer with erange := buffer.erange || read.2 }.assign call.ptr
          (toBytes type.size (read.1 % 2 ^ (8 * type.size)).toNat) := by
      rw [same]
      cases type
      case string => exact absurd rfl string
      all_goals rfl
    rw [assigned]
    unfold storedBy Buffer.assign
    rw [number, mapped]
    dsimp only
    split
    · rfl
    · rfl

/-- A binary field is stored without regard to `errno`. -/
theorem stringToBinary_storedBy (call : Conversion Number) (binary : call.type = .binary)
    (mem : Nat → UInt8) (erange : Bool) (unassigned : List UInt8) :
    stringToBinary call.text mem call.ptr =
      (storedBy numbers call erange).1.write unassigned mem call.ptr := by
  have none : call.number numbers = none := by
    unfold Conversion.number
    rw [binary]
  have others : call.others =
      ((List.range (min 1020 call.text.length / 2)).map fun i =>
        pairAt call.text (2 * i)).getLast?.toList := by
    unfold Conversion.others
    rw [binary]
  unfold storedBy
  rw [none]
  dsimp only [Stored.write]
  rw [others]
  exact foldl_store_one _ mem call.ptr

end Memory

end InertialSense.DataLog
