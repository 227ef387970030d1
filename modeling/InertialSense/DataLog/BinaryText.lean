import InertialSense.DataLog.FieldText
import Mathlib.Data.List.Induction
import Mathlib.Tactic.IntervalCases

/-! Binary fields as texts, and what is read from such a text. The pairs of digits are all written
to the first byte. -/

namespace InertialSense.DataLog

open Foundation

def hexLookupTable : List Char :=
  ['0', '1', '2', '3', '4', '5', '6', '7', '8', '9', 'A', 'B', 'C', 'D', 'E', 'F']

def getHexValue (hex : UInt8) : UInt8 := (9 : UInt8) * (hex >>> 6) + (hex &&& 0x0F)

def byteDigits (byte : UInt8) : List Char :=
  [hexLookupTable.getD (byte >>> 4).toNat '0', hexLookupTable.getD (byte &&& 0x0F).toNat '0']

/-- `VariableToString` of `DATA_TYPE_BINARY`. Only a JSON text sets the first character of the
buffer. -/
def binaryToString (data : List UInt8) (json : Bool) (first : Char) : List Char :=
  let close := if json then ['"'] else []
  let stringBuffer := (if json then '"' else first) :: (data.flatMap byteDigits ++ close)
  stringBuffer.takeWhile (· ≠ '\x00')

/-- The byte of two digits. -/
def pairValue (high low : Char) : UInt8 :=
  getHexValue high.toUInt8 <<< 4 ||| getHexValue low.toUInt8

/-- The pair of digits at a place of a text, with the null character behind it. -/
def pairAt (text : List Char) (i : Nat) : UInt8 :=
  pairValue (text.getD (i + 1) '\x00') (text.getD (i + 2) '\x00')

/-- `StringToVariable` of `DATA_TYPE_BINARY`. The pointer is not moved. -/
def stringToBinary (text : List Char) (mem : Nat → UInt8) (ptr : Nat) : Nat → UInt8 :=
  let len := min 1020 text.length
  let pairs := (List.range (len / 2)).map fun i => pairAt text (2 * i)
  pairs.foldl (fun mem value => store mem ptr [value]) mem

section Pairs

private theorem getHexValue_digit {nibble : Nat} (small : nibble < 16) :
    getHexValue (hexLookupTable.getD nibble '0').toUInt8 = UInt8.ofNat nibble := by
  interval_cases nibble <;> rfl

private theorem nibbles_join (byte : UInt8) :
    UInt8.ofNat (byte >>> 4).toNat <<< 4 ||| UInt8.ofNat (byte &&& 0x0F).toNat = byte := by
  have all : ∀ bits : Fin 256,
      UInt8.ofNat (UInt8.ofFin bits >>> 4).toNat <<< 4 |||
        UInt8.ofNat (UInt8.ofFin bits &&& 0x0F).toNat = UInt8.ofFin bits := by
    decide +kernel
  exact all byte.toFin

theorem pairValue_byteDigits (byte : UInt8) :
    pairValue (hexLookupTable.getD (byte >>> 4).toNat '0')
      (hexLookupTable.getD (byte &&& 0x0F).toNat '0') = byte := by
  have high : (byte >>> 4).toNat < 16 := by
    have small := byte.toNat_lt
    rw [UInt8.toNat_shiftRight, Nat.shiftRight_eq_div_pow]
    exact Nat.div_lt_of_lt_mul small
  have low : (byte &&& 0x0F).toNat < 16 := by
    rw [UInt8.toNat_and]
    exact Nat.lt_of_le_of_lt Nat.and_le_right (by decide)
  unfold pairValue
  rw [getHexValue_digit high, getHexValue_digit low]
  exact nibbles_join byte

theorem byteDigits_plain {byte : UInt8} {c : Char} (member : c ∈ byteDigits byte) :
    c ≠ '\x00' := by
  have table (n : Nat) : hexLookupTable.getD n '0' ≠ '\x00' := by
    rcases Nat.lt_or_ge n 16 with small | large
    · interval_cases n <;> decide
    · rw [List.getD_eq_getElem?_getD, List.getElem?_eq_none large]
      decide
  unfold byteDigits at member
  simp only [List.mem_cons, List.not_mem_nil, or_false] at member
  obtain rfl | rfl := member
  · exact table _
  · exact table _

private theorem digits_length (data : List UInt8) :
    (data.flatMap byteDigits).length = 2 * data.length := by
  induction data with
  | nil => rfl
  | cons byte data ih =>
    rw [List.flatMap_cons, List.length_append, ih, List.length_cons]
    unfold byteDigits
    simp only [List.length_cons, List.length_nil]
    omega

private theorem digits_drop {data : List UInt8} {i : Nat} (inside : i < data.length) :
    (data.flatMap byteDigits).drop (2 * i) =
      byteDigits data[i] ++ (data.drop (i + 1)).flatMap byteDigits := by
  induction data generalizing i with
  | nil => cases inside
  | cons byte data ih =>
    cases i with
    | zero => rfl
    | succ i =>
      have next := ih (Nat.lt_of_succ_lt_succ inside)
      have two : 2 * (i + 1) = (byteDigits byte).length + 2 * i := by
        unfold byteDigits
        simp only [List.length_cons, List.length_nil]
        omega
      rw [List.flatMap_cons, two, List.drop_length_add_append, next]
      rfl

private theorem pairAt_digits (c : Char) {data : List UInt8} (close : List Char) {i : Nat}
    (inside : i < data.length) :
    pairAt (c :: (data.flatMap byteDigits ++ close)) (2 * i) = data[i] := by
  have short : 2 * i ≤ (data.flatMap byteDigits).length := by
    rw [digits_length]
    omega
  have found (k : Nat) : (c :: (data.flatMap byteDigits ++ close)).getD (2 * i + k + 1) '\x00' =
      (byteDigits data[i] ++ (data.drop (i + 1)).flatMap byteDigits ++ close).getD k '\x00' := by
    rw [List.getD_cons_succ, ← digits_drop inside, ← List.drop_append_of_le_length short,
      List.getD_eq_getElem?_getD, List.getD_eq_getElem?_getD, List.getElem?_drop]
  unfold pairAt
  rw [found 0, found 1]
  exact pairValue_byteDigits data[i]

end Pairs

/-- Pairs that are written to one place leave the last of them there. -/
theorem foldl_store_one (values : List UInt8) (mem : Nat → UInt8) (ptr : Nat) :
    values.foldl (fun mem value => store mem ptr [value]) mem =
      store mem ptr values.getLast?.toList := by
  induction values using List.reverseRecOn with
  | nil => exact (store_nil mem ptr).symm
  | append_singleton before last ih =>
    rw [List.foldl_append, ih, List.foldl_cons, List.foldl_nil, List.getLast?_concat]
    funext address
    have one : before.getLast?.toList.length ≤ 1 := by cases before.getLast? <;> simp
    by_cases here : address = ptr
    · rw [here]
      exact (store_inside _ (k := 0) (by simp)).trans (store_inside _ (k := 0) (by simp)).symm
    · rw [store_outside _ (by simp; omega), store_outside _ (by omega),
        store_outside _ (by simp; omega)]

/-- The byte that is written for the text of a binary field. The text of a short JSON field has a
pair of the closing quote and the null character behind it. -/
def lastPair (data : List UInt8) (json : Bool) (first : Char) : Option UInt8 :=
  if json then if data.length < 510 then some 0x20 else data.getLast?
  else if first = '\x00' then none
  else data.getLast?

section Reading

variable {data : List UInt8}

private theorem binaryToString_eq {json : Bool} {first : Char}
    (starts : json = true ∨ first ≠ '\x00') :
    binaryToString data json first =
      (if json then '"' else first) ::
        (data.flatMap byteDigits ++ if json then ['"'] else []) := by
  unfold binaryToString
  rw [List.takeWhile_eq_self_iff]
  intro c member
  refine decide_eq_true ?_
  obtain rfl | member := List.mem_cons.mp member
  · cases json
    case true => exact (by decide : '"' ≠ '\x00')
    case false => simpa using starts
  · obtain digit | close := List.mem_append.mp member
    · obtain ⟨byte, -, digit⟩ := List.mem_flatMap.mp digit
      exact byteDigits_plain digit
    · cases json
      case true =>
        rw [List.mem_singleton.mp close]
        decide
      case false => exact absurd close List.not_mem_nil

private theorem pairAt_close (c : Char) (data : List UInt8) :
    pairAt (c :: (data.flatMap byteDigits ++ ['"'])) (2 * data.length) = 0x20 := by
  have found (k : Nat) : (c :: (data.flatMap byteDigits ++ ['"'])).getD (2 * data.length + k + 1) '\x00' =
      ['"'].getD k '\x00' := by
    rw [List.getD_cons_succ, ← digits_length, List.getD_eq_getElem?_getD,
      List.getD_eq_getElem?_getD, List.getElem?_append_right (Nat.le_add_right ..),
      Nat.add_sub_cancel_left]
  unfold pairAt
  rw [found 0, found 1]
  rfl

/-- Of the text of a binary field one byte is written, if any. -/
theorem stringToBinary_text (short : data.length ≤ 510) (json : Bool) (first : Char)
    (mem : Nat → UInt8) (ptr : Nat) :
    stringToBinary (binaryToString data json first) mem ptr =
      store mem ptr (lastPair data json first).toList := by
  have last (text : List Char) (count : Nat) :
      ((List.range count).map fun i => pairAt text (2 * i)).getLast? =
        if count = 0 then none else some (pairAt text (2 * (count - 1))) := by
    rw [List.getLast?_map, List.getLast?_range]
    split <;> rfl
  have whole (c : Char) (close : List Char) (some : data ≠ []) :
      Option.some (pairAt (c :: (data.flatMap byteDigits ++ close)) (2 * (data.length - 1))) =
        data.getLast? := by
    have positive := List.length_pos_of_ne_nil some
    rw [pairAt_digits c close (by omega), List.getLast?_eq_getElem?, List.getElem?_eq_getElem]
  unfold stringToBinary
  dsimp only
  rw [foldl_store_one, last]
  congr 2
  unfold lastPair
  cases json with
  | true =>
    rw [binaryToString_eq (.inl rfl)]
    simp only [if_true, List.length_cons, List.length_append, List.length_nil, digits_length]
    by_cases few : data.length < 510
    · have count : min 1020 (2 * data.length + (0 + 1) + 1) / 2 = data.length + 1 := by omega
      rw [if_pos few, count, if_neg (Nat.succ_ne_zero _), Nat.add_sub_cancel, pairAt_close]
    · have count : min 1020 (2 * data.length + (0 + 1) + 1) / 2 = data.length := by omega
      have some : data ≠ [] := List.ne_nil_of_length_pos (by omega)
      rw [if_neg few, count, if_neg (by omega), whole _ _ some]
  | false =>
    by_cases null : first = '\x00'
    · have empty : binaryToString data false first = [] := by
        rw [null]
        simp [binaryToString]
      rw [empty, null]
      rfl
    · rw [binaryToString_eq (.inr null)]
      simp only [Bool.false_eq_true, if_false, if_neg null, List.length_cons, List.length_append,
        List.length_nil, digits_length]
      have count : min 1020 (2 * data.length + 0 + 1) / 2 = data.length := by omega
      rw [count]
      by_cases none : data = []
      · rw [none]
        rfl
      · have positive := List.length_pos_of_ne_nil none
        rw [if_neg (by omega), whole _ _ none]

end Reading

private theorem byte_nontrivial : Nontrivial UInt8 := ⟨0, 1, by decide⟩

/-- What the text of an integer stores is the integer, wherever it is stored. -/
def IntegerRestored (type : DataType) (hex : Bool) (source : Nat → UInt8) (place : Nat)
    (json : Bool) : Prop :=
  ∀ (buffer : Buffer) (ptr dataSize : Nat), buffer.erange = false →
    let text := variableToString type hex source place dataSize json
    let after := stringToVariable text buffer ptr type dataSize (if hex then 16 else 10) json
    window after.bytes ptr type.size = window source place type.size

/-- What the text of a binary field stores are its bytes, and nothing is written outside of them,
wherever they are stored. -/
def BinaryRestored (data : List UInt8) (json : Bool) (first : Char) : Prop :=
  ∀ (mem : Nat → UInt8) (ptr : Nat),
    let after := stringToBinary (binaryToString data json first) mem ptr
    window after ptr data.length = data ∧
      ∀ address, address < ptr ∨ ptr + data.length ≤ address → after address = mem address

/-- A binary field that a single byte restores. -/
def BinaryFits (data : List UInt8) (json : Bool) (first : Char) : Prop :=
  if json then data = [0x20] else data = [] ∨ data.length = 1 ∧ first ≠ '\x00'

private theorem integerRestored_iff {type : DataType} (integer : type ≠ .string) (hex : Bool)
    (source : Nat → UInt8) (place : Nat) (json : Bool) :
    IntegerRestored type hex source place json ↔
      type.overflows hex (window source place type.size) = false := by
  have sized : (window source place type.size).length = type.size := by simp
  have after (buffer : Buffer) (ptr dataSize : Nat) (clear : buffer.erange = false) :
      stringToVariable (variableToString type hex source place dataSize json) buffer ptr type
          dataSize (if hex then 16 else 10) json =
        { buffer with erange := type.overflows hex (window source place type.size) }.assign ptr
          (window source place type.size) := by
    rw [variableToString_integer integer, stringToVariable_toText sized integer, clear,
      Bool.false_or]
  constructor
  · intro restored
    by_contra overflow
    rw [Bool.not_eq_false] at overflow
    -- nothing is stored over bytes that are all different
    have := byte_nontrivial
    obtain ⟨other, differs⟩ := exists_ne (source place)
    have kept := restored { bytes := fun _ => other, erange := false } 0 0 rfl
    dsimp only at kept
    rw [after _ _ _ rfl, overflow] at kept
    have positive : 0 < type.size := by
      cases type
      case string => exact absurd rfl integer
      all_goals decide
    have cell := cell_of_window_eq kept positive
    exact differs cell
  · intro fits buffer ptr dataSize clear
    dsimp only
    rw [after _ _ _ clear, fits]
    have stored := window_store buffer.bytes ptr (window source place type.size)
    rw [sized] at stored
    exact stored

private theorem binaryRestored_iff {data : List UInt8} (short : data.length ≤ 510) (json : Bool)
    (first : Char) : BinaryRestored data json first ↔ BinaryFits data json first := by
  have written : BinaryRestored data json first ↔ (lastPair data json first).toList = data := by
    unfold BinaryRestored
    dsimp only
    simp only [stringToBinary_text short]
    exact @store_restores_iff _ byte_nontrivial _ _
  have single : data.getLast?.toList = data ↔ data = [] ∨ data.length = 1 := by
    rcases data with - | ⟨byte, - | ⟨next, rest⟩⟩
    · simp
    · simp
    · refine iff_of_false (fun same => ?_) (by simp)
      have length := congrArg List.length same
      rw [Option.length_toList] at length
      simp at length
  rw [written]
  unfold lastPair BinaryFits
  cases json with
  | true =>
    rw [if_pos rfl, if_pos rfl]
    by_cases few : data.length < 510
    · rw [if_pos few]
      exact eq_comm
    · rw [if_neg few, single]
      refine iff_of_false (by rintro (rfl | one) <;> simp_all) (by rintro rfl; simp at few)
  | false =>
    rw [if_neg Bool.false_ne_true, if_neg Bool.false_ne_true]
    by_cases null : first = '\x00'
    · rw [if_pos null]
      simp [null, eq_comm]
    · rw [if_neg null, single]
      simp [null]

/-- The text of an integer stores the integer unless it is a negative one of 64 bits in
hexadecimal. The text of a binary field stores its bytes only if there is no more than one of them,
and in JSON only if it is a space. -/
theorem text_restored_iff {type : DataType} (integer : type ≠ .string) (hex : Bool)
    (source : Nat → UInt8) (place : Nat) {data : List UInt8} (short : data.length ≤ 510)
    (json : Bool) (first : Char) :
    (IntegerRestored type hex source place json ↔
        type.overflows hex (window source place type.size) = false) ∧
      (BinaryRestored data json first ↔ BinaryFits data json first) :=
  ⟨integerRestored_iff integer hex source place json, binaryRestored_iff short json first⟩

/-- A negative number of 64 bits, and two bytes. -/
theorem text_not_restored : ¬IntegerRestored .int64 true (fun _ => 0xFF) 0 false ∧
    ¬BinaryRestored [1, 2] false '"' := by
  constructor
  · rw [integerRestored_iff (by decide)]
    decide
  · rw [binaryRestored_iff (by decide)]
    simp [BinaryFits]

theorem text_restored_byte :
    DataType.uint8 ≠ .string ∧ [0x20].length ≤ 510 ∧
      IntegerRestored .uint8 true (fun _ => 0xFF) 0 true ∧ BinaryRestored [0x20] true '"' :=
  have both := @text_restored_iff .uint8 (by decide) true (fun _ => 0xFF) 0 [0x20] (by decide) true
    '"'
  ⟨by decide, by decide, both.1.mpr (by decide), both.2.mpr rfl⟩

end InertialSense.DataLog
