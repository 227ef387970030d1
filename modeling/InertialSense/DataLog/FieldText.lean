import InertialSense.DataLog.Mappings

/-! The text of an integer is read back as the integer, except a negative 64-bit one in
hexadecimal, which is out of range for `strtoll`. -/

namespace InertialSense.DataLog

open Foundation

/-- An integer whose text is out of range when it is read. -/
def DataType.overflows (type : DataType) (hex : Bool) (bytes : List UInt8) : Bool :=
  type = .int64 ∧ hex ∧ type.valueOf bytes < 0

section Text

variable {type : DataType} {bytes : List UInt8}

private theorem fromBytes_lt_size (sized : bytes.length = type.size) :
    fromBytes bytes < 2 ^ (8 * type.size) := by
  have bound := fromBytes_lt bytes
  rwa [sized, show 256 = 2 ^ 8 from rfl, ← Nat.pow_mul] at bound

theorem DataType.toBytes_valueOf (sized : bytes.length = type.size) :
    toBytes type.size (type.valueOf bytes % 2 ^ (8 * type.size)).toNat = bytes := by
  have bound := fromBytes_lt_size sized
  have value : (type.valueOf bytes % 2 ^ (8 * type.size)).toNat = fromBytes bytes := by
    have wide : (fromBytes bytes : Int) % (2 ^ (8 * type.size) : Nat) = fromBytes bytes :=
      Int.emod_eq_of_lt (by omega) (by exact_mod_cast bound)
    push_cast at wide
    unfold DataType.valueOf
    split
    · have same := Int.bmod_emod (x := fromBytes bytes) (m := 2 ^ (8 * type.size))
      push_cast at same
      rw [same, wide]
      rfl
    · rw [wide]
      rfl
  rw [value, ← sized]
  exact toBytes_fromBytes bytes

theorem DataType.valueOf_bounds (sized : bytes.length = type.size) (integer : type ≠ .string) :
    if type.signed then -2 ^ (8 * type.size - 1) ≤ type.valueOf bytes ∧
        type.valueOf bytes < 2 ^ (8 * type.size - 1)
      else 0 ≤ type.valueOf bytes ∧ type.valueOf bytes < 2 ^ (8 * type.size) := by
  have bound := fromBytes_lt_size sized
  unfold DataType.valueOf
  cases type
  case string => exact absurd rfl integer
  all_goals
    simp only [DataType.signed, DataType.size, if_true, if_false, Bool.false_eq_true] at bound ⊢
    try simp only [Int.bmod]
    norm_num at bound ⊢
    omega

private theorem hex_read (sized : bytes.length = type.size) (integer : type ≠ .string) :
    ∃ value, (if type.signed then strtol 16 (type.toText true bytes)
        else strtoul 16 (type.toText true bytes)) = (value, type.overflows true bytes) ∧
      (type.overflows true bytes = false →
        value % 2 ^ (8 * type.size) = type.valueOf bytes % 2 ^ (8 * type.size)) := by
  have bounds := DataType.valueOf_bounds sized integer
  obtain ⟨shown, same⟩ :
      ∃ shown, shown = (type.valueOf bytes % 2 ^ max 32 (8 * type.size)).toNat := ⟨_, rfl⟩
  have text : type.toText true bytes = upperHex (2 * type.size) shown := by rw [same]; rfl
  rw [text, strtol_upperHex]
  unfold DataType.overflows
  generalize type.valueOf bytes = value at bounds same
  cases type
  case string => exact absurd rfl integer
  all_goals
    simp only [DataType.signed, DataType.size, if_true, if_false, Bool.false_eq_true] at bounds same ⊢
    norm_num at bounds same
  case uint8 | uint16 | uint32 | uint64 =>
    rw [strtoul_upperHex _ (by omega)]
    exact ⟨_, by simp; rfl, fun _ => by omega⟩
  case int64 =>
    by_cases negative : value < 0
    · rw [if_neg (by omega)]
      exact ⟨_, by simp [negative]; rfl, fun fits => by simp [negative] at fits⟩
    · rw [if_pos (by omega)]
      exact ⟨_, by simp [negative]; rfl, fun _ => by omega⟩
  all_goals
    rw [if_pos (by omega)]
    exact ⟨_, by simp; rfl, fun _ => by omega⟩

private theorem decimal_read (sized : bytes.length = type.size) (integer : type ≠ .string) :
    (if type.signed then strtol 10 (type.toText false bytes)
      else strtoul 10 (type.toText false bytes)) = (type.valueOf bytes, false) := by
  have bounds := DataType.valueOf_bounds sized integer
  have text : type.toText false bytes = decimal (type.valueOf bytes) := rfl
  rw [text]
  generalize type.valueOf bytes = value at bounds
  have wide : 8 * type.size ≤ 64 := by cases type <;> decide
  split at bounds
  case isTrue signed =>
    rw [if_pos signed]
    have half : (2 : Int) ^ (8 * type.size - 1) ≤ 2 ^ 63 :=
      pow_le_pow_right₀ (by decide) (by omega)
    rw [← List.append_nil (decimal value)]
    exact strtol_decimal (by omega) (by omega) rfl
  case isFalse unsigned =>
    rw [if_neg unsigned]
    have whole : (2 : Int) ^ (8 * type.size) ≤ 2 ^ 64 := pow_le_pow_right₀ (by decide) wide
    obtain ⟨value, rfl⟩ := Int.eq_ofNat_of_zero_le bounds.1
    rw [← List.append_nil (decimal _)]
    exact strtoul_decimal (by omega) rfl

theorem DataType.toText_read (sized : bytes.length = type.size) (integer : type ≠ .string)
    (hex : Bool) :
    ∃ value, (if type.signed then strtol (if hex then 16 else 10) (type.toText hex bytes)
        else strtoul (if hex then 16 else 10) (type.toText hex bytes)) =
          (value, type.overflows hex bytes) ∧
      (type.overflows hex bytes = false →
        toBytes type.size (value % 2 ^ (8 * type.size)).toNat = bytes) := by
  cases hex with
  | true =>
    obtain ⟨value, read, same⟩ := hex_read sized integer
    refine ⟨value, read, fun fits => ?_⟩
    rw [same fits]
    exact DataType.toBytes_valueOf sized
  | false =>
    have fits : type.overflows false bytes = false := by simp [DataType.overflows]
    refine ⟨type.valueOf bytes, ?_, fun _ => DataType.toBytes_valueOf sized⟩
    rw [fits]
    exact decimal_read sized integer

/-- Only one integer has a text. -/
theorem DataType.toText_inj {bytes' : List UInt8} (sized : bytes.length = type.size)
    (sized' : bytes'.length = type.size) {hex : Bool}
    (same : type.toText hex bytes = type.toText hex bytes') : bytes = bytes' := by
  have value : type.valueOf bytes % 2 ^ (8 * type.size) =
      type.valueOf bytes' % 2 ^ (8 * type.size) := by
    cases hex with
    | true =>
      have shown := upperHex_inj same
      have wide : (2 : Int) ^ (8 * type.size) ∣ 2 ^ max 32 (8 * type.size) :=
        pow_dvd_pow 2 (Nat.le_max_right ..)
      have positive : (0 : Int) < 2 ^ max 32 (8 * type.size) := by positivity
      have low := Int.emod_nonneg (type.valueOf bytes) positive.ne'
      have low' := Int.emod_nonneg (type.valueOf bytes') positive.ne'
      rw [← Int.emod_emod_of_dvd _ wide, ← Int.emod_emod_of_dvd (type.valueOf bytes') wide]
      congr 1
      omega
    | false =>
      rw [decimal_inj same]
  rw [← DataType.toBytes_valueOf sized, value]
  exact DataType.toBytes_valueOf sized'

private theorem hexValue_separates {c : Char} (hex : (hexValue c).isSome) :
    c ∉ ['"', ',', '}', '\\', '\n', '\r', '\x00'] := by
  have others := (hexValue_plain hex).2
  simp only [List.mem_cons, List.not_mem_nil, or_false, not_or] at others ⊢
  obtain ⟨-, -, -, -, -, newline, ret, nul, comma, quote, brace, backslash⟩ := others
  exact ⟨quote, comma, brace, backslash, newline, ret, nul⟩

theorem decimal_plain {value : Int} {c : Char} (member : c ∈ decimal value) :
    c ∉ ['"', ',', '}', '\\', '\n', '\r', '\x00'] := by
  obtain rfl | digit := mem_decimal member
  · decide
  · exact hexValue_separates digit.2

/-- A text of an integer has no separator. -/
theorem DataType.toText_plain (hex : Bool) {c : Char} (member : c ∈ type.toText hex bytes) :
    c ∉ ['"', ',', '}', '\\', '\n', '\r', '\x00'] := by
  cases hex with
  | true =>
    obtain rfl | digit := mem_upperHex member
    · decide
    · exact hexValue_separates digit
  | false => exact decimal_plain member

end Text

/-- The bytes of a field. -/
def DataInfo.bytesIn (info : DataInfo) (mem : Nat → UInt8) : List UInt8 :=
  window mem info.offset info.size

section Fields

variable {set : DataSet} {info : DataInfo} {hdr : DataHdr}

theorem fieldData_whole (known : info ∈ set.nameToInfo) {arrayIndex : Nat}
    (element : info.arraySize = 0 ∨ arrayIndex < info.arraySize)
    (near : arrayIndex * info.elementSize ≤ info.size) (start : hdr.offset = 0)
    (whole : hdr.size.toNat = set.size) :
    fieldData set.size info arrayIndex hdr =
      if info.offset + arrayIndex * info.elementSize < set.size then
        some (info.offset + arrayIndex * info.elementSize)
      else none := by
  have inside := set.inside info known
  have small := set.small
  have place : Int.bmod (info.offset + (arrayIndex : Int) * info.elementSize - hdr.offset.toNat)
      (2 ^ 32) = (info.offset + arrayIndex * info.elementSize : Nat) := by
    rw [start]
    push_cast
    rw [Int.sub_zero]
    have far : (arrayIndex : Int) * info.elementSize ≤ info.size := by exact_mod_cast near
    have low : 0 ≤ (arrayIndex : Int) * info.elementSize := by positivity
    rw [Int.bmod_eq_of_le] <;> omega
  have fullSize : (if hdr.size = 0 then set.size else hdr.size.toNat) = set.size := by
    rw [whole, ite_self]
  unfold fieldData
  rw [if_neg (by omega), fullSize]
  simp only [place, Int.natCast_nonneg, true_and, Int.ofNat_lt, Int.toNat_natCast]

private theorem nameLess_irrefl (name : List Char) : nameLess name name = false := by
  induction name with
  | nil => rfl
  | cons c rest ih =>
    unfold nameLess
    rw [if_neg (fun other => other rfl)]
    exact ih

/-- A field is found under its own name. -/
theorem DataSet.find_own (known : info ∈ set.nameToInfo) : set.find info.name = some info := by
  obtain ⟨before, after, same⟩ := List.append_of_mem known
  have sorted := set.sorted
  rw [same, List.pairwise_append] at sorted
  unfold DataSet.find
  rw [same, List.find?_append, List.find?_eq_none.mpr, Option.none_or, List.find?_cons_of_pos]
  · simp [nameLess_irrefl]
  · intro other earlier
    have less := sorted.2.2 other earlier info List.mem_cons_self
    simp [less]

theorem variableToString_integer {type : DataType} (integer : type ≠ .string) (hex : Bool)
    (bytes : Nat → UInt8) (ptr dataSize : Nat) (json : Bool) :
    variableToString type hex bytes ptr dataSize json =
      type.toText hex (window bytes ptr type.size) := by
  cases type
  case string => exact absurd rfl integer
  all_goals rfl

/-- The text of an integer is assigned, unless it is out of range. -/
theorem stringToVariable_toText {type : DataType} {bytes : List UInt8}
    (sized : bytes.length = type.size) (integer : type ≠ .string) (hex : Bool) (buffer : Buffer)
    (ptr dataSize : Nat) (json : Bool) :
    stringToVariable (type.toText hex bytes) buffer ptr type dataSize (if hex then 16 else 10) json =
      { buffer with erange := buffer.erange || type.overflows hex bytes }.assign ptr bytes := by
  obtain ⟨value, read, same⟩ := DataType.toText_read sized integer hex
  have unfolded : stringToVariable (type.toText hex bytes) buffer ptr type dataSize
      (if hex then 16 else 10) json =
        { buffer with erange := buffer.erange || type.overflows hex bytes }.assign ptr
          (toBytes type.size (value % 2 ^ (8 * type.size)).toNat) := by
    cases type
    case string => exact absurd rfl integer
    all_goals
      unfold stringToVariable
      simp only [read]
  rw [unfolded]
  unfold Buffer.assign
  cases overflow : type.overflows hex bytes with
  | true => simp
  | false => rw [same overflow]

end Fields

def byteMember (name : Char) (offset : Nat) : DataInfo where
  offset := offset
  size := 1
  type := .uint8
  arraySize := 0
  elementSize := 1
  flags := 0
  name := [name]

theorem byteMember_mapped {name : Char} (plain : name ∉ ['"', ':', '\\', ',', '\n', '\r', '\x00'])
    (offset : Nat) : (byteMember name offset).Mapped where
  scalar _ := rfl
  elements := Nat.zero_le 1
  integer _ := rfl
  some := Nat.one_pos
  name := ⟨List.cons_ne_nil _ _, fun c member => by rwa [List.mem_singleton.mp member]⟩

end InertialSense.DataLog
