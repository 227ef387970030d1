import Mathlib.Data.List.TakeWhile
import Mathlib.Tactic.IntervalCases

/-! Hexadecimal digits of either case, bytes written as pairs of them, and what `sscanf` makes of
them. -/

namespace Foundation

def hexValue (digit : Char) : Option Nat :=
  if '0' ≤ digit ∧ digit ≤ '9' then some (digit.toNat - '0'.toNat)
  else if 'A' ≤ digit ∧ digit ≤ 'F' then some (digit.toNat - 'A'.toNat + 10)
  else if 'a' ≤ digit ∧ digit ≤ 'f' then some (digit.toNat - 'a'.toNat + 10)
  else none

def hexDigits : List Char := "0123456789ABCDEFabcdef".toList

def numberOf (base value : Nat) : List Char → Nat
  | [] => value
  | digit :: rest => numberOf base (base * value + (hexValue digit).getD 0) rest

/-- The bytes that these digits are. -/
def hexBytes : List Char → Option (List UInt8)
  | [] => some []
  | [_] => none
  | high :: low :: rest => do
    let first ← hexValue high
    let second ← hexValue low
    let bytes ← hexBytes rest
    pure (UInt8.ofNat (16 * first + second) :: bytes)

def isSpace (c : Char) : Bool := c = ' ' ∨ '\t' ≤ c ∧ c ≤ '\r'

/-- What a conversion of `sscanf` comes to. -/
inductive Scan where
  | matched (value : Int)
  | mismatch
  | inputEnd
deriving DecidableEq

def withoutPrefix (field : List Char) : List Char :=
  match field with
  | '0' :: 'x' :: rest | '0' :: 'X' :: rest => rest
  | _ => field

def scanDigits (sign : Int) (field : List Char) : Scan :=
  let run := (withoutPrefix field).takeWhile fun digit => (hexValue digit).isSome
  if run = [] then .mismatch else .matched (sign * numberOf 16 0 run)

/-- `sscanf` with `%x` and a field width. -/
def scanHex (width : Nat) (text : List Char) : Scan :=
  match (text.dropWhile isSpace).take width with
  | [] => .inputEnd
  | '-' :: field => scanDigits (-1) field
  | '+' :: field => scanDigits 1 field
  | field => scanDigits 1 field

/-- What the variable holds that `sscanf` was given, or nothing if the conversion failed. -/
def Scan.stored (scan : Scan) (old : Int) : Option Int :=
  match scan with
  | .matched value => some value
  | .mismatch => none
  | .inputEnd => some old

theorem hexValue_mem {digit : Char} (hex : (hexValue digit).isSome) : digit ∈ hexDigits := by
  have code : Char.ofNat digit.toNat = digit := Char.ofNat_toNat digit
  have within {low high : Char} (between : low ≤ digit ∧ digit ≤ high) :
      low.toNat ≤ digit.toNat ∧ digit.toNat ≤ high.toNat := by
    simpa only [Char.le_def, UInt32.le_iff_toNat_le, Char.toNat_val] using between
  unfold hexValue at hex
  split at hex
  case isTrue between =>
    obtain ⟨low, high⟩ := within between
    change 48 ≤ _ at low
    change _ ≤ 57 at high
    rw [← code]
    interval_cases digit.toNat <;> decide
  split at hex
  case isTrue between =>
    obtain ⟨low, high⟩ := within between
    change 65 ≤ _ at low
    change _ ≤ 70 at high
    rw [← code]
    interval_cases digit.toNat <;> decide
  split at hex
  case isTrue between =>
    obtain ⟨low, high⟩ := within between
    change 97 ≤ _ at low
    change _ ≤ 102 at high
    rw [← code]
    interval_cases digit.toNat <;> decide
  case isFalse => cases hex

theorem hexValue_lt {digit : Char} {value : Nat} (hex : hexValue digit = some value) :
    value < 16 := by
  have all : hexDigits.all (fun digit => (hexValue digit).all (· < 16)) := by decide
  have less := List.all_eq_true.mp all digit (hexValue_mem (by rw [hex]; rfl))
  rw [hex] at less
  exact of_decide_eq_true less

theorem numberOf_lt (value : Nat) (digits : List Char) :
    numberOf 16 value digits < 16 ^ digits.length * (value + 1) := by
  induction digits generalizing value with
  | nil => simp [numberOf]
  | cons digit rest ih =>
    have small : (hexValue digit).getD 0 < 16 := by
      cases found : hexValue digit with
      | none => decide
      | some value => exact hexValue_lt found
    calc numberOf 16 value (digit :: rest)
        = numberOf 16 (16 * value + (hexValue digit).getD 0) rest := rfl
      _ < 16 ^ rest.length * (16 * value + (hexValue digit).getD 0 + 1) := ih _
      _ ≤ 16 ^ rest.length * (16 * (value + 1)) := Nat.mul_le_mul_left _ (by omega)
      _ = 16 ^ (digit :: rest).length * (value + 1) := by
        rw [List.length_cons, Nat.pow_succ, Nat.mul_assoc]

theorem scanHex_lt {width : Nat} {text : List Char} {value : Int}
    (matched : scanHex width text = .matched value) : value < (16 ^ width : Nat) := by
  have scanned {sign : Int} {field : List Char} (few : field.length ≤ width) (one : sign ≤ 1)
      (found : scanDigits sign field = .matched value) : value < (16 ^ width : Nat) := by
    unfold scanDigits at found
    dsimp only at found
    split at found
    · cases found
    · obtain rfl := Scan.matched.inj found
      have length : ((withoutPrefix field).takeWhile fun digit => (hexValue digit).isSome).length ≤
          width := by
        have shorter : (withoutPrefix field).length ≤ field.length := by
          unfold withoutPrefix
          split
          · simp only [List.length_cons]
            omega
          · simp only [List.length_cons]
            omega
          · exact Nat.le_refl _
        exact (List.takeWhile_prefix _).length_le.trans (shorter.trans few)
      have bound := numberOf_lt 0 ((withoutPrefix field).takeWhile fun digit => (hexValue digit).isSome)
      rw [Nat.zero_add, Nat.mul_one] at bound
      have small := Nat.lt_of_lt_of_le bound (Nat.pow_le_pow_right (by decide) length)
      have product : sign * (numberOf 16 0 ((withoutPrefix field).takeWhile fun digit =>
          (hexValue digit).isSome) : Int) ≤ 1 * (numberOf 16 0 ((withoutPrefix field).takeWhile
            fun digit => (hexValue digit).isSome) : Int) :=
        Int.mul_le_mul_of_nonneg_right one (Int.natCast_nonneg _)
      rw [Int.one_mul] at product
      exact Int.lt_of_le_of_lt product (Int.ofNat_lt.mpr small)
  have taken : ((text.dropWhile isSpace).take width).length ≤ width := List.length_take_le ..
  unfold scanHex at matched
  split at matched
  case h_1 => cases matched
  case h_2 field same =>
    rw [same, List.length_cons] at taken
    exact scanned (by omega) (by decide) matched
  case h_3 field same =>
    rw [same, List.length_cons] at taken
    exact scanned (by omega) (by decide) matched
  case h_4 => exact scanned taken (by decide) matched

/-- A digit is no space, no sign, no prefix and no separator. -/
theorem hexValue_plain {digit : Char} (hex : (hexValue digit).isSome) : isSpace digit = false ∧
    digit ∉ ['-', '+', 'x', 'X', ':', '\n', '\r', '\x00', ',', '"', '}', '\\'] := by
  have all : hexDigits.all fun digit => isSpace digit = false ∧
      digit ∉ ['-', '+', 'x', 'X', ':', '\n', '\r', '\x00', ',', '"', '}', '\\'] := by decide
  exact of_decide_eq_true (List.all_eq_true.mp all digit (hexValue_mem hex))

private theorem scanDigits_digits {digits : List Char} (some : digits ≠ [])
    (hex : ∀ digit ∈ digits, (hexValue digit).isSome) :
    scanDigits 1 digits = .matched (numberOf 16 0 digits) := by
  have plain (digit : Char) (member : digit ∈ digits) : digit ∉ ['x', 'X'] := by
    have others := (hexValue_plain (hex digit member)).2
    simp only [List.mem_cons, List.not_mem_nil, or_false, not_or] at others ⊢
    exact ⟨others.2.2.1, others.2.2.2.1⟩
  have unprefixed : withoutPrefix digits = digits := by
    unfold withoutPrefix
    split
    case h_1 | h_2 => exact absurd (by decide) (plain _ (.tail _ (.head _)))
    case h_3 => rfl
  have whole : digits.takeWhile (fun digit => (hexValue digit).isSome) = digits :=
    List.takeWhile_eq_self_iff.mpr hex
  unfold scanDigits
  dsimp only
  rw [unprefixed, whole, if_neg some, Int.one_mul]

theorem scanHex_digits {digits : List Char} (some : digits ≠ [])
    (hex : ∀ digit ∈ digits, (hexValue digit).isSome) (rest : List Char) :
    scanHex digits.length (digits ++ rest) = .matched (numberOf 16 0 digits) := by
  obtain ⟨first, others, rfl⟩ := List.exists_cons_of_ne_nil some
  obtain ⟨space, other⟩ := hexValue_plain (hex first (.head _))
  have field : ((first :: others ++ rest).dropWhile isSpace).take (first :: others).length =
      first :: others := by
    rw [List.cons_append, List.dropWhile_cons_of_neg (by rw [space]; decide), ← List.cons_append,
      List.take_left]
  unfold scanHex
  rw [field]
  split
  case h_1 same => cases same
  case h_2 same | h_3 same =>
    obtain ⟨rfl, -⟩ := List.cons.inj same
    exact absurd (by decide) other
  case h_4 => exact scanDigits_digits some hex

theorem scanHex_byte {high low : Char} {first second : Nat} (one : hexValue high = some first)
    (two : hexValue low = some second) (rest : List Char) :
    scanHex 2 (high :: low :: rest) = .matched (16 * first + second : Nat) := by
  have hex : ∀ digit ∈ [high, low], (hexValue digit).isSome := by
    simp [one, two]
  have scanned := scanHex_digits (List.cons_ne_nil _ _) hex rest
  rwa [show numberOf 16 0 [high, low] = 16 * first + second by simp [numberOf, one, two]] at scanned

section Bytes

variable {digits : List Char} {bytes : List UInt8}

theorem hexBytes_cons {byte : UInt8} (hex : hexBytes digits = some (byte :: bytes)) :
    ∃ high low rest first second, digits = high :: low :: rest ∧ hexValue high = some first ∧
      hexValue low = some second ∧ byte.toNat = 16 * first + second ∧
      hexBytes rest = some bytes := by
  match digits with
  | [] => cases hex
  | [_] => cases hex
  | high :: low :: rest =>
    unfold hexBytes at hex
    obtain ⟨first, one, hex⟩ := Option.bind_eq_some_iff.mp hex
    obtain ⟨second, two, hex⟩ := Option.bind_eq_some_iff.mp hex
    obtain ⟨others, more, hex⟩ := Option.bind_eq_some_iff.mp hex
    obtain ⟨same, rfl⟩ := List.cons.inj (Option.some.inj hex)
    have small := hexValue_lt one
    have small' := hexValue_lt two
    refine ⟨high, low, rest, first, second, rfl, one, two, ?_, more⟩
    rw [← same, UInt8.toNat_ofNat']
    omega

theorem hexBytes_length (hex : hexBytes digits = some bytes) :
    digits.length = 2 * bytes.length := by
  induction bytes generalizing digits with
  | nil =>
    match digits with
    | [] => rfl
    | [_] => cases hex
    | high :: low :: rest =>
      unfold hexBytes at hex
      obtain ⟨first, -, hex⟩ := Option.bind_eq_some_iff.mp hex
      obtain ⟨second, -, hex⟩ := Option.bind_eq_some_iff.mp hex
      obtain ⟨others, -, hex⟩ := Option.bind_eq_some_iff.mp hex
      cases hex
  | cons byte rest ih =>
    obtain ⟨high, low, others, -, -, rfl, -, -, -, more⟩ := hexBytes_cons hex
    rw [List.length_cons, List.length_cons, ih more, List.length_cons]
    omega

/-- Two digits in front are a byte in front. -/
theorem hexBytes_pair {high low : Char} {rest : List Char} {first second : Nat} {byte : UInt8}
    (one : hexValue high = some first) (two : hexValue low = some second)
    (same : byte.toNat = 16 * first + second) (more : hexBytes rest = some bytes) :
    hexBytes (high :: low :: rest) = some (byte :: bytes) := by
  have value : UInt8.ofNat (16 * first + second) = byte := by
    rw [← same, UInt8.ofNat_toNat]
  unfold hexBytes
  rw [one, two, more]
  exact congrArg (fun byte => some (byte :: bytes)) value

theorem hexBytes_append {digits' : List Char} {bytes' : List UInt8}
    (hex : hexBytes digits = some bytes) (hex' : hexBytes digits' = some bytes') :
    hexBytes (digits ++ digits') = some (bytes ++ bytes') := by
  induction bytes generalizing digits with
  | nil => rwa [List.eq_nil_of_length_eq_zero (hexBytes_length hex)]
  | cons byte rest ih =>
    obtain ⟨high, low, others, first, second, rfl, one, two, same, more⟩ := hexBytes_cons hex
    exact hexBytes_pair one two same (ih more)

theorem hexBytes_split {bytes' : List UInt8} (hex : hexBytes digits = some (bytes ++ bytes')) :
    hexBytes (digits.take (2 * bytes.length)) = some bytes ∧
      hexBytes (digits.drop (2 * bytes.length)) = some bytes' := by
  induction bytes generalizing digits with
  | nil => exact ⟨rfl, hex⟩
  | cons byte rest ih =>
    obtain ⟨high, low, others, first, second, rfl, one, two, same, more⟩ := hexBytes_cons hex
    obtain ⟨before, behind⟩ := ih more
    rw [List.length_cons, Nat.mul_succ, List.take_succ_cons, List.take_succ_cons,
      List.drop_succ_cons, List.drop_succ_cons]
    exact ⟨hexBytes_pair one two same before, behind⟩

theorem hexBytes_digits (hex : hexBytes digits = some bytes) :
    ∀ digit ∈ digits, (hexValue digit).isSome := by
  induction bytes generalizing digits with
  | nil =>
    rw [List.eq_nil_of_length_eq_zero (hexBytes_length hex)]
    exact fun _ member => absurd member List.not_mem_nil
  | cons byte rest ih =>
    obtain ⟨high, low, others, first, second, rfl, one, two, -, more⟩ := hexBytes_cons hex
    refine List.forall_mem_cons.mpr ⟨by rw [one]; rfl, ?_⟩
    exact List.forall_mem_cons.mpr ⟨by rw [two]; rfl, ih more⟩

/-- Two digits from each even place on are the byte there. -/
theorem scanHex_at (hex : hexBytes digits = some bytes) {k : Nat} (inside : k < bytes.length) :
    scanHex 2 (digits.drop (2 * k)) = .matched bytes[k].toNat := by
  induction bytes generalizing digits k with
  | nil => cases inside
  | cons byte rest ih =>
    obtain ⟨high, low, others, first, second, rfl, one, two, same, more⟩ := hexBytes_cons hex
    cases k with
    | zero =>
      rw [List.getElem_cons_zero, same]
      exact scanHex_byte one two others
    | succ k => exact ih more (Nat.lt_of_succ_lt_succ inside)

/-- Four digits are two bytes. -/
theorem scanHex_half (hex : hexBytes digits = some bytes) {k : Nat}
    (inside : k + 1 < bytes.length) :
    scanHex 4 (digits.drop (2 * k)) =
      .matched (256 * bytes[k].toNat + bytes[k + 1].toNat : Nat) := by
  induction k generalizing digits bytes with
  | zero =>
    obtain ⟨byte, byte', rest, rfl⟩ : ∃ a b rest, bytes = a :: b :: rest := by
      match bytes, inside with
      | a :: b :: rest, _ => exact ⟨a, b, rest, rfl⟩
    obtain ⟨high, low, others, first, second, rfl, one, two, same, more⟩ := hexBytes_cons hex
    obtain ⟨high', low', others, first', second', rfl, one', two', same', -⟩ := hexBytes_cons more
    have hex : ∀ digit ∈ [high, low, high', low'], (hexValue digit).isSome := by
      simp [one, two, one', two']
    have scanned := scanHex_digits (List.cons_ne_nil _ _) hex others
    have value : numberOf 16 0 [high, low, high', low'] = 256 * byte.toNat + byte'.toNat := by
      simp [numberOf, one, two, one', two']
      omega
    rwa [value] at scanned
  | succ k ih =>
    obtain _ | ⟨byte, rest⟩ := bytes
    · cases inside
    obtain ⟨high, low, others, -, -, rfl, -, -, -, more⟩ := hexBytes_cons hex
    exact ih more (Nat.lt_of_succ_lt_succ inside)

end Bytes

end Foundation
