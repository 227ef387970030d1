import InertialSense.Foundation.Hex
import InertialSense.Foundation.Numerals

/-! The numbers that `strtol` and its kind read where `long` has 64 bits, and that they read
numerals back. -/

namespace Foundation

def isDigitOf (base : Nat) (c : Char) : Bool := (hexValue c).any (· < base)

/-- Whether a minus sign is in front, and what is behind a sign. -/
def signOf : List Char → Bool × List Char
  | '-' :: field => (true, field)
  | '+' :: field => (false, field)
  | field => (false, field)

/-- The sign and the magnitude at the start of a text. -/
def signedNumber (base : Nat) (text : List Char) : Bool × Nat :=
  let (negative, field) := signOf (text.dropWhile isSpace)
  let digits := if base = 16 then withoutPrefix field else field
  (negative, numberOf base 0 (digits.takeWhile (isDigitOf base)))

/-- `strtol` and `strtoll`, and whether they set `errno` to `ERANGE`. -/
def strtol (base : Nat) (text : List Char) : Int × Bool :=
  match signedNumber base text with
  | (true, magnitude) => if magnitude ≤ 2 ^ 63 then (-magnitude, false) else (-2 ^ 63, true)
  | (false, magnitude) => if magnitude < 2 ^ 63 then (magnitude, false) else (2 ^ 63 - 1, true)

/-- `strtoul` and `strtoull`, and whether they set `errno` to `ERANGE`. -/
def strtoul (base : Nat) (text : List Char) : Int × Bool :=
  match signedNumber base text with
  | (negative, magnitude) =>
    if magnitude < 2 ^ 64 then ((if negative then -(magnitude : Int) else magnitude) % 2 ^ 64, false)
    else (2 ^ 64 - 1, true)

/-- What `stoi` throws. -/
inductive Unconvertible where
  | invalidArgument
  | outOfRange
deriving DecidableEq

/-- `stoi`, with an `int` of 32 bits. -/
def stoi (text : List Char) : Except Unconvertible Int :=
  if (signOf (text.dropWhile isSpace)).2.takeWhile (isDigitOf 10) = [] then .error .invalidArgument
  else
    let (value, erange) := strtol 10 text
    if erange ∨ value < -2 ^ 31 ∨ 2 ^ 31 ≤ value then .error .outOfRange else .ok value

/-- `%0*X` behind `0x`. -/
def upperHex (width value : Nat) : List Char :=
  '0' :: 'x' :: (padded width 16 value).map Char.toUpper

section Digits

variable {base : Nat}

private theorem hexValue_digitChar {digit : Nat} (small : digit < 16) :
    hexValue digit.digitChar = some digit ∧ hexValue digit.digitChar.toUpper = some digit := by
  have all : ∀ digit < 16, hexValue digit.digitChar = some digit ∧
      hexValue digit.digitChar.toUpper = some digit := by decide
  exact all digit small

theorem numberOf_append (base value : Nat) (first second : List Char) :
    numberOf base value (first ++ second) = numberOf base (numberOf base value first) second := by
  induction first generalizing value with
  | nil => rfl
  | cons digit rest ih => exact ih _

theorem mem_toDigits (numeral : 1 < base) (digits : base ≤ 16) {value : Nat} {c : Char}
    (member : c ∈ Nat.toDigits base value) : ∃ digit < base, c = digit.digitChar := by
  induction value using Nat.strong_induction_on with
  | _ value ih =>
    rw [Nat.toDigits_eq_if numeral] at member
    split at member
    case isTrue small => exact ⟨value, small, List.mem_singleton.mp member⟩
    case isFalse large =>
      obtain before | last := List.mem_append.mp member
      · exact ih (value / base) (Nat.div_lt_self (by omega) numeral) before
      · exact ⟨value % base, Nat.mod_lt _ (by omega), List.mem_singleton.mp last⟩

/-- A numeral is the number it was made of, in either case. -/
theorem numberOf_toDigits (numeral : 1 < base) (digits : base ≤ 16) (value : Nat) :
    numberOf base 0 (Nat.toDigits base value) = value ∧
      numberOf base 0 ((Nat.toDigits base value).map Char.toUpper) = value := by
  induction value using Nat.strong_induction_on with
  | _ value ih =>
    rw [Nat.toDigits_eq_if numeral]
    split
    case isTrue small =>
      have digit := hexValue_digitChar (small.trans_le digits)
      simp [numberOf, digit]
    case isFalse large =>
      have last := Nat.mod_lt value (show 0 < base by omega)
      have digit := hexValue_digitChar (last.trans_le digits)
      have before := ih (value / base) (Nat.div_lt_self (by omega) numeral)
      have whole := Nat.div_add_mod value base
      rw [List.map_append, numberOf_append, numberOf_append, before.1, before.2]
      simp [numberOf, digit, whole]

theorem numberOf_zeros (count : Nat) (digits : List Char) :
    numberOf base 0 (List.replicate count '0' ++ digits) = numberOf base 0 digits := by
  induction count with
  | zero => rfl
  | succ count ih => exact ih

end Digits

section Texts

theorem mem_decimal {value : Int} {c : Char} (member : c ∈ decimal value) :
    c = '-' ∨ (isDigitOf 10 c ∧ (hexValue c).isSome) := by
  have digit {value : Nat} (member : c ∈ Nat.toDigits 10 value) :
      isDigitOf 10 c ∧ (hexValue c).isSome := by
    obtain ⟨digit, small, rfl⟩ := mem_toDigits (by decide) (by decide) member
    have value := (hexValue_digitChar (small.trans (by decide))).1
    simp [isDigitOf, value, small]
  cases value with
  | ofNat value => exact .inr (digit member)
  | negSucc value =>
    obtain rfl | later := List.mem_cons.mp member
    · exact .inl rfl
    · exact .inr (digit later)

private theorem mem_padded {width value : Nat} {c : Char}
    (member : c ∈ (padded width 16 value).map Char.toUpper) : isDigitOf 16 c ∧ (hexValue c).isSome := by
  obtain ⟨digit, inside, rfl⟩ := List.mem_map.mp member
  have small : ∃ value < 16, digit = value.digitChar := by
    obtain zero | later := List.mem_append.mp inside
    · exact ⟨0, by decide, List.eq_of_mem_replicate zero⟩
    · exact mem_toDigits (by decide) (by decide) later
  obtain ⟨value, small, rfl⟩ := small
  have read := (hexValue_digitChar small).2
  simp [isDigitOf, read, small]

theorem mem_upperHex {width value : Nat} {c : Char} (member : c ∈ upperHex width value) :
    c = 'x' ∨ (hexValue c).isSome := by
  obtain rfl | later := List.mem_cons.mp member
  · exact .inr rfl
  · obtain rfl | last := List.mem_cons.mp later
    · exact .inl rfl
    · exact .inr (mem_padded last).2

theorem signOf_digit {c : Char} (hex : (hexValue c).isSome) (rest : List Char) :
    signOf ((c :: rest).dropWhile isSpace) = (false, c :: rest) := by
  obtain ⟨space, other⟩ := hexValue_plain hex
  rw [List.dropWhile_cons_of_neg (by rw [space]; decide)]
  unfold signOf
  split
  case h_1 same | h_2 same =>
    obtain ⟨rfl, -⟩ := List.cons.inj same
    exact absurd (by decide) other
  case h_3 => rfl

theorem signedNumber_digit (base : Nat) {c : Char} (hex : (hexValue c).isSome)
    (rest : List Char) : signedNumber base (c :: rest) =
      (false, numberOf base 0 ((if base = 16 then withoutPrefix (c :: rest)
        else c :: rest).takeWhile (isDigitOf base))) := by
  unfold signedNumber
  rw [signOf_digit hex]

/-- What starts with a digit is the number of its first digits, if that is an `int`. -/
theorem stoi_digit {c : Char} (digit : isDigitOf 10 c = true) (rest : List Char) :
    stoi (c :: rest) =
      if numberOf 10 0 ((c :: rest).takeWhile (isDigitOf 10)) < 2 ^ 31 then
        .ok (numberOf 10 0 ((c :: rest).takeWhile (isDigitOf 10)))
      else .error .outOfRange := by
  have hex : (hexValue c).isSome := by
    obtain ⟨value, found, -⟩ := (Option.any_eq_true _ _).mp digit
    rw [found]
    rfl
  have some : (c :: rest).takeWhile (isDigitOf 10) ≠ [] := by
    rw [List.takeWhile_cons_of_pos digit]
    exact List.cons_ne_nil _ _
  unfold stoi
  rw [signOf_digit hex, if_neg some, strtol, signedNumber_digit 10 hex, if_neg (by decide)]
  dsimp only
  generalize numberOf 10 0 ((c :: rest).takeWhile (isDigitOf 10)) = magnitude
  by_cases fits : magnitude < 2 ^ 31
  · have long : magnitude < 2 ^ 63 := fits.trans (by decide)
    rw [if_pos long, if_pos fits, if_neg]
    simp only [Bool.false_eq_true, false_or, not_or]
    omega
  · rw [if_neg fits]
    by_cases long : magnitude < 2 ^ 63
    · rw [if_pos long, if_pos]
      right
      right
      show (2 ^ 31 : Int) ≤ (magnitude : Int)
      omega
    · rw [if_neg long, if_pos (.inl rfl)]

private theorem numberOf_decimal (value : Nat) {rest : List Char}
    (stop : rest.takeWhile (isDigitOf 10) = []) :
    numberOf 10 0 ((Nat.toDigits 10 value ++ rest).takeWhile (isDigitOf 10)) = value := by
  have whole : (Nat.toDigits 10 value ++ rest).takeWhile (isDigitOf 10) =
      Nat.toDigits 10 value := by
    rw [List.takeWhile_append_of_pos, stop, List.append_nil]
    intro c member
    obtain ⟨digit, small, rfl⟩ := mem_toDigits (by decide) (by decide) member
    have read := (hexValue_digitChar (small.trans (by decide))).1
    simp [isDigitOf, read, small]
  rw [whole]
  exact (numberOf_toDigits (by decide) (by decide) value).1

/-- A decimal numeral is read back, if no digit follows it. -/
theorem signedNumber_decimal (value : Int) {rest : List Char}
    (stop : rest.takeWhile (isDigitOf 10) = []) :
    signedNumber 10 (decimal value ++ rest) = (decide (value < 0), value.natAbs) := by
  cases value with
  | ofNat value =>
    have digits := numberOf_decimal value stop
    show signedNumber 10 (Nat.toDigits 10 value ++ rest) = _
    obtain ⟨c, others, same⟩ :=
      List.exists_cons_of_ne_nil (Nat.toDigits_ne_nil (n := value) (b := 10))
    obtain ⟨digit, small, rfl⟩ := mem_toDigits (by decide) (by decide) (same ▸ List.mem_cons_self)
    have read := (hexValue_digitChar (small.trans (by decide))).1
    rw [same, List.cons_append] at digits
    rw [same, List.cons_append, signedNumber_digit 10 (by rw [read]; rfl), if_neg (by decide),
      digits]
    simp
  | negSucc value =>
    show (true, numberOf 10 0 ((Nat.toDigits 10 (value + 1) ++ rest).takeWhile _)) = _
    rw [numberOf_decimal _ stop, decide_eq_true (Int.negSucc_lt_zero value)]
    rfl

theorem signedNumber_upperHex (width value : Nat) :
    signedNumber 16 (upperHex width value) = (false, value) := by
  have whole : ((padded width 16 value).map Char.toUpper).takeWhile (isDigitOf 16) =
      (padded width 16 value).map Char.toUpper :=
    List.takeWhile_eq_self_iff.mpr fun c member => (mem_padded member).1
  unfold upperHex
  rw [signedNumber_digit 16 (by decide), if_pos rfl]
  show (false, numberOf 16 0 (((padded width 16 value).map Char.toUpper).takeWhile _)) = _
  rw [whole]
  unfold padded List.leftpad
  rw [List.map_append, List.map_replicate, show '0'.toUpper = '0' by decide, numberOf_zeros,
    (numberOf_toDigits (by decide) (by decide) value).2]

end Texts

section Read

theorem strtol_decimal {value : Int} (low : -2 ^ 63 ≤ value) (high : value < 2 ^ 63)
    {rest : List Char} (stop : rest.takeWhile (isDigitOf 10) = []) :
    strtol 10 (decimal value ++ rest) = (value, false) := by
  unfold strtol
  rw [signedNumber_decimal _ stop]
  by_cases negative : value < 0
  · simp only [negative, decide_true]
    rw [if_pos (by omega)]
    congr 1
    omega
  · simp only [negative, decide_false]
    rw [if_pos (by omega)]
    congr 1
    omega

theorem strtoul_decimal {value : Nat} (small : value < 2 ^ 64) {rest : List Char}
    (stop : rest.takeWhile (isDigitOf 10) = []) :
    strtoul 10 (decimal value ++ rest) = ((value : Int), false) := by
  unfold strtoul
  rw [signedNumber_decimal _ stop]
  simp only [Int.natAbs_natCast, show ¬((value : Int) < 0) by omega, decide_false,
    Bool.false_eq_true, if_false]
  rw [if_pos small]
  congr 1
  omega

theorem strtol_upperHex (width value : Nat) : strtol 16 (upperHex width value) =
    if value < 2 ^ 63 then ((value : Int), false) else (2 ^ 63 - 1, true) := by
  unfold strtol
  rw [signedNumber_upperHex]

theorem strtol_hexDigits {digits : List Char} (some : digits ≠ [])
    (hex : ∀ digit ∈ digits, (hexValue digit).isSome) (small : numberOf 16 0 digits < 2 ^ 63) :
    strtol 16 digits = ((numberOf 16 0 digits : Int), false) := by
  have unprefixed : withoutPrefix digits = digits := by
    unfold withoutPrefix
    split
    case h_1 | h_2 =>
      have plain := (hexValue_plain (hex _ (.tail _ (.head _)))).2
      exact absurd (by decide) plain
    case h_3 => rfl
  obtain ⟨first, others, rfl⟩ := List.exists_cons_of_ne_nil some
  have whole : (first :: others).takeWhile (isDigitOf 16) = first :: others := by
    refine List.takeWhile_eq_self_iff.mpr fun digit member => ?_
    obtain ⟨value, found⟩ := Option.isSome_iff_exists.mp (hex digit member)
    simp [isDigitOf, found, hexValue_lt found]
  unfold strtol
  rw [signedNumber_digit 16 (hex first (.head _)), if_pos rfl, unprefixed, whole]
  exact if_pos small

theorem strtoul_upperHex (width : Nat) {value : Nat} (small : value < 2 ^ 64) :
    strtoul 16 (upperHex width value) = ((value : Int), false) := by
  unfold strtoul
  rw [signedNumber_upperHex]
  simp only [Bool.false_eq_true, if_false]
  rw [if_pos small]
  congr 1
  omega

theorem mem_padded_decimal {width value : Nat} {c : Char} (member : c ∈ padded width 10 value) :
    isDigitOf 10 c = true := by
  obtain zero | later := List.mem_append.mp member
  · rw [List.eq_of_mem_replicate zero]
    decide
  · obtain ⟨digit, small, rfl⟩ := mem_toDigits (by decide) (by decide) later
    have read := (hexValue_digitChar (small.trans (by decide))).1
    simp [isDigitOf, read, small]

theorem numberOf_padded (width value : Nat) : numberOf 10 0 (padded width 10 value) = value := by
  unfold padded List.leftpad
  rw [numberOf_zeros]
  exact (numberOf_toDigits (by decide) (by decide) value).1

theorem decimal_inj {value value' : Int} (same : decimal value = decimal value') :
    value = value' := by
  have read := congrArg (signedNumber 10) same
  have whole (value : Int) := signedNumber_decimal value List.takeWhile_nil
  simp only [List.append_nil] at whole
  rw [whole, whole] at read
  obtain ⟨negative, magnitude⟩ := Prod.mk.inj read
  have sign := decide_eq_decide.mp negative
  omega

theorem upperHex_inj {width value value' : Nat} (same : upperHex width value = upperHex width value') :
    value = value' := by
  have read := congrArg (signedNumber 16) same
  rw [signedNumber_upperHex, signedNumber_upperHex] at read
  exact (Prod.mk.inj read).2

end Read

end Foundation
