import InertialSense.Foundation.Strtol

/-! `sscanf` with decimal conversions and with characters that have to match. -/

namespace Foundation

/-- A directive of a format: `%d`, `%u`, each with a field width, or a character. -/
inductive Directive where
  | signed (width : Option Nat)
  | unsigned (width : Option Nat)
  | character (c : Char)

/-- The field of a decimal conversion, its digits, and what is behind them: nothing if there is no
digit. -/
def conversionField (width : Option Nat) (text : List Char) : Option (List Char × List Char) :=
  let text := text.dropWhile isSpace
  let field := text.take (width.getD text.length)
  let unsigned := (signOf field).2
  let digits := unsigned.takeWhile (isDigitOf 10)
  if digits = [] then none
  else some (field, text.drop (field.length - unsigned.length + digits.length))

/-- The values that `sscanf` assigns, up to the first directive that fails. -/
def sscanf : List Directive → List Char → List Int
  | [], _ => []
  | .signed width :: format, text =>
    match conversionField width text with
    | none => []
    | some (field, rest) => (strtol 10 field).1 :: sscanf format rest
  | .unsigned width :: format, text =>
    match conversionField width text with
    | none => []
    | some (field, rest) => (strtoul 10 field).1 :: sscanf format rest
  | .character c :: format, text =>
    match text with
    | [] => []
    | head :: rest => if head = c then sscanf format rest else []

@[simp] theorem sscanf_nil (text : List Char) : sscanf [] text = [] := rfl

@[simp] theorem sscanf_character (c : Char) (format : List Directive) (rest : List Char) :
    sscanf (.character c :: format) (c :: rest) = sscanf format rest := if_pos rfl

section Numeral

variable {digits rest : List Char} {width : Option Nat}

/-- The digits end with the field, or they are in it and no digit is behind them. -/
def EndsField (width : Option Nat) (digits rest : List Char) : Prop :=
  width = some digits.length ∨
    (∀ wide ∈ width, digits.length ≤ wide) ∧ rest.takeWhile (isDigitOf 10) = []

/-- A numeral with no digit behind it is read whole. -/
theorem strtol_digits (some : digits ≠ []) (all : ∀ c ∈ digits, isDigitOf 10 c = true)
    (small : numberOf 10 0 digits < 2 ^ 63) (stop : rest.takeWhile (isDigitOf 10) = []) :
    (strtol 10 (digits ++ rest)).1 = numberOf 10 0 digits ∧
      (strtoul 10 (digits ++ rest)).1 = numberOf 10 0 digits := by
  obtain ⟨c, more, rfl⟩ := List.exists_cons_of_ne_nil some
  have hex : (hexValue c).isSome := by
    obtain ⟨value, found, -⟩ := (Option.any_eq_true _ _).mp (all c (.head _))
    rw [found]
    rfl
  have whole : (c :: (more ++ rest)).takeWhile (isDigitOf 10) = c :: more := by
    rw [← List.cons_append, List.takeWhile_append_of_pos all, stop, List.append_nil]
  unfold strtol strtoul
  rw [List.cons_append, signedNumber_digit 10 hex, if_neg (by decide), whole]
  refine ⟨?_, ?_⟩
  · dsimp only
    rw [if_pos small]
  · dsimp only
    rw [if_pos (by omega)]
    simp only [Bool.false_eq_true, if_false]
    omega

private theorem conversionField_digits (some : digits ≠ []) (all : ∀ c ∈ digits, isDigitOf 10 c = true)
    (ends : EndsField width digits rest) :
    ∃ behind, behind.takeWhile (isDigitOf 10) = [] ∧
      conversionField width (digits ++ rest) = .some (digits ++ behind, rest) := by
  obtain ⟨c, more, rfl⟩ := List.exists_cons_of_ne_nil some
  have digit := all c (.head _)
  have hex : (hexValue c).isSome := by
    obtain ⟨value, found, -⟩ := (Option.any_eq_true _ _).mp digit
    rw [found]
    rfl
  obtain ⟨space, other⟩ := hexValue_plain hex
  obtain ⟨behind, field, stop⟩ : ∃ behind, (c :: more ++ rest).take
      (width.getD (c :: more ++ rest).length) = c :: more ++ behind ∧
        behind.takeWhile (isDigitOf 10) = [] := by
    obtain rfl | ⟨wide, stop⟩ := ends
    · exact ⟨[], by simp, rfl⟩
    · cases width with
      | none => exact ⟨rest, List.take_of_length_le (Nat.le_refl _), stop⟩
      | some wide' =>
        obtain ⟨extra, rfl⟩ := Nat.exists_eq_add_of_le (wide wide' rfl)
        refine ⟨rest.take extra, List.take_length_add_append extra, ?_⟩
        cases rest with
        | nil => simp
        | cons head tail =>
          cases extra with
          | zero => rfl
          | succ extra =>
            rw [List.take_succ_cons]
            by_cases first : isDigitOf 10 head = true
            · rw [List.takeWhile_cons_of_pos first] at stop
              cases stop
            · rw [List.takeWhile_cons_of_neg first]
  have sign : signOf (c :: more ++ behind) = (false, c :: more ++ behind) := by
    unfold signOf
    split
    case h_1 same | h_2 same =>
      obtain ⟨rfl, -⟩ := List.cons.inj same
      exact absurd (by decide) other
    case h_3 => rfl
  have whole : (c :: more ++ behind).takeWhile (isDigitOf 10) = c :: more := by
    rw [List.takeWhile_append_of_pos all, stop, List.append_nil]
  refine ⟨behind, stop, ?_⟩
  unfold conversionField
  rw [show (c :: more ++ rest).dropWhile isSpace = c :: more ++ rest from
    List.dropWhile_cons_of_neg (by rw [space]; decide)]
  simp only [field, sign, whole]
  rw [if_neg (List.cons_ne_nil _ _), Nat.sub_self, Nat.zero_add, List.drop_left]

/-- A numeral is assigned, and what is behind it is read next. -/
theorem sscanf_numeral (some : digits ≠ []) (all : ∀ c ∈ digits, isDigitOf 10 c = true)
    (small : numberOf 10 0 digits < 2 ^ 63) (ends : EndsField width digits rest)
    (format : List Directive) :
    sscanf (.signed width :: format) (digits ++ rest) =
        (numberOf 10 0 digits : Int) :: sscanf format rest ∧
      sscanf (.unsigned width :: format) (digits ++ rest) =
        (numberOf 10 0 digits : Int) :: sscanf format rest := by
  obtain ⟨behind, stop, scanned⟩ := conversionField_digits some all ends
  obtain ⟨signed, unsigned⟩ := strtol_digits some all small stop
  refine ⟨?_, ?_⟩
  · rw [sscanf, scanned]
    exact congrArg (· :: sscanf format rest) signed
  · rw [sscanf, scanned]
    exact congrArg (· :: sscanf format rest) unsigned

end Numeral

theorem padded_ne_nil (pad value : Nat) : padded pad 10 value ≠ [] := by
  unfold padded List.leftpad
  exact List.append_ne_nil_of_right_ne_nil _ Nat.toDigits_ne_nil

/-- A padded numeral is assigned with its value. -/
theorem sscanf_padded {width : Option Nat} {pad value : Nat} {rest : List Char} (small : value < 2 ^ 63)
    (ends : EndsField width (padded pad 10 value) rest) (format : List Directive) :
    sscanf (.signed width :: format) (padded pad 10 value ++ rest) =
        (value : Int) :: sscanf format rest ∧
      sscanf (.unsigned width :: format) (padded pad 10 value ++ rest) =
        (value : Int) :: sscanf format rest := by
  have number := numberOf_padded pad value
  have read := sscanf_numeral (padded_ne_nil pad value) (fun c member => mem_padded_decimal member)
    (number.symm ▸ small) ends format
  rwa [number] at read

end Foundation
