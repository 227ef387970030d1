import Mathlib.Data.List.Sort
import Mathlib.Data.Nat.Digits.Defs

/-! Numerals: the text of a number in a base, padded to a width, and the order of such texts. -/

namespace Foundation

/-- The numeral of a value, with zeros in front up to the width. -/
def padded (width base value : Nat) : List Char := (Nat.toDigits base value).leftpad width '0'

/-- The decimal numeral of an integer. -/
def decimal : Int → List Char
  | .ofNat value => Nat.toDigits 10 value
  | .negSucc value => '-' :: Nat.toDigits 10 (value + 1)

variable {width base value : Nat}

theorem padded_length (wide : 0 < width) (numeral : 1 < base) (fits : value < base ^ width) :
    (padded width base value).length = width := by
  have short := (Nat.length_toDigits_le_iff numeral wide).mpr fits
  simp only [padded, List.leftpad, List.length_append, List.length_replicate]
  omega

theorem padded_succ (wide : 0 < width) (numeral : 1 < base) (value : Nat) :
    padded (width + 1) base value =
      padded width base (value / base) ++ [(value % base).digitChar] := by
  unfold padded
  rw [Nat.toDigits_eq_if numeral (n := value)]
  split
  case isTrue small =>
    obtain ⟨less, rfl⟩ := Nat.exists_eq_add_of_lt wide
    rw [Nat.div_eq_of_lt small, Nat.mod_eq_of_lt small, Nat.toDigits_zero]
    simp [List.leftpad, List.replicate_succ']
  case isFalse _ => simp [List.leftpad]

theorem digitChar_lt {low high : Nat} (less : low < high) (digit : high < 16) :
    low.digitChar < high.digitChar := by
  have all : ∀ high < 16, ∀ low < high, low.digitChar < high.digitChar := by decide
  exact all high digit low less

/-- Of two texts of one length, what follows them does not change the order. -/
theorem append_lt_append {α : Type*} [LT α] {first second : List α} (less : first < second)
    (length : first.length = second.length) (rest rest' : List α) :
    first ++ rest < second ++ rest' := by
  induction first generalizing second with
  | nil =>
    obtain rfl := List.length_eq_zero_iff.mp length.symm
    exact absurd less (List.not_lt_nil _)
  | cons head tail ih =>
    obtain _ | ⟨head', tail'⟩ := second
    · cases length
    · rw [List.cons_append, List.cons_append, List.cons_lt_cons_iff]
      obtain smaller | ⟨same, later⟩ := List.cons_lt_cons_iff.mp less
      · exact .inl smaller
      · exact .inr ⟨same, ih later (Nat.succ.inj length)⟩

/-- Numerals of one width are in the order of their values. -/
theorem padded_lt (wide : 0 < width) (numeral : 1 < base) (digits : base ≤ 16) {low high : Nat}
    (less : low < high) (fits : high < base ^ width) :
    padded width base low < padded width base high := by
  induction width, wide using Nat.le_induction generalizing low high with
  | base =>
    rw [Nat.pow_one] at fits
    unfold padded
    rw [Nat.toDigits_of_lt_base fits, Nat.toDigits_of_lt_base (less.trans fits)]
    exact List.cons_lt_cons_iff.mpr (.inl (digitChar_lt less (by omega)))
  | succ width wide ih =>
    rw [padded_succ wide numeral, padded_succ wide numeral]
    rw [Nat.pow_succ] at fits
    have quotient : high / base < base ^ width :=
      Nat.div_lt_of_lt_mul (by rwa [Nat.mul_comm] at fits)
    obtain smaller | same := Nat.lt_or_eq_of_le (Nat.div_le_div_right (c := base) less.le)
    · refine append_lt_append (ih smaller quotient) ?_ _ _
      rw [padded_length wide numeral quotient,
        padded_length wide numeral (smaller.trans quotient)]
    · rw [same]
      refine List.append_left_lt (List.cons_lt_cons_iff.mpr (.inl (digitChar_lt ?_ ?_)))
      · have low' := Nat.div_add_mod low base
        have high' := Nat.div_add_mod high base
        rw [same] at low'
        omega
      · exact (Nat.mod_lt high (by omega)).trans_le digits

end Foundation
