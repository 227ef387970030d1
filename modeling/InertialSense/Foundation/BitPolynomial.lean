import InertialSense.Foundation.LittleEndian
import Mathlib.Algebra.CharP.Two
import Mathlib.Algebra.Field.ZMod
import Mathlib.Algebra.Polynomial.FieldDivision
import Mathlib.Data.Nat.Size

/-! Numbers as polynomials over two elements: bit `i` is the coefficient of `X ^ i`. -/

namespace Foundation.BitPolynomial

open Polynomial

noncomputable def polynomial (value : Nat) : (ZMod 2)[X] :=
  ∑ i ∈ Finset.range value.size, C (if value.testBit i then 1 else 0) * X ^ i

theorem coeff_polynomial (value i : Nat) :
    (polynomial value).coeff i = if value.testBit i then 1 else 0 := by
  have beyond (outside : value.size ≤ i) : value.testBit i = false :=
    Nat.testBit_lt_two_pow (Nat.size_le.mp outside)
  simp only [polynomial, finsetSum_coeff, coeff_C_mul, coeff_X_pow, mul_ite, mul_one, mul_zero,
    Finset.sum_ite_eq, Finset.mem_range]
  split
  case isTrue => rfl
  case isFalse outside => simp [beyond (Nat.le_of_not_lt outside)]

@[simp] theorem polynomial_zero : polynomial 0 = 0 := by
  ext i
  simp [coeff_polynomial]

@[simp] theorem polynomial_one : polynomial 1 = 1 := by
  ext i
  cases i with
  | zero => simp [coeff_polynomial]
  | succ i => simp [coeff_polynomial, coeff_one, Nat.testBit_succ]

theorem polynomial_xor (first second : Nat) :
    polynomial (first ^^^ second) = polynomial first + polynomial second := by
  ext i
  rw [coeff_add, coeff_polynomial, coeff_polynomial, coeff_polynomial, Nat.testBit_xor]
  cases first.testBit i <;> cases second.testBit i <;> decide

/-- The lowest `count` bits and the number above them. -/
theorem polynomial_join {count low : Nat} (high : Nat) (small : low < 2 ^ count) :
    polynomial (2 ^ count * high + low) = polynomial high * X ^ count + polynomial low := by
  ext i
  rw [coeff_add, coeff_mul_X_pow', coeff_polynomial, coeff_polynomial, coeff_polynomial,
    Nat.testBit_two_pow_mul_add _ small]
  by_cases below : i < count
  · simp [below, Nat.not_le.mpr below]
  · have beyond : low.testBit i = false :=
      Nat.testBit_lt_two_pow (Nat.lt_of_lt_of_le small
        (Nat.pow_le_pow_right (by decide) (Nat.le_of_not_lt below)))
    simp [below, Nat.le_of_not_lt below, beyond]

theorem polynomial_shift (count value : Nat) :
    polynomial (2 ^ count * value) = polynomial value * X ^ count := by
  simpa using polynomial_join value (Nat.two_pow_pos count)

theorem degree_polynomial_lt {value count : Nat} (small : value < 2 ^ count) :
    (polynomial value).degree < count := by
  rw [degree_lt_iff_coeff_zero]
  intro i above
  have beyond : value.testBit i = false :=
    Nat.testBit_lt_two_pow (Nat.lt_of_lt_of_le small (Nat.pow_le_pow_right (by decide) above))
  simp [coeff_polynomial, beyond]

theorem polynomial_injective : Function.Injective polynomial := by
  intro first second same
  apply Nat.eq_of_testBit_eq
  intro i
  have coefficient := congrArg (fun p => p.coeff i) same
  simp only [coeff_polynomial] at coefficient
  cases left : first.testBit i <;> cases right : second.testBit i <;> simp_all

/-- Bits, the highest first, as a number. -/
def number (bits : List Bool) : Nat := bits.foldl (fun value bit => 2 * value + bit.toNat) 0

@[simp] theorem number_nil : number [] = 0 := rfl

theorem number_concat (bits : List Bool) (bit : Bool) :
    number (bits ++ [bit]) = 2 * number bits + bit.toNat := by
  simp [number]

/-- The lowest `count` bits of a number, the highest first. -/
def digits : Nat → Nat → List Bool
  | 0, _ => []
  | count + 1, value => digits count (value / 2) ++ [value % 2 == 1]

@[simp] theorem digits_length (count value : Nat) : (digits count value).length = count := by
  induction count generalizing value with
  | zero => rfl
  | succ count ih => simp [digits, ih]

/-- A number and one bit below it. -/
theorem polynomial_bit (high : Nat) (bit : Bool) :
    polynomial (2 * high + bit.toNat) = polynomial high * X + polynomial bit.toNat := by
  have join := polynomial_join high (show bit.toNat < 2 ^ 1 by cases bit <;> decide)
  simpa using join

theorem half_bit (value : Nat) : 2 * (value / 2) + (value % 2 == 1).toNat = value := by
  rcases Nat.mod_two_eq_zero_or_one value with even | odd
  · simp [even]
    omega
  · simp [odd]
    omega

theorem polynomial_number_concat (bits : List Bool) (bit : Bool) :
    polynomial (number (bits ++ [bit])) =
      polynomial (number bits) * X + polynomial bit.toNat := by
  rw [number_concat, polynomial_bit]

theorem polynomial_number_append (first second : List Bool) :
    polynomial (number (first ++ second)) =
      polynomial (number first) * X ^ second.length + polynomial (number second) := by
  induction second using List.reverseRecOn with
  | nil => simp
  | append_singleton rest bit ih =>
    rw [← List.append_assoc, polynomial_number_concat, ih, polynomial_number_concat,
      List.length_append, List.length_singleton, pow_succ]
    ring

theorem number_digits {count value : Nat} (small : value < 2 ^ count) :
    number (digits count value) = value := by
  induction count generalizing value with
  | zero =>
    have : value = 0 := by simpa using small
    rw [this]
    rfl
  | succ count ih =>
    have half : value / 2 < 2 ^ count := by
      rw [Nat.pow_succ] at small
      omega
    rw [digits, number_concat, ih half, half_bit]

/-- The bits of a byte string, the highest bit of each byte first. -/
def octets (data : List UInt8) : List Bool := data.flatMap fun byte => digits 8 byte.toNat

theorem octets_append (first second : List UInt8) :
    octets (first ++ second) = octets first ++ octets second := by
  simp [octets]

theorem polynomial_octets_concat (data : List UInt8) (byte : UInt8) :
    polynomial (number (octets (data ++ [byte]))) =
      polynomial (number (octets data)) * X ^ 8 + polynomial byte.toNat := by
  have single : octets [byte] = digits 8 byte.toNat := by simp [octets]
  rw [octets_append, polynomial_number_append, single, digits_length, number_digits byte.toNat_lt]

/-- A message followed by a number, its highest byte first. -/
theorem polynomial_octets_bigEndian (data : List UInt8) {count value : Nat}
    (fits : value < 256 ^ count) :
    polynomial (number (octets (data ++ (toBytes count value).reverse))) =
      polynomial (number (octets data)) * X ^ (8 * count) + polynomial value := by
  induction count generalizing value with
  | zero =>
    obtain rfl : value = 0 := by simpa using fits
    simp [toBytes]
  | succ count ih =>
    have upper : value / 256 < 256 ^ count :=
      Nat.div_lt_of_lt_mul (by rwa [Nat.pow_succ, Nat.mul_comm] at fits)
    have lowest : (UInt8.ofNat value).toNat = value % 2 ^ 8 := UInt8.toNat_ofNat'
    have whole : polynomial value =
        polynomial (value / 256) * X ^ 8 + polynomial (value % 2 ^ 8) := by
      have join := polynomial_join (value / 2 ^ 8) (Nat.mod_lt value (Nat.two_pow_pos 8))
      rw [Nat.div_add_mod] at join
      exact join
    rw [toBytes, List.reverse_cons, ← List.append_assoc, polynomial_octets_concat, ih upper, lowest,
      whole, Nat.mul_succ, pow_add]
    ring

end Foundation.BitPolynomial
