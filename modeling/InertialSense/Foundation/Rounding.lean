import InertialSense.Foundation.Binary32
import Mathlib.Algebra.Order.Field.Power
import Mathlib.Algebra.Order.Field.Rat
import Mathlib.Tactic.FieldSimp
import Mathlib.Tactic.Linarith
import Mathlib.Tactic.NormNum
import Mathlib.Tactic.Positivity
import Mathlib.Tactic.Ring

/-! What single precision arithmetic computes, in rational numbers: how far a rounded quotient is
from the exact one, and which integers bound it. -/

namespace Foundation.Binary32

def value (x : Binary32) : ℚ := x.significand * 2 ^ x.exponent

/-! ### Rounding to an integer -/

section Nearest

variable {numerator denominator bound : Nat}

private theorem numerator_eq (positive : 0 < denominator) :
    ∃ quotient remainder, numerator = denominator * quotient + remainder ∧
      remainder < denominator ∧
      nearest numerator denominator =
        if 2 * remainder < denominator ∨ (2 * remainder = denominator ∧ quotient % 2 = 0) then
          quotient
        else quotient + 1 :=
  ⟨_, _, (Nat.div_add_mod ..).symm, Nat.mod_lt _ positive, rfl⟩

/-- Half a unit above an even integer is still rounded down to it. -/
theorem nearest_le_iff (positive : 0 < denominator) (even : bound % 2 = 0) :
    nearest numerator denominator ≤ bound ↔ 2 * numerator ≤ (2 * bound + 1) * denominator := by
  obtain ⟨quotient, remainder, rfl, small, rounded⟩ := @numerator_eq numerator _ positive
  rw [rounded]
  rcases Nat.lt_trichotomy quotient bound with less | rfl | more
  · have product := Nat.mul_le_mul_left denominator (Nat.succ_le_of_lt less)
    refine iff_of_true ?_ (by linarith)
    split <;> omega
  · split
    case isTrue down =>
      refine iff_of_true (Nat.le_refl _) ?_
      have half : 2 * remainder ≤ denominator := by omega
      linarith
    case isFalse up =>
      refine iff_of_false (by omega) ?_
      have half : denominator < 2 * remainder := by omega
      linarith
  · have product := Nat.mul_le_mul_left denominator (Nat.succ_le_of_lt more)
    refine iff_of_false ?_ (by linarith)
    split <;> omega

theorem nearest_bounds (positive : 0 < denominator) :
    2 * numerator ≤ (2 * nearest numerator denominator + 1) * denominator ∧
      2 * nearest numerator denominator * denominator ≤ 2 * numerator + denominator := by
  obtain ⟨quotient, remainder, rfl, small, rounded⟩ := @numerator_eq numerator _ positive
  rw [rounded]
  split
  case isTrue down =>
    have half : 2 * remainder ≤ denominator := by omega
    constructor <;> linarith
  case isFalse up =>
    have half : denominator ≤ 2 * remainder := by omega
    constructor <;> linarith

end Nearest

section Scaled

variable {numerator denominator bound : Nat} {exponent : Int}

private theorem scaled_eq (positive : 0 < denominator) :
    ∃ numerator' denominator', 0 < denominator' ∧
      scaled numerator denominator exponent = nearest numerator' denominator' ∧
      (numerator' / denominator' : ℚ) = numerator / denominator / 2 ^ exponent := by
  unfold scaled
  split
  case isTrue up =>
    refine ⟨numerator, denominator * 2 ^ exponent.toNat, by positivity, rfl, ?_⟩
    obtain ⟨k, rfl⟩ := Int.eq_ofNat_of_zero_le up
    rw [Int.toNat_natCast, zpow_natCast, div_div]
    push_cast
    rfl
  case isFalse down =>
    refine ⟨numerator * 2 ^ (-exponent).toNat, denominator, positive, rfl, ?_⟩
    obtain ⟨k, opposite⟩ := Int.eq_ofNat_of_zero_le (show 0 ≤ -exponent by omega)
    obtain rfl : exponent = -(k : Int) := by omega
    rw [neg_neg, Int.toNat_natCast, zpow_neg, zpow_natCast, div_inv_eq_mul]
    push_cast
    ring

theorem scaled_le_iff (positive : 0 < denominator) (even : bound % 2 = 0) :
    scaled numerator denominator exponent ≤ bound ↔
      (numerator / denominator / 2 ^ exponent : ℚ) ≤ bound + 1 / 2 := by
  obtain ⟨numerator', denominator', positive', rounded, same⟩ :=
    @scaled_eq numerator _ exponent positive
  have above : (0 : ℚ) < denominator' := Nat.cast_pos.mpr positive'
  have cast : 2 * numerator' ≤ (2 * bound + 1) * denominator' ↔
      (2 * numerator' : ℚ) ≤ (2 * bound + 1) * denominator' := by norm_cast
  rw [rounded, nearest_le_iff positive' even, ← same, div_le_iff₀ above, cast]
  constructor <;> intro less <;> linarith

theorem scaled_bounds (positive : 0 < denominator) :
    (numerator / denominator / 2 ^ exponent : ℚ) ≤ scaled numerator denominator exponent + 1 / 2 ∧
      (scaled numerator denominator exponent : ℚ) ≤
        numerator / denominator / 2 ^ exponent + 1 / 2 := by
  obtain ⟨numerator', denominator', positive', rounded, same⟩ :=
    @scaled_eq numerator _ exponent positive
  have above : (0 : ℚ) < denominator' := Nat.cast_pos.mpr positive'
  obtain ⟨lower, upper⟩ := @nearest_bounds numerator' _ positive'
  have lower' : (2 * numerator' : ℚ) ≤ (2 * nearest numerator' denominator' + 1) * denominator' := by
    exact_mod_cast lower
  have upper' : (2 * nearest numerator' denominator' * denominator' : ℚ) ≤
      2 * numerator' + denominator' := by exact_mod_cast upper
  rw [rounded, ← same]
  constructor
  · rw [div_le_iff₀ above]
    linarith
  · rw [← sub_le_iff_le_add, le_div_iff₀ above]
    linarith

end Scaled

/-! ### Rounding to 24 significant bits -/

private theorem log2_bounds {n : Nat} (positive : 0 < n) :
    (2 : ℚ) ^ (n.log2 : Int) ≤ n ∧ (n : ℚ) < 2 ^ ((n.log2 : Int) + 1) := by
  constructor
  · rw [zpow_natCast]
    exact_mod_cast Nat.log2_self_le (Nat.ne_of_gt positive)
  · rw [← Nat.cast_succ, zpow_natCast]
    exact_mod_cast @Nat.lt_log2_self n

section Quotient

variable {numerator denominator : Nat}

private theorem quotient_bounds (above : 0 < numerator) (below : 0 < denominator) :
    (2 : ℚ) ^ ((numerator.log2 : Int) - denominator.log2 - 1) < numerator / denominator ∧
      (numerator / denominator : ℚ) < 2 ^ ((numerator.log2 : Int) - denominator.log2 + 1) := by
  obtain ⟨low, high⟩ := log2_bounds above
  obtain ⟨low', high'⟩ := log2_bounds below
  have positive : (0 : ℚ) < denominator := Nat.cast_pos.mpr below
  constructor
  · rw [lt_div_iff₀ positive]
    calc (2 : ℚ) ^ ((numerator.log2 : Int) - denominator.log2 - 1) * denominator
        < 2 ^ ((numerator.log2 : Int) - denominator.log2 - 1) * 2 ^ ((denominator.log2 : Int) + 1) :=
          mul_lt_mul_of_pos_left high' (by positivity)
      _ = 2 ^ (numerator.log2 : Int) := by
          rw [← zpow_add₀ two_ne_zero]
          congr 1
          ring
      _ ≤ numerator := low
  · rw [div_lt_iff₀ positive]
    calc (numerator : ℚ) < 2 ^ ((numerator.log2 : Int) + 1) := high
      _ = 2 ^ ((numerator.log2 : Int) - denominator.log2 + 1) * 2 ^ (denominator.log2 : Int) := by
          rw [← zpow_add₀ two_ne_zero]
          congr 1
          ring
      _ ≤ 2 ^ ((numerator.log2 : Int) - denominator.log2 + 1) * denominator :=
          mul_le_mul_of_nonneg_left low' (by positivity)

private theorem scaled_ge {exponent : Int} {least : Nat} (below : 0 < denominator)
    (more : (least : ℚ) - 1 / 2 < numerator / denominator / 2 ^ exponent) :
    least ≤ scaled numerator denominator exponent := by
  by_contra less
  have near := (@scaled_bounds numerator _ exponent below).1
  have few : (scaled numerator denominator exponent : ℚ) + 1 ≤ least := by
    exact_mod_cast Nat.succ_le_of_lt (Nat.lt_of_not_le less)
  linarith

/-- The significand has 24 bits, or is the power of two after those. -/
private theorem ofQuotient_eq (above : 0 < numerator) (below : 0 < denominator) :
    ∃ exponent, ofQuotient numerator denominator =
        { significand := scaled numerator denominator exponent, exponent } ∧
      2 ^ 23 ≤ scaled numerator denominator exponent ∧
      scaled numerator denominator exponent ≤ 2 ^ 24 := by
  obtain ⟨low, high⟩ := quotient_bounds above below
  unfold ofQuotient
  rw [if_neg (Nat.ne_of_gt above)]
  generalize (numerator.log2 : Int) - denominator.log2 = size at low high
  dsimp only
  have first : (2 : ℚ) ^ 23 < numerator / denominator / 2 ^ (size - 24) := by
    rw [lt_div_iff₀ (by positivity)]
    calc (2 : ℚ) ^ 23 * 2 ^ (size - 24) = 2 ^ (size - 1) := by
          rw [← zpow_natCast, ← zpow_add₀ two_ne_zero]
          congr 1
          push_cast
          ring
      _ < numerator / denominator := low
  split
  case isTrue few =>
    refine ⟨size - 24, rfl, scaled_ge below ?_, Nat.le_of_lt few⟩
    push_cast
    linarith
  case isFalse many =>
    have second : (numerator / denominator / 2 ^ (size - 24 + 1) : ℚ) =
        numerator / denominator / 2 ^ (size - 24) / 2 := by
      rw [zpow_add₀ two_ne_zero, zpow_one, div_mul_eq_div_div]
    refine ⟨size - 24 + 1, rfl, scaled_ge below ?_, ?_⟩
    · have near := (@scaled_bounds numerator _ (size - 24) below).2
      have large : ((2 ^ 24 : Nat) : ℚ) ≤ scaled numerator denominator (size - 24) := by
        exact_mod_cast Nat.le_of_not_lt many
      push_cast at large ⊢
      rw [second]
      linarith
    · rw [scaled_le_iff below (by decide)]
      have fits : (numerator / denominator / 2 ^ (size - 24 + 1) : ℚ) < 2 ^ 24 := by
        rw [div_lt_iff₀ (by positivity)]
        calc (numerator / denominator : ℚ) < 2 ^ (size + 1) := high
          _ = 2 ^ 24 * 2 ^ (size - 24 + 1) := by
              rw [← zpow_natCast, ← zpow_add₀ two_ne_zero]
              congr 1
              push_cast
              ring
      push_cast
      linarith

/-- A quotient is rounded to more than an integer if it exceeds it by more than half of the
distance to the next value. -/
theorem value_ofQuotient_le_iff (above : 0 < numerator) (below : 0 < denominator) {bound : Nat}
    (positive : 0 < bound) (small : bound < 2 ^ 22) :
    (ofQuotient numerator denominator).value ≤ bound ↔
      (numerator / denominator : ℚ) ≤ bound + 2 ^ ((bound.log2 : Int) - 24) := by
  obtain ⟨exponent, rounded, low, high⟩ := ofQuotient_eq above below
  have few : bound.log2 < 22 := (Nat.log2_lt (Nat.ne_of_gt positive)).mpr small
  obtain ⟨least, -⟩ := log2_bounds positive
  have most : (bound : ℚ) + 1 ≤ 2 ^ ((bound.log2 : Int) + 1) := by
    have next : bound + 1 ≤ 2 ^ (bound.log2 + 1) := Nat.succ_le_of_lt Nat.lt_log2_self
    exact_mod_cast next
  have near := @scaled_bounds numerator _ exponent below
  have even := fun bound => @scaled_le_iff numerator _ bound exponent below
  rw [rounded]
  unfold value
  dsimp only
  generalize scaled numerator denominator exponent = significand at low high near even ⊢
  generalize (numerator / denominator : ℚ) = quotient at near even ⊢
  have low' : (2 : ℚ) ^ 23 ≤ significand := by exact_mod_cast low
  have high' : (significand : ℚ) ≤ 2 ^ 24 := by exact_mod_cast high
  have unit : (0 : ℚ) < 2 ^ exponent := by positivity
  rw [div_le_iff₀ unit, ← sub_le_iff_le_add, le_div_iff₀ unit] at near
  -- everything in units of half the distance between the values above the bound
  have power (k : Nat) : (2 : ℚ) ^ ((bound.log2 : Int) - 24 + k) =
      2 ^ k * 2 ^ ((bound.log2 : Int) - 24) := by
    rw [zpow_add₀ two_ne_zero, zpow_natCast, mul_comm]
  have half : (2 : ℚ) ^ ((bound.log2 : Int) - 24) ≤ 1 / 8 := by
    calc (2 : ℚ) ^ ((bound.log2 : Int) - 24) ≤ 2 ^ (-3 : Int) :=
          zpow_le_zpow_right₀ one_le_two (by omega)
      _ = 1 / 8 := by norm_num
  have least' : (2 : ℚ) ^ 24 * 2 ^ ((bound.log2 : Int) - 24) ≤ bound := by
    rw [← power]
    exact le_of_eq_of_le (by congr 1; push_cast; ring) least
  have most' : (bound : ℚ) + 1 ≤ 2 ^ 25 * 2 ^ ((bound.log2 : Int) - 24) := by
    rw [← power]
    exact most.trans_eq (by congr 1; push_cast; ring)
  rcases lt_trichotomy exponent ((bound.log2 : Int) - 23) with fine | rfl | coarse
  · have less : (2 : ℚ) ^ exponent ≤ 2 ^ ((bound.log2 : Int) - 24) :=
      zpow_le_zpow_right₀ one_le_two (by omega)
    have most := mul_le_mul_of_nonneg_right high' unit.le
    refine iff_of_true ?_ ?_ <;> linarith
  · -- the bound itself is a value with this exponent, of an even significand
    obtain ⟨k, size⟩ := Nat.exists_eq_add_of_lt few
    have whole : ((bound * 2 ^ (k + 2) : Nat) : ℚ) * 2 ^ ((bound.log2 : Int) - 23) = bound := by
      push_cast
      rw [mul_assoc, ← zpow_natCast, ← zpow_add₀ two_ne_zero]
      have zero : ((k + 2 : Nat) : Int) + ((bound.log2 : Int) - 23) = 0 := by push_cast; omega
      rw [zero, zpow_zero, mul_one]
    have double : (2 : ℚ) ^ ((bound.log2 : Int) - 23) = 2 * 2 ^ ((bound.log2 : Int) - 24) := by
      calc (2 : ℚ) ^ ((bound.log2 : Int) - 23) = 2 ^ ((bound.log2 : Int) - 24 + (1 : Nat)) := by
            congr 1
            push_cast
            ring
        _ = 2 * 2 ^ ((bound.log2 : Int) - 24) := by rw [power, pow_one]
    calc (significand * 2 ^ ((bound.log2 : Int) - 23) : ℚ) ≤ bound
        ↔ (significand : ℚ) ≤ (bound * 2 ^ (k + 2) : Nat) := by
          conv_lhs => rw [← whole]
          exact mul_le_mul_iff_left₀ unit
      _ ↔ quotient / 2 ^ ((bound.log2 : Int) - 23) ≤ (bound * 2 ^ (k + 2) : Nat) + 1 / 2 := by
          rw [Nat.cast_le]
          exact even _ (by rw [Nat.pow_succ, ← Nat.mul_assoc]; exact Nat.mul_mod_left ..)
      _ ↔ quotient ≤ bound + 2 ^ ((bound.log2 : Int) - 24) := by
          rw [div_le_iff₀ unit, add_mul, whole, double]
          constructor <;> intro less <;> linarith
  · have more : 4 * (2 : ℚ) ^ ((bound.log2 : Int) - 24) ≤ 2 ^ exponent := by
      calc 4 * (2 : ℚ) ^ ((bound.log2 : Int) - 24) = 2 ^ ((bound.log2 : Int) - 24 + (2 : Nat)) := by
            rw [power]
            norm_num
        _ ≤ 2 ^ exponent := zpow_le_zpow_right₀ one_le_two (by push_cast; omega)
    have least := mul_le_mul_of_nonneg_right low' unit.le
    refine iff_of_false ?_ ?_ <;> rw [not_le] <;> linarith

theorem ofQuotient_pos (above : 0 < numerator) (below : 0 < denominator) :
    0 < (ofQuotient numerator denominator).value := by
  obtain ⟨exponent, rounded, low, -⟩ := ofQuotient_eq above below
  rw [rounded]
  exact mul_pos (Nat.cast_pos.mpr (Nat.lt_of_lt_of_le (by decide) low)) (by positivity)

end Quotient

/-! ### Integers and their quotients -/

/-- A number, rounded to 24 significant bits. -/
def significant (n : Nat) : Nat := nearest n (2 ^ (n.log2 - 23)) * 2 ^ (n.log2 - 23)

private theorem nearest_one (n : Nat) : nearest n 1 = n := by
  unfold nearest
  rw [Nat.div_one, Nat.mod_one]
  exact if_pos (.inl Nat.zero_lt_one)

theorem significant_of_small {n : Nat} (small : n < 2 ^ 24) : significant n = n := by
  have zero : n.log2 - 23 = 0 := by
    rcases Nat.eq_zero_or_pos n with rfl | positive
    · rfl
    · have few := (Nat.log2_lt (Nat.ne_of_gt positive)).mpr small
      omega
  unfold significant
  rw [zero, Nat.pow_zero, Nat.mul_one, nearest_one]

private theorem value_scaled (n : Nat) :
    (scaled n 1 ((n.log2 : Int) - 23) * 2 ^ ((n.log2 : Int) - 23) : ℚ) = significant n := by
  unfold scaled significant
  split
  case isTrue large =>
    obtain ⟨k, size⟩ := Int.eq_ofNat_of_zero_le large
    have size' : n.log2 - 23 = k := by omega
    rw [size, size', Int.toNat_natCast, Nat.one_mul, zpow_natCast]
    push_cast
    rfl
  case isFalse small =>
    obtain ⟨k, size⟩ := Int.eq_ofNat_of_zero_le (show 0 ≤ -((n.log2 : Int) - 23) by omega)
    have size' : n.log2 - 23 = 0 := by omega
    have opposite : (n.log2 : Int) - 23 = -(k : Int) := by omega
    rw [size, size', opposite, Int.toNat_natCast, Nat.pow_zero, Nat.mul_one, nearest_one,
      nearest_one, zpow_neg, zpow_natCast]
    push_cast
    rw [mul_assoc, mul_inv_cancel₀ (by positivity), mul_one]

/-- Conversion to single precision rounds to 24 significant bits. -/
theorem ofNat_spec {n : Nat} (positive : 0 < n) :
    0 < (ofNat n).significand ∧ (ofNat n).value = significant n := by
  obtain ⟨exponent, rounded, low, -⟩ := ofQuotient_eq positive Nat.zero_lt_one
  refine ⟨?_, ?_⟩
  · unfold ofNat
    rw [rounded]
    exact Nat.lt_of_lt_of_le (by decide) low
  · rw [← value_scaled]
    have one : ((1 : Nat).log2 : Int) = 0 := rfl
    have many : ¬scaled n 1 ((n.log2 : Int) - (1 : Nat).log2 - 24) < 2 ^ 24 := by
      refine Nat.not_lt.mpr (scaled_ge Nat.zero_lt_one (lt_of_lt_of_le (sub_lt_self _ one_half_pos) ?_))
      rw [one, Nat.cast_one, div_one, le_div_iff₀ (by positivity)]
      calc ((2 ^ 24 : Nat) : ℚ) * 2 ^ ((n.log2 : Int) - 0 - 24) = 2 ^ (n.log2 : Int) := by
            rw [Nat.cast_pow, Nat.cast_ofNat, ← zpow_natCast, ← zpow_add₀ two_ne_zero]
            congr 1
            push_cast
            ring
        _ ≤ n := (log2_bounds positive).1
    have size : (n.log2 : Int) - (1 : Nat).log2 - 24 + 1 = n.log2 - 23 := by omega
    unfold ofNat ofQuotient
    rw [if_neg (Nat.ne_of_gt positive)]
    dsimp only
    rw [if_neg many, size]
    rfl

section Ceil

variable {x y : Binary32} {bound : Nat}

theorem ceil_le_iff : x.ceil ≤ bound ↔ x.value ≤ bound := by
  unfold ceil value
  split
  case isTrue whole =>
    obtain ⟨k, size⟩ := Int.eq_ofNat_of_zero_le whole
    rw [size, Int.toNat_natCast, zpow_natCast]
    norm_cast
  case isFalse part =>
    obtain ⟨k, size⟩ := Int.eq_ofNat_of_zero_le (show 0 ≤ -x.exponent by omega)
    have opposite : x.exponent = -(k : Int) := by omega
    have power : 0 < 2 ^ k := by positivity
    rw [size, opposite, Int.toNat_natCast, zpow_neg, zpow_natCast, ← div_eq_mul_inv,
      div_le_iff₀ (by positivity), Nat.div_le_iff_le_mul_add_pred power]
    have cast : (x.significand : ℚ) ≤ bound * 2 ^ k ↔ x.significand ≤ 2 ^ k * bound := by
      rw [mul_comm]
      norm_cast
    rw [cast]
    omega

private theorem div_eq (divisor : 0 < y.significand) :
    ((x.significand * 2 ^ (x.exponent - y.exponent).toNat : Nat) : ℚ) /
        (y.significand * 2 ^ (y.exponent - x.exponent).toNat : Nat) = x.value / y.value := by
  unfold value
  push_cast
  have nonzero : (y.significand : ℚ) ≠ 0 := Nat.cast_ne_zero.mpr (Nat.ne_of_gt divisor)
  rcases le_total x.exponent y.exponent with less | more
  · obtain ⟨k, same⟩ := Int.le.dest less
    have ahead : y.exponent - x.exponent = k := by omega
    rw [Int.toNat_of_nonpos (by omega), ahead, Int.toNat_natCast, ← same, zpow_add₀ two_ne_zero,
      zpow_natCast]
    field_simp
  · obtain ⟨k, same⟩ := Int.le.dest more
    have ahead : x.exponent - y.exponent = k := by omega
    rw [ahead, Int.toNat_natCast, Int.toNat_of_nonpos (by omega), ← same, zpow_add₀ two_ne_zero,
      zpow_natCast]
    field_simp

end Ceil

/-- In single precision, the quotient of `n` and `c` is at most this integer. -/
def QuotientAtMost (n c bound : Nat) : Prop :=
  significant n * 2 ^ (24 - bound.log2) ≤ significant c * (bound * 2 ^ (24 - bound.log2) + 1)

instance (n c bound : Nat) : Decidable (QuotientAtMost n c bound) :=
  inferInstanceAs (Decidable (_ ≤ _))

section Integers

variable {n c bound : Nat}

theorem ceil_div_pos (above : 0 < n) (below : 0 < c) : 0 < ((ofNat n).div (ofNat c)).ceil := by
  have some := (ofNat_spec above).1
  have some' := (ofNat_spec below).1
  apply Nat.pos_of_ne_zero
  intro zero
  have none := ceil_le_iff.mp (Nat.le_of_eq zero)
  rw [Nat.cast_zero] at none
  exact absurd none (not_le.mpr (ofQuotient_pos (by positivity) (by positivity)))

theorem ceil_div_le_iff (above : 0 < n) (below : 0 < c) (positive : 0 < bound)
    (small : bound < 2 ^ 22) :
    ((ofNat n).div (ofNat c)).ceil ≤ bound ↔ QuotientAtMost n c bound := by
  obtain ⟨some, value⟩ := ofNat_spec above
  obtain ⟨some', value'⟩ := ofNat_spec below
  have divisor : (0 : ℚ) < significant c := by
    rw [← value']
    unfold Binary32.value
    positivity
  rw [ceil_le_iff]
  unfold div
  rw [value_ofQuotient_le_iff (by positivity) (by positivity) positive small, div_eq some', value,
    value', div_le_iff₀ divisor]
  have few : bound.log2 < 22 := (Nat.log2_lt (Nat.ne_of_gt positive)).mpr small
  obtain ⟨k, size⟩ := Nat.exists_eq_add_of_le (show bound.log2 ≤ 24 by omega)
  have size' : 24 - bound.log2 = k := by omega
  have exponent : (bound.log2 : Int) - 24 = -(k : Int) := by omega
  have power : (0 : ℚ) < 2 ^ k := by positivity
  unfold QuotientAtMost
  have cast : significant n * 2 ^ k ≤ significant c * (bound * 2 ^ k + 1) ↔
      (significant n * 2 ^ k : ℚ) ≤ significant c * (bound * 2 ^ k + 1) := by norm_cast
  have scale : ((bound : ℚ) + (2 ^ k)⁻¹) * significant c * 2 ^ k =
      significant c * (bound * 2 ^ k + 1) := by field_simp
  rw [size', exponent, zpow_neg, zpow_natCast, cast, ← scale, mul_le_mul_iff_left₀ power]

end Integers

end Foundation.Binary32
