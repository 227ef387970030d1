import InertialSense.Foundation.BitPolynomial

/-! Cyclic redundancy checks as remainders of polynomials over two elements. A register
is followed by the polynomial whose remainder it is, so a bit-wise, an augmented and a
table-driven computation are compared by what their registers stand for. -/

namespace Foundation.Crc

open Polynomial BitPolynomial

/-- A generator by its degree and the coefficients below the leading one. -/
structure Generator where
  width : Nat
  low : Nat
  low_lt : low < 2 ^ width

namespace Generator

variable (g : Generator)

/-- All coefficients of the generator. -/
def value : Nat := 2 ^ g.width + g.low

/-- Cancel the leading coefficient of a number that has one bit too many. -/
def reduce (value : Nat) : Nat := if value.testBit g.width then value ^^^ g.value else value

/-- Shift a bit of the message in at the low end. -/
def feed (register : Nat) (bit : Bool) : Nat := g.reduce (2 * register + bit.toNat)

/-- Shift, with a bit of the message aligned to the bit that leaves the register. -/
def align (register : Nat) (bit : Bool) : Nat :=
  g.reduce (2 * register ^^^ 2 ^ g.width * bit.toNat)

theorem reduce_small {value : Nat} (small : value < 2 ^ g.width) : g.reduce value = value := by
  simp [reduce, Nat.testBit_lt_two_pow small]

private theorem leading_eq_xor {count low : Nat} (small : low < 2 ^ count) :
    2 ^ count + low = 2 ^ count ^^^ low := by
  have disjoint := Nat.two_pow_add_eq_or_of_lt small 1
  rw [Nat.mul_one] at disjoint
  rw [disjoint]
  apply Nat.eq_of_testBit_eq
  intro i
  rw [Nat.testBit_or, Nat.testBit_xor, Nat.testBit_two_pow]
  by_cases leading : count = i
  · have absent : low.testBit i = false := Nat.testBit_lt_two_pow (leading ▸ small)
    simp [absent]
  · simp [leading]

theorem reduce_leading {rest : Nat} (small : rest < 2 ^ g.width) :
    g.reduce (2 ^ g.width + rest) = rest ^^^ g.low := by
  have top : (2 ^ g.width + rest).testBit g.width = true := by
    rw [Nat.testBit_two_pow_add_eq, Nat.testBit_lt_two_pow small]
    rfl
  rw [reduce, if_pos top, value, leading_eq_xor small, leading_eq_xor g.low_lt, Nat.xor_comm _ rest,
    Nat.xor_assoc, ← Nat.xor_assoc _ _ g.low, Nat.xor_self, Nat.zero_xor]

noncomputable def polynomial : (ZMod 2)[X] := X ^ g.width + BitPolynomial.polynomial g.low

theorem polynomial_value : BitPolynomial.polynomial g.value = g.polynomial := by
  have join := polynomial_join 1 g.low_lt
  simpa [value, polynomial] using join

theorem monic : g.polynomial.Monic := monic_X_pow_add (degree_polynomial_lt g.low_lt)

theorem degree : g.polynomial.degree = g.width := by
  have leading : (X ^ g.width : (ZMod 2)[X]).degree = g.width := degree_X_pow g.width
  rw [polynomial, degree_add_eq_left_of_degree_lt, leading]
  rw [leading]
  exact degree_polynomial_lt g.low_lt

/-- The register holds the remainder of `message`. -/
structure Remainder (register : Nat) (message : (ZMod 2)[X]) : Prop where
  small : register < 2 ^ g.width
  divides : g.polynomial ∣ message + BitPolynomial.polynomial register

variable {g}

theorem Remainder.zero : g.Remainder 0 0 where
  small := Nat.two_pow_pos _
  divides := by simp

theorem Remainder.eq_modByMonic {register : Nat} {message : (ZMod 2)[X]}
    (stands : g.Remainder register message) :
    BitPolynomial.polynomial register = message %ₘ g.polynomial := by
  obtain ⟨quotient, product⟩ := stands.divides
  refine ((div_modByMonic_unique quotient _ g.monic ⟨?_, ?_⟩).2).symm
  · rw [← product, add_left_comm, CharTwo.add_self_eq_zero, add_zero]
  · rw [g.degree]
    exact degree_polynomial_lt stands.small

theorem Remainder.unique {first second : Nat} {message : (ZMod 2)[X]}
    (left : g.Remainder first message) (right : g.Remainder second message) : first = second :=
  polynomial_injective (left.eq_modByMonic.trans right.eq_modByMonic.symm)

/-- Only the message modulo the generator matters. -/
theorem Remainder.congr {register : Nat} {message message' : (ZMod 2)[X]}
    (stands : g.Remainder register message) (same : g.polynomial ∣ message' + message) :
    g.Remainder register message' where
  small := stands.small
  divides := by
    have sum := dvd_add same stands.divides
    rwa [add_assoc, ← add_assoc message, CharTwo.add_self_eq_zero, zero_add] at sum

private theorem lt_of_clear {value count : Nat} (fits : value < 2 ^ (count + 1))
    (clear : value.testBit count = false) : value < 2 ^ count := by
  refine Nat.lt_pow_two_of_testBit _ ?_
  intro i above
  rcases Nat.eq_or_lt_of_le above with rfl | beyond
  · exact clear
  · exact Nat.testBit_lt_two_pow
      (Nat.lt_of_lt_of_le fits (Nat.pow_le_pow_right (by decide) beyond))

theorem Remainder.reduce {value : Nat} (fits : value < 2 ^ (g.width + 1)) :
    g.Remainder (g.reduce value) (BitPolynomial.polynomial value) := by
  unfold Generator.reduce
  split
  case isTrue leading =>
    have whole : g.value < 2 ^ (g.width + 1) := by
      have low := g.low_lt
      rw [Generator.value, Nat.pow_succ]
      omega
    have top : g.value.testBit g.width = true := by
      rw [Generator.value, Nat.testBit_two_pow_add_eq, Nat.testBit_lt_two_pow g.low_lt]
      rfl
    refine ⟨lt_of_clear (Nat.xor_lt_two_pow fits whole) ?_, ?_⟩
    · rw [Nat.testBit_xor, leading, top]
      rfl
    · rw [polynomial_xor, ← add_assoc, CharTwo.add_self_eq_zero, zero_add, g.polynomial_value]
  case isFalse absent =>
    refine ⟨lt_of_clear fits (Bool.eq_false_iff.mpr absent), ?_⟩
    rw [CharTwo.add_self_eq_zero]
    exact dvd_zero _

private theorem Remainder.shift {register : Nat} {message : (ZMod 2)[X]}
    (stands : g.Remainder register message) (more : (ZMod 2)[X]) :
    g.polynomial ∣ message * X + more + (BitPolynomial.polynomial register * X + more) := by
  have both : message * X + more + (BitPolynomial.polynomial register * X + more) =
      (message + BitPolynomial.polynomial register) * X + (more + more) := by ring
  rw [both, CharTwo.add_self_eq_zero, add_zero]
  exact dvd_mul_of_dvd_left stands.divides X

theorem Remainder.feed {register : Nat} {message : (ZMod 2)[X]}
    (stands : g.Remainder register message) (bit : Bool) :
    g.Remainder (g.feed register bit) (message * X + BitPolynomial.polynomial bit.toNat) := by
  have small := stands.small
  have one : bit.toNat ≤ 1 := Bool.toNat_le bit
  have fits : 2 * register + bit.toNat < 2 ^ (g.width + 1) := by
    rw [Nat.pow_succ]
    omega
  refine (Remainder.reduce fits).congr ?_
  rw [polynomial_bit]
  exact stands.shift _

theorem Remainder.align {register : Nat} {message : (ZMod 2)[X]}
    (stands : g.Remainder register (message * X ^ g.width)) (bit : Bool) :
    g.Remainder (g.align register bit)
      ((message * X + BitPolynomial.polynomial bit.toNat) * X ^ g.width) := by
  have small := stands.small
  have fits : 2 * register ^^^ 2 ^ g.width * bit.toNat < 2 ^ (g.width + 1) := by
    refine Nat.xor_lt_two_pow ?_ ?_
    · rw [Nat.pow_succ]
      omega
    · rw [Nat.pow_succ]
      have positive := Nat.two_pow_pos g.width
      cases bit <;> simp
  have shifted := polynomial_shift 1 register
  rw [pow_one, pow_one] at shifted
  refine (Remainder.reduce fits).congr ?_
  rw [polynomial_xor, shifted, polynomial_shift]
  have moved : (message * X + BitPolynomial.polynomial bit.toNat) * X ^ g.width =
      message * X ^ g.width * X + BitPolynomial.polynomial bit.toNat * X ^ g.width := by ring
  rw [moved]
  exact stands.shift _

private theorem message_concat (message : (ZMod 2)[X]) (bits : List Bool) (bit : Bool) :
    message * X ^ (bits ++ [bit]).length + BitPolynomial.polynomial (number (bits ++ [bit])) =
      (message * X ^ bits.length + BitPolynomial.polynomial (number bits)) * X +
        BitPolynomial.polynomial bit.toNat := by
  rw [polynomial_number_concat, List.length_append, List.length_singleton, pow_succ]
  ring

/-- A whole message shifted in. -/
theorem Remainder.foldl_feed {register : Nat} {message : (ZMod 2)[X]}
    (stands : g.Remainder register message) (bits : List Bool) :
    g.Remainder (bits.foldl g.feed register)
      (message * X ^ bits.length + BitPolynomial.polynomial (number bits)) := by
  induction bits using List.reverseRecOn with
  | nil => simpa using stands
  | append_singleton rest bit ih =>
    rw [List.foldl_concat, message_concat]
    exact ih.feed bit

theorem Remainder.foldl_align {register : Nat} {message : (ZMod 2)[X]}
    (stands : g.Remainder register (message * X ^ g.width)) (bits : List Bool) :
    g.Remainder (bits.foldl g.align register)
      ((message * X ^ bits.length + BitPolynomial.polynomial (number bits)) * X ^ g.width) := by
  induction bits using List.reverseRecOn with
  | nil => simpa using stands
  | append_singleton rest bit ih =>
    rw [List.foldl_concat, message_concat]
    exact ih.align bit

/-- The check of a message followed by its own check is zero. -/
theorem Remainder.appended {register final : Nat} {message : (ZMod 2)[X]}
    (stands : g.Remainder register (message * X ^ g.width))
    (ends : g.Remainder final
      ((message * X ^ g.width + BitPolynomial.polynomial register) * X ^ g.width)) :
    final = 0 := by
  refine ends.unique (Remainder.zero.congr ?_)
  rw [add_zero]
  exact dvd_mul_of_dvd_left stands.divides _

/-- A byte at a time: the register loses its top byte, which selects the entry to add
together with the byte of the message. -/
theorem Remainder.table {register byte : Nat} {message : (ZMod 2)[X]} {entry : Nat → Nat}
    (stands : g.Remainder register (message * X ^ g.width)) (wide : 8 ≤ g.width)
    (entries : ∀ index < 256, g.Remainder (entry index)
      (BitPolynomial.polynomial index * X ^ g.width)) (octet : byte < 256) :
    g.Remainder
      (2 ^ 8 * (register % 2 ^ (g.width - 8)) ^^^ entry (register / 2 ^ (g.width - 8) ^^^ byte))
      ((message * X ^ 8 + BitPolynomial.polynomial byte) * X ^ g.width) := by
  obtain ⟨rest, width⟩ := Nat.exists_eq_add_of_le' wide
  have below : g.width - 8 = rest := by omega
  have low : register % 2 ^ rest < 2 ^ rest := Nat.mod_lt _ (Nat.two_pow_pos _)
  have small := stands.small
  rw [width, Nat.pow_add] at small
  have top : register / 2 ^ rest < 256 := Nat.div_lt_of_lt_mul small
  have selected := entries _ (Nat.xor_lt_two_pow (n := 8) top octet)
  rw [below]
  refine ⟨Nat.xor_lt_two_pow ?_ selected.small, ?_⟩
  · rw [width, Nat.add_comm, Nat.pow_add]
    omega
  · have whole := polynomial_join (register / 2 ^ rest) low
    rw [Nat.div_add_mod] at whole
    have sum := dvd_add (dvd_mul_of_dvd_left stands.divides (X ^ 8)) selected.divides
    rw [polynomial_xor, whole] at sum
    rw [polynomial_xor, polynomial_shift]
    generalize BitPolynomial.polynomial (register / 2 ^ rest) = upper at sum ⊢
    generalize BitPolynomial.polynomial (register % 2 ^ rest) = lower at sum ⊢
    -- the top byte occurs twice: in the shifted register and in the index
    have twice : upper * X ^ g.width + upper * X ^ g.width = 0 := CharTwo.add_self_eq_zero _
    have cancelled : (message * X ^ g.width + (upper * X ^ rest + lower)) * X ^ 8 +
        ((upper + BitPolynomial.polynomial byte) * X ^ g.width +
          BitPolynomial.polynomial (entry (register / 2 ^ rest ^^^ byte))) =
        (message * X ^ 8 + BitPolynomial.polynomial byte) * X ^ g.width + (lower * X ^ 8 +
          BitPolynomial.polynomial (entry (register / 2 ^ rest ^^^ byte))) +
            (upper * X ^ g.width + upper * X ^ g.width) := by
      rw [width, pow_add]
      ring
    rwa [cancelled, twice, add_zero] at sum

end Generator

end Foundation.Crc
