import Mathlib.Algebra.Group.Nat.Defs
import Mathlib.Algebra.Group.Int.Defs

/-! Single precision arithmetic on non-negative values, by exact rounding: a value is
`significand * 2 ^ exponent` with at most 24 significant bits, and every operation
rounds the exact result to the nearest such value, ties to the even significand.
Values too large or too small for the exponent field are outside this model. -/

namespace Foundation

structure Binary32 where
  significand : Nat
  exponent : Int
deriving DecidableEq

namespace Binary32

/-- The integer nearest to a quotient, ties to even. -/
def nearest (numerator denominator : Nat) : Nat :=
  let quotient := numerator / denominator
  let twice := 2 * (numerator % denominator)
  if twice < denominator ∨ (twice = denominator ∧ quotient % 2 = 0) then quotient else quotient + 1

/-- `numerator / denominator / 2 ^ exponent`, rounded to an integer. -/
def scaled (numerator denominator : Nat) (exponent : Int) : Nat :=
  if 0 ≤ exponent then nearest numerator (denominator * 2 ^ exponent.toNat)
  else nearest (numerator * 2 ^ (-exponent).toNat) denominator

/-- The value nearest to a positive quotient. The quotient lies strictly between
`2 ^ (exponent + 23)` and `2 ^ (exponent + 25)` for the first exponent tried. -/
def ofQuotient (numerator denominator : Nat) : Binary32 :=
  if numerator = 0 then { significand := 0, exponent := 0 }
  else
    let exponent : Int := (numerator.log2 : Int) - denominator.log2 - 24
    if scaled numerator denominator exponent < 2 ^ 24 then
      { significand := scaled numerator denominator exponent, exponent }
    else
      { significand := scaled numerator denominator (exponent + 1), exponent := exponent + 1 }

/-- Conversion of an unsigned integer. -/
def ofNat (n : Nat) : Binary32 := ofQuotient n 1

def div (x y : Binary32) : Binary32 :=
  ofQuotient (x.significand * 2 ^ (x.exponent - y.exponent).toNat)
    (y.significand * 2 ^ (y.exponent - x.exponent).toNat)

/-- The least integer not below the value. -/
def ceil (x : Binary32) : Nat :=
  if 0 ≤ x.exponent then x.significand * 2 ^ x.exponent.toNat
  else (x.significand + 2 ^ (-x.exponent).toNat - 1) / 2 ^ (-x.exponent).toNat

end Binary32

end Foundation
