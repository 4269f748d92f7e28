/-
This file rounds an exact positive ratio to a given number of significant decimal digits.
All arithmetic is exact, so the only rounding is the one requested.
-/

import RibStream.Decimal.Digits

namespace RibStream.Decimal

-- Powers use the core instance, even where another library brings its own.
attribute [local instance (high)] instPowNat

/-- The quotient rounded to the nearest integer. A half goes to the even neighbour. -/
def divideToEven (numerator denominator : Nat) : Nat :=
  let quotient := numerator / denominator
  let remainder := numerator % denominator
  if 2 * remainder < denominator then quotient
  else if denominator < 2 * remainder then quotient + 1
  else quotient + quotient % 2

/-- The exponent of the greatest power of ten that is at most `numerator / denominator`.
The numerator is scaled by a power of ten above the denominator, so that the quotient is at least one
for every positive ratio. -/
def leadingExponent (numerator denominator : Nat) : Int :=
  let shift := (digits denominator).length
  ((digits (numerator * 10 ^ shift / denominator)).length : Int) - 1 - shift

/-- A decimal with the value `coefficient * 10 ^ (exponent - (length - 1))`, where `length` is the
number of digits of `coefficient`. -/
structure Scientific where
  coefficient : Nat
  exponent : Int
deriving DecidableEq

/-- The coefficient of `count` digits of a ratio that has the given leading exponent. -/
def coefficientAt (count numerator denominator : Nat) (exponent : Int) : Nat :=
  let scale := (count : Int) - 1 - exponent
  divideToEven (numerator * 10 ^ scale.toNat) (denominator * 10 ^ (-scale).toNat)

/-- A positive ratio rounded to `count` significant digits. Rounding up to the next power of ten
raises the exponent and leaves the coefficient with its number of digits. -/
def roundSignificant (count numerator denominator : Nat) : Scientific :=
  let exponent := leadingExponent numerator denominator
  let coefficient := coefficientAt count numerator denominator exponent
  if coefficient = 10 ^ count then ⟨10 ^ (count - 1), exponent + 1⟩ else ⟨coefficient, exponent⟩

/-- The rounded quotient is within half a unit of the exact one. -/
theorem divideToEven_near (numerator denominator : Nat) (positive : 0 < denominator) :
    2 * (divideToEven numerator denominator * denominator) ≤ 2 * numerator + denominator ∧
      2 * numerator ≤ 2 * (divideToEven numerator denominator * denominator) + denominator := by
  have split := Nat.div_add_mod numerator denominator
  have small := Nat.mod_lt numerator positive
  unfold divideToEven
  generalize numerator / denominator = quotient at split ⊢
  generalize numerator % denominator = remainder at split small ⊢
  rw [Nat.mul_comm] at split
  have next : (quotient + 1) * denominator = quotient * denominator + denominator :=
    Nat.succ_mul quotient denominator
  dsimp only
  split
  · omega
  · split
    · omega
    · rcases Nat.mod_two_eq_zero_or_one quotient with even | odd
      · rw [even, Nat.add_zero]
        omega
      · rw [odd]
        omega

end RibStream.Decimal
