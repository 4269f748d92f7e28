/-
This file bounds the error of a ratio that is rounded to significant digits.
-/

import Mathlib.Algebra.Order.Field.Power
import Mathlib.Data.Rat.Cast.Order
import Mathlib.Tactic.FieldSimp
import Mathlib.Tactic.Linarith
import Mathlib.Tactic.Positivity
import Mathlib.Tactic.Ring
import RibStream.Decimal.Rounding

namespace RibStream.Decimal

theorem ten_zpow_pos (exponent : Int) : (0 : ℚ) < 10 ^ exponent :=
  zpow_pos (by norm_num) exponent

/-- A number between two powers of ten has as many digits as the greater one has zeros. -/
theorem length_digits_eq (number count : Nat) (least : 10 ^ count ≤ number)
    (small : number < 10 ^ (count + 1)) : (digits number).length = count + 1 := by
  have positive : 0 < number := Nat.lt_of_lt_of_le (Nat.pow_pos (by decide)) least
  have nonempty := List.length_pos_iff.mpr (digits_ne_nil number)
  have above := Nat.lt_of_le_of_lt least (lt_pow_length_digits number)
  have below := Nat.lt_of_le_of_lt (pow_le_of_length_digits number positive) small
  have atLeast := (Nat.pow_lt_pow_iff_right (by decide : 1 < 10)).mp above
  have atMost := (Nat.pow_lt_pow_iff_right (by decide : 1 < 10)).mp below
  omega

/-- The leading exponent is that of the greatest power of ten that is at most the ratio. -/
theorem leadingExponent_bounds (numerator denominator : Nat) (positive : 0 < numerator)
    (divides : 0 < denominator) :
    (10 : ℚ) ^ leadingExponent numerator denominator ≤ (numerator : ℚ) / denominator ∧
      (numerator : ℚ) / denominator < 10 ^ (leadingExponent numerator denominator + 1) := by
  rw [leadingExponent]
  generalize shiftEq : (digits denominator).length = shift
  have denominatorSmall : denominator < 10 ^ shift := shiftEq ▸ lt_pow_length_digits denominator
  generalize quotientEq : numerator * 10 ^ shift / denominator = quotient
  have quotientPositive : 0 < quotient := by
    rw [← quotientEq]
    apply Nat.div_pos _ divides
    calc denominator ≤ 1 * 10 ^ shift := by omega
      _ ≤ numerator * 10 ^ shift := Nat.mul_le_mul_right _ positive
  have nonempty := List.length_pos_iff.mpr (digits_ne_nil quotient)
  generalize lengthEq : (digits quotient).length = length at nonempty ⊢
  have least : 10 ^ (length - 1) ≤ quotient :=
    lengthEq ▸ pow_le_of_length_digits quotient quotientPositive
  have greatest : quotient + 1 ≤ 10 ^ length := lengthEq ▸ lt_pow_length_digits quotient
  have divisorPositive : (0 : ℚ) < denominator := by exact_mod_cast divides
  have lower : (quotient : ℚ) * denominator ≤ numerator * 10 ^ shift := by
    rw [← quotientEq]
    exact_mod_cast Nat.div_mul_le_self (numerator * 10 ^ shift) denominator
  have upper : (numerator : ℚ) * 10 ^ shift < (quotient + 1) * denominator := by
    rw [← quotientEq]
    exact_mod_cast Nat.lt_mul_of_div_lt (Nat.lt_succ_self _) divides
  have scalePositive : (0 : ℚ) < 10 ^ shift := by positivity
  have ten : (10 : ℚ) ≠ 0 := by norm_num
  have leastCast : (10 : ℚ) ^ (length - 1) ≤ quotient := by exact_mod_cast least
  have greatestCast : (quotient : ℚ) + 1 ≤ 10 ^ length := by exact_mod_cast greatest
  constructor
  · have exponent : (length : Int) - 1 - shift = ((length - 1 : Nat) : Int) - (shift : Nat) := by
      omega
    rw [exponent, zpow_sub₀ ten, zpow_natCast, zpow_natCast, div_le_div_iff₀ scalePositive
      divisorPositive]
    calc (10 : ℚ) ^ (length - 1) * denominator ≤ quotient * denominator :=
          mul_le_mul_of_nonneg_right leastCast divisorPositive.le
      _ ≤ numerator * 10 ^ shift := lower
  · have exponent : (length : Int) - 1 - shift + 1 = (length : Int) - (shift : Nat) := by omega
    rw [exponent, zpow_sub₀ ten, zpow_natCast, zpow_natCast, div_lt_div_iff₀ divisorPositive
      scalePositive]
    calc (numerator : ℚ) * 10 ^ shift < (quotient + 1) * denominator := upper
      _ ≤ 10 ^ length * denominator :=
          mul_le_mul_of_nonneg_right greatestCast divisorPositive.le

/-- The rounded quotient is within half a unit of the ratio. -/
theorem abs_divideToEven_sub_le (numerator denominator : Nat) (divides : 0 < denominator) :
    |(divideToEven numerator denominator : ℚ) - (numerator : ℚ) / denominator| ≤ 1 / 2 := by
  obtain ⟨below, above⟩ := divideToEven_near numerator denominator divides
  have divisorPositive : (0 : ℚ) < denominator := by exact_mod_cast divides
  have belowCast : 2 * ((divideToEven numerator denominator : ℚ) * denominator) ≤
      2 * numerator + denominator := by exact_mod_cast below
  have aboveCast : 2 * (numerator : ℚ) ≤
      2 * ((divideToEven numerator denominator : ℚ) * denominator) + denominator := by
    exact_mod_cast above
  generalize (divideToEven numerator denominator : ℚ) = rounded at belowCast aboveCast ⊢
  have ratio : (numerator : ℚ) / denominator * denominator = numerator :=
    div_mul_cancel₀ _ divisorPositive.ne'
  rw [abs_le]
  constructor
  · have scaled : 2 * (numerator : ℚ) / denominator ≤ 2 * rounded + 1 := by
      rw [div_le_iff₀ divisorPositive]
      linarith
    rw [mul_div_assoc] at scaled
    linarith
  · have scaled : 2 * rounded - 1 ≤ 2 * (numerator : ℚ) / denominator := by
      rw [le_div_iff₀ divisorPositive]
      linarith
    rw [mul_div_assoc] at scaled
    linarith

/-- Scaling by a power of ten multiplies one of the two numbers. -/
theorem scaled_ratio (numerator denominator : Nat) (divides : 0 < denominator) (scale : Int) :
    ((numerator * 10 ^ scale.toNat : Nat) : ℚ) / ((denominator * 10 ^ (-scale).toNat : Nat) : ℚ) =
      numerator / denominator * 10 ^ scale := by
  have divisorNonzero : (denominator : ℚ) ≠ 0 := by exact_mod_cast divides.ne'
  have split : scale = (scale.toNat : Int) - ((-scale).toNat : Int) := by omega
  conv_rhs => rw [split]
  rw [zpow_sub₀ (by norm_num), zpow_natCast, zpow_natCast]
  push_cast
  field_simp

/-- The coefficient is the scaled ratio up to half a unit. -/
theorem abs_coefficientAt_sub_le (count numerator denominator : Nat) (exponent : Int)
    (divides : 0 < denominator) :
    |(coefficientAt count numerator denominator exponent : ℚ) -
      (numerator : ℚ) / denominator * 10 ^ ((count : Int) - 1 - exponent)| ≤ 1 / 2 := by
  rw [coefficientAt]
  generalize (count : Int) - 1 - exponent = scale
  have near := abs_divideToEven_sub_le (numerator * 10 ^ scale.toNat)
    (denominator * 10 ^ (-scale).toNat) (Nat.mul_pos divides (Nat.pow_pos (by decide)))
  rwa [scaled_ratio numerator denominator divides scale] at near

/-- A ratio that is scaled to its leading digits and rounded has these digits, or just one more. -/
theorem coefficient_bounds {coefficient digitsBelow : Nat} {exponent : Int} {ratio : ℚ}
    (least : (10 : ℚ) ^ exponent ≤ ratio) (greatest : ratio < 10 ^ (exponent + 1))
    (near : |(coefficient : ℚ) - ratio * 10 ^ ((digitsBelow : Int) - exponent)| ≤ 1 / 2) :
    10 ^ digitsBelow ≤ coefficient ∧ coefficient ≤ 10 ^ (digitsBelow + 1) := by
  have ten : (10 : ℚ) ≠ 0 := by norm_num
  have scaledLeast : (10 : ℚ) ^ digitsBelow ≤ ratio * 10 ^ ((digitsBelow : Int) - exponent) := by
    have scaled := mul_le_mul_of_nonneg_right least
      (ten_zpow_pos ((digitsBelow : Int) - exponent)).le
    rwa [← zpow_add₀ ten, add_sub_cancel, zpow_natCast] at scaled
  have scaledGreatest : ratio * 10 ^ ((digitsBelow : Int) - exponent) < 10 ^ (digitsBelow + 1) := by
    have scaled := mul_lt_mul_of_pos_right greatest (ten_zpow_pos ((digitsBelow : Int) - exponent))
    rw [← zpow_add₀ ten] at scaled
    have sum : exponent + 1 + ((digitsBelow : Int) - exponent) = ((digitsBelow + 1 : Nat) : Int) := by
      push_cast
      ring
    rwa [sum, zpow_natCast] at scaled
  obtain ⟨nearBelow, nearAbove⟩ := abs_le.mp near
  constructor
  · by_contra less
    have cast : (coefficient : ℚ) + 1 ≤ 10 ^ digitsBelow := by
      exact_mod_cast Nat.lt_of_not_le less
    linarith
  · by_contra more
    have cast : (10 : ℚ) ^ (digitsBelow + 1) + 1 ≤ coefficient := by
      exact_mod_cast Nat.lt_of_not_le more
    linarith

/-- The error of the ratio is that of the scaled ratio, in units of the last digit. -/
theorem abs_sub_scaled (coefficient ratio : ℚ) (exponent digitsBelow : Int) :
    |coefficient * 10 ^ (exponent - digitsBelow) - ratio| =
      |coefficient - ratio * 10 ^ (digitsBelow - exponent)| * 10 ^ (exponent - digitsBelow) := by
  have inverse : (10 : ℚ) ^ (digitsBelow - exponent) * 10 ^ (exponent - digitsBelow) = 1 := by
    rw [← zpow_add₀ (by norm_num)]
    simp
  have factored : coefficient * 10 ^ (exponent - digitsBelow) - ratio =
      (coefficient - ratio * 10 ^ (digitsBelow - exponent)) * 10 ^ (exponent - digitsBelow) := by
    rw [sub_mul, mul_assoc ratio, inverse, mul_one]
  rw [factored, abs_mul, abs_of_pos (ten_zpow_pos _)]

/-- The error of the coefficient is carried over to the ratio. -/
theorem coefficient_error {coefficient digitsBelow : Nat} {exponent : Int} {ratio : ℚ}
    (near : |(coefficient : ℚ) - ratio * 10 ^ ((digitsBelow : Int) - exponent)| ≤ 1 / 2) :
    |(coefficient : ℚ) * 10 ^ (exponent - (digitsBelow : Int)) - ratio| ≤
      10 ^ (exponent - (digitsBelow : Int)) / 2 := by
  have unit : (0 : ℚ) < 10 ^ (exponent - (digitsBelow : Int)) := ten_zpow_pos _
  rw [abs_sub_scaled]
  calc _ ≤ 1 / 2 * (10 : ℚ) ^ (exponent - (digitsBelow : Int)) :=
        mul_le_mul_of_nonneg_right near unit.le
    _ = 10 ^ (exponent - (digitsBelow : Int)) / 2 := by ring

/-- The carry moves a power of ten from the coefficient to the exponent. -/
theorem roundSignificant_eq {count : Nat} (digit : 0 < count) (numerator denominator : Nat) :
    ((roundSignificant count numerator denominator).coefficient : ℚ) *
        10 ^ ((roundSignificant count numerator denominator).exponent - ((count : Int) - 1)) =
      coefficientAt count numerator denominator (leadingExponent numerator denominator) *
        10 ^ (leadingExponent numerator denominator - ((count : Int) - 1)) := by
  rw [roundSignificant]
  generalize leadingExponent numerator denominator = exponent
  generalize coefficientAt count numerator denominator exponent = coefficient
  obtain ⟨digitsBelow, rfl⟩ := Nat.exists_eq_succ_of_ne_zero digit.ne'
  split
  · rename_i carried
    have next : exponent + 1 - ((digitsBelow.succ : Int) - 1) =
        exponent - ((digitsBelow.succ : Int) - 1) + 1 := by ring
    rw [carried, next, zpow_add_one₀ (by norm_num), Nat.succ_sub_one, Nat.pow_succ]
    push_cast
    ring
  · rfl

/-- A ratio rounded to significant digits has exactly as many digits, and the error is at most half a
unit in the last digit of the ratio. -/
theorem roundSignificant_spec (count numerator denominator : Nat) (digit : 0 < count)
    (positive : 0 < numerator) (divides : 0 < denominator) :
    10 ^ (count - 1) ≤ (roundSignificant count numerator denominator).coefficient ∧
      (roundSignificant count numerator denominator).coefficient < 10 ^ count ∧
      |((roundSignificant count numerator denominator).coefficient : ℚ) *
          10 ^ ((roundSignificant count numerator denominator).exponent - ((count : Int) - 1)) -
        (numerator : ℚ) / denominator| ≤
        10 ^ (leadingExponent numerator denominator - ((count : Int) - 1)) / 2 := by
  obtain ⟨least, greatest⟩ := leadingExponent_bounds numerator denominator positive divides
  have near := abs_coefficientAt_sub_le count numerator denominator
    (leadingExponent numerator denominator) divides
  rw [roundSignificant_eq digit, roundSignificant]
  generalize leadingExponent numerator denominator = exponent at least greatest near ⊢
  generalize coefficientAt count numerator denominator exponent = coefficient at near ⊢
  obtain ⟨digitsBelow, rfl⟩ := Nat.exists_eq_succ_of_ne_zero digit.ne'
  have lastDigit : ((digitsBelow.succ : Nat) : Int) - 1 = digitsBelow := by omega
  rw [lastDigit] at near ⊢
  obtain ⟨atLeast, atMost⟩ := coefficient_bounds least greatest near
  rw [← and_assoc]
  refine ⟨?_, coefficient_error near⟩
  split
  · exact ⟨le_refl _, Nat.pow_lt_pow_right (by decide) (Nat.lt_succ_self _)⟩
  · rename_i kept
    exact ⟨atLeast, Nat.lt_of_le_of_ne atMost kept⟩

end RibStream.Decimal
