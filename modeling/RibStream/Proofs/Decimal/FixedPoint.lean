/-
This file proves that a ratio can be rounded twice on its way to general notation.
The places that the significant digits leave for the fraction bring back the same digits, also where
the first rounding reaches the next power of ten.
-/

import RibStream.Decimal.General
import RibStream.Proofs.Decimal.Rounding

namespace RibStream.Decimal

/-- The digits with a plain decimal point after the digit for ones. -/
def positional (digits : List Nat) (exponent : Int) : List Char :=
  if exponent < 0 then
    '0' :: fraction (List.replicate (-exponent - 1).toNat 0 ++ digits)
  else
    let whole := exponent.toNat + 1
    (digits.take whole).map digitChar ++ fraction (digits.drop whole)

/-- A quotient is rounded to the integer that is less than half a unit away. -/
theorem divideToEven_eq_of_near {numerator denominator nearest : Nat}
    (below : 2 * (nearest * denominator) < 2 * numerator + denominator)
    (above : 2 * numerator < 2 * (nearest * denominator) + denominator) :
    divideToEven numerator denominator = nearest := by
  have positive : 0 < denominator := by omega
  obtain ⟨lower, upper⟩ := divideToEven_near numerator denominator positive
  have atMost : divideToEven numerator denominator * denominator < (nearest + 1) * denominator := by
    rw [Nat.succ_mul]
    omega
  have atLeast : nearest * denominator < (divideToEven numerator denominator + 1) * denominator := by
    rw [Nat.succ_mul]
    omega
  have notAbove := Nat.lt_of_mul_lt_mul_right atMost
  have notBelow := Nat.lt_of_mul_lt_mul_right atLeast
  omega

/-- A ratio below a power of ten stays below it when both are scaled. -/
theorem scaled_lt_of_leadingExponent {numerator denominator places digitsBelow : Nat}
    (positive : 0 < numerator) (divides : 0 < denominator)
    (scale : leadingExponent numerator denominator + 1 + places = digitsBelow) :
    numerator * 10 ^ places < 10 ^ digitsBelow * denominator := by
  obtain ⟨-, below⟩ := leadingExponent_bounds numerator denominator positive divides
  have divisorPositive : (0 : ℚ) < denominator := by exact_mod_cast divides
  have scaled : (numerator : ℚ) * 10 ^ places < 10 ^ digitsBelow * denominator := by
    rw [div_lt_iff₀ divisorPositive] at below
    calc (numerator : ℚ) * 10 ^ places
        < 10 ^ (leadingExponent numerator denominator + 1) * denominator * 10 ^ places :=
          mul_lt_mul_of_pos_right below (by positivity)
      _ = 10 ^ digitsBelow * denominator := by
          rw [mul_right_comm, ← zpow_natCast, ← zpow_add₀ (by norm_num), scale, zpow_natCast]
  exact_mod_cast scaled

/-- Rounding to the places that are left for the fraction gives the significant digits again. -/
theorem divideToEven_eq_coefficient {count numerator denominator : Nat} (digit : 0 < count)
    (positive : 0 < numerator) (divides : 0 < denominator)
    (small : (roundSignificant count numerator denominator).exponent < count) :
    divideToEven (numerator * 10 ^
        ((count : Int) - 1 - (roundSignificant count numerator denominator).exponent).toNat)
      denominator = (roundSignificant count numerator denominator).coefficient := by
  obtain ⟨digitsBelow, rfl⟩ := Nat.exists_eq_succ_of_ne_zero digit.ne'
  have near (places : Nat) := divideToEven_near (numerator * 10 ^ places) denominator divides
  have scaled := @scaled_lt_of_leadingExponent numerator denominator
  rw [roundSignificant] at small ⊢
  rw [coefficientAt] at small ⊢
  generalize leadingExponent numerator denominator = exponent at small scaled ⊢
  split at small
  · rename_i carried
    -- The ratio is less than a tenth of half a unit below the power of ten that the first rounding
    -- has reached, so the second rounding reaches it too.
    rw [if_pos carried]
    dsimp only at small ⊢
    generalize placesEq : ((digitsBelow.succ : Int) - 1 - (exponent + 1)).toNat = places
    have first : ((digitsBelow.succ : Int) - 1 - exponent).toNat = places + 1 := by omega
    have undivided : (-((digitsBelow.succ : Int) - 1 - exponent)).toNat = 0 := by omega
    rw [first, undivided, Nat.pow_zero, Nat.mul_one] at carried
    have below := @scaled places digitsBelow positive divides (by omega)
    have reached := (near (places + 1)).1
    rw [carried, Nat.pow_succ, Nat.pow_succ, ← Nat.mul_assoc numerator, Nat.mul_right_comm] at reached
    apply divideToEven_eq_of_near
    · rw [Nat.succ_sub_one]
      omega
    · rw [Nat.succ_sub_one]
      omega
  · rename_i kept
    rw [if_neg kept]
    dsimp only at small ⊢
    have undivided : (-((digitsBelow.succ : Int) - 1 - exponent)).toNat = 0 := by omega
    rw [undivided, Nat.pow_zero, Nat.mul_one]

theorem fixedPoint_eq_positional {places numerator denominator coefficient : Nat} {exponent : Int}
    (same : divideToEven (numerator * 10 ^ places) denominator = coefficient)
    (left : (places : Int) = (digits coefficient).length - 1 - exponent) :
    fixedPoint places numerator denominator = positional (digits coefficient) exponent := by
  have nonempty := List.length_pos_iff.mpr (digits_ne_nil coefficient)
  rw [fixedPoint, same, positional]
  generalize digits coefficient = written at left nonempty ⊢
  dsimp only
  by_cases below : exponent < 0
  · rw [if_pos below]
    generalize zerosEq : (-exponent - 1).toNat = zeros
    have filled : places + 1 - written.length = zeros + 1 := by omega
    have whole : (List.replicate (zeros + 1) 0 ++ written).length - places = 1 := by
      rw [List.length_append, List.length_replicate]
      omega
    rw [filled, whole, List.replicate_succ]
    rfl
  · rw [if_neg below]
    have filled : places + 1 - written.length = 0 := by omega
    have whole : written.length - places = exponent.toNat + 1 := by omega
    rw [filled, List.replicate_zero, List.nil_append, whole]

/-- In general notation the digits are those of the first rounding, whichever form it takes. -/
theorem GeneralNotation.magnitude_eq (style : GeneralNotation) (numerator denominator : Nat)
    (digit : 0 < style.significantDigits) (positive : 0 < numerator) (divides : 0 < denominator) :
    style.magnitude numerator denominator =
      let rounded := roundSignificant style.significantDigits numerator denominator
      if style.leastPositional ≤ rounded.exponent ∧
          rounded.exponent < style.significantDigits then
        positional (digits rounded.coefficient) rounded.exponent
      else
        withExponent style.exponentDigits (digits rounded.coefficient) rounded.exponent := by
  obtain ⟨least, greatest, -⟩ :=
    roundSignificant_spec style.significantDigits numerator denominator digit positive divides
  have again := @divideToEven_eq_coefficient style.significantDigits numerator denominator digit
    positive divides
  rw [GeneralNotation.magnitude]
  generalize style.significantDigits = count at digit least greatest again ⊢
  generalize roundSignificant count numerator denominator = rounded at least greatest again ⊢
  dsimp only
  split
  · rename_i moderate
    obtain ⟨before, rfl⟩ := Nat.exists_eq_succ_of_ne_zero digit.ne'
    have length := length_digits_eq rounded.coefficient before least greatest
    apply fixedPoint_eq_positional (again moderate.2)
    rw [length]
    omega
  · rfl

end RibStream.Decimal
