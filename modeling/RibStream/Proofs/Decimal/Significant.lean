/-
This file says what a number rounded to significant digits is, by its distance from all numbers with
so many digits, and proves that rounding the ratio of two natural numbers gives it.
-/

import Mathlib.Algebra.Order.Floor.Semifield
import Mathlib.Algebra.Ring.Int.Parity
import Mathlib.Data.Int.Log
import Mathlib.Data.Rat.Floor
import RibStream.Proofs.Decimal.Rounding

namespace RibStream.Decimal

/-- The multiple of a unit that is nearest to a number. Of two nearest multiples it is the even one. -/
structure IsNearestMultiple (unit exact : ℚ) (multiple : ℤ) : Prop where
  closest : ∀ other : ℤ, |exact - multiple * unit| ≤ |exact - other * unit|
  tie : ∀ other : ℤ, |exact - multiple * unit| = |exact - other * unit| →
    other = multiple ∨ Even multiple

/-- The unit of the last one of the significant digits, of which the first one is the leading digit of
the number. -/
def lastUnit (count : Nat) (exact : ℚ) : ℚ :=
  10 ^ (Int.log 10 |exact| - ((count : Int) - 1))

/-- A number is rounded to significant digits by rounding it to the unit of the last one. -/
def IsSignificant (count : Nat) (exact rounded : ℚ) : Prop :=
  ∃ multiple : ℤ, IsNearestMultiple (lastUnit count exact) exact multiple ∧
    rounded = multiple * lastUnit count exact

theorem lastUnit_pos (count : Nat) (exact : ℚ) : 0 < lastUnit count exact :=
  ten_zpow_pos _

theorem lastUnit_neg (count : Nat) (exact : ℚ) : lastUnit count (-exact) = lastUnit count exact := by
  rw [lastUnit, lastUnit, abs_neg]

namespace IsNearestMultiple

variable {unit exact : ℚ} {multiple other : ℤ}

/-- A multiple within half a unit is nearest, and only a distance of exactly half a unit is a tie. -/
theorem of_error (positive : 0 < unit) (error : 2 * |exact - multiple * unit| ≤ unit)
    (tie : 2 * |exact - multiple * unit| = unit → Even multiple) :
    IsNearestMultiple unit exact multiple := by
  have apart (other : ℤ) (different : other ≠ multiple) :
      unit ≤ |exact - multiple * unit| + |exact - other * unit| := by
    have steps : (1 : ℚ) ≤ |(other : ℚ) - multiple| := by
      exact_mod_cast Int.one_le_abs (sub_ne_zero.mpr different)
    calc unit ≤ |(other : ℚ) - multiple| * unit := le_mul_of_one_le_left positive.le steps
      _ = |(exact - multiple * unit) - (exact - other * unit)| := by
          rw [← abs_of_pos positive, ← abs_mul, abs_of_pos positive]
          congr 1
          ring
      _ ≤ |exact - multiple * unit| + |exact - other * unit| := abs_sub _ _
  constructor
  · intro other
    by_cases same : other = multiple
    · rw [same]
    · linarith [apart other same]
  · intro other equal
    by_cases same : other = multiple
    · exact .inl same
    · right
      apply tie
      linarith [apart other same]

/-- Between two nearest multiples there would be an odd one, which is nearer to the number. -/
theorem not_lt (positive : 0 < unit) (nearest : IsNearestMultiple unit exact multiple)
    (second : IsNearestMultiple unit exact other) : ¬ multiple < other := by
  intro less
  have equal : |exact - multiple * unit| = |exact - other * unit| :=
    le_antisymm (nearest.closest other) (second.closest multiple)
  have even : Even multiple := (nearest.tie other equal).resolve_left less.ne'
  have otherEven : Even other := (second.tie multiple equal.symm).resolve_left less.ne
  have gap : multiple + 2 ≤ other := by
    obtain ⟨half, rfl⟩ := even
    obtain ⟨otherHalf, rfl⟩ := otherEven
    omega
  have gapCast : (multiple : ℚ) + 2 ≤ other := by exact_mod_cast gap
  have width : ((multiple : ℚ) + 2) * unit ≤ other * unit :=
    mul_le_mul_of_nonneg_right gapCast positive.le
  -- The number is in the middle of the two, so it is at least one unit away from each.
  have middle : exact - multiple * unit = other * unit - exact := by
    rcases abs_eq_abs.mp equal with same | opposite
    · linarith
    · linarith
  have between := nearest.closest (multiple + 1)
  push_cast at between
  rw [abs_of_nonneg (by linarith), abs_of_nonneg (by linarith)] at between
  linarith

theorem unique (positive : 0 < unit) (nearest : IsNearestMultiple unit exact multiple)
    (second : IsNearestMultiple unit exact other) : multiple = other :=
  le_antisymm (le_of_not_gt (second.not_lt positive nearest))
    (le_of_not_gt (nearest.not_lt positive second))

theorem neg (nearest : IsNearestMultiple unit exact multiple) :
    IsNearestMultiple unit (-exact) (-multiple) := by
  have mirrored (other : ℤ) : |-exact - other * unit| = |exact - (-other : ℤ) * unit| := by
    rw [← abs_neg]
    congr 1
    push_cast
    ring
  constructor
  · intro other
    rw [mirrored, mirrored, neg_neg]
    exact nearest.closest (-other)
  · intro other equal
    rw [mirrored, mirrored, neg_neg] at equal
    rcases nearest.tie (-other) equal with same | even
    · left
      omega
    · exact .inr even.neg

end IsNearestMultiple

namespace IsSignificant

variable {count : Nat} {exact rounded other : ℚ}

theorem unique (significant : IsSignificant count exact rounded)
    (second : IsSignificant count exact other) : other = rounded := by
  obtain ⟨multiple, nearest, rfl⟩ := significant
  obtain ⟨otherMultiple, otherNearest, rfl⟩ := second
  rw [nearest.unique (lastUnit_pos count exact) otherNearest]

/-- Rounding treats both signs alike. -/
theorem neg (significant : IsSignificant count exact rounded) :
    IsSignificant count (-exact) (-rounded) := by
  obtain ⟨multiple, nearest, rfl⟩ := significant
  refine ⟨-multiple, ?_, ?_⟩
  · rw [lastUnit_neg]
    exact nearest.neg
  · rw [lastUnit_neg]
    push_cast
    ring

end IsSignificant

/-- A quotient that is half a unit away from its rounded value is rounded to an even number. -/
theorem even_divideToEven_of_tie {numerator denominator : Nat} (divides : 0 < denominator)
    (tie : 2 * |(divideToEven numerator denominator : ℚ) - (numerator : ℚ) / denominator| = 1) :
    Even (divideToEven numerator denominator) := by
  have split := Nat.div_add_mod numerator denominator
  have small := Nat.mod_lt numerator divides
  have divisorPositive : (0 : ℚ) < denominator := by exact_mod_cast divides
  unfold divideToEven at tie ⊢
  generalize numerator / denominator = quotient at split tie ⊢
  generalize numerator % denominator = remainder at split small tie ⊢
  have ratio : (numerator : ℚ) / denominator = quotient + remainder / denominator := by
    rw [← split]
    push_cast
    field_simp
  have notNegative : (0 : ℚ) ≤ (remainder : ℚ) / denominator := by positivity
  dsimp only at tie ⊢
  rw [ratio] at tie
  split_ifs at tie ⊢ with down up
  · have below : (remainder : ℚ) / denominator < 1 / 2 := by
      rw [div_lt_div_iff₀ divisorPositive (by norm_num)]
      exact_mod_cast (by omega : remainder * 2 < 1 * denominator)
    rw [abs_of_nonpos (by linarith)] at tie
    linarith
  · have above : 1 / 2 < (remainder : ℚ) / denominator := by
      rw [div_lt_div_iff₀ (by norm_num) divisorPositive]
      exact_mod_cast (by omega : 1 * denominator < remainder * 2)
    have below : (remainder : ℚ) / denominator < 1 := by
      rw [div_lt_one divisorPositive]
      exact_mod_cast small
    push_cast at tie
    rw [abs_of_nonneg (by linarith)] at tie
    linarith
  · rw [Nat.even_iff]
    omega

/-- The logarithm is the exponent of the power of ten that is next below. -/
theorem log_eq_of_bounds {exponent : Int} {number : ℚ} (least : 10 ^ exponent ≤ number)
    (greatest : number < 10 ^ (exponent + 1)) : Int.log 10 number = exponent := by
  have positive := (ten_zpow_pos exponent).trans_le least
  have atLeast := (Int.zpow_le_iff_le_log (by decide : 1 < 10) positive).mp
    (by exact_mod_cast least)
  have below := (Int.lt_zpow_iff_log_lt (by decide : 1 < 10) positive).mp
    (by exact_mod_cast greatest)
  omega

/-- The coefficient is the nearest multiple of the unit of the last digit. -/
theorem isNearestMultiple_coefficientAt (count numerator denominator : Nat) (exponent : Int)
    (divides : 0 < denominator) :
    IsNearestMultiple (10 ^ (exponent - ((count : Int) - 1))) ((numerator : ℚ) / denominator)
      (coefficientAt count numerator denominator exponent) := by
  have unit := ten_zpow_pos (exponent - ((count : Int) - 1))
  have error := abs_sub_scaled (coefficientAt count numerator denominator exponent)
    ((numerator : ℚ) / denominator) exponent ((count : Int) - 1)
  have near := abs_coefficientAt_sub_le count numerator denominator exponent divides
  rw [abs_sub_comm] at error
  apply IsNearestMultiple.of_error unit
  · push_cast
    rw [error]
    calc 2 * (_ * (10 : ℚ) ^ (exponent - ((count : Int) - 1)))
        ≤ 2 * (1 / 2 * 10 ^ (exponent - ((count : Int) - 1))) :=
          mul_le_mul_of_nonneg_left (mul_le_mul_of_nonneg_right near unit.le) (by norm_num)
      _ = 10 ^ (exponent - ((count : Int) - 1)) := by ring
  · intro tie
    push_cast at tie
    rw [error, ← mul_assoc, mul_eq_right₀ unit.ne'] at tie
    rw [Int.even_coe_nat]
    rw [coefficientAt] at tie ⊢
    rw [← scaled_ratio numerator denominator divides] at tie
    exact even_divideToEven_of_tie (Nat.mul_pos divides (Nat.pow_pos (by decide))) tie

/-- A ratio rounded to significant digits is the nearest number with so many digits. -/
theorem isSignificant_roundSignificant (count numerator denominator : Nat) (digit : 0 < count)
    (positive : 0 < numerator) (divides : 0 < denominator) :
    IsSignificant count ((numerator : ℚ) / denominator)
      ((roundSignificant count numerator denominator).coefficient *
        10 ^ ((roundSignificant count numerator denominator).exponent - ((count : Int) - 1))) := by
  obtain ⟨least, greatest⟩ := leadingExponent_bounds numerator denominator positive divides
  have ratioPositive := (ten_zpow_pos _).trans_le least
  have unit : lastUnit count ((numerator : ℚ) / denominator) =
      10 ^ (leadingExponent numerator denominator - ((count : Int) - 1)) := by
    rw [lastUnit, abs_of_pos ratioPositive, log_eq_of_bounds least greatest]
  refine ⟨coefficientAt count numerator denominator (leadingExponent numerator denominator), ?_, ?_⟩
  · rw [unit]
    exact isNearestMultiple_coefficientAt count numerator denominator _ divides
  · rw [unit, roundSignificant_eq digit]
    push_cast
    rfl

end RibStream.Decimal
