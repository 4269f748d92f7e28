/-
This file orders the magnitudes of singles.
The bit pattern without its sign is the place of the magnitude among all magnitudes.
-/

import Mathlib.Algebra.Order.Field.Power
import Mathlib.Data.Rat.Cast.Order
import Mathlib.Order.Monotone.Basic
import Mathlib.Tactic.Linarith
import Mathlib.Tactic.Positivity
import Mathlib.Tactic.Ring
import RibStream.Single

namespace RibStream.Single

/-- The magnitude as an exact number. An infinity stands where the next finite number would. -/
def magnitude (value : Single) : ℚ :=
  value.significand * 2 ^ value.power

/-- The exact number with its sign. Both zeros are zero, and an infinity lies beyond every finite
number. -/
def number (value : Single) : ℚ :=
  if value.isNegative then -value.magnitude else value.magnitude

/-- Neither an infinity nor a NaN. -/
def Finite (value : Single) : Prop :=
  value.exponentField ≠ 255

instance (value : Single) : Decidable value.Finite :=
  inferInstanceAs (Decidable (_ ≠ _))

def place (value : Single) : Nat :=
  value.bits.toNat % 2 ^ 31

def significandAt (place : Nat) : Nat :=
  if place / 2 ^ 23 = 0 then place % 2 ^ 23 else 2 ^ 23 + place % 2 ^ 23

def powerAt (place : Nat) : Int :=
  (max (place / 2 ^ 23) 1 : Nat) - 150

def magnitudeAt (place : Nat) : ℚ :=
  significandAt place * 2 ^ powerAt place

/-- The distance from a magnitude to the next greater one. -/
def spacing (place : Nat) : ℚ :=
  2 ^ powerAt place

theorem Finite.isNaN_eq_false {value : Single} (finite : value.Finite) : value.isNaN = false := by
  simp [isNaN, beq_eq_false_iff_ne.mpr finite]

theorem Finite.isInfinite_eq_false {value : Single} (finite : value.Finite) :
    value.isInfinite = false := by
  simp [isInfinite, beq_eq_false_iff_ne.mpr finite]

theorem numerator_div_denominator (value : Single) :
    (value.numerator : ℚ) / value.denominator = value.magnitude := by
  have split : value.power = (value.power.toNat : Int) - ((-value.power).toNat : Int) := by omega
  rw [magnitude, numerator, denominator]
  conv_rhs => rw [split]
  rw [zpow_sub₀ (by norm_num), zpow_natCast, zpow_natCast]
  push_cast
  ring

theorem significand_eq_zero_iff (value : Single) : value.significand = 0 ↔ value.isZero = true := by
  rw [significand, isZero, Bool.and_eq_true, beq_iff_eq, beq_iff_eq]
  split_ifs <;> omega

theorem numerator_pos (value : Single) (nonzero : value.isZero = false) : 0 < value.numerator := by
  have significant : value.significand ≠ 0 := by
    intro none
    rw [(value.significand_eq_zero_iff).mp none] at nonzero
    cases nonzero
  exact Nat.mul_pos (Nat.pos_of_ne_zero significant) (Nat.pow_pos (by decide))

theorem exponentField_eq (value : Single) : value.exponentField = value.place / 2 ^ 23 := by
  rw [exponentField, place]
  omega

theorem fractionField_eq (value : Single) : value.fractionField = value.place % 2 ^ 23 := by
  rw [fractionField, place]
  omega

theorem magnitude_eq (value : Single) : value.magnitude = magnitudeAt value.place := by
  rw [magnitude, magnitudeAt, significand, significandAt, power, powerAt, exponentField_eq,
    fractionField_eq]

theorem spacing_pos (place : Nat) : 0 < spacing place :=
  zpow_pos (by norm_num) _

/-- Every place is one step of its spacing below the next one, also where the spacing doubles. -/
theorem magnitudeAt_succ (place : Nat) :
    magnitudeAt (place + 1) = magnitudeAt place + spacing place := by
  have two : (2 : ℚ) ≠ 0 := by norm_num
  have sum : (significandAt place + 1 : ℚ) * spacing place = magnitudeAt place + spacing place := by
    rw [magnitudeAt, spacing]
    ring
  rw [← sum]
  by_cases carries : (place + 1) % 2 ^ 23 = 0
  · by_cases subnormal : place / 2 ^ 23 = 0
    · have next : significandAt (place + 1) = significandAt place + 1 := by
        rw [significandAt, significandAt]
        split_ifs <;> omega
      have same : powerAt (place + 1) = powerAt place := by
        rw [powerAt, powerAt]
        omega
      rw [magnitudeAt, next, same, spacing]
      push_cast
      ring
    · have next : 2 * significandAt (place + 1) = significandAt place + 1 := by
        rw [significandAt, significandAt]
        split_ifs <;> omega
      have doubled : powerAt (place + 1) = powerAt place + 1 := by
        rw [powerAt, powerAt]
        omega
      have cast : (2 : ℚ) * significandAt (place + 1) = significandAt place + 1 := by
        exact_mod_cast next
      rw [magnitudeAt, doubled, zpow_add_one₀ two, spacing, ← cast]
      ring
  · have next : significandAt (place + 1) = significandAt place + 1 := by
      rw [significandAt, significandAt]
      split_ifs <;> omega
    have same : powerAt (place + 1) = powerAt place := by
      rw [powerAt, powerAt]
      omega
    rw [magnitudeAt, next, same, spacing]
    push_cast
    ring

theorem magnitudeAt_strictMono : StrictMono magnitudeAt := by
  apply strictMono_nat_of_lt_succ
  intro place
  rw [magnitudeAt_succ]
  exact lt_add_of_pos_right _ (spacing_pos place)

/-- The significand has at most 24 bits. -/
theorem magnitudeAt_succ_le (place : Nat) : magnitudeAt (place + 1) ≤ 2 ^ 24 * spacing place := by
  have bits : significandAt place + 1 ≤ 2 ^ 24 := by
    rw [significandAt]
    split_ifs <;> omega
  have cast : (significandAt place : ℚ) + 1 ≤ 2 ^ 24 := by exact_mod_cast bits
  calc magnitudeAt (place + 1) = (significandAt place + 1) * spacing place := by
        rw [magnitudeAt_succ, magnitudeAt, spacing]
        ring
    _ ≤ 2 ^ 24 * spacing place := mul_le_mul_of_nonneg_right cast (spacing_pos place).le

/-- A magnitude is at most `2 ^ 24` times its distance from any other one. -/
theorem magnitudeAt_le_gap {first second : Nat} (different : first ≠ second) :
    magnitudeAt first ≤ 2 ^ 24 * |magnitudeAt first - magnitudeAt second| := by
  have step (place : Nat) : spacing place = magnitudeAt (place + 1) - magnitudeAt place := by
    rw [magnitudeAt_succ]
    ring
  rcases Nat.lt_or_gt_of_ne different with below | above
  · have apart : spacing first ≤ |magnitudeAt first - magnitudeAt second| := by
      have further := magnitudeAt_strictMono.monotone (Nat.succ_le_of_lt below)
      rw [abs_sub_comm]
      refine le_trans ?_ (le_abs_self _)
      rw [step]
      exact sub_le_sub_right further _
    have own : magnitudeAt first ≤ 2 ^ 24 * spacing first :=
      (magnitudeAt_strictMono first.lt_succ_self).le.trans (magnitudeAt_succ_le first)
    linarith
  · obtain ⟨previous, rfl⟩ := Nat.exists_eq_succ_of_ne_zero (Nat.ne_zero_of_lt above)
    have apart : spacing previous ≤ |magnitudeAt (previous + 1) - magnitudeAt second| := by
      have further := magnitudeAt_strictMono.monotone (Nat.le_of_lt_succ above)
      refine le_trans ?_ (le_abs_self _)
      rw [step]
      exact sub_le_sub_left further _
    have own := magnitudeAt_succ_le previous
    rw [Nat.succ_eq_add_one]
    linarith

end RibStream.Single
