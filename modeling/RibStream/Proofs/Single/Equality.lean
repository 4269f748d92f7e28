/-
This file reads the comparison of two singles as a comparison of exact numbers.
-/

import RibStream.Proofs.Single.Nearest

namespace RibStream.Single

/-- Both are numbers, and it is the same one. -/
structure SameNumber (left right : Single) : Prop where
  leftIsNumber : left.isNaN = false
  rightIsNumber : right.isNaN = false
  number : left.number = right.number

theorem magnitude_nonneg (value : Single) : 0 ≤ value.magnitude :=
  mul_nonneg (Nat.cast_nonneg _) (zpow_nonneg (by norm_num) _)

theorem magnitude_eq_zero_iff (value : Single) : value.magnitude = 0 ↔ value.isZero = true := by
  have scale : (2 : ℚ) ^ value.power ≠ 0 := zpow_ne_zero _ (by norm_num)
  rw [magnitude, mul_eq_zero, or_iff_left scale, Nat.cast_eq_zero, significand_eq_zero_iff]

theorem number_eq_zero_iff (value : Single) : value.number = 0 ↔ value.isZero = true := by
  rw [number, ← magnitude_eq_zero_iff]
  split
  · exact neg_eq_zero
  · exact Iff.rfl

/-- Singles with one number are one single, unless they are two zeros. -/
theorem number_eq_iff (left right : Single) :
    left.number = right.number ↔ left = right ∨ left.isZero = true ∧ right.isZero = true := by
  constructor
  · intro same
    by_cases sign : left.isNegative = right.isNegative
    · refine .inl (magnitude_injective sign ?_)
      rw [number, number, sign] at same
      split at same
      · exact neg_injective same
      · exact same
    · have opposite : left.magnitude = -right.magnitude := by
        rw [number, number] at same
        cases leftSign : left.isNegative <;> cases rightSign : right.isNegative <;>
          simp_all [neg_eq_iff_eq_neg]
      have leftLeast := left.magnitude_nonneg
      have rightLeast := right.magnitude_nonneg
      refine .inr ⟨left.magnitude_eq_zero_iff.mp ?_, right.magnitude_eq_zero_iff.mp ?_⟩ <;> linarith
  · rintro (rfl | ⟨leftZero, rightZero⟩)
    · rfl
    · rw [(number_eq_zero_iff left).mpr leftZero, (number_eq_zero_iff right).mpr rightZero]

/-- The comparison of bit patterns is that of the exact numbers. -/
theorem equal_iff (left right : Single) : left.equal right = true ↔ SameNumber left right := by
  have parts : left.equal right = true ↔ left.isNaN = false ∧ right.isNaN = false ∧
      (left = right ∨ left.isZero = true ∧ right.isZero = true) := by
    simp [equal, and_assoc]
  rw [parts, ← number_eq_iff]
  constructor
  · rintro ⟨leftIsNumber, rightIsNumber, number⟩
    exact ⟨leftIsNumber, rightIsNumber, number⟩
  · intro same
    exact ⟨same.leftIsNumber, same.rightIsNumber, same.number⟩

namespace SameNumber

variable {first second third : Single}

theorem symm (same : SameNumber first second) : SameNumber second first :=
  ⟨same.rightIsNumber, same.leftIsNumber, same.number.symm⟩

theorem trans (before : SameNumber first second) (after : SameNumber second third) :
    SameNumber first third :=
  ⟨before.leftIsNumber, after.rightIsNumber, before.number.trans after.number⟩

end SameNumber

end RibStream.Single
