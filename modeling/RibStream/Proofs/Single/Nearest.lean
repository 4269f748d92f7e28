/-
This file defines the single that is nearest to a numeral, with ties to even.
-/

import RibStream.Proofs.Decimal.Numeral
import RibStream.Proofs.Single.Magnitude

namespace RibStream

/-- The single is what the numeral is rounded to. The magnitude of an infinity stands for the overflow
of the greatest finite number. -/
structure Numeral.IsNearest (numeral : Numeral) (value : Single) : Prop where
  number : value.isNaN = false
  sign : value.isNegative = numeral.negative
  closest : ∀ other : Single, other.isNaN = false →
    |numeral.magnitude - value.magnitude| ≤ |numeral.magnitude - other.magnitude|
  tie : ∀ other : Single, other.isNaN = false →
    |numeral.magnitude - value.magnitude| = |numeral.magnitude - other.magnitude| →
    other.magnitude = value.magnitude ∨ value.bits.toNat % 2 = 0

namespace Single

/-- Everything up to an infinity is a number. -/
theorem isNaN_eq_false_iff (value : Single) : value.isNaN = false ↔ value.place ≤ 255 * 2 ^ 23 := by
  have bounded : value.place < 2 ^ 31 := Nat.mod_lt _ (by decide)
  rw [isNaN, exponentField_eq, fractionField_eq, Bool.and_eq_false_iff, beq_eq_false_iff_ne,
    bne_eq_false_iff_eq]
  omega

theorem isNegative_iff (value : Single) : value.isNegative = true ↔ 2 ^ 31 ≤ value.bits.toNat := by
  rw [isNegative, decide_eq_true_iff]

/-- A single is its sign and its place. -/
theorem eq_of_place_eq {first second : Single} (sign : first.isNegative = second.isNegative)
    (same : first.place = second.place) : first = second := by
  have firstBits := first.bits.toNat_lt
  have secondBits := second.bits.toNat_lt
  have signs : 2 ^ 31 ≤ first.bits.toNat ↔ 2 ^ 31 ≤ second.bits.toNat := by
    rw [← isNegative_iff, ← isNegative_iff, sign]
  have bits : first.bits.toNat = second.bits.toNat := by
    rw [place, place] at same
    omega
  obtain ⟨firstBits⟩ := first
  obtain ⟨secondBits⟩ := second
  exact congrArg Single.mk (UInt32.toNat_inj.mp bits)

theorem magnitude_injective {first second : Single} (sign : first.isNegative = second.isNegative)
    (same : first.magnitude = second.magnitude) : first = second := by
  rw [magnitude_eq, magnitude_eq] at same
  exact eq_of_place_eq sign (magnitudeAt_strictMono.injective same)

/-- There is a single between two that are not neighbours. -/
theorem exists_between {first second : Single} (number : second.isNaN = false)
    (below : first.place + 1 < second.place) :
    ∃ between : Single, between.isNaN = false ∧ first.magnitude < between.magnitude ∧
      between.magnitude < second.magnitude := by
  have limit := (isNaN_eq_false_iff second).mp number
  refine ⟨⟨UInt32.ofNat (first.place + 1)⟩, ?_⟩
  have place_eq : place ⟨UInt32.ofNat (first.place + 1)⟩ = first.place + 1 := by
    rw [place, UInt32.toNat_ofNat']
    omega
  rw [isNaN_eq_false_iff, magnitude_eq, magnitude_eq, magnitude_eq, place_eq]
  refine ⟨by omega, magnitudeAt_strictMono (Nat.lt_succ_self _), magnitudeAt_strictMono below⟩

end Single

namespace Numeral.IsNearest

variable {numeral : Numeral} {first second : Single}

/-- Two nearest singles cannot be on both sides of the numeral. -/
theorem not_lt (firstNearest : numeral.IsNearest first) (secondNearest : numeral.IsNearest second) :
    ¬ first.magnitude < second.magnitude := by
  intro less
  have equal : |numeral.magnitude - first.magnitude| = |numeral.magnitude - second.magnitude| :=
    le_antisymm (firstNearest.closest second secondNearest.number)
      (secondNearest.closest first firstNearest.number)
  have firstEven : first.bits.toNat % 2 = 0 := by
    rcases firstNearest.tie second secondNearest.number equal with same | even
    · exact absurd same less.ne'
    · exact even
  have secondEven : second.bits.toNat % 2 = 0 := by
    rcases secondNearest.tie first firstNearest.number equal.symm with same | even
    · exact absurd same less.ne
    · exact even
  have places : first.place + 1 < second.place := by
    have below : first.place < second.place := by
      rw [Single.magnitude_eq, Single.magnitude_eq] at less
      exact Single.magnitudeAt_strictMono.lt_iff_lt.mp less
    rw [Single.place, Single.place] at below ⊢
    omega
  obtain ⟨between, number, above, beneath⟩ := Single.exists_between secondNearest.number places
  have closer := firstNearest.closest between number
  have other := secondNearest.closest between number
  rcases le_total numeral.magnitude between.magnitude with left | right
  · rw [abs_of_nonpos (sub_nonpos.mpr left),
      abs_of_nonpos (sub_nonpos.mpr (left.trans beneath.le))] at other
    linarith
  · rw [abs_of_nonneg (sub_nonneg.mpr right),
      abs_of_nonneg (sub_nonneg.mpr (above.le.trans right))] at closer
    linarith

/-- A numeral is rounded in one way. -/
theorem unique (firstNearest : numeral.IsNearest first) (secondNearest : numeral.IsNearest second) :
    first = second := by
  apply Single.magnitude_injective (firstNearest.sign.trans secondNearest.sign.symm)
  exact le_antisymm (le_of_not_gt (secondNearest.not_lt firstNearest))
    (le_of_not_gt (firstNearest.not_lt secondNearest))

end Numeral.IsNearest

/-- A numeral with nine correct digits is nearest to its single, and there is no tie. -/
theorem Numeral.isNearest_of_error {numeral : Numeral} {value : Single}
    (number : value.isNaN = false) (sign : value.isNegative = numeral.negative)
    (error : 2 * 10 ^ 8 * |numeral.magnitude - value.magnitude| ≤ value.magnitude) :
    numeral.IsNearest value := by
  have nearer (other : Single) (different : other.magnitude ≠ value.magnitude) :
      |numeral.magnitude - value.magnitude| < |numeral.magnitude - other.magnitude| := by
    have places : value.place ≠ other.place := by
      intro same
      rw [Single.magnitude_eq, Single.magnitude_eq, same] at different
      exact different rfl
    have gap := Single.magnitudeAt_le_gap places
    rw [← Single.magnitude_eq, ← Single.magnitude_eq] at gap
    have triangle := abs_sub_le value.magnitude numeral.magnitude other.magnitude
    have apart : 0 < |value.magnitude - other.magnitude| :=
      abs_pos.mpr (sub_ne_zero.mpr different.symm)
    rw [abs_sub_comm value.magnitude numeral.magnitude] at triangle
    linarith
  refine ⟨number, sign, ?_, ?_⟩
  · intro other otherNumber
    by_cases same : other.magnitude = value.magnitude
    · rw [same]
    · exact (nearer other same).le
  · intro other otherNumber equal
    by_cases same : other.magnitude = value.magnitude
    · exact .inl same
    · exact absurd equal (nearer other same).ne

end RibStream
