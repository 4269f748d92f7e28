/-
This file reads the text of a single: an infinity by its name, and everything else as a numeral that
is rounded to the nearest single.
-/

import RibStream.Proofs.Decimal.ReadBack
import RibStream.Proofs.Single.Rounding

namespace RibStream.Single

def infinity (negative : Bool) : Single :=
  ⟨if negative then 0xFF800000 else 0x7F800000⟩

/-- Reads a whole text as one single. -/
def read? : List Char → Option Single
  | ['i', 'n', 'f'] => some (infinity false)
  | ['-', 'i', 'n', 'f'] => some (infinity true)
  | text => (Numeral.read? text).map Numeral.round

/-- No numeral is spelled like the name of an infinity. -/
theorem read?_eq_round {text : List Char} {numeral : Numeral}
    (read : Numeral.read? text = some numeral) : read? text = some numeral.round := by
  unfold read?
  split
  · cases read
  · cases read
  · rw [read, Option.map_some]

-- The number after 2 ^ 24 is in the middle of two singles, and so is the least one to overflow.
example : read? "16777217".toList = some ⟨0x4B800000⟩ := by decide +kernel
example : read? "-340282356779733661637539395458142568448".toList = some (infinity true) := by
  decide +kernel

/-- An infinity is known by its sign. -/
theorem eq_infinity {value : Single} (infinite : value.isInfinite = true) :
    value = infinity value.isNegative := by
  have place_eq : value.place = 255 * 2 ^ 23 := by
    have bounded : value.place < 2 ^ 31 := Nat.mod_lt _ (by decide)
    rw [isInfinite, exponentField_eq, fractionField_eq, Bool.and_eq_true, beq_iff_eq,
      beq_iff_eq] at infinite
    omega
  apply eq_of_place_eq
  · cases value.isNegative <;> decide
  · rw [place_eq]
    cases value.isNegative <;> decide

theorem finite_of_isInfinite_eq_false {value : Single} (number : value.isNaN = false)
    (bounded : value.isInfinite = false) : value.Finite := by
  intro full
  rw [isNaN, full, beq_self_eq_true, Bool.true_and, bne_eq_false_iff_eq] at number
  rw [isInfinite, full, number] at bounded
  cases bounded

/-- The text of an infinity is its name. -/
theorem read?_infinity (negative : Bool) :
    read? (Decimal.single (infinity negative)) = some (infinity negative) := by
  cases negative <;> decide

/-- The text of a number is read back as that number. -/
theorem read?_single {value : Single} (number : value.isNaN = false) :
    read? (Decimal.single value) = some value := by
  cases bounded : value.isInfinite with
  | true =>
      rw [eq_infinity bounded]
      exact read?_infinity _
  | false =>
      obtain ⟨numeral, read, nearest⟩ :=
        Decimal.read?_single value (finite_of_isInfinite_eq_false number bounded)
      rw [read?_eq_round read, ← (numeral.isNearest_iff value).mp nearest]

/-- The text of a number is read back as that number, and no other number has it. Unless the number is
an infinity, its text is a numeral that it is nearest to. -/
theorem single_roundTrip (value : Single) (number : value.isNaN = false) :
    read? (Decimal.single value) = some value ∧
      (∀ other : Single, other.isNaN = false → Decimal.single other = Decimal.single value →
        other = value) ∧
      (value.isInfinite = false → ∃ numeral, Numeral.read? (Decimal.single value) = some numeral ∧
        numeral.IsNearest value) := by
  refine ⟨read?_single number, ?_, ?_⟩
  · intro other otherNumber same
    have read := read?_single otherNumber
    rw [same, read?_single number] at read
    exact (Option.some.inj read).symm
  · intro bounded
    exact Decimal.read?_single value (finite_of_isInfinite_eq_false number bounded)

/-- The least negative subnormal number and the negative infinity keep their texts for themselves. -/
theorem single_roundTrip_ends :
    (read? "-1.40129846e-45".toList = some ⟨0x80000001⟩ ∧
      ∀ other : Single, other.isNaN = false →
        Decimal.single other = "-1.40129846e-45".toList → other = ⟨0x80000001⟩) ∧
    read? "-inf".toList = some ⟨0xFF800000⟩ := by
  have subnormal : Decimal.single ⟨0x80000001⟩ = "-1.40129846e-45".toList := by decide +kernel
  have infinite : Decimal.single ⟨0xFF800000⟩ = "-inf".toList := by decide
  obtain ⟨read, only, -⟩ := single_roundTrip ⟨0x80000001⟩ (by decide)
  have readInfinite := (single_roundTrip ⟨0xFF800000⟩ (by decide)).1
  rw [subnormal] at read only
  rw [infinite] at readInfinite
  exact ⟨⟨read, only⟩, readInfinite⟩

end RibStream.Single
