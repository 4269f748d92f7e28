/-
This file says which matrices are recognized as standard bases.
A matrix is recognized by its numbers alone, wherever it is stored, and as one basis at most.
-/

import RibStream.Basis
import RibStream.Proofs.Single.Equality

namespace RibStream

namespace Matrix

/-- The entries of both matrices are the same numbers, place by place. -/
def SameNumbers (left right : Matrix) : Prop :=
  ∀ row column : Fin 4, Single.SameNumber left.rows[row][column] right.rows[row][column]

/-- The entries from left to right and from the first row to the last. -/
def rowMajor (matrix : Matrix) : List Single :=
  (List.finRange 4).flatMap fun row => (List.finRange 4).map fun column => matrix.rows[row][column]

theorem SameNumbers.symm {left right : Matrix} (same : SameNumbers left right) :
    SameNumbers right left :=
  fun row column => (same row column).symm

theorem SameNumbers.trans {first second third : Matrix} (before : SameNumbers first second)
    (after : SameNumbers second third) : SameNumbers first third :=
  fun row column => (before row column).trans (after row column)

theorem toList_eq_finRange {Value : Type} {size : Nat} (vector : Vector Value size) :
    vector.toList = (List.finRange size).map fun index => vector[index] := by
  apply List.ext_getElem
  · simp
  · intro index inside outside
    simp

theorem entries_eq_rowMajor (matrix : Matrix) : matrix.entries = matrix.rowMajor := by
  simp only [entries, rowMajor, toList_eq_finRange, List.flatMap_map]

/-- The comparison of the lists of entries is that of the numbers in their places. -/
theorem equal_iff (left right : Matrix) : left.equal right = true ↔ SameNumbers left right := by
  simp [equal, entries_eq_rowMajor, rowMajor, List.finRange_succ, SameNumbers, Fin.forall_fin_succ,
    Single.equal_iff, and_assoc]

end Matrix

namespace Basis

theorem mem_all (basis : Basis) : basis ∈ all := by
  cases basis <;> decide

/-- No two standard matrices have the same numbers. -/
theorem eq_of_sameNumbers {first second : Basis} {matrix : Matrix}
    (one : first.matrix.SameNumbers matrix) (other : second.matrix.SameNumbers matrix) :
    first = second := by
  have table : ∀ first ∈ all, ∀ second ∈ all,
      first.matrix.equal second.matrix = true → first = second := by
    decide +kernel
  exact table first (mem_all first) second (mem_all second)
    ((Matrix.equal_iff _ _).mpr (one.trans other.symm))

theorem sameNumbers_of_recognize? {matrix : Matrix} {basis : Basis}
    (recognized : recognize? matrix = some basis) : basis.matrix.SameNumbers matrix := by
  rw [recognize?] at recognized
  have equal := List.find?_some recognized
  exact (Matrix.equal_iff _ _).mp equal

/-- A matrix is recognized as the basis with the same numbers. -/
theorem recognize?_eq_some_iff (matrix : Matrix) (basis : Basis) :
    recognize? matrix = some basis ↔ basis.matrix.SameNumbers matrix := by
  refine ⟨sameNumbers_of_recognize?, fun same => ?_⟩
  cases recognized : recognize? matrix with
  | none =>
      have different := List.find?_eq_none.mp recognized basis (mem_all basis)
      exact absurd ((Matrix.equal_iff _ _).mpr same) different
  | some other => rw [eq_of_sameNumbers (sameNumbers_of_recognize? recognized) same]

/-- The power basis is also recognized where all its zeros are negative. -/
example : recognize? (.ofEntries (power.entries.map fun value =>
    if value.isZero then minus value else value)) = some power := by
  decide +kernel

theorem recognize?_eq_none_iff (matrix : Matrix) :
    recognize? matrix = none ↔ ∀ basis : Basis, ¬ basis.matrix.SameNumbers matrix := by
  simp only [Option.eq_none_iff_forall_ne_some, ne_eq, recognize?_eq_some_iff]

/-- A standard matrix is recognized as its own basis, since none of its entries is a NaN. -/
theorem recognize?_matrix (basis : Basis) : recognize? basis.matrix = some basis := by
  cases basis <;> decide +kernel

/-- The address only saves the comparison. -/
theorem Stored.recognize?_eq {Address : Type} [DecidableEq Address] {home : Basis → Address}
    (stored : Stored home) : stored.recognize? = Basis.recognize? stored.matrix := by
  rw [Stored.recognize?]
  cases found : all.find? fun basis => home basis = stored.address with
  | none => rfl
  | some basis =>
      have home := List.find?_some found
      rw [stored.standard basis (of_decide_eq_true home), recognize?_matrix]

theorem ofName_name (basis : Basis) : ofName basis.name = .ok basis := by
  cases basis <;> rfl

end Basis

end RibStream
