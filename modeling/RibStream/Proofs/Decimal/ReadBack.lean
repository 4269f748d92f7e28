/-
This file proves that a printed number is read back as a numeral that denotes it.
An integer is denoted exactly, and a single is what its numeral is rounded to.
-/

import RibStream.Proofs.Decimal.FixedPoint
import RibStream.Proofs.Single.Nearest

namespace RibStream.Decimal

open Numeral

/-- The text is read as a numeral of the given magnitude, with whatever sign. -/
def Reads (text : List Char) (magnitude : ℚ) : Prop :=
  ∀ negative, ∃ numeral, readUnsigned? negative text = some numeral ∧
    numeral.negative = negative ∧ numeral.magnitude = magnitude

/-- A minus sign in front of the digits makes the numeral negative. -/
theorem Reads.signed {text : List Char} {magnitude : ℚ} (reads : Reads text magnitude)
    (negative : Bool) :
    ∃ numeral, Numeral.read? (if negative then '-' :: text else text) = some numeral ∧
      numeral.negative = negative ∧ numeral.magnitude = magnitude := by
  obtain ⟨numeral, read, sign, same⟩ := reads negative
  refine ⟨numeral, ?_, sign, same⟩
  cases negative with
  | true => exact read
  | false =>
      -- No unsigned numeral starts with a minus sign.
      rw [if_neg Bool.false_ne_true]
      unfold Numeral.read?
      split
      · cases read
      · exact read

theorem natural_zero : natural 0 = ['0'] := by
  rw [natural, digits]
  rfl

theorem reads_natural (number : Nat) : Reads (natural number) number := by
  intro negative
  obtain ⟨numeral, read, sign, magnitude⟩ := readUnsigned?_digits negative (digits number) [] [] 0
    (digits_ne_nil number) (digit_lt_ten number) (fun _ absent => by cases absent)
    (fun _ absent => by cases absent) rfl
  refine ⟨numeral, ?_, sign, ?_⟩
  · rw [← read, natural]
    simp [fraction, dropTrailingZeros]
  · rw [magnitude, List.append_nil, value_digits]
    simp

/-- The integer is read back exactly. -/
theorem read?_integer (number : Int) :
    ∃ numeral, Numeral.read? (integer number) = some numeral ∧ numeral.number = number := by
  obtain ⟨numeral, read, sign, magnitude⟩ :=
    (reads_natural number.natAbs).signed (decide (number < 0))
  refine ⟨numeral, ?_, ?_⟩
  · rw [← read, integer]
    simp only [decide_eq_true_eq]
  · rw [Numeral.number, sign, magnitude, Nat.cast_natAbs]
    by_cases negative : number < 0
    · rw [decide_eq_true negative, if_pos rfl, abs_of_neg negative, Int.cast_neg, neg_neg]
    · rw [decide_eq_false negative, if_neg Bool.false_ne_true, abs_of_nonneg (not_lt.mp negative)]

/-- Different integers have different texts. -/
theorem integer_injective : Function.Injective integer := by
  intro first second text
  obtain ⟨numeral, read, number⟩ := read?_integer first
  obtain ⟨other, otherRead, otherNumber⟩ := read?_integer second
  rw [text, otherRead, Option.some.injEq] at read
  rw [← read, otherNumber] at number
  exact (Int.cast_injective number).symm

theorem reads_positional (written : List Nat) (valid : AllDigits written) (exponent : Int)
    (inside : exponent < written.length) :
    Reads (positional written exponent) (value written * 10 ^ (exponent - (written.length - 1))) := by
  intro negative
  rw [positional]
  by_cases below : exponent < 0
  · rw [if_pos below]
    generalize zerosEq : (-exponent - 1).toNat = zeros
    obtain ⟨numeral, read, sign, magnitude⟩ := readUnsigned?_digits negative [0]
      (List.replicate zeros 0 ++ written) [] 0 (by decide) (allDigits_replicate_zero 1)
      (allDigits_append (allDigits_replicate_zero _) valid) (fun _ absent => by cases absent) rfl
    have scale : (0 : Int) - ((List.replicate zeros 0 ++ written).length : Nat) =
        exponent - ((written.length : Int) - 1) := by
      rw [List.length_append, List.length_replicate]
      omega
    have zeroFirst : value ([0] ++ (List.replicate zeros 0 ++ written)) = value written := by
      rw [← List.append_assoc, value_append]
      have none : value ([0] ++ List.replicate zeros 0) = 0 := value_replicate_zero (zeros + 1)
      rw [none, Nat.zero_mul, Nat.zero_add]
    refine ⟨numeral, ?_, sign, ?_⟩
    · rw [← read, List.append_nil]
      rfl
    · rw [magnitude, scale, zeroFirst]
  · rw [if_neg below]
    dsimp only
    generalize wholeEq : exponent.toNat + 1 = whole
    have parts : AllDigits (written.take whole) ∧ AllDigits (written.drop whole) :=
      ⟨fun digit member => valid digit (List.mem_of_mem_take member),
        fun digit member => valid digit (List.mem_of_mem_drop member)⟩
    have nonempty : written.take whole ≠ [] := by
      apply List.ne_nil_of_length_pos
      rw [List.length_take]
      omega
    obtain ⟨numeral, read, sign, magnitude⟩ := readUnsigned?_digits negative (written.take whole)
      (written.drop whole) [] 0 nonempty parts.1 parts.2 (fun _ absent => by cases absent) rfl
    have scale : (0 : Int) - ((written.drop whole).length : Nat) =
        exponent - ((written.length : Int) - 1) := by
      rw [List.length_drop]
      omega
    refine ⟨numeral, ?_, sign, ?_⟩
    · rw [← read, List.append_nil]
    · rw [magnitude, scale, List.take_append_drop]

theorem reads_withExponent (width : Nat) (written : List Nat) (valid : AllDigits written)
    (exponent : Int) (nonempty : written ≠ []) :
    Reads (withExponent width written exponent)
      (value written * 10 ^ (exponent - (written.length - 1))) := by
  intro negative
  obtain ⟨first, others, rfl⟩ := List.exists_cons_of_ne_nil nonempty
  have parts : AllDigits [first] ∧ AllDigits others := by
    refine ⟨?_, fun digit member => valid digit (List.mem_cons_of_mem _ member)⟩
    intro digit member
    rw [List.mem_singleton.mp member]
    exact valid first List.mem_cons_self
  obtain ⟨numeral, read, sign, magnitude⟩ := readUnsigned?_digits negative [first] others
    (exponentMark width exponent) exponent (by simp) parts.1 parts.2
    (fun next member => by cases member; rfl) (readExponent?_exponentMark width exponent)
  refine ⟨numeral, ?_, sign, ?_⟩
  · rw [← read, withExponent, List.append_assoc]
    rfl
  · rw [magnitude, List.length_cons]
    push_cast
    rw [add_sub_cancel_right]
    rfl

/-- General notation keeps the significant digits, whichever form it takes. -/
theorem reads_magnitude (style : GeneralNotation) (numerator denominator : Nat)
    (digit : 0 < style.significantDigits) (positive : 0 < numerator) (divides : 0 < denominator) :
    Reads (style.magnitude numerator denominator)
      ((roundSignificant style.significantDigits numerator denominator).coefficient *
        10 ^ ((roundSignificant style.significantDigits numerator denominator).exponent -
          ((style.significantDigits : Int) - 1))) := by
  obtain ⟨least, greatest, -⟩ :=
    roundSignificant_spec style.significantDigits numerator denominator digit positive divides
  rw [style.magnitude_eq numerator denominator digit positive divides]
  dsimp only
  generalize roundSignificant style.significantDigits numerator denominator = rounded
    at least greatest ⊢
  generalize style.significantDigits = count at digit least greatest ⊢
  obtain ⟨before, rfl⟩ := Nat.exists_eq_succ_of_ne_zero digit.ne'
  have length : (digits rounded.coefficient).length = before + 1 :=
    length_digits_eq rounded.coefficient before least greatest
  have valid : AllDigits (digits rounded.coefficient) := digit_lt_ten _
  split
  · rename_i moderate
    have inside : rounded.exponent < (digits rounded.coefficient).length := by
      rw [length]
      exact moderate.2
    have reads := reads_positional (digits rounded.coefficient) valid rounded.exponent inside
    rwa [value_digits, length] at reads
  · have reads := reads_withExponent style.exponentDigits (digits rounded.coefficient) valid
      rounded.exponent (digits_ne_nil _)
    rwa [value_digits, length] at reads

/-- Nine significant digits leave an error of less than half a unit in the last of them. -/
theorem error_of_nine_digits (value : Single) (nonzero : value.isZero = false) :
    2 * 10 ^ 8 * |((roundSignificant 9 value.numerator value.denominator).coefficient : ℚ) *
        10 ^ ((roundSignificant 9 value.numerator value.denominator).exponent - 8) -
      value.magnitude| ≤ value.magnitude := by
  have positive := value.numerator_pos nonzero
  obtain ⟨-, -, error⟩ :=
    roundSignificant_spec 9 value.numerator value.denominator (by decide) positive
      value.denominator_pos
  obtain ⟨least, -⟩ := leadingExponent_bounds value.numerator value.denominator positive
    value.denominator_pos
  rw [Single.numerator_div_denominator] at error least
  have eight : ((9 : Nat) : Int) - 1 = 8 := rfl
  have unit : (10 : ℚ) ^ (leadingExponent value.numerator value.denominator - 8) =
      10 ^ leadingExponent value.numerator value.denominator / 10 ^ 8 := by
    rw [zpow_sub₀ (by norm_num)]
    norm_num
  rw [eight, unit] at error
  linarith

/-- The text of a finite single is a numeral that is rounded to it. -/
theorem read?_single (value : Single) (finite : value.Finite) :
    ∃ numeral, Numeral.read? (single value) = some numeral ∧ numeral.IsNearest value := by
  have number := finite.isNaN_eq_false
  rw [single, number, finite.isInfinite_eq_false]
  simp only [Bool.false_eq_true, if_false]
  cases zero : value.isZero with
  | true =>
      have none : value.magnitude = 0 := by
        rw [Single.magnitude, (value.significand_eq_zero_iff).mpr zero]
        simp
      obtain ⟨numeral, read, sign, magnitude⟩ := (reads_natural 0).signed value.isNegative
      refine ⟨numeral, ?_, Numeral.isNearest_of_error number sign.symm ?_⟩
      · rw [if_pos rfl, ← natural_zero]
        exact read
      · rw [magnitude, none]
        norm_num
  | false =>
      have reads := reads_magnitude .single value.numerator value.denominator (by decide)
        (value.numerator_pos zero) value.denominator_pos
      obtain ⟨numeral, read, sign, magnitude⟩ := reads.signed value.isNegative
      refine ⟨numeral, ?_, Numeral.isNearest_of_error number sign.symm ?_⟩
      · rw [if_neg Bool.false_ne_true]
        exact read
      · rw [magnitude]
        exact error_of_nine_digits value zero

/-- Different finite singles have different texts. -/
theorem single_injective {first second : Single} (firstFinite : first.Finite)
    (secondFinite : second.Finite) (text : single first = single second) : first = second := by
  obtain ⟨numeral, read, nearest⟩ := read?_single first firstFinite
  obtain ⟨other, otherRead, otherNearest⟩ := read?_single second secondFinite
  rw [text, otherRead, Option.some.injEq] at read
  rw [← read] at nearest
  exact nearest.unique otherNearest

end RibStream.Decimal
