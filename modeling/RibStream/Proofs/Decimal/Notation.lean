/-
This file describes the text of a single as nine significant digits in general notation.
The number that is written is the single rounded to so many digits. Its exponent after rounding
decides between plain notation and one with an exponent.
-/

import RibStream.Proofs.Decimal.ReadBack
import RibStream.Proofs.Decimal.Significant

namespace RibStream

namespace Decimal

/-- What may follow the digit for ones: nothing, or a point and digits, the last of which is not
zero. -/
def IsFraction (text : List Char) : Prop :=
  text = [] ∨ ∃ after, text = '.' :: after ∧ after ≠ [] ∧
    (∀ digit ∈ after, digit.isDigit = true) ∧ after.getLast? ≠ some '0'

/-- The whole part of the number with all of its digits, and a fraction. -/
def IsPlain (number : ℚ) (text : List Char) : Prop :=
  ∃ after, IsFraction after ∧ text = natural ⌊number⌋₊ ++ after

/-- One digit other than zero, a fraction, and the exponent with its sign and at least `width` digits. -/
def IsExponential (width : Nat) (exponent : Int) (text : List Char) : Prop :=
  ∃ leading after mark, leading.isDigit = true ∧ leading ≠ '0' ∧ IsFraction after ∧
    (∀ digit ∈ mark, digit.isDigit = true) ∧ width ≤ mark.length ∧
    value (mark.map Numeral.digitOf) = exponent.natAbs ∧
    text = leading :: (after ++ 'e' :: (if exponent < 0 then '-' else '+') :: mark)

theorem isDigit_of_mem_map {digits : List Nat} (valid : AllDigits digits) :
    ∀ character ∈ digits.map digitChar, character.isDigit = true := by
  intro character member
  obtain ⟨digit, inside, rfl⟩ := List.mem_map.mp member
  exact isDigit_digitChar digit (valid digit inside)

theorem digitChar_ne_zero {digit : Nat} (small : digit < 10) (nonzero : digit ≠ 0) :
    digitChar digit ≠ '0' := by
  intro same
  have denoted := digitOf_digitChar digit small
  rw [same] at denoted
  exact nonzero denoted.symm

theorem getLast?_dropTrailingZeros (digits : List Nat) :
    (dropTrailingZeros digits).getLast? ≠ some 0 := by
  intro zero
  rw [dropTrailingZeros, List.getLast?_reverse] at zero
  have stops := List.head?_dropWhile_not (· == 0) digits.reverse
  rw [zero] at stops
  cases stops

theorem isFraction_fraction {after : List Nat} (valid : AllDigits after) :
    IsFraction (fraction after) := by
  have keptValid := allDigits_dropTrailingZeros valid
  have last := getLast?_dropTrailingZeros after
  rw [fraction]
  generalize dropTrailingZeros after = kept at keptValid last ⊢
  cases kept with
  | nil => exact .inl rfl
  | cons digit digits =>
      right
      refine ⟨_, rfl, List.cons_ne_nil _ _, isDigit_of_mem_map keptValid, ?_⟩
      rw [List.getLast?_map]
      intro zero
      obtain ⟨final, ends, same⟩ := Option.map_eq_some_iff.mp zero
      have small := keptValid final (List.mem_of_getLast? ends)
      have nonzero : final ≠ 0 := by
        rintro rfl
        exact last ends
      exact digitChar_ne_zero small nonzero same

/-- The digits in front are those of the number without its last digits. -/
theorem take_digits {number count : Nat} (inside : count < (digits number).length) :
    (digits number).take ((digits number).length - count) = digits (number / 10 ^ count) := by
  induction count generalizing number with
  | zero => simp
  | succ count inductionHypothesis =>
      have large : ¬ number < 10 := by
        intro small
        rw [digits, if_pos small] at inside
        simp at inside
      have split : digits number = digits (number / 10) ++ [number % 10] := by
        rw [digits, if_neg large]
      rw [split, List.length_append, List.length_singleton] at inside ⊢
      rw [Nat.add_sub_add_right, List.take_append_of_le_length (Nat.sub_le _ _),
        inductionHypothesis (by omega), Nat.div_div_eq_div_mul, ← Nat.pow_succ']

/-- A number below the given power of ten, scaled so that its first digit stands at the exponent. -/
theorem scientific_lt (coefficient : Nat) (exponent : Int) :
    (coefficient : ℚ) * 10 ^ (exponent - ((digits coefficient).length - 1)) < 10 ^ (exponent + 1) := by
  have small : (coefficient : ℚ) < 10 ^ (digits coefficient).length := by
    exact_mod_cast lt_pow_length_digits coefficient
  calc _ < (10 : ℚ) ^ (digits coefficient).length *
        10 ^ (exponent - ((digits coefficient).length - 1)) :=
        mul_lt_mul_of_pos_right small (ten_zpow_pos _)
    _ = 10 ^ (exponent + 1) := by
        rw [← zpow_natCast, ← zpow_add₀ (by norm_num)]
        congr 1
        ring

theorem le_scientific {coefficient : Nat} (positive : 0 < coefficient) (exponent : Int) :
    10 ^ exponent ≤ (coefficient : ℚ) * 10 ^ (exponent - ((digits coefficient).length - 1)) := by
  have nonempty := List.length_pos_iff.mpr (digits_ne_nil coefficient)
  have least : (10 : ℚ) ^ ((digits coefficient).length - 1) ≤ coefficient := by
    exact_mod_cast pow_le_of_length_digits coefficient positive
  calc (10 : ℚ) ^ exponent = 10 ^ ((digits coefficient).length - 1) *
        10 ^ (exponent - ((digits coefficient).length - 1)) := by
        rw [← zpow_natCast, ← zpow_add₀ (by norm_num), Nat.cast_pred nonempty]
        congr 1
        ring
    _ ≤ _ := mul_le_mul_of_nonneg_right least (ten_zpow_pos _).le

/-- Plain notation shows all digits of the whole part. -/
theorem isPlain_positional {coefficient : Nat} {exponent : Int}
    (inside : exponent < (digits coefficient).length) :
    IsPlain (coefficient * 10 ^ (exponent - ((digits coefficient).length - 1)))
      (positional (digits coefficient) exponent) := by
  have valid : AllDigits (digits coefficient) := digit_lt_ten _
  rw [positional]
  by_cases below : exponent < 0
  · rw [if_pos below]
    generalize (-exponent - 1).toNat = zeros
    refine ⟨fraction (List.replicate zeros 0 ++ digits coefficient),
      isFraction_fraction (allDigits_append (allDigits_replicate_zero zeros) valid), ?_⟩
    have lessThanOne : (coefficient : ℚ) * 10 ^ (exponent - ((digits coefficient).length - 1)) < 1 :=
      (scientific_lt coefficient exponent).trans_le
        (zpow_le_one_of_nonpos₀ (by norm_num) (by omega))
    rw [Nat.floor_eq_zero.mpr lessThanOne, natural_zero]
    rfl
  · rw [if_neg below]
    dsimp only
    generalize wholeEq : exponent.toNat + 1 = whole
    refine ⟨fraction ((digits coefficient).drop whole),
      isFraction_fraction fun digit member => valid digit (List.mem_of_mem_drop member), ?_⟩
    have front := @take_digits coefficient ((digits coefficient).length - whole) (by omega)
    have kept : (digits coefficient).length - ((digits coefficient).length - whole) = whole := by omega
    have divided : (coefficient : ℚ) * 10 ^ (exponent - ((digits coefficient).length - 1)) =
        (coefficient : ℚ) / (10 ^ ((digits coefficient).length - whole) : Nat) := by
      have scale : exponent - ((digits coefficient).length - 1) =
          -(((digits coefficient).length - whole : Nat) : Int) := by omega
      rw [scale, zpow_neg, zpow_natCast, div_eq_mul_inv]
      push_cast
      rfl
    rw [divided, Nat.floor_div_eq_div, natural, ← front, kept]

/-- The digit in front of the point is the first one of the number, so it is not zero. -/
theorem isExponential_withExponent (width : Nat) {coefficient : Nat} (positive : 0 < coefficient)
    (exponent : Int) :
    IsExponential width exponent (withExponent width (digits coefficient) exponent) := by
  have valid : AllDigits (digits coefficient) := digit_lt_ten _
  have nonempty := List.length_pos_iff.mpr (digits_ne_nil coefficient)
  have least := pow_le_of_length_digits coefficient positive
  have greatest := lt_pow_length_digits coefficient
  have front := @take_digits coefficient ((digits coefficient).length - 1) (by omega)
  obtain ⟨mark, written, markValid, denotes, -, long⟩ := exponentMark_spec width exponent
  generalize (digits coefficient).length = length at nonempty least greatest front
  obtain ⟨digitsBelow, rfl⟩ := Nat.exists_eq_succ_of_ne_zero nonempty.ne'
  have first : 0 < coefficient / 10 ^ digitsBelow :=
    Nat.div_pos least (Nat.pow_pos (by decide))
  have small : coefficient / 10 ^ digitsBelow < 10 := by
    rw [Nat.div_lt_iff_lt_mul (Nat.pow_pos (by decide)), ← Nat.pow_succ']
    exact greatest
  have leading : (digits coefficient).take 1 = [coefficient / 10 ^ digitsBelow] := by
    have single : digitsBelow.succ - (digitsBelow.succ - 1) = 1 := by omega
    rw [single, Nat.succ_sub_one] at front
    rw [front, digits, if_pos small]
  refine ⟨digitChar (coefficient / 10 ^ digitsBelow), fraction ((digits coefficient).drop 1),
    mark.map digitChar, isDigit_digitChar _ small, digitChar_ne_zero small first.ne',
    isFraction_fraction fun digit member => valid digit (List.mem_of_mem_drop member),
    isDigit_of_mem_map markValid, ?_, ?_, ?_⟩
  · rwa [List.length_map]
  · rw [map_digitOf mark markValid, denotes]
  · rw [withExponent, leading, written, List.append_assoc]
    rfl

/-- General notation writes the rounded number in the form that belongs to its exponent. -/
theorem GeneralNotation.magnitude_spec (style : GeneralNotation) {numerator denominator : Nat}
    (digit : 0 < style.significantDigits) (positive : 0 < numerator) (divides : 0 < denominator) :
    ∃ number : ℚ, 0 < number ∧
      IsSignificant style.significantDigits ((numerator : ℚ) / denominator) number ∧
      Reads (style.magnitude numerator denominator) number ∧
      if style.leastPositional ≤ Int.log 10 number ∧ Int.log 10 number < style.significantDigits then
        IsPlain number (style.magnitude numerator denominator)
      else IsExponential style.exponentDigits (Int.log 10 number)
        (style.magnitude numerator denominator) := by
  have significant := isSignificant_roundSignificant style.significantDigits numerator denominator
    digit positive divides
  have reads := reads_magnitude style numerator denominator digit positive divides
  obtain ⟨least, greatest, -⟩ :=
    roundSignificant_spec style.significantDigits numerator denominator digit positive divides
  rw [style.magnitude_eq numerator denominator digit positive divides] at reads ⊢
  generalize roundSignificant style.significantDigits numerator denominator = rounded
    at significant reads least greatest ⊢
  dsimp only at reads ⊢
  obtain ⟨digitsBelow, count⟩ := Nat.exists_eq_succ_of_ne_zero digit.ne'
  rw [count] at least greatest
  have coefficientPositive : 0 < rounded.coefficient :=
    Nat.lt_of_lt_of_le (Nat.pow_pos (by decide)) least
  have length : (digits rounded.coefficient).length = style.significantDigits := by
    rw [count]
    exact length_digits_eq rounded.coefficient digitsBelow least greatest
  have above := le_scientific coefficientPositive rounded.exponent
  have log := log_eq_of_bounds above (scientific_lt rounded.coefficient rounded.exponent)
  have plain := @isPlain_positional rounded.coefficient rounded.exponent
  rw [length] at above log plain
  refine ⟨_, (ten_zpow_pos _).trans_le above, significant, reads, ?_⟩
  rw [log]
  by_cases moderate : style.leastPositional ≤ rounded.exponent ∧
      rounded.exponent < style.significantDigits
  · rw [if_pos moderate, if_pos moderate]
    exact plain moderate.2
  · rw [if_neg moderate, if_neg moderate]
    exact isExponential_withExponent style.exponentDigits coefficientPositive rounded.exponent

end Decimal

namespace Single

variable {value : Single}

theorem magnitude_pos (nonzero : value.isZero = false) : 0 < value.magnitude := by
  rw [← numerator_div_denominator]
  have positive := value.numerator_pos nonzero
  have divides := value.denominator_pos
  positivity

theorem number_neg_iff (nonzero : value.isZero = false) :
    value.number < 0 ↔ value.isNegative = true := by
  have positive := magnitude_pos nonzero
  rw [number]
  split
  · rename_i negative
    simp [negative, positive]
  · rename_i notNegative
    simp [notNegative, positive.le]

end Single

namespace Decimal

/-- A finite single other than zero is printed as the number with nine significant digits that is
nearest to it. Unless its exponent is between -4 and 8, the number has the form with an exponent. Only
a negative single has a minus sign. -/
theorem single_generalNotation (value : Single) (finite : value.Finite)
    (nonzero : value.isZero = false) :
    ∃ rounded : ℚ,
      (∀ other, IsSignificant 9 value.number other ↔ other = rounded) ∧
      (∃ numeral, Numeral.read? (single value) = some numeral ∧ numeral.number = rounded) ∧
      ∃ unsigned, single value = (if value.number < 0 then '-' :: unsigned else unsigned) ∧
        if -4 ≤ Int.log 10 |rounded| ∧ Int.log 10 |rounded| < 9 then IsPlain |rounded| unsigned
        else IsExponential 2 (Int.log 10 |rounded|) unsigned := by
  obtain ⟨number, positive, significant, reads, form⟩ := GeneralNotation.single.magnitude_spec
    (by decide) (value.numerator_pos nonzero) value.denominator_pos
  obtain ⟨numeral, read, sign, magnitude⟩ := reads.signed value.isNegative
  rw [value.numerator_div_denominator] at significant
  have text : single value = if value.isNegative = true then
      '-' :: GeneralNotation.single.magnitude value.numerator value.denominator
      else GeneralNotation.single.magnitude value.numerator value.denominator := by
    simp [single, finite.isNaN_eq_false, finite.isInfinite_eq_false, nonzero]
  have size : |if value.isNegative = true then -number else number| = number := by
    split
    · rw [abs_neg, abs_of_pos positive]
    · exact abs_of_pos positive
  have rounds : IsSignificant 9 value.number
      (if value.isNegative = true then -number else number) := by
    rw [Single.number]
    split
    · exact significant.neg
    · exact significant
  refine ⟨if value.isNegative = true then -number else number, ?_, ⟨numeral, ?_, ?_⟩,
    GeneralNotation.single.magnitude value.numerator value.denominator, ?_, ?_⟩
  · intro other
    constructor
    · exact rounds.unique
    · rintro rfl
      exact rounds
  · rw [text]
    exact read
  · rw [Numeral.number, sign, magnitude]
  · rw [text]
    simp only [Single.number_neg_iff nonzero]
  · rw [size]
    exact form

/-- A tie goes to the even last digit, and a single just below a power of ten is written as that
power. -/
theorem single_generalNotation_tie :
    (single ⟨0xC9FFFFFF⟩ = "-2097151.88".toList ∧ IsSignificant 9 (-2097151.875) (-2097151.88)) ∧
      single ⟨0x19416D9A⟩ = "1e-23".toList ∧
      IsSignificant 9 (Single.number ⟨0x19416D9A⟩) (10 ^ (-23 : Int)) := by
  have tied : single ⟨0xC9FFFFFF⟩ = "-2097151.88".toList := by decide +kernel
  have carried : single ⟨0x19416D9A⟩ = "1e-23".toList := by decide +kernel
  refine ⟨⟨tied, ?_⟩, carried, ?_⟩
  · obtain ⟨rounded, significant, ⟨numeral, read, number⟩, -⟩ :=
      single_generalNotation ⟨0xC9FFFFFF⟩ (by decide) (by decide)
    have denoted : Numeral.read? "-2097151.88".toList = some ⟨true, 209715188, -2⟩ := by decide +kernel
    rw [tied, denoted, Option.some.injEq] at read
    have exact : Single.number ⟨0xC9FFFFFF⟩ = -2097151.875 := by
      have fields : Single.isNegative ⟨0xC9FFFFFF⟩ = true ∧ Single.significand ⟨0xC9FFFFFF⟩ = 16777215 ∧
          Single.power ⟨0xC9FFFFFF⟩ = -3 := by decide
      rw [Single.number, fields.1, if_pos rfl, Single.magnitude, fields.2.1, fields.2.2]
      norm_num
    rw [exact] at significant
    apply (significant _).mpr
    rw [← number, ← read]
    norm_num [Numeral.number, Numeral.magnitude]
  · obtain ⟨rounded, significant, ⟨numeral, read, number⟩, -⟩ :=
      single_generalNotation ⟨0x19416D9A⟩ (by decide) (by decide)
    have denoted : Numeral.read? "1e-23".toList = some ⟨false, 1, -23⟩ := by decide +kernel
    rw [carried, denoted, Option.some.injEq] at read
    apply (significant _).mpr
    rw [← number, ← read]
    norm_num [Numeral.number, Numeral.magnitude]

end Decimal

end RibStream
