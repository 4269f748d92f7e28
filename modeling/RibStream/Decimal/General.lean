/-
This file writes a rounded number in general notation.
Numbers of moderate size are written with a plain decimal point, others with an exponent.
-/

import RibStream.Decimal.Rounding
import RibStream.Single

namespace RibStream.Decimal

-- Powers use the core instance, even where another library brings its own.
attribute [local instance (high)] instPowNat

/-- The parameters of general notation. A number is written without exponent when its leading
exponent is at least `leastPositional` and below `significantDigits`. -/
structure GeneralNotation where
  significantDigits : Nat
  leastPositional : Int
  exponentDigits : Nat

/-- Nine significant digits tell any two singles apart. -/
def GeneralNotation.single : GeneralNotation := ⟨9, -4, 2⟩

def dropTrailingZeros (digits : List Nat) : List Nat :=
  (digits.reverse.dropWhile (· == 0)).reverse

/-- The digits after the point, with the point. Nothing is written when all of them are zero. -/
def fraction (digits : List Nat) : List Char :=
  match dropTrailingZeros digits with
  | [] => []
  | kept => '.' :: kept.map digitChar

/-- A positive ratio rounded to a number of places after the point. At least one digit stands before
the point. -/
def fixedPoint (places numerator denominator : Nat) : List Char :=
  let written := digits (divideToEven (numerator * 10 ^ places) denominator)
  let padded := List.replicate (places + 1 - written.length) 0 ++ written
  let whole := padded.length - places
  (padded.take whole).map digitChar ++ fraction (padded.drop whole)

/-- The exponent after the mark `e`: always with a sign, and filled with zeros from the left. -/
def exponentMark (width : Nat) (exponent : Int) : List Char :=
  let written := digits exponent.natAbs
  let padded := List.replicate (width - written.length) 0 ++ written
  'e' :: (if exponent < 0 then '-' else '+') :: padded.map digitChar

/-- The digits with the point after the first one, followed by the exponent. -/
def withExponent (width : Nat) (digits : List Nat) (exponent : Int) : List Char :=
  (digits.take 1).map digitChar ++ fraction (digits.drop 1) ++ exponentMark width exponent

/-- A positive ratio in general notation. The exponent after rounding to significant digits decides
the form. Without an exponent the ratio is rounded once more, to the places that are left for its
fraction. -/
def GeneralNotation.magnitude (style : GeneralNotation) (numerator denominator : Nat) :
    List Char :=
  let rounded := roundSignificant style.significantDigits numerator denominator
  if style.leastPositional ≤ rounded.exponent ∧
      rounded.exponent < style.significantDigits then
    fixedPoint (style.significantDigits - 1 - rounded.exponent).toNat numerator denominator
  else
    withExponent style.exponentDigits (digits rounded.coefficient) rounded.exponent

/-- The text of a single. Only a NaN is written without its sign. -/
def single (value : Single) : List Char :=
  if value.isNaN then ['n', 'a', 'n']
  else
    let magnitude :=
      if value.isInfinite then ['i', 'n', 'f']
      else if value.isZero then ['0']
      else GeneralNotation.single.magnitude value.numerator value.denominator
    if value.isNegative then '-' :: magnitude else magnitude

end RibStream.Decimal
