/-
This file defines IEEE single-precision numbers by their bit patterns.
The payload of a NaN and the sign of a zero are kept, because binary streams carry them.
-/

namespace RibStream

structure Single where
  bits : UInt32
deriving DecidableEq

namespace Single

-- Powers use the core instance, even where another library brings its own.
attribute [local instance (high)] instPowNat

def isNegative (value : Single) : Bool :=
  decide (2 ^ (31 : Nat) ≤ value.bits.toNat)

def exponentField (value : Single) : Nat :=
  value.bits.toNat / 2 ^ (23 : Nat) % 2 ^ (8 : Nat)

def fractionField (value : Single) : Nat :=
  value.bits.toNat % 2 ^ (23 : Nat)

def isNaN (value : Single) : Bool :=
  value.exponentField == 255 && value.fractionField != 0

def isInfinite (value : Single) : Bool :=
  value.exponentField == 255 && value.fractionField == 0

def isZero (value : Single) : Bool :=
  value.exponentField == 0 && value.fractionField == 0

/-- A finite number has magnitude `significand * 2 ^ power`. -/
def significand (value : Single) : Nat :=
  if value.exponentField = 0 then value.fractionField else 2 ^ (23 : Nat) + value.fractionField

/-- Subnormal numbers share the power of the smallest normal ones. -/
def power (value : Single) : Int :=
  (max value.exponentField 1 : Nat) - 150

/-- The magnitude of a finite number is `numerator / denominator`. -/
def numerator (value : Single) : Nat :=
  value.significand * 2 ^ value.power.toNat

def denominator (value : Single) : Nat :=
  2 ^ (-value.power).toNat

/-- Numeric equality: the two zeros are equal and a NaN equals nothing. -/
def equal (left right : Single) : Bool :=
  !left.isNaN && !right.isNaN && (left == right || left.isZero && right.isZero)

theorem denominator_pos (value : Single) : 0 < value.denominator :=
  Nat.pow_pos (by decide)

end Single

end RibStream
