/-
This file defines the tokens of a stream and the tokens of each kind of argument.
-/

import RibStream.Basis
import RibStream.Bound
import RibStream.Param
import RibStream.Triple

namespace RibStream

/-- A token is a single value or an array of values of one kind. -/
inductive Token where
  | int (value : Int32)
  | float (value : Single)
  | string (value : String)
  | ints (values : List Int32)
  | floats (values : List Single)
  | strings (values : List String)
deriving DecidableEq

namespace Token

/-- A truth value is written as one or zero. -/
def bool (value : Bool) : Token :=
  .int (if value then 1 else 0)

/-- The handle of a light or of an object. -/
def handle (value : Nat) : Token :=
  .int (Int32.ofNat value)

/-- A color or a point is written as three separate floats. -/
def triple (value : Triple) : List Token :=
  value.entries.map .float

def bound (value : Bound) : Token :=
  .floats value.entries

def matrix (value : Matrix) : Token :=
  .floats value.entries

/-- A basis is written by its standard name if it has one. -/
def basis (value : Matrix) : Token :=
  match Basis.recognize? value with
  | some basis => .string basis.name
  | none => matrix value

def values : Values → Token
  | .floats values => .floats values
  | .integers values => .ints values
  | .strings values => .strings values

/-- A parameter is written as its qualified name followed by its values. -/
def param (value : Param) : List Token :=
  [.string value.qualifiedName, values value.values]

end Token

end RibStream
