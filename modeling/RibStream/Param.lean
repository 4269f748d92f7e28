/-
This file defines the parameters at the end of a request.
-/

import RibStream.Declaration.Dictionary
import RibStream.Single

namespace RibStream

/-- The values of a parameter. Their storage alone decides how they are written. -/
inductive Values where
  | floats (values : List Single)
  | integers (values : List Int32)
  | strings (values : List String)
deriving DecidableEq

namespace Values

def storage : Values → Storage
  | floats _ => .float
  | integers _ => .integer
  | strings _ => .string

def length : Values → Nat
  | floats values => values.length
  | integers values => values.length
  | strings values => values.length

end Values

structure Param where
  spec : TypeSpec
  name : String
  values : Values
deriving DecidableEq

namespace Param

def uniformFloats (name : String) (values : List Single) : Param :=
  ⟨.uniform .float, name, .floats values⟩

def uniformIntegers (name : String) (values : List Int32) : Param :=
  ⟨.uniform .integer, name, .integers values⟩

def uniformString (name value : String) : Param :=
  ⟨.uniform .string, name, .strings [value]⟩

/-- The name preceded by its type, so that no declaration is needed to read it. -/
def qualifiedName (param : Param) : String :=
  param.spec.text ++ " " ++ param.name

def firstString? (param : Param) : Option String :=
  match param.values with
  | .strings values => values.head?
  | _ => none

end Param

/-- A parameter as a request gives it: with its type, or by a token that stands for type and name. -/
inductive ParamSource where
  | typed (param : Param)
  | token (text : String) (values : Values)
deriving DecidableEq

namespace ParamSource

def resolve (dictionary : Dictionary) : ParamSource → Except Error Param
  | .typed param => .ok param
  | .token text values =>
      (dictionary.resolve text).map fun declaration => ⟨declaration.spec, declaration.name, values⟩

/-- The parameters are resolved from left to right, and the first failure ends the request. -/
def resolveAll (dictionary : Dictionary) (sources : List ParamSource) : Except Error (List Param) :=
  sources.mapM (resolve dictionary)

end ParamSource

end RibStream
