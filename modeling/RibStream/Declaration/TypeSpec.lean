/-
This file defines the types that a scene can give to its variables.
-/

namespace RibStream

/-- How a variable is interpolated over a primitive. -/
inductive VariableClass where
  | constant | uniform | varying | vertex | faceVarying | faceVertex
deriving DecidableEq

namespace VariableClass

def all : List VariableClass :=
  [constant, uniform, varying, vertex, faceVarying, faceVertex]

def keyword : VariableClass → String
  | constant => "constant"
  | uniform => "uniform"
  | varying => "varying"
  | vertex => "vertex"
  | faceVarying => "facevarying"
  | faceVertex => "facevertex"

def ofKeyword? (word : String) : Option VariableClass :=
  all.find? fun variableClass => variableClass.keyword == word

theorem ofKeyword?_keyword (variableClass : VariableClass) :
    ofKeyword? variableClass.keyword = some variableClass := by
  cases variableClass <;> decide

end VariableClass

/-- How values are stored. -/
inductive Storage where
  | float | integer | string
deriving DecidableEq

def Storage.keyword : Storage → String
  | float => "float"
  | integer => "integer"
  | string => "string"

inductive ElementType where
  | float | integer | string | point | vector | normal | hpoint | color | matrix
deriving DecidableEq

namespace ElementType

def all : List ElementType :=
  [float, integer, string, point, vector, normal, hpoint, color, matrix]

def keyword : ElementType → String
  | float => "float"
  | integer => "integer"
  | string => "string"
  | point => "point"
  | vector => "vector"
  | normal => "normal"
  | hpoint => "hpoint"
  | color => "color"
  | matrix => "matrix"

/-- The word `int` is a second spelling of `integer`. -/
def ofKeyword? (word : String) : Option ElementType :=
  if word = "int" then some integer
  else all.find? fun element => element.keyword == word

/-- Everything but integers and strings is made of floats. -/
def storage : ElementType → Storage
  | integer => .integer
  | string => .string
  | _ => .float

theorem ofKeyword?_keyword (element : ElementType) :
    ofKeyword? element.keyword = some element := by
  cases element <;> decide

end ElementType

structure TypeSpec where
  variableClass : VariableClass
  element : ElementType
  arraySize : UInt32
deriving DecidableEq

namespace TypeSpec

/-- One uniform value. -/
def uniform (element : ElementType) : TypeSpec := ⟨.uniform, element, 1⟩

def storage (spec : TypeSpec) : Storage := spec.element.storage

/-- The class and the type, followed by the array size unless it is one. -/
def text (spec : TypeSpec) : String :=
  spec.variableClass.keyword ++ " " ++ spec.element.keyword ++
    if spec.arraySize = 1 then "" else "[" ++ toString spec.arraySize.toNat ++ "]"

end TypeSpec

end RibStream
