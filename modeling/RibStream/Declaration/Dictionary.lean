/-
This file keeps the declared types of variables.
-/

import RibStream.Declaration.Reading
import RibStream.Error

namespace RibStream

/-- The declarations in force, the latest first. An entry hides the earlier ones of its name. -/
structure Dictionary where
  entries : List (String × TypeSpec)
deriving DecidableEq

namespace Dictionary

def standardEntries : List (String × TypeSpec) :=
  [("P", ⟨.vertex, .point, 1⟩),
    ("Pz", ⟨.vertex, .float, 1⟩),
    ("Pw", ⟨.vertex, .hpoint, 1⟩),
    ("N", ⟨.varying, .normal, 1⟩),
    ("Np", ⟨.uniform, .normal, 1⟩),
    ("Cs", ⟨.varying, .color, 1⟩),
    ("Os", ⟨.varying, .color, 1⟩),
    ("s", ⟨.varying, .float, 1⟩),
    ("t", ⟨.varying, .float, 1⟩),
    ("st", ⟨.varying, .float, 2⟩),
    ("width", ⟨.varying, .float, 1⟩),
    ("constantwidth", ⟨.constant, .float, 1⟩),
    ("Ka", .uniform .float),
    ("Kd", .uniform .float),
    ("Ks", .uniform .float),
    ("Kr", .uniform .float),
    ("roughness", .uniform .float),
    ("specularcolor", .uniform .color),
    ("texturename", .uniform .string),
    ("intensity", .uniform .float),
    ("lightcolor", .uniform .color),
    ("from", .uniform .point),
    ("to", .uniform .point),
    ("coneangle", .uniform .float),
    ("conedeltaangle", .uniform .float),
    ("beamdistribution", .uniform .float),
    ("fov", .uniform .float),
    ("name", .uniform .string),
    ("archive", .uniform .string),
    ("shader", .uniform .string),
    ("texture", .uniform .string),
    ("display", .uniform .string),
    ("procedural", .uniform .string),
    ("resource", .uniform .string)]

/-- The variables that every reader of a stream knows. -/
def standard : Dictionary := ⟨standardEntries⟩

def lookup (dictionary : Dictionary) (name : String) : Option TypeSpec :=
  dictionary.entries.lookup name

def insert (dictionary : Dictionary) (name : String) (spec : TypeSpec) : Dictionary :=
  ⟨(name, spec) :: dictionary.entries⟩

/-- The declared type, and the dictionary with it. A declaration that does not follow the grammar is
refused. -/
def declare (dictionary : Dictionary) (name declaration : String) :
    Except Error (TypeSpec × Dictionary) :=
  match TypeSpec.ofString? declaration with
  | some spec => .ok (spec, dictionary.insert name spec)
  | none => .error (.unreadableDeclaration declaration name)

/-- The type and the bare name that a token stands for. A token without a type of its own takes the
declared one. -/
def resolve (dictionary : Dictionary) (token : String) : Except Error Declaration :=
  match Declaration.ofString? token with
  | some declaration => .ok declaration
  | none =>
      let name := String.ofList (Text.trim token.toList)
      match dictionary.lookup name with
      | some spec => .ok ⟨spec, name⟩
      | none => .error (.undeclaredToken name)

theorem lookup_insert (dictionary : Dictionary) (name other : String) (spec : TypeSpec) :
    (dictionary.insert name spec).lookup other =
      if other = name then some spec else dictionary.lookup other := by
  by_cases same : other = name
  · simp [insert, lookup, same]
  · simp [insert, lookup, List.lookup_cons, same, beq_eq_false_iff_ne.mpr same]

end Dictionary

end RibStream
