/-
This file reads type specifications, alone or followed by the name they declare.
-/

import RibStream.Declaration.TypeSpec
import RibStream.Decimal.Digits
import RibStream.Text.Blank

namespace RibStream

/-- An unsigned number below `2 ^ 32` in decimal notation. A plus sign may stand in front. -/
def readSize? (text : List Char) : Option UInt32 :=
  let numeral := match text with
    | '+' :: rest => rest
    | _ => text
  if numeral.isEmpty || !numeral.all Char.isDigit then none
  else
    let size := Decimal.value (numeral.map fun digit => digit.toNat - '0'.toNat)
    if size < UInt32.size then some (UInt32.ofNat size) else none

/-- An element type with an optional array size in brackets, written without blanks. -/
def readElement? (text : List Char) : Option (ElementType × UInt32) :=
  let word := ElementType.ofKeyword? (String.ofList (text.takeWhile (· != '[')))
  match text.dropWhile (· != '[') with
  | [] => word.map (·, 1)
  | _ :: inside =>
      if inside.getLast? = some ']' then do
        let size ← readSize? inside.dropLast
        let element ← word
        return (element, size)
      else none

namespace TypeSpec

/-- The class at the start of a text without leading blanks, and what follows it. A text that does not
start with a class is about a uniform variable. -/
def readClass (text : List Char) : VariableClass × List Char :=
  match VariableClass.ofKeyword? (String.ofList (Text.firstWord text).1) with
  | some variableClass => (variableClass, (Text.firstWord text).2)
  | none => (.uniform, text)

/-- A type specification is a class followed by an element type. Blanks after the class do not count,
so the words after it are read as one. -/
def ofChars? (text : List Char) : Option TypeSpec :=
  let (variableClass, rest) := readClass (Text.trimLeft text)
  (readElement? (rest.filter (!Text.isBlank ·))).map fun (element, size) =>
    ⟨variableClass, element, size⟩

def ofString? (text : String) : Option TypeSpec :=
  ofChars? text.toList

end TypeSpec

/-- A name with its type. -/
structure Declaration where
  spec : TypeSpec
  name : String
deriving DecidableEq

/-- An inline declaration is a type specification followed by the name as the last word. A single
word is no inline declaration. -/
def Declaration.ofString? (token : String) : Option Declaration :=
  let (spec, name) := Text.lastWord (Text.trim token.toList)
  if spec.isEmpty then none
  else (TypeSpec.ofChars? spec).map (⟨·, String.ofList name⟩)

end RibStream
