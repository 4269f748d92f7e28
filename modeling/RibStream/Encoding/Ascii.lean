/-
This file writes requests as text, one request per line.
-/

import RibStream.Decimal.General
import RibStream.Text.Bytes
import RibStream.Text.Quoted
import RibStream.Token

namespace RibStream.Ascii

def space : UInt8 := 0x20

def newline : UInt8 := 0x0A

def hash : UInt8 := 0x23

/-- The number of columns for each level of nesting. -/
def indentStep : Nat := 4

def indentation (depth : Nat) : List UInt8 :=
  List.replicate (indentStep * depth) space

def characters (text : List Char) : List UInt8 :=
  Text.bytes (String.ofList text)

def int (value : Int32) : List UInt8 :=
  characters (Decimal.integer value.toInt)

def float (value : Single) : List UInt8 :=
  characters (Decimal.single value)

def string (value : String) : List UInt8 :=
  Text.quoted (Text.bytes value)

/-- Items between brackets, with one space between two items. -/
def array (items : List (List UInt8)) : List UInt8 :=
  0x5B :: ([space].intercalate items ++ [0x5D])

def token : Token → List UInt8
  | .int value => int value
  | .float value => float value
  | .string value => string value
  | .ints values => array (values.map int)
  | .floats values => array (values.map float)
  | .strings values => array (values.map string)

/-- A comment takes a line of its own. Records of any other kind are written verbatim. -/
def record (depth : Nat) (kind text : String) : List UInt8 :=
  if kind = "comment" then indentation depth ++ hash :: (Text.bytes text ++ [newline])
  else Text.bytes text

end RibStream.Ascii
