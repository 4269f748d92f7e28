/-
This file lists the ways a request can fail and the wording of each failure.
-/

namespace RibStream

inductive Error where
  | badHandle (handle : Nat)
  | badToken (name : String)
  | badDeclaration (text : String)
  | badArgument (request reason : String)
  | fileNotFound (path : String)
  | requestCodeOverflow (name : String)
  | io (text : String)
  | other (text : String)
deriving DecidableEq

namespace Error

def message : Error → String
  | badHandle handle => "Bad handle: could not find handle " ++ toString handle
  | badToken name => "Bad token: could not find name \"" ++ name ++ "\""
  | badDeclaration text => "Bad declaration: " ++ text
  | badArgument request reason => "Bad argument to " ++ request ++ ": " ++ reason
  | fileNotFound path => "File not found: " ++ path
  | requestCodeOverflow name =>
      "Binary request code space exhausted while encoding \"" ++ name ++ "\""
  | io text => "I/O error: " ++ text
  | other text => text

/-- The declaration given for `name` does not follow the grammar. -/
def unreadableDeclaration (declaration name : String) : Error :=
  badDeclaration ("\"" ++ declaration ++ "\" for \"" ++ name ++ "\"")

/-- The token carries no type and its name was never declared. -/
def undeclaredToken (name : String) : Error :=
  badDeclaration ("undeclared token \"" ++ name ++ "\"")

/-- A byte was offered to a sink without room for it. -/
def sinkFull : Error := io "sink full"

def flushFailed : Error := io "flush failed"

/-- A string or an array of floats is too long for its length to be written. -/
def lengthExceeded (count : Nat) : Error :=
  other (toString count ++ " elements exceed the binary RIB length field")

def handlesExhausted : Error := other "handle space exhausted"

def parserMissing : Error := other "no RIB parser available for archive inlining"

/-- Archives are open inside one another beyond every supported depth. -/
def nestingExceeded : Error := other "archives nested too deeply"

/-- The stream holds a statement whose keyword names no request. -/
def unknownRequest (stream keyword : String) : Error :=
  other (stream ++ ": unknown request " ++ keyword)

end Error

end RibStream
