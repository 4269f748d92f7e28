/-
This file puts the two encodings behind one set of operations.
-/

import RibStream.Encoding.Ascii
import RibStream.Encoding.Binary

namespace RibStream

/-- An encoding with what it remembers between requests: the depth of nesting or the request codes. -/
inductive Encoding where
  | ascii (depth : Nat)
  | binary (codes : Binary.CodeTable)
deriving DecidableEq

namespace Encoding

def startAscii : Encoding := ascii 0

def startBinary : Encoding := binary .empty

/-- The encoding one level deeper. -/
def enter : Encoding → Encoding
  | ascii depth => ascii (depth + 1)
  | binary codes => binary codes

/-- The encoding one level up. Outside of every block it stays where it is, which only a build with
debug assertions would object to. The model is that of a release build. -/
def leave : Encoding → Encoding
  | ascii depth => ascii (depth - 1)
  | binary codes => binary codes

/-- Whether there is no level to leave. Binary streams have no levels and never miss one. -/
def isOutermost : Encoding → Bool
  | ascii depth => depth == 0
  | binary _ => false

/-- The current indentation in columns. -/
def indent : Encoding → Nat
  | ascii depth => Ascii.indentStep * depth
  | binary _ => 0

/-- What begins a request, and the encoding after it. -/
def beginRequest (encoding : Encoding) (name : String) : Encoded × Encoding :=
  match encoding with
  | ascii depth => (.whole (Ascii.indentation depth ++ Text.bytes name), ascii depth)
  | binary codes =>
      let (opening, codes) := Binary.beginRequest codes name
      (opening, binary codes)

/-- The bytes that end a request. -/
def endRequest : Encoding → List UInt8
  | ascii _ => [Ascii.newline]
  | binary _ => []

/-- The bytes between two tokens. -/
def separator : Encoding → List UInt8
  | ascii _ => [Ascii.space]
  | binary _ => []

def token : Encoding → Token → Encoded
  | ascii _ => fun token => .whole (Ascii.token token)
  | binary _ => Binary.token

/-- Tokens with a separator before each of them. -/
def arguments (encoding : Encoding) (tokens : List Token) : Encoded :=
  .concat (tokens.map fun token => .whole encoding.separator ++ encoding.token token)

/-- Tokens with a separator between two of them. -/
def tokens (encoding : Encoding) : List Token → Encoded
  | [] => .whole []
  | token :: rest => encoding.token token ++ encoding.arguments rest

/-- A whole request, and the encoding after it. -/
def request (encoding : Encoding) (name : String) (tokens : List Token) : Encoded × Encoding :=
  let (opening, next) := encoding.beginRequest name
  (opening ++ next.arguments tokens ++ .whole next.endRequest, next)

/-- Comments and other text outside of requests. Binary streams have none. -/
def record (encoding : Encoding) (kind text : String) : List UInt8 :=
  match encoding with
  | ascii depth => Ascii.record depth kind text
  | binary _ => []

/-- The code of a request name, for encodings that use codes. -/
def requestCode? (encoding : Encoding) (name : String) : Option UInt8 :=
  match encoding with
  | ascii _ => none
  | binary codes => codes.code? name

end Encoding

end RibStream
