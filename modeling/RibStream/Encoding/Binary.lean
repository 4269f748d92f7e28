/-
This file writes requests as tagged binary tokens.
A request name is sent once, together with a code, and by its code afterwards.
-/

import RibStream.Encoded
import RibStream.Text.Bytes
import RibStream.Token

namespace RibStream.Binary

-- Powers use the core instance, even where another library brings its own.
attribute [local instance (high)] instPowNat

/-- The first byte of a token. The opcodes for integers, long strings and float arrays are the least
of four, which tell the number of length bytes or value bytes that follow. -/
inductive Opcode where
  | int | shortString | longString | float | useRequest | floatArray | defineRequest
  | arrayBegin | arrayEnd
deriving DecidableEq

def Opcode.byte : Opcode → UInt8
  | int => 0o200
  | shortString => 0o220
  | longString => 0o240
  | float => 0o244
  | useRequest => 0o246
  | floatArray => 0o310
  | defineRequest => 0o314
  | arrayBegin => 0x5B
  | arrayEnd => 0x5D

/-- The fewest bytes that hold a word, at least one. -/
def width (value : UInt32) : Nat :=
  if value.toNat < 0x100 then 1
  else if value.toNat < 0x10000 then 2
  else if value.toNat < 0x1000000 then 3
  else 4

/-- The last `width` bytes of a number, most significant first. -/
def bigEndian : (width value : Nat) → List UInt8
  | 0, _ => []
  | width + 1, value => UInt8.ofNat (value / 256 ^ width) :: bigEndian width value

/-- A word in the fewest bytes, after the opcode that tells their number. -/
def word (opcode : Opcode) (value : UInt32) : List UInt8 :=
  (opcode.byte + UInt8.ofNat (width value - 1)) :: bigEndian (width value) value.toNat

/-- A length must fit the four bytes of the widest length field. -/
def lengthLimit : Nat := 2 ^ (32 : Nat)

def length (opcode : Opcode) (count : Nat) : Encoded :=
  if count < lengthLimit then .whole (word opcode (UInt32.ofNat count))
  else .fail (.lengthExceeded count)

/-- The four bytes of the bit pattern. -/
def single (value : Single) : List UInt8 :=
  bigEndian 4 value.bits.toNat

def int (value : Int32) : List UInt8 :=
  word .int value.toUInt32

def float (value : Single) : List UInt8 :=
  Opcode.float.byte :: single value

/-- The length of the longest string whose length is part of its opcode. -/
def longestShortString : Nat := 15

/-- A string that is too long fails before its first byte. -/
def string (value : String) : Encoded :=
  let bytes := Text.bytes value
  if bytes.length ≤ longestShortString then
    .whole ((Opcode.shortString.byte + UInt8.ofNat bytes.length) :: bytes)
  else length .longString bytes.length ++ .whole bytes

/-- Items between an opening and a closing bracket. -/
def array (items : List Encoded) : Encoded :=
  .whole [Opcode.arrayBegin.byte] ++ (.concat items ++ .whole [Opcode.arrayEnd.byte])

/-- Floats in an array are not tagged one by one. -/
def floatArray (values : List Single) : Encoded :=
  length .floatArray values.length ++ .whole (values.flatMap single)

def token : Token → Encoded
  | .int value => .whole (int value)
  | .float value => .whole (float value)
  | .string value => string value
  | .ints values => array (values.map fun value => .whole (int value))
  | .floats values => floatArray values
  | .strings values => array (values.map string)

/-- The codes of the request names so far, and the number of the next code. -/
structure CodeTable where
  codes : List (String × UInt8)
  next : Nat
deriving DecidableEq

namespace CodeTable

def empty : CodeTable := ⟨[], 0⟩

/-- The number of codes that fit one byte. -/
def capacity : Nat := 256

def code? (table : CodeTable) (name : String) : Option UInt8 :=
  table.codes.lookup name

/-- The table after a name has been given the next code. -/
def give (table : CodeTable) (name : String) : CodeTable :=
  ⟨table.codes ++ [(name, UInt8.ofNat table.next)], table.next + 1⟩

end CodeTable

def useRequest (code : UInt8) : List UInt8 :=
  [Opcode.useRequest.byte, code]

def defineRequest (code : UInt8) (name : String) : Encoded :=
  .whole [Opcode.defineRequest.byte, code] ++ string name

/-- What begins a request, and the table after it. A name without a code is given the next one and
defined first. It keeps the code when its definition fails. -/
def beginRequest (table : CodeTable) (name : String) : Encoded × CodeTable :=
  match table.code? name with
  | some code => (.whole (useRequest code), table)
  | none =>
      if table.next < CodeTable.capacity then
        let code := UInt8.ofNat table.next
        (defineRequest code name ++ .whole (useRequest code), table.give name)
      else (.fail (.requestCodeOverflow name), table)

theorem length_bigEndian (width value : Nat) : (bigEndian width value).length = width := by
  induction width with
  | zero => rfl
  | succ width inductionHypothesis => rw [bigEndian, List.length_cons, inductionHypothesis]

/-- The number that bytes denote, most significant first. -/
def ofBigEndian (bytes : List UInt8) : Nat :=
  bytes.foldl (fun total byte => 256 * total + byte.toNat) 0

theorem foldl_bigEndian (width value start : Nat) :
    (bigEndian width value).foldl (fun total byte => 256 * total + byte.toNat) start =
      start * 256 ^ width + value % 256 ^ width := by
  induction width generalizing start with
  | zero => simp [bigEndian, Nat.mod_one]
  | succ width inductionHypothesis =>
      have digit : (UInt8.ofNat (value / 256 ^ width)).toNat = value / 256 ^ width % 256 := by
        simp
      rw [bigEndian, List.foldl_cons, inductionHypothesis, digit, Nat.mod_pow_succ, Nat.add_mul,
        Nat.pow_succ, Nat.mul_comm 256 start, Nat.mul_assoc start, Nat.mul_comm 256 (256 ^ width),
        Nat.mul_comm (value / 256 ^ width % 256), Nat.add_assoc,
        Nat.add_comm (value % 256 ^ width)]

/-- Bytes that are enough for a number give it back. -/
theorem ofBigEndian_bigEndian (width value : Nat) (fits : value < 256 ^ width) :
    ofBigEndian (bigEndian width value) = value := by
  rw [ofBigEndian, foldl_bigEndian, Nat.zero_mul, Nat.zero_add, Nat.mod_eq_of_lt fits]

theorem width_pos (value : UInt32) : 0 < width value := by
  unfold width
  repeat' split
  all_goals decide

theorem width_le (value : UInt32) : width value ≤ 4 := by
  unfold width
  repeat' split
  all_goals decide

/-- A word fits in as many bytes as it is given. -/
theorem lt_pow_width (value : UInt32) : value.toNat < 256 ^ width value := by
  have word := value.toNat_lt
  unfold width
  repeat' split
  all_goals simp only [Nat.reducePow] at *
  all_goals omega

/-- No smaller number of bytes would do. -/
theorem pow_le_of_width (value : UInt32) (several : 1 < width value) :
    256 ^ (width value - 1) ≤ value.toNat := by
  revert several
  unfold width
  repeat' split
  all_goals
    intro several
    simp only [Nat.reducePow, Nat.reduceSub] at *
    omega

end RibStream.Binary
