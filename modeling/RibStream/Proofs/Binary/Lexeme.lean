/-
This file takes a binary stream apart into its lexemes.
A lexeme is an opcode with its payload, so its first byte tells where it ends.
-/

import RibStream.Encoding.Binary
import Mathlib.Algebra.Group.Nat.Defs

namespace RibStream.Text

/-- The text that bytes stand for, if they are UTF-8. -/
def ofBytes? (bytes : List UInt8) : Option String :=
  String.fromUTF8? ⟨bytes.toArray⟩

theorem ofBytes?_bytes (text : String) : ofBytes? (bytes text) = some text := by
  have valid := text.isValidUTF8
  simp only [ofBytes?, bytes, Array.toArray_toList, String.toUTF8_eq_toByteArray]
  rw [String.fromUTF8?, dif_pos valid]
  rfl

end RibStream.Text

namespace RibStream.Binary

namespace Opcode

def all : List Opcode :=
  [int, shortString, longString, float, useRequest, floatArray, defineRequest, arrayBegin, arrayEnd]

/-- The number of first bytes that belong to an opcode. -/
def span : Opcode → Nat
  | int | longString | floatArray => 4
  | shortString => 16
  | float | useRequest | defineRequest | arrayBegin | arrayEnd => 1

/-- The opcode that a first byte belongs to, and the place of the byte in its range. -/
def ofByte? (byte : UInt8) : Option (Opcode × Nat) :=
  all.findSome? fun opcode =>
    if opcode.byte.toNat ≤ byte.toNat ∧ byte.toNat < opcode.byte.toNat + opcode.span then
      some (opcode, byte.toNat - opcode.byte.toNat)
    else none

/-- The ranges of two opcodes have no byte in common. -/
theorem ofByte?_add (opcode : Opcode) (place : Nat) (inside : place < opcode.span) :
    ofByte? (opcode.byte + UInt8.ofNat place) = some (opcode, place) := by
  have table : ∀ index : Fin 16, index.val < opcode.span →
      ofByte? (opcode.byte + UInt8.ofNat index.val) = some (opcode, index.val) := by
    cases opcode <;> decide
  have small : opcode.span ≤ 16 := by cases opcode <;> decide
  exact table ⟨place, Nat.lt_of_lt_of_le inside small⟩ inside

theorem ofByte?_byte (opcode : Opcode) : ofByte? opcode.byte = some (opcode, 0) := by
  cases opcode <;> decide

end Opcode

/-- A reader takes a value off the front of the bytes. -/
abbrev Reader (Value : Type) := List UInt8 → Option (Value × List UInt8)

def readBytes? (count : Nat) : Reader (List UInt8) := fun bytes =>
  if count ≤ bytes.length then some (bytes.take count, bytes.drop count) else none

/-- A number without sign, most significant byte first. -/
def readNumber? (width : Nat) : Reader Nat := fun bytes =>
  (readBytes? width bytes).map fun (digits, rest) => (ofBigEndian digits, rest)

def readSingle? : Reader Single := fun bytes =>
  (readNumber? 4 bytes).map fun (bits, rest) => (⟨UInt32.ofNat bits⟩, rest)

def readSingles? : Nat → Reader (List Single)
  | 0, bytes => some ([], bytes)
  | count + 1, bytes => do
      let (value, bytes) ← readSingle? bytes
      let (values, bytes) ← readSingles? count bytes
      return (value :: values, bytes)

def readText? (length : Nat) : Reader String := fun bytes => do
  let (text, bytes) ← readBytes? length bytes
  let text ← Text.ofBytes? text
  return (text, bytes)

/-- The payload of a string. The place of a short string's first byte is its length. -/
def readString? (opcode : Opcode) (place : Nat) : Reader String := fun bytes =>
  match opcode with
  | .shortString => readText? place bytes
  | .longString => do
      let (length, bytes) ← readNumber? (place + 1) bytes
      readText? length bytes
  | _ => none

/-- An opcode with its payload. -/
inductive Lexeme where
  | int (value : Int32)
  | float (value : Single)
  | string (value : String)
  | floats (values : List Single)
  | useRequest (code : UInt8)
  | defineRequest (code : UInt8) (name : String)
  | arrayBegin
  | arrayEnd
deriving DecidableEq

namespace Lexeme

/-- What is put out for a lexeme. A long string and an array of floats can fail. -/
def encoded : Lexeme → Encoded
  | int value => .whole (Binary.int value)
  | float value => .whole (Binary.float value)
  | string value => Binary.string value
  | floats values => Binary.floatArray values
  | useRequest code => .whole (Binary.useRequest code)
  | defineRequest code name => Binary.defineRequest code name
  | arrayBegin => .whole [Opcode.arrayBegin.byte]
  | arrayEnd => .whole [Opcode.arrayEnd.byte]

def bytes (lexeme : Lexeme) : List UInt8 :=
  lexeme.encoded.bytes

/-- The payload after a first byte. The missing bytes of an integer are zero. -/
def readPayload? (opcode : Opcode) (place : Nat) : Reader Lexeme := fun bytes =>
  match opcode with
  | .int => do
      let (number, bytes) ← readNumber? (place + 1) bytes
      return (int (UInt32.ofNat number).toInt32, bytes)
  | .shortString | .longString => do
      let (value, bytes) ← readString? opcode place bytes
      return (string value, bytes)
  | .float => do
      let (value, bytes) ← readSingle? bytes
      return (float value, bytes)
  | .floatArray => do
      let (count, bytes) ← readNumber? (place + 1) bytes
      let (values, bytes) ← readSingles? count bytes
      return (floats values, bytes)
  | .useRequest =>
      match bytes with
      | code :: bytes => some (useRequest code, bytes)
      | [] => none
  | .defineRequest =>
      match bytes with
      | code :: first :: bytes => do
          let (opcode, place) ← Opcode.ofByte? first
          let (name, bytes) ← readString? opcode place bytes
          return (defineRequest code name, bytes)
      | _ => none
  | .arrayBegin => some (arrayBegin, bytes)
  | .arrayEnd => some (arrayEnd, bytes)

/-- The first lexeme of a stream. -/
def read? : Reader Lexeme
  | [] => none
  | first :: bytes => do
      let (opcode, place) ← Opcode.ofByte? first
      readPayload? opcode place bytes

/-- All lexemes of a stream, which must end with the last one. -/
def readAll? (bytes : List UInt8) : Option (List Lexeme) :=
  if bytes.isEmpty then some []
  else
    match read? bytes with
    | some (lexeme, rest) =>
        if rest.length < bytes.length then (readAll? rest).map (lexeme :: ·) else none
    | none => none
termination_by bytes.length

end Lexeme

/-- The text is short enough for its length to be written. -/
def TextFits (text : String) : Prop :=
  (Text.bytes text).length < lengthLimit

instance (text : String) : Decidable (TextFits text) :=
  inferInstanceAs (Decidable (_ < _))

/-- The length is small enough to be written. -/
def Lexeme.Fits : Lexeme → Prop
  | string value => TextFits value
  | floats values => values.length < lengthLimit
  | defineRequest _ name => TextFits name
  | _ => True

instance (lexeme : Lexeme) : Decidable lexeme.Fits :=
  match lexeme with
  | .string value => inferInstanceAs (Decidable (TextFits value))
  | .floats values => inferInstanceAs (Decidable (values.length < lengthLimit))
  | .defineRequest _ name => inferInstanceAs (Decidable (TextFits name))
  | .int _ | .float _ | .useRequest _ | .arrayBegin | .arrayEnd => .isTrue trivial

theorem length_of_fits (opcode : Opcode) {count : Nat} (fits : count < lengthLimit) :
    length opcode count = .whole (word opcode (UInt32.ofNat count)) :=
  if_pos fits

theorem length_of_not_fits (opcode : Opcode) {count : Nat} (exceeds : ¬ count < lengthLimit) :
    length opcode count = .fail (.lengthExceeded count) :=
  if_neg exceeds

/-- A string that is too long leaves no byte. -/
theorem string_of_not_fits {text : String} (exceeds : ¬ TextFits text) :
    string text = .fail (.lengthExceeded (Text.bytes text).length) := by
  have long : ¬ (Text.bytes text).length ≤ longestShortString := by
    intro short
    exact exceeds (Nat.lt_of_le_of_lt short (by decide))
  rw [string, if_neg long, length_of_not_fits _ exceeds, Encoded.fail_append]

theorem floatArray_of_fits {values : List Single} (fits : values.length < lengthLimit) :
    floatArray values =
      .whole (word .floatArray (UInt32.ofNat values.length) ++ values.flatMap single) := by
  rw [floatArray, length_of_fits _ fits, Encoded.whole_append_whole]

theorem floatArray_of_not_fits {values : List Single} (exceeds : ¬ values.length < lengthLimit) :
    floatArray values = .fail (.lengthExceeded values.length) := by
  rw [floatArray, length_of_not_fits _ exceeds, Encoded.fail_append]

theorem readBytes?_append (front rest : List UInt8) :
    readBytes? front.length (front ++ rest) = some (front, rest) := by
  simp [readBytes?]

theorem readNumber?_bigEndian (width number : Nat) (fits : number < 256 ^ width)
    (rest : List UInt8) :
    readNumber? width (bigEndian width number ++ rest) = some (number, rest) := by
  have taken := readBytes?_append (bigEndian width number) rest
  rw [length_bigEndian] at taken
  simp only [readNumber?, taken, Option.map_some, ofBigEndian_bigEndian width number fits]

theorem readSingle?_single (value : Single) (rest : List UInt8) :
    readSingle? (single value ++ rest) = some (value, rest) := by
  have fits : value.bits.toNat < 256 ^ 4 := value.bits.toNat_lt
  simp only [readSingle?, single, readNumber?_bigEndian 4 _ fits, Option.map_some,
    UInt32.ofNat_toNat]

theorem readSingles?_flatMap (values : List Single) (rest : List UInt8) :
    readSingles? values.length (values.flatMap single ++ rest) = some (values, rest) := by
  induction values with
  | nil => rfl
  | cons value values inductionHypothesis =>
      rw [List.length_cons, readSingles?, List.flatMap_cons, List.append_assoc, readSingle?_single]
      change (readSingles? values.length (values.flatMap single ++ rest)).bind _ = _
      rw [inductionHypothesis]
      rfl

theorem readText?_bytes (text : String) (rest : List UInt8) :
    readText? (Text.bytes text).length (Text.bytes text ++ rest) = some (text, rest) := by
  rw [readText?, readBytes?_append]
  change (Text.ofBytes? (Text.bytes text)).bind _ = _
  rw [Text.ofBytes?_bytes]
  rfl

/-- A word stands behind a byte in the range of its opcode, whose place tells the width. -/
theorem word_eq (opcode : Opcode) (value : UInt32) (sized : opcode.span = 4) :
    ∃ place, Opcode.ofByte? (opcode.byte + UInt8.ofNat place) = some (opcode, place) ∧
      word opcode value = (opcode.byte + UInt8.ofNat place) :: bigEndian (place + 1) value.toNat ∧
      value.toNat < 256 ^ (place + 1) := by
  have positive := width_pos value
  have widest := width_le value
  have width_eq : width value - 1 + 1 = width value := by omega
  refine ⟨width value - 1, Opcode.ofByte?_add opcode _ (by omega), ?_, ?_⟩
  · rw [word, width_eq]
  · rw [width_eq]
    exact lt_pow_width value

/-- A string is a first byte of its opcode with a payload that gives the text back. -/
theorem string_eq (text : String) (fits : TextFits text) :
    ∃ first opcode place payload, string text = .whole (first :: payload) ∧
      Opcode.ofByte? first = some (opcode, place) ∧
      (opcode = .shortString ∨ opcode = .longString) ∧
      ∀ rest, readString? opcode place (payload ++ rest) = some (text, rest) := by
  by_cases short : (Text.bytes text).length ≤ longestShortString
  · refine ⟨_, .shortString, (Text.bytes text).length, Text.bytes text, ?_,
      Opcode.ofByte?_add .shortString _ (Nat.lt_succ_of_le short), .inl rfl,
      readText?_bytes text⟩
    rw [string, if_pos short]
  · have number : (UInt32.ofNat (Text.bytes text).length).toNat = (Text.bytes text).length :=
      UInt32.toNat_ofNat_of_lt' fits
    obtain ⟨place, known, written, enough⟩ :=
      word_eq .longString (UInt32.ofNat (Text.bytes text).length) rfl
    rw [number] at written enough
    refine ⟨_, .longString, place, bigEndian (place + 1) (Text.bytes text).length ++ Text.bytes text,
      ?_, known, .inr rfl, ?_⟩
    · rw [string, if_neg short, length_of_fits _ fits, Encoded.whole_append_whole, written]
      rfl
    · intro rest
      rw [readString?, List.append_assoc, readNumber?_bigEndian _ _ enough]
      exact readText?_bytes text rest

namespace Lexeme

theorem read?_cons {first : UInt8} {opcode : Opcode} {place : Nat}
    (known : Opcode.ofByte? first = some (opcode, place)) (bytes : List UInt8) :
    read? (first :: bytes) = readPayload? opcode place bytes := by
  rw [read?, known]
  rfl

/-- A lexeme with a small length is put out to its end. -/
theorem encoded_of_fits {lexeme : Lexeme} (fits : lexeme.Fits) :
    lexeme.encoded = .whole lexeme.bytes := by
  cases lexeme with
  | string value =>
      obtain ⟨first, opcode, place, payload, written, -⟩ := string_eq value fits
      simp only [bytes, encoded, written, Encoded.bytes_whole]
  | floats values => simp only [bytes, encoded, floatArray_of_fits fits, Encoded.bytes_whole]
  | defineRequest code name =>
      obtain ⟨first, opcode, place, payload, written, -⟩ := string_eq name fits
      simp only [bytes, encoded, Binary.defineRequest, written, Encoded.whole_append_whole,
        Encoded.bytes_whole]
  | _ => rfl

/-- Lexemes with small lengths are all put out. -/
theorem concat_encoded {lexemes : List Lexeme} (fits : ∀ lexeme ∈ lexemes, lexeme.Fits) :
    Encoded.concat (lexemes.map encoded) = .whole (lexemes.flatMap bytes) := by
  have pieces : lexemes.map encoded = lexemes.map fun lexeme => .whole lexeme.bytes :=
    List.map_congr_left fun lexeme member => encoded_of_fits (fits lexeme member)
  rw [pieces, Encoded.concat_map_whole]

/-- A reader sees where a lexeme ends, whatever follows it. -/
theorem read?_bytes (lexeme : Lexeme) (fits : lexeme.Fits) (rest : List UInt8) :
    read? (lexeme.bytes ++ rest) = some (lexeme, rest) := by
  cases lexeme with
  | int value =>
      obtain ⟨place, known, written, enough⟩ := word_eq .int value.toUInt32 rfl
      rw [bytes, encoded, Encoded.bytes_whole, Binary.int, written, List.cons_append,
        read?_cons known, readPayload?, readNumber?_bigEndian _ _ enough]
      change some (int (UInt32.ofNat value.toUInt32.toNat).toInt32, rest) = _
      rw [UInt32.ofNat_toNat, Int32.toInt32_toUInt32]
  | float value =>
      rw [bytes, encoded, Encoded.bytes_whole, Binary.float, List.cons_append,
        read?_cons (Opcode.ofByte?_byte .float), readPayload?, readSingle?_single]
      rfl
  | string value =>
      obtain ⟨first, opcode, place, payload, written, known, kind, reads⟩ := string_eq value fits
      rw [bytes, encoded, written, Encoded.bytes_whole, List.cons_append, read?_cons known]
      rcases kind with rfl | rfl
      · rw [readPayload?, reads]
        rfl
      · rw [readPayload?, reads]
        rfl
  | floats values =>
      have number : (UInt32.ofNat values.length).toNat = values.length :=
        UInt32.toNat_ofNat_of_lt' fits
      obtain ⟨place, known, written, enough⟩ :=
        word_eq .floatArray (UInt32.ofNat values.length) rfl
      rw [number] at written enough
      rw [bytes, encoded, floatArray_of_fits fits, Encoded.bytes_whole, written, List.append_assoc,
        List.cons_append, read?_cons known, readPayload?, readNumber?_bigEndian _ _ enough]
      change (readSingles? values.length _).bind _ = _
      rw [readSingles?_flatMap]
      rfl
  | useRequest code =>
      rw [bytes, encoded, Encoded.bytes_whole, Binary.useRequest, List.cons_append,
        read?_cons (Opcode.ofByte?_byte .useRequest)]
      rfl
  | defineRequest code name =>
      obtain ⟨first, opcode, place, payload, written, known, kind, reads⟩ := string_eq name fits
      rw [bytes, encoded, Binary.defineRequest, written, Encoded.whole_append_whole,
        Encoded.bytes_whole, List.cons_append, List.cons_append,
        read?_cons (Opcode.ofByte?_byte .defineRequest)]
      simp only [readPayload?, List.nil_append, List.cons_append, known]
      change (readString? opcode place (payload ++ rest)).bind _ = _
      rw [reads]
      rfl
  | arrayBegin => rfl
  | arrayEnd => rfl

theorem bytes_ne_nil {lexeme : Lexeme} (fits : lexeme.Fits) : lexeme.bytes ≠ [] := by
  intro empty
  have reads := read?_bytes lexeme fits []
  rw [empty] at reads
  cases reads

/-- Lexemes written one after the other are read back one after the other. -/
theorem readAll?_flatMap (lexemes : List Lexeme) (fits : ∀ lexeme ∈ lexemes, lexeme.Fits) :
    readAll? (lexemes.flatMap bytes) = some lexemes := by
  induction lexemes with
  | nil =>
      rw [readAll?]
      rfl
  | cons lexeme lexemes inductionHypothesis =>
      have nonempty := bytes_ne_nil (fits lexeme List.mem_cons_self)
      have positive := List.length_pos_iff.mpr nonempty
      have rest := inductionHypothesis fun other member => fits other (List.mem_cons_of_mem _ member)
      have shorter : (lexemes.flatMap bytes).length <
          (lexeme.bytes ++ lexemes.flatMap bytes).length := by
        rw [List.length_append]
        omega
      have filled : (lexeme.bytes ++ lexemes.flatMap bytes).isEmpty = false := by
        simp [nonempty]
      rw [List.flatMap_cons, readAll?, filled, read?_bytes lexeme (fits lexeme List.mem_cons_self)]
      simp only [Bool.false_eq_true, if_false, if_pos shorter, rest, Option.map_some]

end Lexeme

end RibStream.Binary
