/-
This file defines what an encoder puts out for a value.
Not every value can be encoded, and what was put out before the failure stays.
-/

import RibStream.Error

namespace RibStream

/-- Bytes, and the error at which the encoder stops after them, if it does not reach the end. -/
structure Encoded where
  bytes : List UInt8
  stop : Option Error
deriving DecidableEq

namespace Encoded

/-- The bytes of a value that is encoded to its end. -/
def whole (bytes : List UInt8) : Encoded := ⟨bytes, none⟩

/-- A failure before the first byte. -/
def fail (error : Error) : Encoded := ⟨[], some error⟩

def result (encoded : Encoded) : Except Error Unit :=
  match encoded.stop with
  | none => .ok ()
  | some error => .error error

/-- Nothing is put out after a stop. -/
def append (first second : Encoded) : Encoded :=
  match first.stop with
  | none => ⟨first.bytes ++ second.bytes, second.stop⟩
  | some _ => first

instance : Append Encoded := ⟨append⟩

/-- Pieces one after the other, up to the first stop. -/
def concat (pieces : List Encoded) : Encoded :=
  pieces.foldr append (whole [])

@[simp]
theorem bytes_whole (bytes : List UInt8) : (whole bytes).bytes = bytes := rfl

@[simp]
theorem stop_whole (bytes : List UInt8) : (whole bytes).stop = none := rfl

@[simp]
theorem result_whole (bytes : List UInt8) : (whole bytes).result = .ok () := rfl

theorem whole_inj {first second : List UInt8} (same : whole first = whole second) :
    first = second :=
  congrArg bytes same

/-- An encoder that does not stop has put out all of the value. -/
theorem eq_whole_of_result {encoded : Encoded} (success : encoded.result = .ok ()) :
    encoded = whole encoded.bytes := by
  obtain ⟨bytes, _ | error⟩ := encoded
  · rfl
  · cases success

theorem whole_append (bytes : List UInt8) (rest : Encoded) :
    whole bytes ++ rest = ⟨bytes ++ rest.bytes, rest.stop⟩ := rfl

@[simp]
theorem whole_append_whole (first second : List UInt8) :
    whole first ++ whole second = whole (first ++ second) := rfl

@[simp]
theorem fail_append (error : Error) (rest : Encoded) : fail error ++ rest = fail error := rfl

@[simp]
theorem whole_nil_append (encoded : Encoded) : whole [] ++ encoded = encoded := rfl

@[simp]
theorem append_whole_nil (encoded : Encoded) : encoded ++ whole [] = encoded := by
  obtain ⟨bytes, _ | error⟩ := encoded
  · show Encoded.mk (bytes ++ []) none = _
    rw [List.append_nil]
  · rfl

theorem append_assoc (first second third : Encoded) :
    first ++ second ++ third = first ++ (second ++ third) := by
  obtain ⟨bytes, _ | error⟩ := first
  · obtain ⟨more, _ | cause⟩ := second
    · show Encoded.mk (bytes ++ more ++ third.bytes) third.stop = _
      rw [List.append_assoc]
      rfl
    · rfl
  · rfl

@[simp]
theorem concat_nil : concat [] = whole [] := rfl

@[simp]
theorem concat_cons (piece : Encoded) (rest : List Encoded) :
    concat (piece :: rest) = piece ++ concat rest := rfl

theorem concat_append (front back : List Encoded) :
    concat (front ++ back) = concat front ++ concat back := by
  induction front with
  | nil => rw [List.nil_append, concat_nil, whole_nil_append]
  | cons piece front inductionHypothesis =>
      rw [List.cons_append, concat_cons, concat_cons, inductionHypothesis, append_assoc]

/-- If every piece is put out, so are all of them together. -/
theorem concat_map_whole {Value : Type} (bytes : Value → List UInt8) (values : List Value) :
    concat (values.map fun value => whole (bytes value)) = whole (values.flatMap bytes) := by
  induction values with
  | nil => rfl
  | cons value rest inductionHypothesis =>
      rw [List.map_cons, concat_cons, inductionHypothesis, whole_append_whole, List.flatMap_cons]

end Encoded

end RibStream
