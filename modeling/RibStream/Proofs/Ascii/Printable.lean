/-
This file bounds the bytes that a request can write as text.
Whatever its arguments are, no byte is a control character and none lies beyond the plain ones.
-/

import RibStream.Proofs.Ascii.Reading
import RibStream.Proofs.Request.Names

namespace RibStream

namespace Ascii

/-- The bytes that lines are made of. -/
def Printable (text : List UInt8) : Prop :=
  ∀ byte ∈ text, Text.isPlain byte = true

instance (text : List UInt8) : Decidable (Printable text) :=
  List.decidableBAll _ text

theorem newline_not_mem_of_printable {text : List UInt8} (printable : Printable text) :
    newline ∉ text := by
  intro member
  have plain := printable newline member
  revert plain
  decide

theorem printable_append {first second : List UInt8} (front : Printable first)
    (back : Printable second) : Printable (first ++ second) :=
  List.forall_mem_append.mpr ⟨front, back⟩

theorem printable_characters {text : List Char}
    (visible : ∀ character ∈ text, 32 ≤ character.toNat ∧ character.toNat < 127) :
    Printable (characters text) := by
  have ascii : characters text = text.map Char.toUInt8 :=
    Text.bytes_ofList_ascii text fun character member => by
      have bounds := visible character member
      omega
  intro byte member
  rw [ascii] at member
  obtain ⟨character, inside, rfl⟩ := List.mem_map.mp member
  obtain ⟨least, most⟩ := visible character inside
  have value : character.toUInt8.toNat = character.toNat := by
    rw [Char.toUInt8, UInt32.toNat_toUInt8]
    exact Nat.mod_eq_of_lt (show character.val.toNat < 256 by
      have same : character.val.toNat = character.toNat := rfl
      omega)
  rw [Text.isPlain, Bool.and_eq_true, decide_eq_true_eq, decide_eq_true_eq, UInt8.le_iff_toNat_le,
    UInt8.le_iff_toNat_le, value]
  constructor
  · exact least
  · show character.toNat ≤ 176
    omega

/-- Numerals consist of digits, signs, points and the mark of the exponent. -/
theorem printable_of_read? {text : List Char} {numeral : Numeral}
    (read : Numeral.read? text = some numeral) : Printable (characters text) := by
  apply printable_characters
  intro character member
  have part := (Numeral.isPart_of_read? read).2 character member
  rw [Numeral.isPart, Bool.or_eq_true] at part
  rcases part with digit | sign
  · rw [Char.isDigit, Bool.and_eq_true, decide_eq_true_eq, decide_eq_true_eq] at digit
    have least : 48 ≤ character.val.toNat := digit.1
    have most : character.val.toNat ≤ 57 := digit.2
    have same : character.val.toNat = character.toNat := rfl
    omega
  · simp only [List.contains_eq_mem, List.mem_cons, List.not_mem_nil, or_false,
      decide_eq_true_eq] at sign
    rcases sign with rfl | rfl | rfl | rfl <;> decide

theorem printable_int (value : Int32) : Printable (int value) := by
  obtain ⟨numeral, read, -⟩ := Decimal.read?_integer value.toInt
  exact printable_of_read? read

/-- The names of infinities and NaNs are words of letters. -/
theorem printable_float (value : Single) : Printable (float value) := by
  by_cases finite : value.Finite
  · obtain ⟨numeral, read, -⟩ := Decimal.read?_single value finite
    exact printable_of_read? read
  · have special : value.exponentField = 255 := Decidable.not_not.mp finite
    apply printable_characters
    have words : Decimal.single value ∈
        [['n', 'a', 'n'], ['i', 'n', 'f'], ['-', 'i', 'n', 'f']] := by
      by_cases payload : value.fractionField = 0
      · have infinite : value.isInfinite = true := by simp [Single.isInfinite, special, payload]
        have number : value.isNaN = false := by simp [Single.isNaN, payload]
        rw [Decimal.single, number, infinite]
        cases value.isNegative <;> simp
      · have nan : value.isNaN = true := by simp [Single.isNaN, special, payload]
        rw [Decimal.single, nan]
        simp
    revert words
    generalize Decimal.single value = text
    simp only [List.mem_cons, List.not_mem_nil, or_false]
    rintro (rfl | rfl | rfl) <;> simp

theorem printable_string (value : String) : Printable (string value) :=
  fun byte member => Text.isPlain_of_mem_quoted _ byte member

theorem printable_array {items : List (List UInt8)} (printable : ∀ item ∈ items, Printable item) :
    Printable (array items) := by
  have inside : Printable ([space].intercalate items) := by
    induction items with
    | nil =>
        intro byte absent
        cases absent
    | cons first items inductionHypothesis =>
        have own := printable first List.mem_cons_self
        have others := inductionHypothesis fun item member =>
          printable item (List.mem_cons_of_mem _ member)
        cases items with
        | nil =>
            rw [List.intercalate_singleton]
            exact own
        | cons second items =>
            rw [List.intercalate_cons_cons]
            exact printable_append (printable_append own (by decide)) others
  exact printable_append (show Printable [0x5B] by decide) (printable_append inside (by decide))

theorem printable_token (value : Token) : Printable (token value) := by
  cases value with
  | int value => exact printable_int value
  | float value => exact printable_float value
  | string value => exact printable_string value
  | ints values =>
      exact printable_array (List.forall_mem_map.mpr fun value _ => printable_int value)
  | floats values =>
      exact printable_array (List.forall_mem_map.mpr fun value _ => printable_float value)
  | strings values =>
      exact printable_array (List.forall_mem_map.mpr fun value _ => printable_string value)

theorem printable_arguments (tokens : List Token) : Printable (arguments tokens) := by
  intro byte member
  obtain ⟨value, -, inside⟩ := List.mem_flatMap.mp member
  rcases List.mem_cons.mp inside with rfl | inside
  · decide
  · exact printable_token value byte inside

theorem printable_name {name : String} (member : name ∈ Request.names) :
    Printable (Text.bytes name) := by
  have table : (Request.names.all fun name => decide (Printable (Text.bytes name))) = true := by
    decide +kernel
  exact of_decide_eq_true (List.all_eq_true.mp table name member)

/-- The line of a request holds only printable bytes, its indentation included. -/
theorem printable_line (depth : Nat) {request : RequestLine} (named : request.name ∈ Request.names) :
    Printable (line depth request) := by
  have blank : Printable (indentation depth) := by
    intro byte member
    rw [List.eq_of_mem_replicate member]
    decide
  exact printable_append blank
    (printable_append (printable_name named) (printable_arguments request.tokens))

end Ascii

end RibStream
