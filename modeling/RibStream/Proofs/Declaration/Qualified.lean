/-
This file proves that the qualified name of a parameter says what its type is.
It is read back in the same way with every dictionary.
-/

import RibStream.Param
import RibStream.Proofs.Text.Word

namespace RibStream

open Text

/-- Digits without a sign are read as the number that they denote. -/
theorem readSize?_of_digits {numeral : List Char} (nonempty : numeral ≠ [])
    (digits : ∀ digit ∈ numeral, digit.isDigit = true) :
    readSize? numeral =
      let size := Decimal.value (numeral.map fun digit => digit.toNat - '0'.toNat)
      if size < UInt32.size then some (UInt32.ofNat size) else none := by
  have valid : (numeral.isEmpty || !numeral.all Char.isDigit) = false := by
    simpa [nonempty] using digits
  rw [readSize?]
  · rw [valid]
    rfl
  · rintro rest rfl
    exact absurd (digits '+' List.mem_cons_self) (by decide)

/-- The decimal digits of a size are read back. -/
theorem readSize?_toDigits (size : UInt32) : readSize? (Nat.toDigits 10 size.toNat) = some size := by
  have denotes : Decimal.value ((Nat.toDigits 10 size.toNat).map fun digit =>
      digit.toNat - '0'.toNat) = size.toNat := by
    rw [Decimal.value, List.foldl_map]
    exact Nat.ofDigitChars_toDigits (by decide) (by decide)
  rw [readSize?_of_digits Nat.toDigits_ne_nil
    fun digit member => Nat.isDigit_of_mem_toDigits (by decide) (by decide) member]
  simp only [denotes, size.toNat_lt_size, if_true, UInt32.ofNat_toNat]

theorem VariableClass.unbroken_keyword (variableClass : VariableClass) :
    Unbroken variableClass.keyword.toList := by
  cases variableClass <;> decide

/-- No keyword could be mistaken for the beginning of an array size. -/
theorem ElementType.keyword_spec (element : ElementType) :
    Unbroken element.keyword.toList ∧ '[' ∉ element.keyword.toList := by
  cases element <;> decide

namespace TypeSpec

/-- The part of the text that follows the class. -/
def elementText (spec : TypeSpec) : List Char :=
  spec.element.keyword.toList ++
    if spec.arraySize = 1 then [] else '[' :: (Nat.toDigits 10 spec.arraySize.toNat ++ [']'])

theorem toList_text (spec : TypeSpec) :
    spec.text.toList = spec.variableClass.keyword.toList ++ ' ' :: spec.elementText := by
  rw [text, elementText]
  split <;> simp

theorem letters_text (spec : TypeSpec) : letters spec.text.toList ≠ [] := by
  rw [toList_text, letters_append, spec.variableClass.unbroken_keyword.letters_eq]
  cases spec.variableClass <;> exact List.cons_ne_nil _ _

theorem unbroken_elementText (spec : TypeSpec) : Unbroken spec.elementText := by
  have digits : Unbroken (Nat.toDigits 10 spec.arraySize.toNat) := by
    intro digit member
    exact isBlank_eq_false_of_isDigit (Nat.isDigit_of_mem_toDigits (by decide) (by decide) member)
  rw [elementText]
  apply unbroken_append.mpr
  refine ⟨spec.element.keyword_spec.1, ?_⟩
  split
  · decide
  · intro character member
    simp only [List.mem_cons, List.mem_append, List.not_mem_nil, or_false] at member
    rcases member with rfl | digit | rfl
    · decide
    · exact digits character digit
    · decide

/-- The element type ends where the array size begins. -/
theorem readElement?_elementText (spec : TypeSpec) :
    readElement? spec.elementText = some (spec.element, spec.arraySize) := by
  have keyword : ∀ character ∈ spec.element.keyword.toList, (character != '[') = true := by
    intro character member
    simp only [bne_iff_ne]
    rintro rfl
    exact spec.element.keyword_spec.2 member
  rw [readElement?, elementText, List.takeWhile_append_of_pos keyword,
    List.dropWhile_append_of_pos keyword]
  by_cases single : spec.arraySize = 1
  · simp [single, ElementType.ofKeyword?_keyword]
  · have stops : ('[' != '[') = false := by decide
    simp only [if_neg single, List.takeWhile_cons, List.dropWhile_cons, stops, List.append_nil,
      String.ofList_toList, ElementType.ofKeyword?_keyword, Bool.false_eq_true, if_false]
    simp [readSize?_toDigits]

/-- A type specification is read back from its text, whatever white space follows. -/
theorem ofChars?_text (spec : TypeSpec) {blanks : List Char} (white : letters blanks = []) :
    ofChars? (spec.text.toList ++ blanks) = some spec := by
  have starts : ∀ first ∈ (spec.text.toList ++ blanks).head?, isBlank first = false := by
    rw [toList_text]
    cases spec.variableClass <;> rintro first ⟨⟩ <;> decide
  have split : spec.text.toList ++ blanks =
      spec.variableClass.keyword.toList ++ ' ' :: (spec.elementText ++ blanks) := by
    rw [toList_text, List.append_assoc, List.cons_append]
  have class_eq : readClass (spec.text.toList ++ blanks) =
      (spec.variableClass, ' ' :: (spec.elementText ++ blanks)) := by
    rw [readClass, split, firstWord_append spec.variableClass.unbroken_keyword isBlank_space,
      String.ofList_toList, VariableClass.ofKeyword?_keyword]
  have rest : letters (' ' :: (spec.elementText ++ blanks)) = spec.elementText := by
    rw [letters_space, letters_append, white, spec.unbroken_elementText.letters_eq, List.append_nil]
  rw [ofChars?, trimLeft_eq_self starts, class_eq]
  show (readElement? (letters (' ' :: (spec.elementText ++ blanks)))).map _ = _
  rw [rest, readElement?_elementText]
  rfl

end TypeSpec

namespace Declaration

/-- An inline declaration declares a word. -/
theorem name_of_ofString? {token : String} {declaration : Declaration}
    (read : ofString? token = some declaration) :
    declaration.name ≠ "" ∧ Unbroken declaration.name.toList := by
  rw [ofString?] at read
  generalize word : lastWord (trim token.toList) = split at read
  obtain ⟨spec, name⟩ := split
  have name_eq : (lastWord (trim token.toList)).2 = name := congrArg Prod.snd word
  dsimp only at read
  split at read
  · cases read
  · rename_i several
    obtain ⟨type, -, rfl⟩ := Option.map_eq_some_iff.mp read
    have nonempty : trim token.toList ≠ [] := by
      intro empty
      rw [empty] at word
      cases word
      exact several rfl
    have letter := lastWord_ne_nil nonempty fun _ => isBlank_getLast_trim
    rw [name_eq] at letter
    constructor
    · intro empty
      exact letter (String.ofList_eq_empty_iff.mp empty)
    · rw [String.toList_ofList, ← name_eq]
      exact unbroken_lastWord _

end Declaration

namespace Param

theorem toList_qualifiedName (param : Param) :
    param.qualifiedName.toList = param.spec.text.toList ++ ' ' :: param.name.toList := by
  simp [qualifiedName]

/-- A qualified name is an inline declaration. -/
theorem ofString?_qualifiedName {param : Param} (named : param.name ≠ "")
    (word : Unbroken param.name.toList) :
    Declaration.ofString? param.qualifiedName = some ⟨param.spec, param.name⟩ := by
  have trimmed : trim param.qualifiedName.toList = param.qualifiedName.toList := by
    apply trim_eq_self
    · rw [toList_qualifiedName, TypeSpec.toList_text]
      cases param.spec.variableClass <;> rintro first ⟨⟩ <;> decide
    · intro last ends
      have nonempty : param.name.toList ≠ [] := fun empty =>
        named (String.toList_eq_nil_iff.mp empty)
      have last_eq : param.qualifiedName.toList.getLast? = param.name.toList.getLast? := by
        rw [toList_qualifiedName, List.append_cons, List.getLast?_append,
          List.getLast?_eq_some_getLast nonempty, Option.some_or]
      rw [last_eq] at ends
      exact word last (List.mem_of_mem_getLast? ends)
  rw [Declaration.ofString?, trimmed, toList_qualifiedName, lastWord_append _ isBlank_space word]
  have several : (param.spec.text.toList ++ [' ']).isEmpty = false := by simp
  simp only [several, Bool.false_eq_true, if_false]
  rw [TypeSpec.ofChars?_text param.spec (by decide), String.ofList_toList]
  rfl

end Param

/-- The qualified name of a parameter is resolved to its type and its bare name, whatever the
dictionary says about them and even if the name looks like a type. All that is needed is that the name
is a word. -/
theorem Dictionary.resolve_qualifiedName_iff (dictionary : Dictionary) (param : Param) :
    dictionary.resolve param.qualifiedName = .ok ⟨param.spec, param.name⟩ ↔
      param.name ≠ "" ∧ Unbroken param.name.toList := by
  constructor
  · intro resolved
    rw [resolve] at resolved
    split at resolved
    · rename_i declaration read
      cases resolved
      exact Declaration.name_of_ofString? read
    · -- A name that was looked up has all letters of the token, so the type would have none.
      exfalso
      dsimp only at resolved
      split at resolved
      · simp only [Except.ok.injEq, Declaration.mk.injEq] at resolved
        have same := congrArg (letters ·.toList) resolved.2
        simp only [String.toList_ofList, letters_trim, Param.toList_qualifiedName] at same
        rw [letters_append, letters_space] at same
        exact param.spec.letters_text (List.append_left_eq_self.mp same)
      · cases resolved
  · rintro ⟨named, word⟩
    rw [resolve, Param.ofString?_qualifiedName named word]

end RibStream
