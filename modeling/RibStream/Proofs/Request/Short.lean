/-
This file collects the lengths in a request.
A request with small lengths is written with lengths that fit their field.
-/

import Mathlib.Algebra.Group.Nat.Defs
import Mathlib.Data.List.Flatten
import Mathlib.Data.Nat.Digits.Defs
import RibStream.Proofs.Basis.Recognition
import RibStream.Proofs.Binary.Reading
import RibStream.Proofs.Declaration.Qualified
import RibStream.Proofs.Request.Resolved

namespace RibStream

namespace Text

/-- The number of bytes of a text. -/
def size (text : String) : Nat := (bytes text).length

theorem bytes_ofList (text : List Char) :
    bytes (String.ofList text) = text.flatMap String.utf8EncodeChar := by
  rw [bytes, String.toUTF8_eq_toByteArray, String.toByteArray_ofList, List.utf8Encode,
    List.toList_data_toByteArray]

theorem size_append (first second : String) : size (first ++ second) = size first + size second := by
  rw [← String.ofList_toList (s := first), ← String.ofList_toList (s := second),
    ← String.ofList_append, size, size, size, bytes_ofList, bytes_ofList, bytes_ofList,
    List.flatMap_append, List.length_append]

/-- Leaving characters out makes a text no longer. -/
theorem size_ofList_le {part whole : List Char} (sub : part.Sublist whole) :
    size (String.ofList part) ≤ size (String.ofList whole) := by
  rw [size, size, bytes_ofList, bytes_ofList]
  exact (sub.flatMap _).length_le

theorem size_ofList_le_length (text : List Char) : size (String.ofList text) ≤ 4 * text.length := by
  rw [size, bytes_ofList]
  induction text with
  | nil => exact Nat.le_refl _
  | cons character text inductionHypothesis =>
      have least := character.utf8Size_le_four
      rw [List.flatMap_cons, List.length_append, String.length_utf8EncodeChar, List.length_cons]
      omega

theorem sublist_trim (text : List Char) : (trim text).Sublist text := by
  have left : (trimLeft text).Sublist text := List.dropWhile_sublist _
  refine List.Sublist.trans ?_ left
  rw [trim, trimRight, ← List.reverse_sublist, List.reverse_reverse]
  exact List.dropWhile_sublist _

theorem sublist_lastWord (text : List Char) : (lastWord text).2.Sublist text := by
  rw [lastWord, ← List.reverse_sublist, List.reverse_reverse]
  exact List.takeWhile_sublist _

end Text

/-- The lengths that are written for a token. Arrays of integers have no length of their own. -/
def Token.lengths : Token → List Nat
  | .string value => [Text.size value]
  | .floats values => [values.length]
  | .strings values => values.map Text.size
  | _ => []

/-- The lengths of the name or token and of the values. -/
def ParamSource.lengths : ParamSource → List Nat
  | .typed param => Text.size param.name :: (Token.values param.values).lengths
  | .token text values => Text.size text :: (Token.values values).lengths

/-- A function is written by one of the names of its vocabulary. -/
def Argument.lengths : Argument → List Nat
  | .token value => value.lengths
  | .function vocabulary _ => vocabulary.names.map Text.size
  | .basis _ => []

def Layout.lengths (layout : Layout) : List Nat :=
  layout.arguments.flatMap Argument.lengths ++ layout.parameters.flatMap ParamSource.lengths

/-- The lengths of all strings and of all arrays of floats. -/
def Request.lengths : Request → List Nat
  | .plain request => request.layout.lengths
  | .declare name declaration => [Text.size name, Text.size declaration]
  | .option name parameters => Text.size name :: parameters.flatMap ParamSource.lengths
  | .lightSource name parameters => Text.size name :: parameters.flatMap ParamSource.lengths
  | .areaLightSource name parameters => Text.size name :: parameters.flatMap ParamSource.lengths
  | .opening block => block.line.tokens.flatMap Token.lengths
  | .procedural strings _ _ _ => strings.map Text.size
  | .readArchive name parameters => Text.size name :: parameters.flatMap ParamSource.lengths
  | _ => []

-- Powers use the core instance, even where another library brings its own.
attribute [local instance (high)] instPowNat

/-- Lengths below the limit of a scene. The limit of a length field is greater. -/
def AllShort (lengths : List Nat) : Prop :=
  ∀ length ∈ lengths, length < 2 ^ 24

instance (lengths : List Nat) : Decidable (AllShort lengths) :=
  inferInstanceAs (Decidable (∀ length ∈ lengths, length < 2 ^ 24))

def Request.Short (request : Request) : Prop :=
  AllShort request.lengths

instance (request : Request) : Decidable request.Short :=
  inferInstanceAs (Decidable (AllShort _))

theorem textFits_of_size {text : String} (small : Text.size text < 2 ^ 24) :
    Binary.TextFits text := by
  show Text.size text < 2 ^ 32
  omega

theorem Token.fits_of_allShort {token : Token} (short : AllShort token.lengths) : token.Fits := by
  cases token with
  | string value => exact textFits_of_size (short _ List.mem_cons_self)
  | floats values =>
      have small := short _ List.mem_cons_self
      rw [Fits, Binary.lengthLimit]
      omega
  | strings values =>
      intro value member
      exact textFits_of_size (short _ (List.mem_map_of_mem member))
  | _ => trivial

/-- The text of a type is a short text. -/
theorem TypeSpec.size_text (spec : TypeSpec) : Text.size spec.text ≤ 64 := by
  have variableClass : Text.size spec.variableClass.keyword ≤ 11 := by
    cases spec.variableClass <;> decide
  have element : Text.size spec.element.keyword ≤ 7 := by
    cases spec.element <;> decide
  have digits : Text.size (toString spec.arraySize.toNat) ≤ 40 := by
    have few : (Nat.toDigits 10 spec.arraySize.toNat).length ≤ 10 :=
      Nat.toDigits_length 10 _ 10 (by decide) (by have := spec.arraySize.toNat_lt; omega)
    have bytes := Text.size_ofList_le_length (Nat.toDigits 10 spec.arraySize.toNat)
    show Text.size (String.ofList (Nat.toDigits 10 spec.arraySize.toNat)) ≤ 40
    omega
  have blank : Text.size " " = 1 := by decide
  have brackets : Text.size "[" = 1 ∧ Text.size "]" = 1 ∧ Text.size "" = 0 := by decide
  rw [text, Text.size_append, Text.size_append, Text.size_append]
  split
  · omega
  · rw [Text.size_append, Text.size_append]
    omega

/-- A token has the name that it stands for inside of it. -/
theorem Dictionary.size_name_of_resolve {dictionary : Dictionary} {token : String}
    {declaration : Declaration} (resolved : dictionary.resolve token = .ok declaration) :
    Text.size declaration.name ≤ Text.size token := by
  have trimmed := Text.sublist_trim token.toList
  have whole : Text.size (String.ofList token.toList) = Text.size token := by
    rw [String.ofList_toList]
  rw [resolve] at resolved
  cases inline : Declaration.ofString? token with
  | some found =>
      rw [inline] at resolved
      cases resolved
      rw [Declaration.ofString?] at inline
      dsimp only at inline
      split at inline
      · cases inline
      · obtain ⟨spec, -, rfl⟩ := Option.map_eq_some_iff.mp inline
        rw [← whole]
        exact Text.size_ofList_le ((Text.sublist_lastWord _).trans trimmed)
  | none =>
      rw [inline] at resolved
      dsimp only at resolved
      split at resolved
      · cases resolved
        rw [← whole]
        exact Text.size_ofList_le trimmed
      · cases resolved

namespace ParamSource

/-- A type in front of a short name makes a text that fits. -/
theorem fits_param {param : Param} (named : Text.size param.name < 2 ^ 24)
    (values : AllShort (Token.values param.values).lengths) :
    ∀ token ∈ Token.param param, token.Fits := by
  rw [Token.param, List.forall_mem_cons, List.forall_mem_singleton]
  refine ⟨?_, Token.fits_of_allShort values⟩
  have spec := param.spec.size_text
  have blank : Text.size " " = 1 := by decide
  show Text.size param.qualifiedName < 2 ^ 32
  rw [Param.qualifiedName, Text.size_append, Text.size_append]
  omega

theorem fits_of_resolve {dictionary : Dictionary} {source : ParamSource} {param : Param}
    (success : source.resolve dictionary = .ok param) (short : AllShort source.lengths) :
    ∀ token ∈ Token.param param, token.Fits := by
  cases source with
  | typed given =>
      cases success
      exact fits_param (short _ List.mem_cons_self) fun length member => short length (.tail _ member)
  | token text values =>
      obtain ⟨declaration, resolved, rfl⟩ := exists_of_map_eq_ok success
      have inside := Dictionary.size_name_of_resolve resolved
      exact fits_param (lt_of_le_of_lt inside (short _ List.mem_cons_self)) fun length member =>
        short length (.tail _ member)

theorem fits_of_resolveAll {dictionary : Dictionary} {sources : List ParamSource}
    {params : List Param} (success : resolveAll dictionary sources = .ok params)
    (short : AllShort (sources.flatMap lengths)) :
    ∀ token ∈ params.flatMap Token.param, token.Fits := by
  intro token member
  obtain ⟨param, inside, part⟩ := List.mem_flatMap.mp member
  obtain ⟨source, given, resolved⟩ := exists_of_mem_mapM success inside
  refine fits_of_resolve resolved (fun length own => ?_) token part
  exact short length (List.mem_flatMap.mpr ⟨source, given, own⟩)

end ParamSource

/-- What a resolved argument is written with are the lengths of the given one. -/
theorem Argument.lengths_of_resolve {argument resolved : Argument}
    (success : argument.resolve = .ok resolved) : resolved.lengths = argument.lengths := by
  cases argument with
  | token value =>
      cases success
      rfl
  | function vocabulary source =>
      obtain ⟨handle, -, rfl⟩ := exists_of_map_eq_ok success
      rfl
  | basis source =>
      obtain ⟨matrix, -, rfl⟩ := exists_of_map_eq_ok success
      rfl

theorem Basis.fits_token (matrix : Matrix) : (Token.basis matrix).Fits := by
  have names : ∀ basis : Basis, Binary.TextFits basis.name := by
    intro basis
    cases basis <;> decide
  rw [Token.basis]
  cases Basis.recognize? matrix with
  | none =>
      have few : matrix.entries.length = 16 := by
        rw [matrix.entries_eq_rowMajor]
        simp [Matrix.rowMajor]
      show matrix.entries.length < Binary.lengthLimit
      rw [few]
      decide
  | some basis => exact names basis

theorem Vocabulary.mem_of_name {vocabulary : Vocabulary} {handle : Nat} {name : String}
    (named : vocabulary.name handle = .ok name) : name ∈ vocabulary.names := by
  cases handle with
  | zero => cases named
  | succ index =>
      rw [Vocabulary.name] at named
      cases stands : vocabulary.names[index]? with
      | none =>
          rw [stands] at named
          cases named
      | some found =>
          rw [stands] at named
          cases named
          exact List.mem_of_getElem? stands

theorem Argument.fits_of_written {argument : Argument} {token : Token}
    (success : argument.written = .ok token) (short : AllShort argument.lengths) : token.Fits := by
  cases argument with
  | token value =>
      cases success
      exact Token.fits_of_allShort short
  | function vocabulary source =>
      rw [written] at success
      cases handle : source.resolve vocabulary with
      | error error => simp [handle, bind, Except.bind] at success
      | ok number =>
          cases name : vocabulary.name number with
          | error error => simp [handle, name, bind, Except.bind] at success
          | ok text =>
              simp only [handle, name, bind, Except.bind, pure, Except.pure,
                Except.ok.injEq] at success
              subst success
              exact textFits_of_size (short _ (List.mem_map_of_mem (Vocabulary.mem_of_name name)))
  | basis source =>
      obtain ⟨matrix, -, rfl⟩ := exists_of_map_eq_ok success
      exact Basis.fits_token matrix

/-- A request that is resolved from small lengths is written with lengths that fit. -/
theorem Layout.fits_of_resolve {dictionary : Dictionary} {layout : Layout} {line : RequestLine}
    (success : layout.resolve dictionary = .ok line) (short : AllShort layout.lengths) :
    ∀ token ∈ line.tokens, token.Fits := by
  obtain ⟨arguments, params, tokens, resolved, parameters, written, rfl⟩ := parts_of_resolve success
  intro token member
  rcases List.mem_append.mp member with own | param
  · obtain ⟨argument, inside, source⟩ := exists_of_mem_mapM written own
    obtain ⟨given, known, origin⟩ := exists_of_mem_mapM resolved inside
    refine Argument.fits_of_written source fun length part => ?_
    rw [Argument.lengths_of_resolve origin] at part
    exact short length (List.mem_append_left _ (List.mem_flatMap.mpr ⟨given, known, part⟩))
  · exact ParamSource.fits_of_resolveAll parameters
      (fun length part => short length (List.mem_append_right _ part)) token param

end RibStream
