/-
This file takes the text of a request apart into strings, numerals and brackets.
A numeral ends where no further character can be part of it.
-/

import RibStream.Encoding.Ascii
import RibStream.Proofs.Decimal.Numeral
import RibStream.Proofs.Text.Unquote

namespace RibStream

namespace Text

/-- A text of characters below 128 has one byte for each of them. -/
theorem bytes_ofList_ascii (text : List Char) (ascii : ∀ character ∈ text, character.toNat < 128) :
    bytes (String.ofList text) = text.map Char.toUInt8 := by
  rw [bytes, String.toUTF8_eq_toByteArray, String.toByteArray_ofList]
  induction text with
  | nil => rfl
  | cons character text inductionHypothesis =>
      have small : character.val.toNat < 128 := ascii character List.mem_cons_self
      have rest := inductionHypothesis fun other member => ascii other (List.mem_cons_of_mem _ member)
      have single : character.utf8Size = 1 := by
        apply Char.utf8Size_eq_one_iff.mpr
        show character.val.toNat ≤ 127
        omega
      rw [List.utf8Encode_cons, List.utf8Encode_singleton,
        String.utf8EncodeChar_eq_singleton single, List.map_cons, ← rest]
      simp

end Text

namespace Ascii

/-- A byte that can stand in a numeral. -/
def isNumeralByte (byte : UInt8) : Bool :=
  Numeral.isPart (Char.ofUInt8 byte)

/-- A string without its quotes and escapes, or a numeral as it is written. -/
inductive Atom where
  | string (bytes : List UInt8)
  | numeral (text : List Char)
deriving DecidableEq

inductive Lexeme where
  | atom (atom : Atom)
  | arrayBegin
  | arrayEnd
deriving DecidableEq

namespace Lexeme

/-- The numeral that takes up the bytes as far as they can belong to it. -/
def readNumeral? (bytes : List UInt8) : Option (Lexeme × List UInt8) :=
  let text := (bytes.takeWhile isNumeralByte).map Char.ofUInt8
  if (Numeral.read? text).isSome then
    some (.atom (.numeral text), bytes.dropWhile isNumeralByte)
  else none

/-- The lexeme at the front of the bytes. -/
def read? : List UInt8 → Option (Lexeme × List UInt8)
  | [] => none
  | first :: rest =>
      if first = Text.quote then
        (Text.readBody? rest).map fun (bytes, rest) => (.atom (.string bytes), rest)
      else if first = 0x5B then some (.arrayBegin, rest)
      else if first = 0x5D then some (.arrayEnd, rest)
      else readNumeral? (first :: rest)

def skipSpaces (bytes : List UInt8) : List UInt8 :=
  bytes.dropWhile (· == space)

theorem length_skipSpaces_le (bytes : List UInt8) : (skipSpaces bytes).length ≤ bytes.length :=
  (List.dropWhile_sublist _).length_le

/-- All lexemes of a text. Spaces separate them and are of no further meaning. -/
def readAll? (bytes : List UInt8) : Option (List Lexeme) :=
  if (skipSpaces bytes).isEmpty then some []
  else
    match read? (skipSpaces bytes) with
    | some (lexeme, rest) =>
        if rest.length < (skipSpaces bytes).length then (readAll? rest).map (lexeme :: ·) else none
    | none => none
termination_by bytes.length
decreasing_by
  have shorter := length_skipSpaces_le bytes
  omega

end Lexeme

/-- The bytes cannot continue a numeral. -/
def Stops (bytes : List UInt8) : Prop :=
  ∀ next ∈ bytes.head?, isNumeralByte next = false

theorem Stops.cons {first : UInt8} (other : isNumeralByte first = false) (rest : List UInt8) :
    Stops (first :: rest) := by
  intro next head
  cases head
  exact other

/-- The text is read as the given lexemes, whatever follows without continuing a numeral. -/
def ReadsAs (text : List UInt8) (lexemes : List Lexeme) : Prop :=
  ∀ rest more, Stops rest → Lexeme.readAll? rest = some more →
    Lexeme.readAll? (text ++ rest) = some (lexemes ++ more)

theorem toNat_lt_of_isPart {character : Char} (part : Numeral.isPart character = true) :
    character.toNat < 128 := by
  rw [Numeral.isPart, Bool.or_eq_true] at part
  rcases part with digit | sign
  · rw [Char.isDigit, Bool.and_eq_true, decide_eq_true_eq, decide_eq_true_eq] at digit
    have most : character.val.toNat ≤ 57 := digit.2
    show character.val.toNat < 128
    omega
  · simp only [List.contains_eq_mem, List.mem_cons, List.not_mem_nil, or_false,
      decide_eq_true_eq] at sign
    rcases sign with rfl | rfl | rfl | rfl <;> decide

theorem ofUInt8_toUInt8 {character : Char} (ascii : character.toNat < 128) :
    Char.ofUInt8 character.toUInt8 = character := by
  have small : character.val.toNat < 128 := ascii
  apply Char.ext
  apply UInt32.toNat_inj.mp
  show character.val.toUInt8.toUInt32.toNat = character.val.toNat
  rw [UInt8.toNat_toUInt32, UInt32.toNat_toUInt8]
  omega

/-- The text of a numeral has one byte for each character. -/
theorem characters_eq_map {text : List Char} {numeral : Numeral}
    (read : Numeral.read? text = some numeral) : characters text = text.map Char.toUInt8 := by
  apply Text.bytes_ofList_ascii
  intro character member
  exact toNat_lt_of_isPart ((Numeral.isPart_of_read? read).2 character member)

theorem map_ofUInt8_characters {text : List Char} {numeral : Numeral}
    (read : Numeral.read? text = some numeral) : (characters text).map Char.ofUInt8 = text := by
  have back : text.map (Char.ofUInt8 ∘ Char.toUInt8) = text.map id := by
    apply List.map_congr_left
    intro character member
    exact ofUInt8_toUInt8 (toNat_lt_of_isPart ((Numeral.isPart_of_read? read).2 character member))
  rw [characters_eq_map read, List.map_map, back, List.map_id]

theorem isNumeralByte_of_mem_characters {text : List Char} {numeral : Numeral}
    (read : Numeral.read? text = some numeral) :
    ∀ byte ∈ characters text, isNumeralByte byte = true := by
  have parts := (Numeral.isPart_of_read? read).2
  rw [← map_ofUInt8_characters read] at parts
  intro byte member
  exact parts _ (List.mem_map_of_mem member)

namespace Lexeme

theorem readAll?_nil : readAll? [] = some [] := by
  rw [readAll?]
  rfl

theorem readAll?_space (rest : List UInt8) : readAll? (space :: rest) = readAll? rest := by
  rw [readAll?, readAll?]
  rfl

/-- A lexeme that ends where the rest begins comes before the lexemes of the rest. -/
theorem readAll?_append {first : UInt8} (others : List UInt8) {rest : List UInt8}
    {lexeme : Lexeme} {more : List Lexeme} (visible : first ≠ space)
    (read : read? (first :: others ++ rest) = some (lexeme, rest))
    (later : readAll? rest = some more) :
    readAll? (first :: others ++ rest) = some (lexeme :: more) := by
  have kept : skipSpaces (first :: others ++ rest) = first :: others ++ rest := by
    simp [skipSpaces, visible]
  have shorter : rest.length < (first :: others ++ rest).length := by
    rw [List.length_append, List.length_cons]
    omega
  rw [readAll?, kept, if_neg (by simp), read]
  simp only [if_pos shorter, later, Option.map_some]

/-- A byte of a numeral has no other meaning. -/
theorem read?_of_isNumeralByte {first : UInt8} (part : isNumeralByte first = true)
    (rest : List UInt8) : read? (first :: rest) = readNumeral? (first :: rest) := by
  have noQuote : first ≠ Text.quote := by
    rintro rfl
    revert part
    decide
  have noBegin : first ≠ 0x5B := by
    rintro rfl
    revert part
    decide
  have noEnd : first ≠ 0x5D := by
    rintro rfl
    revert part
    decide
  rw [read?, if_neg noQuote, if_neg noBegin, if_neg noEnd]

theorem readNumeral?_append {text : List Char} {numeral : Numeral}
    (read : Numeral.read? text = some numeral) {rest : List UInt8} (stops : Stops rest) :
    readNumeral? (characters text ++ rest) = some (.atom (.numeral text), rest) := by
  have inside : ∀ byte ∈ characters text, isNumeralByte byte = true :=
    isNumeralByte_of_mem_characters read
  have outside : rest.takeWhile isNumeralByte = [] ∧ rest.dropWhile isNumeralByte = rest := by
    cases rest with
    | nil => exact ⟨rfl, rfl⟩
    | cons next rest =>
        have other : isNumeralByte next = false := stops next rfl
        simp [other]
  rw [readNumeral?, List.takeWhile_append_of_pos inside, List.dropWhile_append_of_pos inside,
    outside.1, outside.2, List.append_nil, map_ofUInt8_characters read, read]
  rfl

end Lexeme

namespace ReadsAs

theorem nil : ReadsAs [] [] := by
  intro rest more _ read
  exact read

/-- Texts can be put together where the second one cannot continue a numeral. -/
theorem append {first second : List UInt8} {before after : List Lexeme}
    (reads : ReadsAs first before) (next : ReadsAs second after)
    (stops : ∀ rest, Stops rest → Stops (second ++ rest)) :
    ReadsAs (first ++ second) (before ++ after) := by
  intro rest more stopped read
  rw [List.append_assoc, List.append_assoc]
  exact reads _ _ (stops rest stopped) (next rest more stopped read)

theorem space_cons {text : List UInt8} {lexemes : List Lexeme} (reads : ReadsAs text lexemes) :
    ReadsAs (space :: text) lexemes := by
  intro rest more stops read
  rw [List.cons_append, Lexeme.readAll?_space]
  exact reads rest more stops read

theorem arrayBegin_cons {text : List UInt8} {lexemes : List Lexeme}
    (reads : ReadsAs text lexemes) : ReadsAs (0x5B :: text) (.arrayBegin :: lexemes) := by
  intro rest more stops read
  exact Lexeme.readAll?_append [] (by decide) rfl (reads rest more stops read)

theorem arrayEnd : ReadsAs [0x5D] [.arrayEnd] := by
  intro rest more _ read
  exact Lexeme.readAll?_append [] (by decide) rfl read

theorem string (value : String) :
    ReadsAs (Ascii.string value) [.atom (.string (Text.bytes value))] := by
  intro rest more _ read
  apply Lexeme.readAll?_append _ (by decide) ?_ read
  rw [List.cons_append, Lexeme.read?, if_pos rfl, List.append_assoc, List.singleton_append,
    Text.readBody?_flatMap]
  rfl

theorem numeral {text : List Char} {numeral : Numeral}
    (read : Numeral.read? text = some numeral) :
    ReadsAs (characters text) [.atom (.numeral text)] := by
  intro rest more stops later
  have whole := Lexeme.readNumeral?_append read stops
  have parts := isNumeralByte_of_mem_characters read
  cases written : characters text with
  | nil =>
      have none : text = [] := by
        rw [← map_ofUInt8_characters read, written]
        rfl
      exact absurd none (Numeral.isPart_of_read? read).1
  | cons first others =>
      rw [written] at whole parts
      have part : isNumeralByte first = true := parts first List.mem_cons_self
      have visible : first ≠ space := by
        intro blank
        rw [blank] at part
        revert part
        decide
      apply Lexeme.readAll?_append _ visible ?_ later
      rw [List.cons_append, Lexeme.read?_of_isNumeralByte part]
      exact whole

/-- Items between brackets are read between brackets. -/
theorem array (items : List (List UInt8)) (lexemes : List Lexeme)
    (reads : List.Forall₂ (fun item lexeme => ReadsAs item [lexeme]) items lexemes) :
    ReadsAs (Ascii.array items) (.arrayBegin :: (lexemes ++ [.arrayEnd])) := by
  have separated : ReadsAs ([space].intercalate items) lexemes := by
    induction reads with
    | nil => exact nil
    | cons read others inductionHypothesis =>
        cases others with
        | nil =>
            rw [List.intercalate_singleton]
            exact read
        | cons second others =>
            rw [List.intercalate_cons_cons, List.append_assoc, List.singleton_append]
            exact read.append inductionHypothesis.space_cons fun rest _ =>
              Stops.cons (by decide) _
  exact (separated.append arrayEnd fun rest _ => Stops.cons (by decide) rest).arrayBegin_cons

end ReadsAs

end Ascii

end RibStream
