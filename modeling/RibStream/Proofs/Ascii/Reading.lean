/-
This file reads a text line by line.
A line that was written for a request is read as the form of the request.
-/

import RibStream.Encoding
import RibStream.Proofs.Ascii.Form

namespace RibStream

namespace Item

/-- The lexemes of an item. -/
def lexemes : Item Ascii.Atom → List Ascii.Lexeme
  | single atom => [.atom atom]
  | array atoms => .arrayBegin :: (atoms.map .atom ++ [.arrayEnd])

end Item

namespace Ascii

theorem newline_not_mem_array (items : List (List UInt8))
    (free : ∀ item ∈ items, newline ∉ item) : newline ∉ array items := by
  have inside : newline ∉ [space].intercalate items := by
    induction items with
    | nil => exact List.not_mem_nil
    | cons first items inductionHypothesis =>
        have none := free first List.mem_cons_self
        have others := inductionHypothesis fun item member => free item (List.mem_cons_of_mem _ member)
        cases items with
        | nil =>
            rw [List.intercalate_singleton]
            exact none
        | cons second items =>
            rw [List.intercalate_cons_cons, List.mem_append, List.mem_append, not_or, not_or]
            exact ⟨⟨none, by decide⟩, others⟩
  rw [array, List.mem_cons, List.mem_append, not_or, not_or]
  exact ⟨by decide, inside, by decide⟩

/-- Puts lexemes together. Inside of an array its atoms so far are given. -/
def group? : Option (List Atom) → List Lexeme → Option (List (Item Atom))
  | none, [] => some []
  | none, .atom atom :: rest => (group? none rest).map (.single atom :: ·)
  | none, .arrayBegin :: rest => group? (some []) rest
  | none, .arrayEnd :: _ => none
  | some _, [] => none
  | some atoms, .atom atom :: rest => group? (some (atoms ++ [atom])) rest
  | some _, .arrayBegin :: _ => none
  | some atoms, .arrayEnd :: rest => (group? none rest).map (.array atoms :: ·)

/-- The first word of a line is the name of the request. The rest of the line are its arguments. -/
def readLine? (line : List UInt8) : Option Form :=
  let text := Lexeme.skipSpaces line
  ((Lexeme.readAll? (text.dropWhile (· != space))).bind (group? none)).map fun items =>
    ⟨text.takeWhile (· != space), items⟩

/-- Nothing is requested by a blank line or by a line that starts with a hash. -/
def isIdle (line : List UInt8) : Bool :=
  match (Lexeme.skipSpaces line).head? with
  | none => true
  | some first => first == hash

/-- The requests in a text, one from each line that is not idle. -/
def read? (bytes : List UInt8) : Option (List Form) :=
  ((bytes.splitOn newline).filter (!isIdle ·)).mapM readLine?

theorem group?_array (before atoms : List Atom) (rest : List Lexeme) :
    group? (some before) (atoms.map .atom ++ .arrayEnd :: rest) =
      (group? none rest).map (.array (before ++ atoms) :: ·) := by
  induction atoms generalizing before with
  | nil => rw [List.append_nil, List.map_nil, List.nil_append, group?]
  | cons atom atoms inductionHypothesis =>
      rw [List.map_cons, List.cons_append, group?, inductionHypothesis, List.append_assoc,
        List.singleton_append]

/-- The lexemes of items are put together to these items. -/
theorem group?_flatMap (items : List (Item Atom)) :
    group? none (items.flatMap Item.lexemes) = some items := by
  induction items with
  | nil => rfl
  | cons item items inductionHypothesis =>
      rw [List.flatMap_cons]
      cases item with
      | single atom =>
          rw [Item.lexemes, List.singleton_append, group?, inductionHypothesis]
          rfl
      | array atoms =>
          rw [Item.lexemes, List.cons_append, group?, List.append_assoc, List.singleton_append,
            group?_array, inductionHypothesis]
          rfl

end Ascii

namespace Scalar

def bytes : Scalar → List UInt8
  | .int value => Ascii.int value
  | .float value => Ascii.float value
  | .string value => Ascii.string value

theorem readsAs_bytes (value : Scalar) (finite : value.Finite) :
    Ascii.ReadsAs value.bytes [.atom value.atom] := by
  cases value with
  | int value =>
      obtain ⟨numeral, read, -⟩ := Decimal.read?_integer value.toInt
      exact .numeral read
  | float value =>
      obtain ⟨numeral, read, -⟩ := Decimal.read?_single value finite
      exact .numeral read
  | string value => exact .string value

/-- A numeral has only bytes of its own, and a string only plain ones. -/
theorem newline_not_mem_bytes (value : Scalar) (finite : value.Finite) :
    Ascii.newline ∉ value.bytes := by
  have outside {text : List Char} {numeral : Numeral} (read : Numeral.read? text = some numeral) :
      Ascii.newline ∉ Ascii.characters text := by
    intro member
    have part := Ascii.isNumeralByte_of_mem_characters read _ member
    revert part
    decide
  cases value with
  | int value =>
      obtain ⟨numeral, read, -⟩ := Decimal.read?_integer value.toInt
      exact outside read
  | float value =>
      obtain ⟨numeral, read, -⟩ := Decimal.read?_single value finite
      exact outside read
  | string value =>
      intro member
      have plain := Text.isPlain_of_mem_quoted _ _ member
      revert plain
      decide

end Scalar

namespace Item

def bytes : Item Scalar → List UInt8
  | single value => value.bytes
  | array values => Ascii.array (values.map Scalar.bytes)

theorem readsAs_bytes (item : Item Scalar) (finite : ∀ value ∈ item.values, value.Finite) :
    Ascii.ReadsAs item.bytes (item.map Scalar.atom).lexemes := by
  cases item with
  | single value => exact value.readsAs_bytes (finite value List.mem_cons_self)
  | array values =>
      apply Ascii.ReadsAs.array
      rw [List.forall₂_map_left_iff, List.forall₂_map_right_iff, List.forall₂_map_right_iff,
        List.forall₂_same]
      exact fun value member => value.readsAs_bytes (finite value member)

theorem newline_not_mem_bytes (item : Item Scalar) (finite : ∀ value ∈ item.values, value.Finite) :
    Ascii.newline ∉ item.bytes := by
  cases item with
  | single value => exact value.newline_not_mem_bytes (finite value List.mem_cons_self)
  | array values =>
      apply Ascii.newline_not_mem_array
      intro text member
      obtain ⟨value, inside, rfl⟩ := List.mem_map.mp member
      exact value.newline_not_mem_bytes (finite value inside)

end Item

namespace Ascii

theorem token_eq (value : Token) : token value = value.item.bytes := by
  cases value with
  | int value => rfl
  | float value => rfl
  | string value => rfl
  | ints values =>
      rw [token, Token.item, Item.bytes, List.map_map]
      rfl
  | floats values =>
      rw [token, Token.item, Item.bytes, List.map_map]
      rfl
  | strings values =>
      rw [token, Token.item, Item.bytes, List.map_map]
      rfl

/-- The tokens of a request, each after a space. -/
def arguments (tokens : List Token) : List UInt8 :=
  tokens.flatMap fun value => space :: token value

theorem readsAs_arguments (tokens : List Token) (finite : AllFinite (tokens.flatMap Token.singles)) :
    ReadsAs (arguments tokens)
      (tokens.flatMap fun token => (token.item.map Scalar.atom).lexemes) := by
  induction tokens with
  | nil => exact .nil
  | cons first tokens inductionHypothesis =>
      rw [List.flatMap_cons, allFinite_append] at finite
      have reads := first.item.readsAs_bytes (first.finite_of_mem_item finite.1)
      have others := inductionHypothesis finite.2
      rw [arguments, List.flatMap_cons, List.flatMap_cons, token_eq]
      apply reads.space_cons.append others
      intro rest stops
      cases tokens with
      | nil => exact stops
      | cons next tokens => exact Stops.cons (by decide) _

theorem readAll?_arguments (tokens : List Token) (finite : AllFinite (tokens.flatMap Token.singles)) :
    (Lexeme.readAll? (arguments tokens)).bind (group? none) =
      some (tokens.map fun token => token.item.map Scalar.atom) := by
  have ended : Stops [] := by
    intro next absent
    cases absent
  have read := readsAs_arguments tokens finite [] [] ended Lexeme.readAll?_nil
  rw [List.append_nil, List.append_nil] at read
  rw [read, Option.bind_some, ← group?_flatMap, List.flatMap_map]

theorem newline_not_mem_arguments (tokens : List Token)
    (finite : AllFinite (tokens.flatMap Token.singles)) : newline ∉ arguments tokens := by
  intro member
  obtain ⟨value, inside, part⟩ := List.mem_flatMap.mp member
  rw [token_eq] at part
  rcases List.mem_cons.mp part with blank | text
  · revert blank
    decide
  · have known := (allFinite_flatMap tokens Token.singles).mp finite value inside
    exact value.item.newline_not_mem_bytes (value.finite_of_mem_item known) text

/-- The name is a word that cannot be taken for a comment. -/
def IsName (name : String) : Prop :=
  Text.bytes name ≠ [] ∧ ∀ byte ∈ Text.bytes name, byte ∉ [space, newline, hash]

instance (name : String) : Decidable (IsName name) :=
  inferInstanceAs (Decidable (_ ∧ _))

/-- The line of a request without its end. -/
def line (depth : Nat) (request : RequestLine) : List UInt8 :=
  indentation depth ++ (Text.bytes request.name ++ arguments request.tokens)

theorem newline_not_mem_indentation (depth : Nat) : newline ∉ indentation depth := by
  intro member
  have blank : newline = space := List.eq_of_mem_replicate member
  revert blank
  decide

/-- The indentation is all that is skipped in front of a visible byte. -/
theorem skipSpaces_indentation (depth : Nat) {first : UInt8} (visible : first ≠ space)
    (rest : List UInt8) :
    Lexeme.skipSpaces (indentation depth ++ first :: rest) = first :: rest := by
  have blank : ∀ byte ∈ indentation depth, (byte == space) = true := by
    intro byte member
    exact beq_iff_eq.mpr (List.eq_of_mem_replicate member)
  rw [Lexeme.skipSpaces, List.dropWhile_append_of_pos blank]
  simp [visible]

theorem newline_not_mem_line (depth : Nat) (request : RequestLine) (named : IsName request.name)
    (finite : AllFinite request.singles) : newline ∉ line depth request := by
  intro member
  rcases List.mem_append.mp member with blank | text
  · exact newline_not_mem_indentation depth blank
  · rcases List.mem_append.mp text with inName | inTokens
    · exact named.2 newline inName (by decide)
    · exact newline_not_mem_arguments request.tokens finite inTokens

/-- A request is read as its form. -/
theorem readLine?_line (depth : Nat) (request : RequestLine) (named : IsName request.name)
    (finite : AllFinite request.singles) :
    isIdle (line depth request) = false ∧ readLine? (line depth request) = some request.form := by
  obtain ⟨nonempty, letters⟩ := named
  obtain ⟨first, others, spelled⟩ := List.exists_cons_of_ne_nil nonempty
  have word : ∀ byte ∈ Text.bytes request.name, (byte != space) = true := by
    intro byte member
    have other := letters byte member
    simp only [List.mem_cons, not_or] at other
    exact bne_iff_ne.mpr other.1
  have ends : (arguments request.tokens).takeWhile (· != space) = [] ∧
      (arguments request.tokens).dropWhile (· != space) = arguments request.tokens := by
    cases request.tokens with
    | nil => exact ⟨rfl, rfl⟩
    | cons token tokens => exact ⟨rfl, rfl⟩
  have letter := letters first (spelled ▸ List.mem_cons_self)
  simp only [List.mem_cons, not_or, List.not_mem_nil, not_false_eq_true, and_true] at letter
  have skipped : Lexeme.skipSpaces (line depth request) =
      Text.bytes request.name ++ arguments request.tokens := by
    rw [line, spelled, List.cons_append, skipSpaces_indentation depth letter.1]
  constructor
  · rw [isIdle, skipped, spelled]
    exact beq_eq_false_iff_ne.mpr letter.2.2
  · rw [readLine?, skipped, List.takeWhile_append_of_pos word, List.dropWhile_append_of_pos word,
      ends.1, ends.2, readAll?_arguments request.tokens finite, List.append_nil]
    rfl

/-- The reader goes on after each line. -/
theorem read?_append (text rest : List UInt8) (whole : newline ∉ text) :
    read? (text ++ newline :: rest) =
      if isIdle text then read? rest
      else (readLine? text).bind fun form => (read? rest).map (form :: ·) := by
  rw [read?, List.splitOn_append_cons_self_of_not_mem whole, List.filter_cons]
  cases idle : isIdle text with
  | true => rfl
  | false =>
      rw [if_pos (by rfl), if_neg Bool.false_ne_true, List.mapM_cons]
      simp only [read?, Option.map_eq_bind]
      rfl

/-- A line that was written adds its request in front. -/
theorem read?_line (depth : Nat) (request : RequestLine) (named : IsName request.name)
    (finite : AllFinite request.singles) (rest : List UInt8) :
    read? (line depth request ++ newline :: rest) = (read? rest).map (request.form :: ·) := by
  obtain ⟨busy, read⟩ := readLine?_line depth request named finite
  rw [read?_append _ rest (newline_not_mem_line depth request named finite), busy,
    if_neg Bool.false_ne_true, read]
  rfl

/-- A comment of one line adds nothing. -/
theorem read?_comment (depth : Nat) (text : String) (plain : newline ∉ Text.bytes text)
    (rest : List UInt8) :
    read? (indentation depth ++ hash :: Text.bytes text ++ newline :: rest) = read? rest := by
  have whole : newline ∉ indentation depth ++ hash :: Text.bytes text := by
    rw [List.mem_append, List.mem_cons, not_or, not_or]
    exact ⟨newline_not_mem_indentation depth, by decide, plain⟩
  have idle : isIdle (indentation depth ++ hash :: Text.bytes text) = true := by
    rw [isIdle, skipSpaces_indentation depth (by decide)]
    rfl
  rw [read?_append _ rest whole, if_pos idle]

end Ascii

end RibStream
