/-
This file reads the requests of a binary stream.
A reader knows the opcodes and the request codes that the stream has defined so far, nothing else.
-/

import RibStream.Proofs.Binary.Lexeme
import RibStream.Request.Layout

namespace RibStream

/-- The token that a reader sees. An array without items has no type in a binary stream. -/
def Token.reading : Token → Token
  | .strings [] => .ints []
  | token => token

def RequestLine.reading (line : RequestLine) : RequestLine :=
  ⟨line.name, line.tokens.map Token.reading⟩

namespace Binary

/-- The state of a reader: the codes defined so far, the requests that are complete, the request that
is being read, and the items of the array that is open. -/
structure Reading where
  codes : List (UInt8 × String)
  complete : List RequestLine
  current : Option RequestLine
  array : Option Token

namespace Reading

/-- A reader before the first request, who knows some codes already. -/
def start (codes : List (UInt8 × String)) : Reading := ⟨codes, [], none, none⟩

def requests (reading : Reading) : List RequestLine :=
  reading.complete ++ reading.current.toList

/-- The state with another request that is being read. -/
def within (reading : Reading) (line : RequestLine) : Reading :=
  { reading with current := some line }

/-- A token belongs to the request that is being read. -/
def add (reading : Reading) (token : Token) : Option Reading :=
  reading.current.map fun line => reading.within ⟨line.name, line.tokens ++ [token]⟩

/-- All items of an array have the type of the first one. -/
def extend : Token → Lexeme → Option Token
  | .ints values, .int value => some (.ints (values ++ [value]))
  | .ints [], .string value => some (.strings [value])
  | .strings values, .string value => some (.strings (values ++ [value]))
  | _, _ => none

def step (reading : Reading) (lexeme : Lexeme) : Option Reading :=
  match reading.array, lexeme with
  | some items, .arrayEnd => { reading with array := none }.add items
  | some items, lexeme =>
      (extend items lexeme).map fun items => { reading with array := some items }
  | none, .int value => reading.add (.int value)
  | none, .float value => reading.add (.float value)
  | none, .string value => reading.add (.string value)
  | none, .floats values => reading.add (.floats values)
  | none, .arrayBegin => some { reading with array := some (.ints []) }
  | none, .arrayEnd => none
  | none, .defineRequest code name => some { reading with codes := (code, name) :: reading.codes }
  | none, .useRequest code =>
      (reading.codes.lookup code).map fun name =>
        { reading with complete := reading.requests, current := some ⟨name, []⟩ }

def steps (reading : Reading) (lexemes : List Lexeme) : Option Reading :=
  lexemes.foldlM step reading

end Reading

/-- The requests of a part of a stream, where some codes have been defined before it. -/
def decodeFrom? (codes : List (UInt8 × String)) (bytes : List UInt8) : Option (List RequestLine) := do
  let lexemes ← Lexeme.readAll? bytes
  let reading ← (Reading.start codes).steps lexemes
  if reading.array.isNone then some reading.requests else none

/-- The requests of a stream. -/
def decode? (bytes : List UInt8) : Option (List RequestLine) :=
  decodeFrom? [] bytes

end Binary

namespace Token

open Binary

/-- The lexemes of a token. Only arrays of integers and of strings have more than one. -/
def lexemes : Token → List Lexeme
  | .int value => [.int value]
  | .float value => [.float value]
  | .string value => [.string value]
  | .ints values => .arrayBegin :: (values.map .int ++ [.arrayEnd])
  | .floats values => [.floats values]
  | .strings values => .arrayBegin :: (values.map .string ++ [.arrayEnd])

/-- The lengths in a token are small enough to be written. -/
def Fits : Token → Prop
  | .string value => TextFits value
  | .floats values => values.length < lengthLimit
  | .strings values => ∀ value ∈ values, TextFits value
  | _ => True

instance (token : Token) : Decidable token.Fits :=
  match token with
  | .int _ | .float _ | .ints _ => inferInstanceAs (Decidable True)
  | .string value => inferInstanceAs (Decidable (TextFits value))
  | .floats _ => inferInstanceAs (Decidable (_ < _))
  | .strings values => inferInstanceAs (Decidable (∀ value ∈ values, TextFits value))

theorem array_eq {Item : Type} (lexeme : Item → Lexeme) (items : List Item) :
    array (items.map fun item => (lexeme item).encoded) =
      .concat ((Lexeme.arrayBegin :: (items.map lexeme ++ [.arrayEnd])).map Lexeme.encoded) := by
  rw [array, List.map_cons, List.map_append, List.map_map, Encoded.concat_cons,
    Encoded.concat_append]
  rfl

theorem binary_eq (token : Token) : Binary.token token = .concat (token.lexemes.map Lexeme.encoded) := by
  cases token with
  | ints values => exact array_eq .int values
  | strings values => exact array_eq .string values
  | _ =>
      rw [lexemes, List.map_singleton, Encoded.concat_cons, Encoded.concat_nil,
        Encoded.append_whole_nil]
      rfl

/-- What a reader sees of a token decides its bytes. -/
theorem binary_reading (token : Token) : Binary.token token.reading = Binary.token token := by
  cases token with
  | strings values => cases values <;> rfl
  | _ => rfl

theorem fits_lexemes (token : Token) (fits : token.Fits) :
    ∀ lexeme ∈ token.lexemes, lexeme.Fits := by
  intro lexeme member
  cases token with
  | ints values =>
      simp only [lexemes, List.mem_cons, List.mem_append, List.mem_map, List.not_mem_nil,
        or_false] at member
      rcases member with rfl | ⟨value, -, rfl⟩ | rfl <;> trivial
  | strings values =>
      simp only [lexemes, List.mem_cons, List.mem_append, List.mem_map, List.not_mem_nil,
        or_false] at member
      rcases member with rfl | ⟨value, inside, rfl⟩ | rfl
      · trivial
      · exact fits value inside
      · trivial
  | _ =>
      rw [lexemes, List.mem_singleton] at member
      subst member
      exact fits

/-- The lengths in a token are those of its lexemes. -/
theorem fits_iff (token : Token) : token.Fits ↔ ∀ lexeme ∈ token.lexemes, lexeme.Fits := by
  refine ⟨token.fits_lexemes, fun fits => ?_⟩
  cases token with
  | strings values =>
      intro value member
      refine fits (.string value) (List.mem_cons_of_mem _ (List.mem_append_left _ ?_))
      exact List.mem_map_of_mem member
  | ints values => trivial
  | _ => exact fits _ List.mem_cons_self

theorem concat_binary_eq (tokens : List Token) :
    Encoded.concat (tokens.map Binary.token) =
      .concat ((tokens.flatMap Token.lexemes).map Lexeme.encoded) := by
  induction tokens with
  | nil => rfl
  | cons token tokens inductionHypothesis =>
      rw [List.map_cons, Encoded.concat_cons, binary_eq, inductionHypothesis, List.flatMap_cons,
        List.map_append, Encoded.concat_append]

/-- Tokens with small lengths are put out to their end. -/
theorem concat_binary {tokens : List Token} (fits : ∀ token ∈ tokens, token.Fits) :
    Encoded.concat (tokens.map Binary.token) =
      .whole ((tokens.flatMap Token.lexemes).flatMap Lexeme.bytes) := by
  rw [concat_binary_eq, Lexeme.concat_encoded]
  intro lexeme member
  obtain ⟨token, inside, part⟩ := List.mem_flatMap.mp member
  exact token.fits_lexemes (fits token inside) lexeme part

end Token

namespace Binary.Reading

theorem steps_append (reading : Reading) (first second : List Lexeme) :
    reading.steps (first ++ second) = (reading.steps first).bind (·.steps second) :=
  List.foldlM_append

theorem steps_cons (reading : Reading) (lexeme : Lexeme) (lexemes : List Lexeme) :
    reading.steps (lexeme :: lexemes) = (reading.step lexeme).bind (·.steps lexemes) :=
  List.foldlM_cons

/-- Integers are added to the array of integers that is open. -/
theorem steps_ints (reading : Reading) (front values : List Int32) :
    { reading with array := some (.ints front) }.steps (values.map .int) =
      some { reading with array := some (.ints (front ++ values)) } := by
  induction values generalizing front with
  | nil =>
      rw [List.append_nil]
      rfl
  | cons value values inductionHypothesis =>
      rw [List.map_cons, steps_cons]
      change { reading with array := some (.ints (front ++ [value])) }.steps _ = _
      rw [inductionHypothesis, List.append_assoc]
      rfl

theorem steps_strings (reading : Reading) (front values : List String) :
    { reading with array := some (.strings front) }.steps (values.map .string) =
      some { reading with array := some (.strings (front ++ values)) } := by
  induction values generalizing front with
  | nil =>
      rw [List.append_nil]
      rfl
  | cons value values inductionHypothesis =>
      rw [List.map_cons, steps_cons]
      change { reading with array := some (.strings (front ++ [value])) }.steps _ = _
      rw [inductionHypothesis, List.append_assoc]
      rfl

/-- The lexemes of a token add this token to the request that is being read. -/
theorem steps_token (reading : Reading) (outside : reading.array = none) (line : RequestLine)
    (token : Token) :
    (reading.within line).steps token.lexemes =
      some (reading.within ⟨line.name, line.tokens ++ [token.reading]⟩) := by
  obtain ⟨codes, complete, current, array⟩ := reading
  simp only at outside
  subst outside
  cases token with
  | ints values =>
      rw [Token.lexemes, steps_cons]
      change { (⟨codes, complete, some line, none⟩ : Reading) with
        array := some (.ints []) }.steps _ = _
      rw [steps_append, steps_ints]
      rfl
  | strings values =>
      rw [Token.lexemes, steps_cons]
      cases values with
      | nil => rfl
      | cons first others =>
          -- The first item turns the array of unknown type into one of strings.
          change { (⟨codes, complete, some line, none⟩ : Reading) with
            array := some (.strings [first]) }.steps (others.map Lexeme.string ++ [Lexeme.arrayEnd]) = _
          rw [steps_append, steps_strings]
          rfl
  | _ => rfl

theorem steps_tokens (reading : Reading) (outside : reading.array = none) (line : RequestLine)
    (tokens : List Token) :
    (reading.within line).steps (tokens.flatMap Token.lexemes) =
      some (reading.within ⟨line.name, line.tokens ++ tokens.map Token.reading⟩) := by
  induction tokens generalizing line with
  | nil =>
      rw [List.map_nil, List.append_nil]
      rfl
  | cons token tokens inductionHypothesis =>
      rw [List.flatMap_cons, steps_append, steps_token reading outside line token,
        Option.bind_some, inductionHypothesis, List.map_cons, List.append_assoc,
        List.singleton_append]

end Binary.Reading

end RibStream
