/-
This file says what the bytes of one request show to a reader, in each of the encodings.
Text is described byte for byte, and of a binary request it is said what a reader decodes.
-/

import RibStream.Proofs.Ascii.Reading
import RibStream.Proofs.Decimal.SingleReading
import RibStream.Proofs.Encoding.Named

namespace RibStream

/-- The text of a scalar. An integer is a numeral, a float is a text that is rounded to it, and a
string stands between quotes with its escapes. -/
def Scalar.IsText : Scalar → List UInt8 → Prop
  | .int value, text =>
      ∃ digits numeral, text = Ascii.characters digits ∧ Numeral.read? digits = some numeral ∧
        numeral.number = value.toInt
  | .float value, text =>
      ∃ word, text = Ascii.characters word ∧
        if value.isNaN then word = ['n', 'a', 'n'] else Single.read? word = some value
  | .string value, text => Text.readQuoted? text = some (Text.bytes value, [])

/-- A value that stands alone, or values between brackets with one space between two of them. -/
def Item.IsText : Item Scalar → List UInt8 → Prop
  | .single value, text => value.IsText text
  | .array values, text =>
      ∃ texts, List.Forall₂ Scalar.IsText values texts ∧
        text = 0x5B :: ([Ascii.space].intercalate texts ++ [0x5D])

/-- The text of a request: four spaces for each block around it, its name, its tokens, each after a
space, and the end of the line. -/
def RequestLine.IsText (line : RequestLine) (depth : Nat) (text : List UInt8) : Prop :=
  ∃ texts, List.Forall₂ Item.IsText (line.tokens.map Token.item) texts ∧
    text = List.replicate (4 * depth) Ascii.space ++ Text.bytes line.name ++
      texts.flatMap (Ascii.space :: ·) ++ [Ascii.newline]

/-- The bytes are one request and nothing else. The reader of a binary stream knows the codes that
have been defined before. -/
def Encoding.Shows (encoding : Encoding) (line : RequestLine) (bytes : List UInt8) : Prop :=
  match encoding with
  | .ascii depth => line.IsText depth bytes
  | .binary table =>
      Binary.decodeFrom? (table.codes.map Prod.swap) bytes = some [line.reading]

theorem Scalar.isText_bytes (value : Scalar) : value.IsText value.bytes := by
  cases value with
  | int value =>
      obtain ⟨numeral, read, number⟩ := Decimal.read?_integer value.toInt
      exact ⟨_, numeral, rfl, read, number⟩
  | float value =>
      refine ⟨_, rfl, ?_⟩
      cases number : value.isNaN with
      | true =>
          rw [Decimal.single, number]
          rfl
      | false => exact Single.read?_single number
  | string value =>
      have read := Text.readQuoted?_quoted (Text.bytes value) []
      rwa [List.append_nil] at read

theorem Item.isText_bytes (item : Item Scalar) : item.IsText item.bytes := by
  cases item with
  | single value => exact value.isText_bytes
  | array values =>
      refine ⟨values.map Scalar.bytes, ?_, rfl⟩
      rw [List.forall₂_map_right_iff, List.forall₂_same]
      exact fun value _ => value.isText_bytes

/-- In text the arguments of a request are put out to their end. -/
theorem Encoding.arguments_ascii (depth : Nat) (tokens : List Token) :
    (Encoding.ascii depth).arguments tokens = .whole (Ascii.arguments tokens) := by
  rw [Encoding.arguments, Ascii.arguments, ← Encoded.concat_map_whole]
  rfl

theorem Encoding.shows_ascii (depth : Nat) (line : RequestLine) :
    (Encoding.ascii depth).request line.name line.tokens =
        (.whole (Ascii.line depth line ++ [Ascii.newline]), .ascii depth) ∧
      line.IsText depth (Ascii.line depth line ++ [Ascii.newline]) := by
  constructor
  · rw [request, beginRequest]
    dsimp only
    rw [arguments_ascii, Encoded.whole_append_whole, Encoded.whole_append_whole, Ascii.line,
      ← List.append_assoc]
    rfl
  · refine ⟨line.tokens.map Ascii.token, ?_, ?_⟩
    · rw [List.forall₂_map_left_iff, List.forall₂_map_right_iff, List.forall₂_same]
      intro token _
      rw [Ascii.token_eq]
      exact token.item.isText_bytes
    · rw [Ascii.line, Ascii.arguments, List.flatMap_map, ← List.append_assoc]
      rfl

/-- A reader who knows the codes so far decodes one more request. -/
theorem Encoding.shows_binary {table : Binary.CodeTable} (named : table.Named) {line : RequestLine}
    (known : line.name ∈ Request.names) (fits : ∀ token ∈ line.tokens, token.Fits) :
    Binary.decodeFrom? (table.codes.map Prod.swap)
      ((Encoding.binary table).request line.name line.tokens).1.bytes = some [line.reading] := by
  obtain ⟨names, rfl, distinct, inside⟩ := named
  have room := Binary.CodeTable.length_lt_capacity distinct inside
  obtain ⟨opening, codes, begun, openingFits, -, begins⟩ := Binary.steps_beginRequest
    (.start ((Binary.CodeTable.ofNames names).codes.map Prod.swap))
    (Binary.known_ofNames distinct (Nat.le_of_lt room)) rfl (Binary.textFits_of_mem known) (.inr room)
  have bytes : ((Encoding.binary (.ofNames names)).request line.name line.tokens).1.bytes =
      (opening ++ line.tokens.flatMap Token.lexemes).flatMap Binary.Lexeme.bytes := by
    rw [request, beginRequest, begun]
    show ((Encoded.whole _ ++ Encoded.concat (line.tokens.map Binary.token)) ++ .whole []).bytes = _
    rw [Token.concat_binary fits, Encoded.append_whole_nil, Encoded.whole_append_whole,
      Encoded.bytes_whole, List.flatMap_append]
  have allFit : ∀ lexeme ∈ opening ++ line.tokens.flatMap Token.lexemes, lexeme.Fits := by
    intro lexeme member
    rcases List.mem_append.mp member with front | back
    · exact openingFits lexeme front
    · obtain ⟨token, own, part⟩ := List.mem_flatMap.mp back
      exact token.fits_lexemes (fits token own) lexeme part
  have reads := Binary.Reading.steps_tokens ⟨codes, [], some ⟨line.name, []⟩, none⟩ rfl
    ⟨line.name, []⟩ line.tokens
  rw [bytes, Binary.decodeFrom?, Binary.Lexeme.readAll?_flatMap _ allFit]
  show ((Binary.Reading.start _).steps _).bind _ = _
  rw [Binary.Reading.steps_append, begins, Option.bind_some]
  show Option.bind (Binary.Reading.steps
    ((⟨codes, [], some ⟨line.name, []⟩, none⟩ : Binary.Reading).within ⟨line.name, []⟩) _) _ = _
  rw [reads]
  rfl

/-- What is put out for a request of a writer is that request, if it is put out to the end. -/
theorem Encoding.shows_request {encoding : Encoding} (named : encoding.Named) {line : RequestLine}
    (known : line.name ∈ Request.names)
    (ended : (encoding.request line.name line.tokens).1.stop = none) :
    encoding.Shows line (encoding.request line.name line.tokens).1.bytes := by
  cases encoding with
  | ascii depth =>
      obtain ⟨written, text⟩ := shows_ascii depth line
      rw [written]
      exact text
  | binary table =>
      have fits := (request_named named known line.tokens).2.2.mp ended
      exact shows_binary named known fits

end RibStream
