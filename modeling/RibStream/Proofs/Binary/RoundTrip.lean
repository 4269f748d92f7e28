/-
This file proves that a reader gets back every request that was written in binary.
-/

import RibStream.Proofs.Binary.Known
import RibStream.Proofs.Request.Layout
import RibStream.Proofs.Stream.Unlimited

namespace RibStream

/-- A value that is printed in one call. -/
inductive Printed where
  | int (value : Int32)
  | float (value : Single)
  | string (value : String)
  | ints (values : List Int32)
  | floats (values : List Single)
  | strings (values : List String)
  | triple (value : Triple)
  | param (value : Param)
deriving DecidableEq

namespace Printed

/-- The tokens that the call writes. -/
def tokens : Printed → List Token
  | int value => [.int value]
  | float value => [.float value]
  | string value => [.string value]
  | ints values => [.ints values]
  | floats values => [.floats values]
  | strings values => [.strings values]
  | triple value => Token.triple value
  | param value => Token.param value

/-- What a reader is to see of the value: three floats for a triple, a string and an array for a
parameter, and the value itself otherwise. -/
def spelled : Printed → List Token
  | int value => [.int value]
  | float value => [.float value]
  | string value => [.string value]
  | ints values => [.ints values]
  | floats values => [.floats values]
  | strings values => [.strings values]
  | triple value => value.spelled
  | param value => value.spelled

theorem tokens_eq_spelled (printed : Printed) : printed.tokens = printed.spelled := by
  cases printed with
  | param value => exact Token.param_eq_spelled value
  | _ => rfl

end Printed

/-- A request as it is written call by call: its name, then its values. -/
structure PrintedRequest where
  name : String
  values : List Printed
deriving DecidableEq

namespace PrintedRequest

/-- The request as a reader is to see it. -/
def line (request : PrintedRequest) : RequestLine :=
  ⟨request.name, request.values.flatMap Printed.spelled⟩

/-- All lengths in the request are small enough to be written. -/
def Fits (request : PrintedRequest) : Prop :=
  Binary.TextFits request.name ∧ ∀ token ∈ request.line.tokens, token.Fits

instance (request : PrintedRequest) : Decidable request.Fits :=
  inferInstanceAs (Decidable (_ ∧ _))

end PrintedRequest

namespace Stream

def printValues : List Printed → Stream → Except Error Unit × Stream
  | [], stream => (.ok (), stream)
  | value :: rest, stream => andThen (stream.print value.tokens) (printValues rest)

def submit (request : PrintedRequest) (stream : Stream) : Except Error Unit × Stream :=
  andThen (andThen (stream.beginRequest request.name) (printValues request.values)) endRequest

/-- Writes requests one after the other up to the first failure. -/
def submitAll : List PrintedRequest → Stream → Except Error Unit × Stream
  | [], stream => (.ok (), stream)
  | request :: rest, stream => andThen (stream.submit request) (submitAll rest)

theorem arguments_binary (codes : Binary.CodeTable) (tokens : List Token) :
    (Encoding.binary codes).arguments tokens = .concat (tokens.map Binary.token) := rfl

/-- Nothing stands between two tokens. -/
theorem tokens_binary (codes : Binary.CodeTable) (tokens : List Token) :
    (Encoding.binary codes).tokens tokens = .concat (tokens.map Binary.token) := by
  cases tokens with
  | nil => rfl
  | cons token tokens =>
      rw [Encoding.tokens, arguments_binary]
      rfl

/-- The tokens of several values are written without anything between them. -/
theorem printValues_binary (values : List Printed) (stream : Stream) (codes : Binary.CodeTable)
    (binary : stream.encoding = .binary codes) :
    printValues values stream =
      stream.put (.concat ((values.flatMap Printed.spelled).map Binary.token)) := by
  induction values generalizing stream with
  | nil =>
      rw [printValues, List.flatMap_nil, List.map_nil, Encoded.concat_nil, put_whole, write_nil]
  | cons value values inductionHypothesis =>
      rw [printValues, print, binary, tokens_binary, List.flatMap_cons, List.map_append,
        Encoded.concat_append, put_append, value.tokens_eq_spelled]
      apply andThen_put_congr
      intro written same
      exact inductionHypothesis written (same.trans binary)

/-- A request is its beginning followed by its tokens. -/
theorem submit_binary (request : PrintedRequest) (stream : Stream) (codes : Binary.CodeTable)
    (binary : stream.encoding = .binary codes) :
    stream.submit request =
      { stream with encoding := .binary (Binary.beginRequest codes request.name).2 }.put
        ((Binary.beginRequest codes request.name).1 ++
          Encoded.concat (request.line.tokens.map Binary.token)) := by
  rw [submit, beginRequest, binary, Encoding.beginRequest]
  rcases Binary.beginRequest codes request.name with ⟨opening, next⟩
  dsimp only
  rw [put_append, andThen_assoc]
  apply andThen_put_congr
  intro opened same
  have ends (printed : Stream) (kept : printed.encoding = opened.encoding) :
      endRequest printed = (.ok (), printed) := by
    rw [endRequest, kept, same]
    exact printed.write_nil
  rw [printValues_binary request.values opened next same, andThen_put_congr _ _ ends, andThen_ok]
  rfl

/-- Writing one more request is reading one more request. -/
theorem submitAll_reads (requests : List PrintedRequest) (names : List String) (stream : Stream)
    (reading : Binary.Reading) (binary : stream.encoding = .binary (.ofNames names))
    (unlimited : stream.sink.room = none) (known : Binary.Known names reading.codes)
    (outside : reading.array = none)
    (few : (names ++ requests.map (·.name)).toFinset.card ≤ Binary.CodeTable.capacity)
    (fits : ∀ request ∈ requests, request.Fits) :
    ∃ (lexemes : List Binary.Lexeme) (final : Stream),
      submitAll requests stream = (.ok (), final) ∧
      final.sink.accepted = stream.sink.accepted ++ lexemes.flatMap Binary.Lexeme.bytes ∧
      (∀ lexeme ∈ lexemes, lexeme.Fits) ∧
      ∃ last, reading.steps lexemes = some last ∧ last.array = none ∧
        last.requests = reading.requests ++ requests.map (·.line.reading) := by
  induction requests generalizing names stream reading with
  | nil =>
      refine ⟨[], stream, rfl, by simp, by simp, reading, rfl, outside, ?_⟩
      rw [List.map_nil, List.append_nil]
  | cons request requests inductionHypothesis =>
      obtain ⟨nameFits, tokensFit⟩ := fits request List.mem_cons_self
      obtain ⟨room, fewer⟩ := Binary.room_of_few known few
      obtain ⟨opening, codes, begun, openingFits, nextKnown, openingRead⟩ :=
        Binary.steps_beginRequest reading known outside nameFits room
      let written := opening.flatMap Binary.Lexeme.bytes ++
        (request.line.tokens.flatMap Token.lexemes).flatMap Binary.Lexeme.bytes
      let opened : Stream :=
        { stream with encoding := .binary (.ofNames (Binary.withName names request.name)) }
      have submitted : stream.submit request = (.ok (), opened.append written) := by
        rw [submit_binary request stream _ binary, begun, Token.concat_binary tokensFit,
          Encoded.whole_append_whole, put_whole]
        exact opened.write_unlimited unlimited written
      have tokensRead := Binary.Reading.steps_tokens ⟨codes, reading.requests, none, none⟩ rfl
        ⟨request.name, []⟩ request.line.tokens
      obtain ⟨lexemes, final, finished, accepted, restFits, last, read, closed, requestsRead⟩ :=
        inductionHypothesis (Binary.withName names request.name) (opened.append written)
          ⟨codes, reading.requests, some request.line.reading, none⟩ rfl unlimited nextKnown rfl
          fewer fun other member => fits other (List.mem_cons_of_mem _ member)
      refine ⟨opening ++ request.line.tokens.flatMap Token.lexemes ++ lexemes, final, ?_, ?_, ?_,
        last, ?_, closed, ?_⟩
      · rw [submitAll, submitted]
        exact finished
      · rw [accepted, List.flatMap_append, List.flatMap_append]
        exact (Sink.append_pieces _ _ _).symm
      · intro lexeme member
        rcases List.mem_append.mp member with front | back
        · rcases List.mem_append.mp front with first | second
          · exact openingFits lexeme first
          · obtain ⟨token, inside, part⟩ := List.mem_flatMap.mp second
            exact token.fits_lexemes (tokensFit token inside) lexeme part
        · exact restFits lexeme back
      · rw [Binary.Reading.steps_append, Binary.Reading.steps_append, openingRead]
        show ((Binary.Reading.within ⟨codes, reading.requests, none, none⟩
          ⟨request.name, []⟩).steps _).bind _ = _
        rw [tokensRead]
        exact read
      · rw [requestsRead, List.map_cons]
        simp [Binary.Reading.requests]

/-- Requests that read alike are written alike. -/
theorem submitAll_congr (first second : List PrintedRequest) (codes : Binary.CodeTable)
    (stream : Stream) (binary : stream.encoding = .binary codes)
    (alike : first.map (·.line.reading) = second.map (·.line.reading)) :
    submitAll first stream = submitAll second stream := by
  induction first generalizing second codes stream with
  | nil =>
      have empty : second = [] := List.map_eq_nil_iff.mp alike.symm
      rw [empty]
  | cons request requests inductionHypothesis =>
      obtain ⟨other, others, rfl, same, rest⟩ := List.map_eq_cons_iff.mp alike.symm
      have name : other.name = request.name := congrArg RequestLine.name same
      have tokens : other.line.tokens.map Token.reading = request.line.tokens.map Token.reading :=
        congrArg RequestLine.tokens same
      have bytes : other.line.tokens.map Binary.token = request.line.tokens.map Binary.token := by
        have mapped := congrArg (List.map Binary.token) tokens
        rw [List.map_map, List.map_map] at mapped
        simpa only [Function.comp_def, Token.binary_reading] using mapped
      rw [submitAll, submitAll, submit_binary request stream codes binary,
        submit_binary other stream codes binary, name, bytes]
      apply andThen_put_congr
      intro written kept
      exact inductionHypothesis others _ written kept rest.symm

end Stream

/-- Two tokens read alike exactly when they are the same token or both are empty arrays without
floats. -/
theorem Token.reading_eq_iff (first second : Token) :
    first.reading = second.reading ↔
      first = second ∨ (first = .ints [] ∧ second = .strings []) ∨
        (first = .strings [] ∧ second = .ints []) := by
  have split (token : Token) : token = .strings [] ∨ token.reading = token ∧ token ≠ .strings [] := by
    cases token with
    | strings values =>
        cases values with
        | nil => exact .inl rfl
        | cons value values => exact .inr ⟨rfl, by simp⟩
    | _ => exact .inr ⟨rfl, by simp⟩
  rcases split first with rfl | ⟨firstReads, firstOther⟩
  · rcases split second with rfl | ⟨secondReads, secondOther⟩
    · simp
    · rw [secondReads]
      simp [reading, Ne.symm secondOther, eq_comm]
  · rcases split second with rfl | ⟨secondReads, secondOther⟩
    · rw [firstReads]
      simp [reading, firstOther]
    · rw [firstReads, secondReads]
      simp [firstOther, secondOther]

namespace PrintedRequest

/-- There are codes for all names, and all lengths are small enough. -/
def Writable (requests : List PrintedRequest) : Prop :=
  (requests.map (·.name)).toFinset.card ≤ Binary.CodeTable.capacity ∧
    ∀ request ∈ requests, request.Fits

instance (requests : List PrintedRequest) : Decidable (Writable requests) :=
  inferInstanceAs (Decidable (_ ∧ _))

/-- A reader gets every request back with its tokens. Nothing but an empty array of integers and an
empty array of strings is written alike. -/
theorem decode_submitAll (sink : Sink) (unlimited : sink.room = none)
    (requests : List PrintedRequest) (writable : Writable requests) :
    (∃ (stream : Stream) (bytes : List UInt8),
      Stream.submitAll requests ⟨.startBinary, sink⟩ = (.ok (), stream) ∧
      stream.sink.accepted = sink.accepted ++ bytes ∧
      Binary.decode? bytes = some (requests.map (·.line.reading)) ∧
      ∀ others, Writable others →
        ((Stream.submitAll others ⟨.startBinary, sink⟩).2.sink.accepted = stream.sink.accepted ↔
          others.map (·.line.reading) = requests.map (·.line.reading))) ∧
    ∀ first second : Token, first.reading = second.reading ↔
      first = second ∨ (first = .ints [] ∧ second = .strings []) ∨
        (first = .strings [] ∧ second = .ints []) := by
  have decoded (printed : List PrintedRequest) (allowed : Writable printed) :
      ∃ (stream : Stream) (bytes : List UInt8),
      Stream.submitAll printed ⟨.startBinary, sink⟩ = (.ok (), stream) ∧
        stream.sink.accepted = sink.accepted ++ bytes ∧
        Binary.decode? bytes = some (printed.map (·.line.reading)) := by
    obtain ⟨few, fits⟩ := allowed
    obtain ⟨lexemes, stream, submitted, accepted, lexemesFit, last, read, closed, readRequests⟩ :=
      Stream.submitAll_reads printed [] ⟨.startBinary, sink⟩ (.start []) rfl unlimited
        Binary.Known.empty rfl few fits
    refine ⟨stream, _, submitted, accepted, ?_⟩
    rw [Binary.decode?, Binary.decodeFrom?, Binary.Lexeme.readAll?_flatMap lexemes lexemesFit]
    show ((Binary.Reading.start []).steps lexemes).bind _ = _
    rw [read]
    have started : (Binary.Reading.start []).requests = [] := rfl
    simp [closed, readRequests, started]
  obtain ⟨stream, bytes, submitted, accepted, read⟩ := decoded requests writable
  refine ⟨⟨stream, bytes, submitted, accepted, read, ?_⟩, Token.reading_eq_iff⟩
  intro others allowed
  constructor
  · intro same
    obtain ⟨otherStream, otherBytes, otherSubmitted, otherAccepted, otherRead⟩ :=
      decoded others allowed
    rw [otherSubmitted] at same
    have bytes_eq : otherBytes = bytes := by
      have lists := congrArg Array.toList (otherAccepted.symm.trans (same.trans accepted))
      simpa using lists
    rw [bytes_eq, read, Option.some.injEq] at otherRead
    exact otherRead.symm
  · intro alike
    rw [Stream.submitAll_congr others requests .empty ⟨.startBinary, sink⟩ rfl alike, submitted]

/-- A mesh whose name is sent once and used twice, with a parameter, a color, a negative number, a
NaN and an array without items. -/
def meshes : List PrintedRequest :=
  [⟨"PointsPolygons", [.ints [-1, 300], .param (.uniformFloats "Kd" [⟨0x7FC00001⟩])]⟩,
    ⟨"Color", [.triple ⟨⟨0x3F800000⟩, ⟨0x80000000⟩, ⟨0x00000001⟩⟩]⟩,
    ⟨"PointsPolygons", [.strings [], .string "]", .float ⟨0x80000000⟩]⟩]

/-- The parameter reads as a string and an array, and the color as three floats. -/
theorem decode_submitAll_meshes :
    ({} : Sink).room = none ∧ Writable meshes ∧
      ∃ (stream : Stream) (bytes : List UInt8),
        Stream.submitAll meshes ⟨.startBinary, {}⟩ = (.ok (), stream) ∧
        stream.sink.accepted = ({} : Sink).accepted ++ bytes ∧
        Binary.decode? bytes = some
          [⟨"PointsPolygons", [.ints [-1, 300], .string "uniform float Kd", .floats [⟨0x7FC00001⟩]]⟩,
            ⟨"Color", [.float ⟨0x3F800000⟩, .float ⟨0x80000000⟩, .float ⟨0x00000001⟩]⟩,
            ⟨"PointsPolygons", [.ints [], .string "]", .float ⟨0x80000000⟩]⟩] := by
  have writable : Writable meshes := by decide
  obtain ⟨⟨stream, bytes, submitted, accepted, read, -⟩, -⟩ :=
    decode_submitAll {} rfl meshes writable
  exact ⟨rfl, writable, stream, bytes, submitted, accepted, read⟩

end PrintedRequest

end RibStream
