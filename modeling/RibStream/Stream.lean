/-
This file writes tokens and requests to a sink in a chosen encoding.
-/

import RibStream.Encoding
import RibStream.Sink

namespace RibStream

structure Stream where
  encoding : Encoding
  sink : Sink
deriving DecidableEq

namespace Stream

def write (stream : Stream) (bytes : List UInt8) : Except Error Unit × Stream :=
  let (result, sink) := stream.sink.write bytes
  (result, { stream with sink })

def enter (stream : Stream) : Stream :=
  { stream with encoding := stream.encoding.enter }

def leave (stream : Stream) : Stream :=
  { stream with encoding := stream.encoding.leave }

/-- Writes what an encoder puts out. The encoder fails only after its bytes have been written. -/
def put (stream : Stream) (encoded : Encoded) : Except Error Unit × Stream :=
  match stream.write encoded.bytes with
  | (.ok (), stream) => (encoded.result, stream)
  | (.error error, stream) => (.error error, stream)

def separate (stream : Stream) : Except Error Unit × Stream :=
  stream.write stream.encoding.separator

/-- Begins a request. A new name keeps its code even when its definition is not written. -/
def beginRequest (stream : Stream) (name : String) : Except Error Unit × Stream :=
  let (opening, encoding) := stream.encoding.beginRequest name
  { stream with encoding }.put opening

def endRequest (stream : Stream) : Except Error Unit × Stream :=
  stream.write stream.encoding.endRequest

/-- Writes the tokens of one value, separated. -/
def print (stream : Stream) (tokens : List Token) : Except Error Unit × Stream :=
  stream.put (stream.encoding.tokens tokens)

def record (stream : Stream) (kind text : String) : Except Error Unit × Stream :=
  stream.write (stream.encoding.record kind text)

/-- Goes on with `next` unless the first part has failed. -/
def andThen (outcome : Except Error Unit × Stream) (next : Stream → Except Error Unit × Stream) :
    Except Error Unit × Stream :=
  match outcome with
  | (.ok (), stream) => next stream
  | (.error error, stream) => (.error error, stream)

/-- Writes tokens one by one, each after a separator. -/
def printArguments : List Token → Stream → Except Error Unit × Stream
  | [], stream => (.ok (), stream)
  | token :: rest, stream =>
      andThen (andThen stream.separate (·.print [token])) (printArguments rest)

/-- Writes a request part by part: its name, its tokens and its end. -/
def request (stream : Stream) (name : String) (tokens : List Token) : Except Error Unit × Stream :=
  andThen (andThen (stream.beginRequest name) (printArguments tokens)) endRequest

/-- Ends the stream. The end of a compressed stream is the sink's own affair. -/
def finish (stream : Stream) : Except Error Unit :=
  stream.sink.flush

theorem write_nil (stream : Stream) : stream.write [] = (.ok (), stream) := by
  obtain ⟨encoding, compressed, room, flushFails, accepted⟩ := stream
  cases room <;> simp [write, Sink.write, Sink.accept, Sink.fitting, Sink.hasRoom]

theorem write_append (stream : Stream) (first second : List UInt8) :
    stream.write (first ++ second) = andThen (stream.write first) (·.write second) := by
  simp only [write, Sink.write_append]
  rcases stream.sink.write first with ⟨result | result, sink⟩ <;> rfl

/-- Writing changes only the sink. -/
theorem encoding_write (stream : Stream) (bytes : List UInt8) :
    (stream.write bytes).2.encoding = stream.encoding := rfl

theorem put_whole (stream : Stream) (bytes : List UInt8) :
    stream.put (.whole bytes) = stream.write bytes := by
  rw [put, Encoded.bytes_whole]
  rcases stream.write bytes with ⟨result | ⟨⟩, written⟩ <;> rfl

/-- Putting out two pieces one after the other is putting them out together. -/
theorem put_append (stream : Stream) (first second : Encoded) :
    stream.put (first ++ second) = andThen (stream.put first) (·.put second) := by
  obtain ⟨bytes, _ | error⟩ := first
  · show stream.put (Encoded.whole bytes ++ second) = andThen (stream.put (.whole bytes)) _
    rw [put_whole, Encoded.whole_append, put, write_append]
    rcases stream.write bytes with ⟨result | ⟨⟩, written⟩ <;> rfl
  · show stream.put ⟨bytes, some error⟩ = _
    rw [put]
    rcases stream.write bytes with ⟨result | ⟨⟩, written⟩ <;> rfl

/-- Putting bytes out changes only the sink. -/
theorem encoding_put (stream : Stream) (encoded : Encoded) :
    (stream.put encoded).2.encoding = stream.encoding := by
  rw [put]
  have kept := stream.encoding_write encoded.bytes
  generalize stream.write encoded.bytes = outcome at kept ⊢
  obtain ⟨result | result, written⟩ := outcome <;> exact kept

theorem andThen_put_congr (stream : Stream) (encoded : Encoded)
    {next other : Stream → Except Error Unit × Stream}
    (same : ∀ written : Stream, written.encoding = stream.encoding → next written = other written) :
    andThen (stream.put encoded) next = andThen (stream.put encoded) other := by
  have kept := stream.encoding_put encoded
  rcases outcome : stream.put encoded with ⟨result | result, written⟩
  · rfl
  · rw [outcome] at kept
    exact same written kept

theorem andThen_assoc (outcome : Except Error Unit × Stream)
    (next last : Stream → Except Error Unit × Stream) :
    andThen (andThen outcome next) last = andThen outcome fun stream => andThen (next stream) last := by
  rcases outcome with ⟨result | result, stream⟩ <;> rfl

theorem andThen_ok (outcome : Except Error Unit × Stream) :
    andThen outcome (fun stream => (.ok (), stream)) = outcome := by
  rcases outcome with ⟨result | ⟨⟩, stream⟩ <;> rfl

theorem printArguments_eq (tokens : List Token) (stream : Stream) :
    printArguments tokens stream = stream.put (stream.encoding.arguments tokens) := by
  induction tokens generalizing stream with
  | nil =>
      show _ = stream.put (.whole [])
      rw [printArguments, put_whole, write_nil]
  | cons token rest inductionHypothesis =>
      show _ = stream.put (Encoded.concat (_ :: _))
      rw [printArguments, Encoded.concat_cons, Encoded.append_assoc, put_append, andThen_assoc,
        separate, ← put_whole]
      apply andThen_put_congr
      intro separated same
      rw [put_append, ← same]
      have single : separated.print [token] = separated.put (separated.encoding.token token) := by
        show separated.put (_ ++ Encoded.whole []) = _
        rw [Encoded.append_whole_nil]
      rw [single]
      apply andThen_put_congr
      intro printed kept
      rw [inductionHypothesis, kept]
      rfl

/-- The parts of a request are written one after the other as the whole request is put out. -/
theorem request_eq_put (stream : Stream) (name : String) (tokens : List Token) :
    stream.request name tokens =
      { stream with encoding := (stream.encoding.request name tokens).2 }.put
        (stream.encoding.request name tokens).1 := by
  rw [request, beginRequest, Encoding.request]
  rcases stream.encoding.beginRequest name with ⟨opening, encoding⟩
  dsimp only
  rw [put_append, put_append]
  have parts : andThen ({ stream with encoding }.put opening) (printArguments tokens) =
      andThen ({ stream with encoding }.put opening) (·.put (encoding.arguments tokens)) := by
    apply andThen_put_congr
    intro opened same
    rw [printArguments_eq, same]
  rw [parts, andThen_assoc, andThen_assoc]
  apply andThen_put_congr
  intro opened same
  apply andThen_put_congr
  intro printed kept
  rw [endRequest, put_whole, kept, same]

end Stream

end RibStream
