/-
This file says what a request of a writer leaves in the sink.
-/

import RibStream.Proofs.Encoding.Shown
import RibStream.Proofs.Stream.History
import RibStream.Proofs.Stream.Unlimited

namespace RibStream.Stream

variable {stream : Stream} {line : RequestLine}

theorem encoding_request (stream : Stream) (name : String) (tokens : List Token) :
    (stream.request name tokens).2.encoding = (stream.encoding.request name tokens).2 := by
  rw [request_eq_put, encoding_put]

/-- A sink that accepts everything fails no request. -/
theorem request_unlimited (unlimited : stream.sink.room = none) (name : String)
    (tokens : List Token) :
    stream.request name tokens = ((stream.encoding.request name tokens).1.result,
      { stream with encoding := (stream.encoding.request name tokens).2 }.append
        (stream.encoding.request name tokens).1.bytes) := by
  rw [request_eq_put, put_unlimited _ (by exact unlimited)]

theorem write_error {bytes : List UInt8} {error : Error}
    (failed : (stream.write bytes).1 = .error error) : error = .sinkFull := by
  have outcome : (stream.write bytes).1 =
      if stream.sink.hasRoom bytes.length then .ok () else .error .sinkFull := rfl
  rw [outcome] at failed
  split at failed <;> cases failed
  rfl

/-- Putting something out fails on a full sink, or where the encoder stops. -/
theorem put_error {encoded : Encoded} {error : Error} (failed : (stream.put encoded).1 = .error error) :
    error = .sinkFull ∨ encoded.stop = some error := by
  rw [put] at failed
  rcases outcome : stream.write encoded.bytes with ⟨cause | ⟨⟩, written⟩
  · rw [outcome] at failed
    cases failed
    exact .inl (write_error (congrArg Prod.fst outcome))
  · rw [outcome] at failed
    right
    cases stopped : encoded.stop with
    | none => simp [Encoded.result, stopped] at failed
    | some cause => simpa [Encoded.result, stopped] using failed

/-- The ways in which a request can fail once it has been checked. -/
theorem request_error {name : String} {tokens : List Token} {error : Error}
    (failed : (stream.request name tokens).1 = .error error) :
    error = .sinkFull ∨ (∃ count, error = .lengthExceeded count) ∨
      error = .requestCodeOverflow name := by
  rw [request_eq_put] at failed
  exact (put_error failed).imp_right Encoding.stop_request

/-- A request that succeeds has been accepted as a whole, however much room there is. -/
theorem shows_of_request_ok (named : stream.encoding.Named) (known : line.name ∈ Request.names)
    (success : (stream.request line.name line.tokens).1 = .ok ()) :
    ∃ bytes : List UInt8,
      (stream.request line.name line.tokens).2.sink.accepted = stream.sink.accepted ++ bytes ∧
      stream.encoding.Shows line bytes := by
  rw [request_eq_put] at success ⊢
  obtain ⟨ended, taken⟩ := parts_of_put_ok success
  refine ⟨_, ?_, Encoding.shows_request named known ((Encoded.result_eq_ok_iff _).mp ended)⟩
  rw [accepted_put, taken]

/-- A sink that accepts everything accepts a request as a whole if its lengths fit. Otherwise the request
fails at the first that does not. -/
theorem exists_of_request_unlimited (named : stream.encoding.Named)
    (unlimited : stream.sink.room = none) (known : line.name ∈ Request.names) :
    ∃ bytes : List UInt8,
      (stream.request line.name line.tokens).2.sink.accepted = stream.sink.accepted ++ bytes ∧
      ((∀ token ∈ line.tokens, stream.encoding.Fits token) →
        (stream.request line.name line.tokens).1 = .ok () ∧ stream.encoding.Shows line bytes) ∧
      ((∃ token ∈ line.tokens, ¬ stream.encoding.Fits token) →
        ∃ count, (stream.request line.name line.tokens).1 = .error (.lengthExceeded count)) := by
  obtain ⟨-, stops, ends⟩ := Encoding.request_named named known line.tokens
  rw [request_unlimited unlimited]
  refine ⟨(stream.encoding.request line.name line.tokens).1.bytes, rfl, fun fits => ?_, ?_⟩
  · have ended := ends.mpr fits
    exact ⟨(Encoded.result_eq_ok_iff _).mpr ended, Encoding.shows_request named known ended⟩
  · rintro ⟨token, member, exceeds⟩
    cases stopped : (stream.encoding.request line.name line.tokens).1.stop with
    | none => exact absurd (ends.mp stopped token member) exceeds
    | some error =>
        obtain ⟨count, rfl⟩ := stops error stopped
        exact ⟨count, by rw [Encoded.result, stopped]⟩

end RibStream.Stream
