/-
This file says what writing does to a sink that is short of room.
The part that fits is accepted, and the write fails unless this is all of it.
-/

import RibStream.Proofs.Stream.Unlimited

namespace RibStream.Stream

/-- The stream on a sink that accepts so many bytes more. -/
def limit (stream : Stream) (room : Nat) : Stream :=
  { stream with sink := stream.sink.grant (some room) }

theorem write_limit (stream : Stream) (room : Nat) (bytes : List UInt8) :
    (stream.limit room).write bytes =
      (if bytes.length ≤ room then .ok () else .error .sinkFull,
        (stream.append (bytes.take room)).limit (room - bytes.length)) := by
  by_cases fits : bytes.length ≤ room <;>
    simp [limit, write, append, Sink.grant, Sink.write, Sink.accept, Sink.fitting, Sink.hasRoom, fits]

theorem put_limit (stream : Stream) (room : Nat) (encoded : Encoded) :
    (stream.limit room).put encoded =
      (if encoded.bytes.length ≤ room then encoded.result else .error .sinkFull,
        (stream.append (encoded.bytes.take room)).limit (room - encoded.bytes.length)) := by
  rw [put, write_limit]
  by_cases fits : encoded.bytes.length ≤ room
  · rw [if_pos fits, if_pos fits]
  · rw [if_neg fits, if_neg fits]

end RibStream.Stream
