/-
This file says what writing does as long as the sink accepts everything.
-/

import RibStream.Stream

namespace RibStream.Stream

/-- The stream after more bytes. -/
def append (stream : Stream) (bytes : List UInt8) : Stream :=
  { stream with sink.accepted := stream.sink.accepted ++ bytes }

theorem write_unlimited (stream : Stream) (unlimited : stream.sink.room = none)
    (bytes : List UInt8) : stream.write bytes = (.ok (), stream.append bytes) := by
  rw [write, Sink.write_unlimited _ _ unlimited]
  rfl

/-- What an encoder puts out is accepted up to where it stops. -/
theorem put_unlimited (stream : Stream) (unlimited : stream.sink.room = none) (encoded : Encoded) :
    stream.put encoded = (encoded.result, stream.append encoded.bytes) := by
  rw [put, write_unlimited stream unlimited]

theorem append_nil (stream : Stream) : stream.append [] = stream := by
  simp [append]

end RibStream.Stream
