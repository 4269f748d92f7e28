/-
This file models the destination of a stream.
A sink can be short of room, can fail to flush and can compress what it accepts.
-/

import RibStream.Error

namespace RibStream

/-- The bytes accepted so far and the bytes that still fit. A sink with no `room` given accepts
everything. The accepted bytes are those offered, also when the sink stores them compressed. -/
structure Sink where
  compressed : Bool := false
  room : Option Nat := none
  flushFails : Bool := false
  accepted : Array UInt8 := #[]
deriving DecidableEq

namespace Sink

/-- Whether a number of bytes fits. -/
def hasRoom (sink : Sink) (count : Nat) : Bool :=
  match sink.room with
  | none => true
  | some room => decide (count ≤ room)

/-- The part of `bytes` that fits. -/
def fitting (sink : Sink) (bytes : List UInt8) : List UInt8 :=
  match sink.room with
  | none => bytes
  | some room => bytes.take room

/-- Accepts the part of `bytes` that fits. -/
def accept (sink : Sink) (bytes : List UInt8) : Sink :=
  { sink with
    room := sink.room.map (· - bytes.length)
    accepted := sink.accepted ++ sink.fitting bytes }

/-- Offers bytes once. The number of bytes accepted is returned, and it is an error to offer some
bytes and have none accepted. -/
def offer (sink : Sink) (bytes : List UInt8) : Except Error Nat × Sink :=
  if bytes ≠ [] ∧ sink.fitting bytes = [] then (.error .sinkFull, sink)
  else (.ok (sink.fitting bytes).length, sink.accept bytes)

/-- Writes all of `bytes`. On failure the part that fits has been accepted. -/
def write (sink : Sink) (bytes : List UInt8) : Except Error Unit × Sink :=
  (if sink.hasRoom bytes.length then .ok () else .error .sinkFull, sink.accept bytes)

def flush (sink : Sink) : Except Error Unit :=
  if sink.flushFails then .error .flushFailed else .ok ()

/-- Grants a number of bytes from now on, or all bytes. -/
def grant (sink : Sink) (room : Option Nat) : Sink :=
  { sink with room }

theorem write_unlimited (sink : Sink) (bytes : List UInt8) (unlimited : sink.room = none) :
    sink.write bytes = (.ok (), { sink with accepted := sink.accepted ++ bytes }) := by
  simp [write, accept, fitting, hasRoom, unlimited]

theorem append_pieces (accepted : Array UInt8) (first second : List UInt8) :
    accepted ++ (first ++ second) = accepted ++ first ++ second :=
  Array.toList_inj.mp (by simp)

/-- Writing two pieces one after the other is writing them together. -/
theorem write_append (sink : Sink) (first second : List UInt8) :
    sink.write (first ++ second) =
      match sink.write first with
      | (.ok (), sink) => sink.write second
      | (.error error, sink) => (.error error, sink) := by
  obtain ⟨compressed, room, flushFails, accepted⟩ := sink
  cases room with
  | none => simp [write, accept, fitting, hasRoom, append_pieces]
  | some room =>
      by_cases fits : first.length ≤ room
      · have enough : first.length + second.length ≤ room ↔ second.length ≤ room - first.length := by
          omega
        simp [write, accept, fitting, hasRoom, List.take_append, List.take_of_length_le fits, fits,
          enough, Nat.sub_sub, append_pieces]
      · have excess : ¬ first.length + second.length ≤ room := by omega
        have none : room - first.length = 0 := by omega
        have still : room - (first.length + second.length) = 0 := by omega
        simp [write, accept, fitting, hasRoom, List.take_append, fits, excess, none, still]

end Sink

end RibStream
