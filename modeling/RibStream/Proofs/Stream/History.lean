/-
This file records what a sink accepts from each call of a formatter.
A refused call does not end the run. The caller goes on, and the sink can have room again.
-/

import RibStream.Stream

namespace RibStream

/-- A call of a formatter. The room in the sink can change between two calls. -/
inductive Call where
  | room (room : Option Nat)
  | beginRequest (name : String)
  | endRequest
  | separate
  | print (tokens : List Token)
  | record (kind text : String)
  | enter
  | leave
deriving DecidableEq

/-- A call with its result and the bytes that the sink has accepted from it. -/
structure Step where
  call : Call
  result : Except Error Unit
  accepted : List UInt8

namespace Stream

def perform (stream : Stream) : Call → Except Error Unit × Stream
  | .room room => (.ok (), { stream with sink := stream.sink.grant room })
  | .beginRequest name => stream.beginRequest name
  | .endRequest => stream.endRequest
  | .separate => stream.separate
  | .print tokens => stream.print tokens
  | .record kind text => stream.record kind text
  | .enter => (.ok (), stream.enter)
  | .leave => (.ok (), stream.leave)

def step (stream : Stream) (call : Call) : Step :=
  ⟨call, (stream.perform call).1,
    (stream.perform call).2.sink.accepted.toList.drop stream.sink.accepted.size⟩

def history : List Call → Stream → List Step
  | [], _ => []
  | call :: rest, stream => stream.step call :: history rest (stream.perform call).2

/-- The stream after all calls. -/
def after (calls : List Call) (stream : Stream) : Stream :=
  calls.foldl (fun stream call => (stream.perform call).2) stream

theorem history_append (first second : List Call) (stream : Stream) :
    stream.history (first ++ second) = stream.history first ++ (stream.after first).history second := by
  induction first generalizing stream with
  | nil => rfl
  | cons call calls inductionHypothesis =>
      rw [List.cons_append, history, history, inductionHypothesis, List.cons_append]
      rfl

theorem after_append (first second : List Call) (stream : Stream) :
    stream.after (first ++ second) = (stream.after first).after second := by
  rw [after, after, after, List.foldl_append]

theorem accepted_write (stream : Stream) (bytes : List UInt8) :
    (stream.write bytes).2.sink.accepted = stream.sink.accepted ++ stream.sink.fitting bytes := rfl

theorem accepted_put (stream : Stream) (encoded : Encoded) :
    (stream.put encoded).2.sink.accepted =
      stream.sink.accepted ++ stream.sink.fitting encoded.bytes := by
  rw [put, ← accepted_write]
  rcases stream.write encoded.bytes with ⟨result | ⟨⟩, written⟩ <;> rfl

/-- A successful write has had room for all of its bytes. -/
theorem fitting_of_write_ok {stream : Stream} {bytes : List UInt8}
    (success : (stream.write bytes).1 = .ok ()) : stream.sink.fitting bytes = bytes := by
  simp only [write, Sink.write, Sink.hasRoom] at success
  rw [Sink.fitting]
  cases room : stream.sink.room with
  | none => rfl
  | some count =>
      simp only [room] at success
      split at success
      · rename_i fits
        exact List.take_of_length_le (of_decide_eq_true fits)
      · cases success

/-- Something is put out successfully if it is encoded to its end and the sink has room for it. -/
theorem parts_of_put_ok {stream : Stream} {encoded : Encoded}
    (success : (stream.put encoded).1 = .ok ()) :
    encoded.result = .ok () ∧ stream.sink.fitting encoded.bytes = encoded.bytes := by
  rw [put] at success
  rcases outcome : stream.write encoded.bytes with ⟨error | ⟨⟩, written⟩
  · rw [outcome] at success
    cases success
  · rw [outcome] at success
    exact ⟨success, fitting_of_write_ok (congrArg Prod.fst outcome)⟩

/-- Nothing that was accepted is ever taken back. -/
theorem accepted_perform (stream : Stream) (call : Call) :
    (stream.perform call).2.sink.accepted = stream.sink.accepted ++ (stream.step call).accepted := by
  have written (bytes : List UInt8)
      (accepted : (stream.perform call).2.sink.accepted =
        stream.sink.accepted ++ stream.sink.fitting bytes) :
      (stream.perform call).2.sink.accepted =
        stream.sink.accepted ++ (stream.step call).accepted := by
    apply Array.toList_inj.mp
    rw [step, accepted]
    simp
  cases call with
  | beginRequest name => exact written _ (accepted_put _ _)
  | endRequest => exact written _ rfl
  | separate => exact written _ rfl
  | print tokens => exact written _ (accepted_put _ _)
  | record kind text => exact written _ rfl
  | _ =>
      apply Array.toList_inj.mp
      simp [step, perform, Sink.grant, enter, leave]

/-- The steps make up the whole output. -/
theorem accepted_after (calls : List Call) (stream : Stream) :
    (stream.after calls).sink.accepted =
      stream.sink.accepted ++ (stream.history calls).flatMap Step.accepted := by
  induction calls generalizing stream with
  | nil => simp [after, history]
  | cons call calls inductionHypothesis =>
      show ((stream.perform call).2.after calls).sink.accepted = _
      rw [inductionHypothesis, accepted_perform, history, List.flatMap_cons, Sink.append_pieces]

end Stream

end RibStream
