/-
This file says what a request does when the sink fills up: it writes what fits and fails.
Every action is compared with itself on a sink that accepts everything.
-/

import RibStream.Proofs.Stream.Limited
import RibStream.Proofs.Writer.Frame

namespace RibStream.Writer

/-- The writer on a sink that accepts so many bytes more. -/
def limit (writer : Writer) (room : Nat) : Writer :=
  { writer with stream := writer.stream.limit room }

/-- On a sink that accepts everything the action writes `bytes`. With room for them it does the same,
and with less room it fails once it has written as many of them as fit. -/
structure Writes {Result : Type} (action : Writer → Outcome Result) (writer : Writer)
    (bytes : List UInt8) : Prop where
  unlimited : (action writer).2.stream.sink.room = none
  accepted : (action writer).2.stream.sink.accepted = writer.stream.sink.accepted ++ bytes
  fits : ∀ room, bytes.length ≤ room →
    action (writer.limit room) = ((action writer).1, (action writer).2.limit (room - bytes.length))
  exceeds : ∀ room, room < bytes.length → (action (writer.limit room)).1 = .error .sinkFull ∧
    (action (writer.limit room)).2.stream.sink.accepted =
      writer.stream.sink.accepted ++ bytes.take room

/-- The action is cut off by the sink and by nothing else. -/
def Truncates {Result : Type} (action : Writer → Outcome Result) : Prop :=
  ∀ writer : Writer, writer.stream.sink.room = none → ∃ bytes, Writes action writer bytes

section Writes

variable {First Result : Type} {writer current : Writer} {bytes : List UInt8}

/-- An action that starts with changes outside of the sink writes what the rest of it writes. -/
theorem Writes.of_changed {action rest : Writer → Outcome Result}
    (written : Writes rest current bytes) (sink : current.stream.sink = writer.stream.sink)
    (whole : action writer = rest current)
    (limited : ∀ room, action (writer.limit room) = rest (current.limit room)) :
    Writes action writer bytes where
  unlimited := by rw [whole, written.unlimited]
  accepted := by rw [whole, written.accepted, sink]
  fits room enough := by rw [limited, whole, written.fits room enough]
  exceeds room short := by rw [limited, ← sink]; exact written.exceeds room short

/-- An action that does not touch the sink. -/
theorem Writes.nothing {action : Writer → Outcome Result}
    (unlimited : writer.stream.sink.room = none)
    (sink : (action writer).2.stream.sink = writer.stream.sink)
    (limited : ∀ room, action (writer.limit room) = ((action writer).1, (action writer).2.limit room)) :
    Writes action writer [] where
  unlimited := by rw [sink, unlimited]
  accepted := by rw [sink]; simp
  fits room _ := limited room
  exceeds room short := absurd short (Nat.not_lt_zero room)

theorem Writes.map {action : Writer → Outcome First} (written : Writes action writer bytes)
    (change : First → Result) :
    Writes (fun writer => ((action writer).1.map change, (action writer).2)) writer bytes where
  unlimited := written.unlimited
  accepted := written.accepted
  fits room enough := by simp only [written.fits room enough]
  exceeds room short := by
    obtain ⟨failed, accepted⟩ := written.exceeds room short
    exact ⟨by rw [failed]; rfl, accepted⟩

/-- Goes on with the result of an action unless it has failed. -/
def followedBy (first : Writer → Outcome First) (next : First → Writer → Outcome Result)
    (writer : Writer) : Outcome Result :=
  match first writer with
  | (.ok result, writer) => next result writer
  | (.error error, writer) => (.error error, writer)

/-- The room that the first action leaves is the room of the next one. -/
theorem Writes.followedBy {first : Writer → Outcome First} {next : First → Writer → Outcome Result}
    {more : List UInt8} {result : First} (before : Writes first writer bytes)
    (success : first writer = (.ok result, current)) (after : Writes (next result) current more) :
    Writes (followedBy first next) writer (bytes ++ more) := by
  have whole : Writer.followedBy first next writer = next result current := by
    rw [Writer.followedBy, success]
  have start : current.stream.sink.accepted = writer.stream.sink.accepted ++ bytes := by
    rw [← before.accepted, success]
  have resumed (room : Nat) (enough : bytes.length ≤ room) :
      Writer.followedBy first next (writer.limit room) =
        next result (current.limit (room - bytes.length)) := by
    rw [Writer.followedBy, before.fits room enough, success]
  refine ⟨by rw [whole, after.unlimited], ?_, ?_, ?_⟩
  · rw [whole, after.accepted, start, Sink.append_pieces]
  · intro room enough
    rw [List.length_append] at enough
    rw [resumed room (by omega), whole, after.fits _ (by omega), List.length_append, Nat.sub_sub]
  · intro room short
    rw [List.length_append] at short
    by_cases enough : bytes.length ≤ room
    · obtain ⟨failed, accepted⟩ := after.exceeds (room - bytes.length) (by omega)
      rw [resumed room enough]
      refine ⟨failed, ?_⟩
      rw [accepted, start, List.take_append, List.take_of_length_le enough, Sink.append_pieces]
    · obtain ⟨failed, accepted⟩ := before.exceeds room (by omega)
      have none : room - bytes.length = 0 := by omega
      rw [List.take_append, none, List.take_zero, List.append_nil, ← accepted]
      rw [Writer.followedBy]
      generalize first (writer.limit room) = outcome at failed
      obtain ⟨result, final⟩ := outcome
      cases failed
      exact ⟨rfl, rfl⟩

/-- What follows a failure is not carried out. -/
theorem Writes.failed {first : Writer → Outcome First} {next : First → Writer → Outcome Result}
    {error : Error} (before : Writes first writer bytes) (failure : (first writer).1 = .error error) :
    Writes (Writer.followedBy first next) writer bytes := by
  have skipped {start : Writer} {cause : Error} (fails : (first start).1 = .error cause) :
      Writer.followedBy first next start = (.error cause, (first start).2) := by
    rw [Writer.followedBy]
    generalize first start = outcome at fails
    obtain ⟨result, final⟩ := outcome
    cases fails
    rfl
  refine ⟨?_, ?_, ?_, ?_⟩
  · rw [skipped failure]
    exact before.unlimited
  · rw [skipped failure]
    exact before.accepted
  · intro room enough
    have limited := before.fits room enough
    rw [skipped (by rw [limited, failure]), limited, skipped failure]
  · intro room short
    obtain ⟨fails, accepted⟩ := before.exceeds room short
    rw [skipped fails]
    exact ⟨rfl, accepted⟩

end Writes

theorem Truncates.followedBy {First Result : Type} {first : Writer → Outcome First}
    {next : First → Writer → Outcome Result} (before : Truncates first)
    (after : ∀ result, Truncates (next result)) : Truncates (followedBy first next) := by
  intro writer unlimited
  obtain ⟨bytes, written⟩ := before writer unlimited
  have still := written.unlimited
  cases outcome : first writer with
  | mk result current =>
      rw [outcome] at still
      cases result with
      | error error => exact ⟨bytes, written.failed (by rw [outcome])⟩
      | ok value =>
          obtain ⟨more, rest⟩ := after value current still
          exact ⟨bytes ++ more, written.followedBy outcome rest⟩

/-- Logging and other changes outside of the sink are silent. -/
structure Silent (change : Writer → Writer) : Prop where
  sink : ∀ writer, (change writer).stream.sink = writer.stream.sink
  limit : ∀ writer room, change (Writer.limit writer room) = (change writer).limit room

theorem Silent.truncates {Result : Type} {change : Writer → Writer} (silent : Silent change)
    (result : Except Error Result) : Truncates fun writer => (result, change writer) := by
  intro writer unlimited
  refine ⟨[], .nothing unlimited (silent.sink writer) fun room => ?_⟩
  rw [silent.limit]

theorem silent_id : Silent fun writer => writer :=
  ⟨fun _ => rfl, fun _ _ => rfl⟩

theorem silent_log (event : Event) : Silent fun writer => writer.log event :=
  ⟨fun _ => rfl, fun _ _ => rfl⟩

theorem silent_apply (effect : Effect) : Silent fun writer => writer.apply effect := by
  constructor
  · intro writer
    rw [stream_apply]
    split <;> rfl
  · intro writer room
    rw [apply_eq, apply_eq]
    cases effect <;> rfl

/-- Putting something out is an action whatever encoding the stream has gone on to. The encoder can
stop by itself, with less room than it would have needed or not. -/
theorem writes_put (writer : Writer) (unlimited : writer.stream.sink.room = none)
    (encoding : Encoding) (encoded : Encoded) :
    Writes (fun writer =>
      ((Stream.put ⟨encoding, writer.stream.sink⟩ encoded).1,
        { writer with stream := (Stream.put ⟨encoding, writer.stream.sink⟩ encoded).2 }))
      writer encoded.bytes := by
  have whole := Stream.put_unlimited ⟨encoding, writer.stream.sink⟩ unlimited encoded
  have limited := Stream.put_limit ⟨encoding, writer.stream.sink⟩
  refine ⟨?_, ?_, ?_, ?_⟩
  · rw [whole]
    exact unlimited
  · rw [whole]
    rfl
  · intro room enough
    have taken := limited room encoded
    rw [if_pos enough, List.take_of_length_le enough] at taken
    rw [whole]
    exact congrArg (fun outcome : Except Error Unit × Stream =>
      (outcome.1, { writer with stream := outcome.2 })) taken
  · intro room short
    have taken := limited room encoded
    rw [if_neg (Nat.not_le.mpr short)] at taken
    have same := congrArg (fun outcome : Except Error Unit × Stream =>
      (outcome.1, outcome.2.sink.accepted)) taken
    exact ⟨congrArg Prod.fst same, congrArg Prod.snd same⟩

/-- The small writes of a request are cut off as if they were one. -/
theorem truncates_emit (line : RequestLine) : Truncates fun writer => writer.emit line := by
  intro writer unlimited
  have parts (sink : Sink) : { writer with stream.sink := sink }.emit line =
      ((Stream.put ⟨(writer.stream.encoding.request line.name line.tokens).2, sink⟩
          (writer.stream.encoding.request line.name line.tokens).1).1,
        { writer with stream :=
          (Stream.put ⟨(writer.stream.encoding.request line.name line.tokens).2, sink⟩
            (writer.stream.encoding.request line.name line.tokens).1).2 }) := by
    rw [emit, Stream.request_eq_put]
  exact ⟨_, (writes_put writer unlimited _ _).of_changed rfl (parts writer.stream.sink)
    fun room => parts (writer.stream.sink.grant (some room))⟩

theorem truncates_send (piece : Piece) : Truncates fun writer => writer.send piece := by
  cases piece with
  | nothing => exact silent_id.truncates (.ok ())
  | record kind text =>
      intro writer unlimited
      have whole (sink : Sink) : { writer with stream.sink := sink }.record kind text =
          ((Stream.put ⟨writer.stream.encoding, sink⟩
              (.whole (writer.stream.encoding.record kind text))).1,
            { writer with stream :=
              (Stream.put ⟨writer.stream.encoding, sink⟩
                (.whole (writer.stream.encoding.record kind text))).2 }) := by
        rw [Stream.put_whole]
        rfl
      exact ⟨_, (writes_put writer unlimited _ _).of_changed rfl (whole writer.stream.sink)
        fun room => whole (writer.stream.sink.grant (some room))⟩
  | line line => exact truncates_emit line

theorem truncates_complete (result : Except Error Plan) :
    Truncates fun writer => complete (result, writer) := by
  cases result with
  | error error => exact silent_id.truncates (.error error)
  | ok plan =>
      have steps : (fun writer => complete (.ok plan, writer)) =
          followedBy (·.send plan.piece) fun _ writer => (.ok plan.reply, writer.apply plan.effect) := by
        funext writer
        rw [complete, followedBy]
        rcases writer.send plan.piece with ⟨result | result, sent⟩ <;> rfl
      rw [steps]
      exact (truncates_send plan.piece).followedBy fun _ =>
        (silent_apply plan.effect).truncates (.ok plan.reply)

theorem change_limit (change : Change) (writer : Writer) (room : Nat) :
    (writer.limit room).change change = (writer.change change).limit room := by
  cases change with
  | leave =>
      have outermost : (writer.limit room).stream.encoding = writer.stream.encoding := rfl
      rw [Writer.change, Writer.change, leave, leave, outermost]
      split <;> rfl
  | _ => rfl

/-- No request looks at the room in the sink before it is sent. -/
theorem plan_limit (request : Request) (writer : Writer) (room : Nat) :
    (writer.limit room).plan request =
      ((writer.plan request).1, (writer.plan request).2.limit room) := by
  obtain ⟨change, checks⟩ := exists_checks request writer
  have planned : (writer.limit room).plan request = _ := checks (writer.limit room) rfl rfl rfl
  rw [planned, checks.plan_eq, change_limit]

theorem sink_plan (request : Request) (writer : Writer) :
    (writer.plan request).2.stream.sink = writer.stream.sink := by
  rcases (plan_frame request writer).2 with same | left
  · rw [same]
  · rw [left]
    rfl

theorem truncates_perform (request : Request) : Truncates fun writer => writer.perform request := by
  intro writer unlimited
  have sink := sink_plan request writer
  obtain ⟨bytes, written⟩ := truncates_complete (writer.plan request).1 (writer.plan request).2
    (by rw [sink, unlimited])
  refine ⟨bytes, written.of_changed sink rfl fun room => ?_⟩
  rw [perform, plan_limit]

end RibStream.Writer
