/-
This file says that no request looks at what the sink has accepted before.
A text writer whose earlier output is exchanged goes on to write the same.
-/

import RibStream.Proofs.Ascii.Comment
import RibStream.Proofs.Ascii.RoundTrip
import RibStream.Proofs.Writer.Truncation

namespace RibStream

/-- A record that is no comment ends its last line. -/
def Request.EndsLines (request : Request) : Prop :=
  ∀ record ∈ request.records, record.1 = "comment" ∨ Ascii.WholeLines (Text.bytes record.2)

/-- The statement leaves no line unfinished, and the sink goes on accepting everything. -/
def Statement.EndsLines : Statement → Prop
  | .request issued => issued.EndsLines
  | .room granted => granted = none
  | _ => True

instance (request : Request) : Decidable request.EndsLines :=
  inferInstanceAs (Decidable (∀ record ∈ request.records, _))

instance (statement : Statement) : Decidable statement.EndsLines :=
  match statement with
  | .request issued => inferInstanceAs (Decidable issued.EndsLines)
  | .room granted => inferInstanceAs (Decidable (granted = none))
  | .service _ | .unreadable _ => .isTrue trivial

/-- A request writes whole lines. -/
theorem Ascii.wholeLines_piece {request : Request} {piece : Piece}
    (sends : Writer.Sends request piece) (ends : request.EndsLines) (depth : Nat) :
    WholeLines (Ascii.piece depth piece) := by
  cases sends with
  | nothing => exact wholeLines_nil
  | line => exact wholeLines_concat _
  | @record kind text same =>
      subst same
      by_cases comment : kind = "comment"
      · rw [comment]
        exact wholeLines_comment depth text
      · rw [Ascii.piece, record, if_neg comment]
        exact (ends (kind, text) List.mem_cons_self).resolve_left comment

namespace Writer

/-- The writer as if its sink had accepted these bytes until now. -/
def rebase (writer : Writer) (accepted : Array UInt8) : Writer :=
  { writer with stream.sink.accepted := accepted }

/-- The writer writes text to a sink that accepts everything. -/
structure TakesText (writer : Writer) : Prop where
  ascii : ∃ depth, writer.stream.encoding = .ascii depth
  unlimited : writer.stream.sink.room = none

theorem TakesText.of_stream_eq {left right : Writer} (text : left.TakesText)
    (stream : right.stream = left.stream) : right.TakesText :=
  ⟨stream ▸ text.ascii, stream ▸ text.unlimited⟩

theorem change_rebase (change : Change) (writer : Writer) (accepted : Array UInt8) :
    (writer.rebase accepted).change change = (writer.change change).rebase accepted := by
  cases change with
  | leave =>
      have outermost : (writer.rebase accepted).stream.encoding = writer.stream.encoding := rfl
      rw [Writer.change, Writer.change, leave, leave, outermost]
      split <;> rfl
  | _ => rfl

theorem plan_rebase (request : Request) (writer : Writer) (accepted : Array UInt8) :
    (writer.rebase accepted).plan request =
      ((writer.plan request).1, (writer.plan request).2.rebase accepted) := by
  obtain ⟨change, checks⟩ := exists_checks request writer
  have planned : (writer.rebase accepted).plan request = _ :=
    checks (writer.rebase accepted) rfl rfl rfl
  rw [planned, checks.plan_eq, change_rebase]

theorem TakesText.plan_takesText {writer : Writer} (text : writer.TakesText) (request : Request) :
    (writer.plan request).2.TakesText := by
  obtain ⟨⟨depth, ascii⟩, unlimited⟩ := text
  rcases (plan_frame request writer).2 with same | left
  · exact ⟨⟨depth, same ▸ ascii⟩, same ▸ unlimited⟩
  · refine ⟨⟨depth - 1, ?_⟩, ?_⟩
    · rw [left, Stream.leave, ascii]
      rfl
    · rw [left]
      exact unlimited

theorem TakesText.apply_takesText {writer : Writer} (text : writer.TakesText) (effect : Effect) :
    (writer.apply effect).TakesText ∧
      (writer.apply effect).stream.sink = writer.stream.sink := by
  obtain ⟨⟨depth, ascii⟩, unlimited⟩ := text
  have stream := stream_apply effect writer
  split at stream
  · refine ⟨⟨⟨depth + 1, ?_⟩, ?_⟩, ?_⟩ <;> rw [stream]
    · rw [Stream.enter, ascii]
      rfl
    · exact unlimited
    · rfl
  · exact ⟨⟨⟨depth, stream ▸ ascii⟩, stream ▸ unlimited⟩, congrArg Stream.sink stream⟩

theorem apply_rebase (effect : Effect) (writer : Writer) (accepted : Array UInt8) :
    (writer.rebase accepted).apply effect = (writer.apply effect).rebase accepted := by
  rw [apply_eq, apply_eq]
  cases effect <;> rfl

/-- Two runs from one writer have the same result, and they leave the same writer apart from the
comments in the passages, which only the first run has written. -/
structure Drops {Result : Type} (start : Writer) (accepted : Array UInt8)
    (passages : List Ascii.Passage) (full bare : Outcome Result) : Prop where
  text : full.2.TakesText
  written : full.2.stream.sink.accepted =
    start.stream.sink.accepted ++ passages.flatMap Ascii.Passage.withComment
  dropped : bare =
    (full.1, full.2.rebase (accepted ++ passages.flatMap Ascii.Passage.withoutComment))

namespace Drops

variable {Result : Type} {start : Writer} {accepted : Array UInt8}
  {passages : List Ascii.Passage} {full bare : Outcome Result}

/-- Nothing is written. -/
theorem nothing {final : Writer} (text : final.TakesText)
    (same : final.stream.sink.accepted = start.stream.sink.accepted) (result : Except Error Result) :
    Drops start accepted [] (result, final) (result, final.rebase accepted) where
  text := text
  written := by
    rw [same]
    simp
  dropped := by simp

theorem changed {other : Writer} (drops : Drops start accepted passages full bare)
    (stream : start.stream = other.stream) : Drops other accepted passages full bare where
  text := drops.text
  written := by rw [drops.written, stream]
  dropped := drops.dropped

/-- What follows goes on with the outputs of both. -/
theorem trans {First : Type} {first firstBare : Outcome First} {later : List Ascii.Passage}
    (before : Drops start accepted passages first firstBare)
    (after : Drops first.2 (accepted ++ passages.flatMap Ascii.Passage.withoutComment) later full
      bare) : Drops start accepted (passages ++ later) full bare where
  text := after.text
  written := by rw [after.written, before.written, List.flatMap_append, Sink.append_pieces]
  dropped := by rw [after.dropped, List.flatMap_append, Sink.append_pieces]

end Drops

/-- The second action does what the first one does, apart from comments that can be left out. -/
def DropsComments {Result : Type} (optional : String → Prop)
    (full bare : Writer → Outcome Result) : Prop :=
  ∀ (writer : Writer) (accepted : Array UInt8), writer.TakesText → ∃ passages,
    (∀ passage ∈ passages, passage.Whole optional) ∧
      Drops writer accepted passages (full writer) (bare (writer.rebase accepted))

namespace DropsComments

variable {First Result : Type} {optional : String → Prop}

/-- An action that writes nothing and does not look at the output. -/
theorem silent {act : Writer → Outcome Result}
    (text : ∀ writer, writer.TakesText → (act writer).2.TakesText)
    (same : ∀ writer, (act writer).2.stream.sink.accepted = writer.stream.sink.accepted)
    (blind : ∀ writer accepted,
      act (writer.rebase accepted) = ((act writer).1, (act writer).2.rebase accepted)) :
    DropsComments optional act act := by
  intro writer accepted takes
  refine ⟨[], List.forall_mem_nil _, ?_⟩
  rw [blind]
  exact .nothing (text writer takes) (same writer) (act writer).1

/-- An action that only answers changes nothing. -/
theorem answer {answer : Writer → Except Error Result}
    (blind : ∀ writer accepted, answer (writer.rebase accepted) = answer writer) :
    DropsComments optional (fun writer => (answer writer, writer))
      fun writer => (answer writer, writer) :=
  silent (fun _ takes => takes) (fun _ => rfl)
    fun writer accepted => by rw [blind]

/-- What follows is compared from the writers at which the first actions have ended. -/
theorem followedBy {first firstBare : Writer → Outcome First}
    {next nextBare : First → Writer → Outcome Result}
    (before : DropsComments optional first firstBare)
    (after : ∀ result, DropsComments optional (next result) (nextBare result)) :
    DropsComments optional (Writer.followedBy first next)
      (Writer.followedBy firstBare nextBare) := by
  intro writer accepted text
  obtain ⟨front, frontWhole, drops⟩ := before writer accepted text
  rw [Writer.followedBy, Writer.followedBy, drops.dropped]
  generalize first writer = outcome at drops ⊢
  obtain ⟨result, middle⟩ := outcome
  cases result with
  | error error => exact ⟨front, frontWhole, drops.text, drops.written, rfl⟩
  | ok value =>
      obtain ⟨back, backWhole, later⟩ := after value middle
        (accepted ++ front.flatMap Ascii.Passage.withoutComment) drops.text
      exact ⟨front ++ back, List.forall_mem_append.mpr ⟨frontWhole, backWhole⟩, drops.trans later⟩

end DropsComments

/-- A request writes the same whole lines whatever has been written before it. -/
theorem dropsComments_perform {optional : String → Prop} {request : Request}
    (ends : request.EndsLines) : DropsComments optional (perform request) (perform request) := by
  intro writer accepted text
  have checkedText := text.plan_takesText request
  have sink := sink_plan request writer
  have sends (plan : Plan) := @plan_sends request writer plan
  rw [perform, perform, plan_rebase]
  generalize writer.plan request = outcome at checkedText sink sends ⊢
  obtain ⟨result, checked⟩ := outcome
  cases result with
  | error error =>
      refine ⟨[], List.forall_mem_nil _, checkedText, ?_, ?_⟩
      · rw [complete, sink]
        simp
      · simp [complete]
  | ok plan =>
      obtain ⟨depth, ascii⟩ := checkedText.ascii
      have whole := Ascii.wholeLines_piece (sends plan rfl) ends depth
      have sent (current : Writer) (encoding : current.stream.encoding = .ascii depth)
          (unlimited : current.stream.sink.room = none) : complete (.ok plan, current) =
          (.ok plan.reply, (current.rebase (current.stream.sink.accepted ++
            Ascii.piece depth plan.piece)).apply plan.effect) := by
        rw [complete, send_text plan.piece current depth encoding unlimited]
        rfl
      have sentText : (checked.rebase (checked.stream.sink.accepted ++
          Ascii.piece depth plan.piece)).TakesText := ⟨⟨depth, ascii⟩, checkedText.unlimited⟩
      obtain ⟨finalText, finalSink⟩ := sentText.apply_takesText plan.effect
      rw [sent checked ascii checkedText.unlimited,
        sent (checked.rebase accepted) ascii checkedText.unlimited]
      refine ⟨[.kept (Ascii.piece depth plan.piece)], ?_, finalText, ?_, ?_⟩
      · intro passage member
        rw [List.mem_singleton.mp member]
        exact whole
      · rw [finalSink, List.flatMap_singleton, ← sink]
        rfl
      · rw [List.flatMap_singleton, ← apply_rebase]
        rfl

/-- On a sink that accepts everything, a comment is written as it is and changes nothing else. -/
theorem perform_comment (text : String) {writer : Writer} {depth : Nat}
    (ascii : writer.stream.encoding = .ascii depth) (unlimited : writer.stream.sink.room = none) :
    writer.perform (.record "comment" text) = (.ok .done,
      writer.rebase (writer.stream.sink.accepted ++ Ascii.record depth "comment" text)) := by
  rw [perform, plan, complete, send_text _ writer depth ascii unlimited]
  rfl

/-- A comment is left out as a whole. -/
theorem drops_comment (text : String) {writer : Writer} {depth : Nat}
    (ascii : writer.stream.encoding = .ascii depth) (unlimited : writer.stream.sink.room = none)
    (accepted : Array UInt8) :
    Drops writer accepted [.comment depth text] (writer.perform (.record "comment" text))
      (.ok .done, writer.rebase accepted) := by
  rw [perform_comment text ascii unlimited]
  refine ⟨⟨⟨depth, ascii⟩, unlimited⟩, ?_, ?_⟩
  · rw [List.flatMap_singleton]
    rfl
  · rw [List.flatMap_singleton, Ascii.Passage.withoutComment]
    simp [rebase]

theorem dropsComments_comment {optional : String → Prop} {text : String} (allowed : optional text) :
    DropsComments optional (perform (.record "comment" text)) fun writer => (.ok .done, writer) := by
  intro writer accepted takes
  obtain ⟨depth, ascii⟩ := takes.ascii
  refine ⟨[.comment depth text], ?_, drops_comment text ascii takes.unlimited accepted⟩
  intro passage member
  rw [List.mem_singleton.mp member]
  exact allowed

end Writer

end RibStream
