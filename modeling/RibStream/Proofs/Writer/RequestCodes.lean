/-
This file says that a writer gives codes only to the names of requests.
There are fewer of them than codes, so a writer never runs out.
-/

import RibStream.Proofs.Archive.Issues
import RibStream.Proofs.Stream.Request
import RibStream.Proofs.Writer.Frame
import RibStream.Proofs.Writer.Lines

namespace RibStream

namespace Writer

/-- All codes in the stream belong to names of requests. -/
def CodesNamed (writer : Writer) : Prop :=
  writer.stream.encoding.Named

theorem CodesNamed.send {writer : Writer} (named : writer.CodesNamed) {request : Request}
    {piece : Piece} (sends : Sends request piece) : (writer.send piece).2.CodesNamed := by
  cases sends with
  | nothing => exact named
  | record same => exact named
  | @line line known finite =>
      show (writer.stream.request line.name line.tokens).2.encoding.Named
      rw [Stream.encoding_request]
      exact (Encoding.request_named named known line.tokens).1

theorem CodesNamed.plan {writer : Writer} (named : writer.CodesNamed) (request : Request) :
    (writer.plan request).2.CodesNamed := by
  rw [CodesNamed]
  rcases (plan_frame request writer).2 with same | left
  · rw [same]
    exact named
  · rw [left]
    exact Encoding.named_leave named

theorem CodesNamed.apply {writer : Writer} (named : writer.CodesNamed) (effect : Effect) :
    (writer.apply effect).CodesNamed := by
  rw [CodesNamed, stream_apply]
  split
  · exact Encoding.named_enter named
  · exact named

/-- No request takes a code for anything but its name. -/
theorem CodesNamed.perform {writer : Writer} (named : writer.CodesNamed) (request : Request) :
    (writer.perform request).2.CodesNamed := by
  have checkedNamed := named.plan request
  have sends (plan : Plan) := @plan_sends request writer plan
  rw [Writer.perform]
  generalize writer.plan request = outcome at checkedNamed sends ⊢
  obtain ⟨result, checked⟩ := outcome
  cases result with
  | error error => exact checkedNamed
  | ok plan =>
      have sentNamed := checkedNamed.send (sends plan rfl)
      rw [complete]
      generalize checked.send plan.piece = outcome at sentNamed ⊢
      obtain ⟨result, after⟩ := outcome
      cases result with
      | error error => exact sentNamed
      | ok success => exact sentNamed.apply plan.effect

/-- No run takes a code for anything but the name of a request, whatever the sink accepts. -/
theorem Path.codesNamed {property : Statement → Prop} {first last : Writer} {issues : List Issue}
    (path : Path property first issues last) (named : first.CodesNamed) : last.CodesNamed := by
  induction path with
  | done writer => exact named
  | quiet quiet later inductionHypothesis =>
      apply inductionHypothesis
      rw [CodesNamed, quiet.stream_eq]
      exact named
  | granted has later inductionHypothesis => exact inductionHypothesis named
  | carriedOut has later inductionHypothesis => exact inductionHypothesis (named.perform _)

/-- A writer as it is made: on a stream in which nothing has been written. -/
inductive Made : Writer → Prop where
  | ofStream (sink : Sink) (options : Options) {encoding : Encoding}
      (fresh : encoding = .startAscii ∨ encoding = .startBinary) :
      Made (.ofStream ⟨encoding, sink⟩ options)
  | create (sink : Sink) (options : Options) : Made (.create sink options)

/-- A session that started with a new writer has led to the given one. -/
def Reached (archives : Archives) (writer : Writer) : Prop :=
  ∃ start statements, Made start ∧ writer = start.session archives statements

/-- A new writer has got its stream and its options, and everything else is at its start. -/
theorem Made.exists_ofStream {writer : Writer} (made : Made writer) :
    ∃ stream options trace, writer = { Writer.ofStream stream options with trace := trace } := by
  cases made with
  | ofStream sink options fresh => exact ⟨_, _, _, rfl⟩
  | create sink options =>
      rw [Writer.create]
      split <;> exact ⟨_, _, _, rfl⟩

theorem Made.codesNamed {writer : Writer} (made : Made writer) : writer.CodesNamed := by
  have empty : Encoding.startBinary.Named := Binary.CodeTable.named_empty
  cases made with
  | ofStream sink options fresh =>
      rcases fresh with rfl | rfl
      · trivial
      · exact empty
  | create sink options =>
      rw [CodesNamed, Writer.create]
      split
      · exact empty
      · trivial

theorem Reached.codesNamed {archives : Archives} {writer : Writer}
    (reached : Reached archives writer) : writer.CodesNamed := by
  obtain ⟨start, statements, made, rfl⟩ := reached
  exact (path_of_session archives statements start).codesNamed made.codesNamed

end Writer

end RibStream
