/-
This file says which parts of a writer a request leaves alone.
-/

import RibStream.Proofs.Writer.Change

namespace RibStream.Writer

/-- What is decided about archives and parsers before a request is issued. -/
def settings (writer : Writer) : Bool × Bool × Bool :=
  (writer.interpolateArchives, writer.hasParser, writer.parserMade)

theorem settings_apply (effect : Effect) (writer : Writer) :
    (writer.apply effect).settings = writer.settings := by
  rw [apply_eq]
  rfl

/-- A block that is entered is the only effect on the stream. -/
theorem stream_apply (effect : Effect) (writer : Writer) :
    (writer.apply effect).stream =
      if effect = .enter then writer.stream.enter else writer.stream := by
  rw [apply_eq]

theorem leave_frame (writer : Writer) :
    writer.leave.settings = writer.settings ∧ writer.leave.stream = writer.stream.leave := by
  rw [leave]
  split <;> exact ⟨rfl, rfl⟩

/-- A request is checked without writing, and only the end of a block touches the stream at all. -/
theorem plan_frame (request : Request) (writer : Writer) :
    (writer.plan request).2.settings = writer.settings ∧
      ((writer.plan request).2.stream = writer.stream ∨
        (writer.plan request).2.stream = writer.stream.leave) := by
  obtain ⟨change, checks⟩ := exists_checks request writer
  rw [checks.plan_eq]
  cases change with
  | leave =>
      obtain ⟨settings, stream⟩ := leave_frame writer
      exact ⟨settings, .inr stream⟩
  | _ => exact ⟨rfl, .inl rfl⟩

/-- No request changes the settings. -/
theorem settings_perform (request : Request) (writer : Writer) :
    (writer.perform request).2.settings = writer.settings :=
  (perform_frame settings (fun _ _ _ _ => rfl) request writer).trans (plan_frame request writer).1

end RibStream.Writer
