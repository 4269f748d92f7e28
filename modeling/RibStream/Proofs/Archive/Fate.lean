/-
This file says what becomes of a request to read an archive.
Either the statements of the archive take its place, or it is carried out like any other request.
-/

import RibStream.Proofs.Archive.Opening
import RibStream.Proofs.Writer.Untraced

namespace RibStream

/-- The archive has been opened, with what the parser does with it, or the request is left to the
writer, which may have logged why. -/
inductive Fate where
  | inlined (script : Script) (opened : Writer)
  | kept (writer : Writer)

namespace Writer

/-- The number of warnings that have been logged. -/
def warnings (writer : Writer) : Nat :=
  writer.trace.events.countP (·.severity = .warning)

/-- Nothing but the trace and the parser has changed, and no warning was logged. -/
structure Quiet (before after : Writer) : Prop where
  untraced : after.untraced = before.untraced
  warnings : after.warnings = before.warnings

/-- The writer in which an archive is replayed. -/
def enterArchive (name : String) (writer : Writer) : Writer :=
  { writer.log (.archiveOpened name) with
    trace.archives := (writer.log (.archiveOpened name)).trace.archives.push name }

/-- The end of an archive is reported when its statements have all succeeded. -/
def leaveArchive (name : String) (outcome : Outcome Unit) : Outcome Unit :=
  match outcome with
  | (.ok (), writer) => (.ok (), writer.log (.archiveFinished name))
  | (.error error, writer) => (.error error, writer)

def fate (archives : Archives) (name : String) (parameters : List ParamSource) (writer : Writer) :
    Fate :=
  match ParamSource.resolveAll writer.dictionary parameters, writer.interpolateArchives with
  | .ok _, true =>
      match writer.openArchive archives name with
      | (.ok content, opened) => .inlined (archives.parse name content) opened
      | (.error cause, opened) => .kept (opened.log (.archiveUnavailable name cause))
  | _, _ => .kept writer

namespace Quiet

variable {first second third : Writer}

theorem refl (writer : Writer) : Quiet writer writer := ⟨rfl, rfl⟩

theorem trans (before : Quiet first second) (after : Quiet second third) : Quiet first third :=
  ⟨after.untraced.trans before.untraced, after.warnings.trans before.warnings⟩

theorem log (writer : Writer) {event : Event} (mild : event.severity ≠ .warning) :
    Quiet writer (writer.log event) := by
  refine ⟨rfl, ?_⟩
  rw [Writer.warnings, Writer.log, Array.countP_push, if_neg (by simpa using mild)]
  rfl

theorem takeParser (writer : Writer) : Quiet writer writer.takeParser.2 := by
  rw [Writer.takeParser]
  repeat' split
  all_goals exact ⟨rfl, rfl⟩

theorem openArchive (archives : Archives) (name : String) (writer : Writer) :
    Quiet writer (writer.openArchive archives name).2 := by
  rw [Writer.openArchive]
  cases writer.searchPath.locate? archives.files name with
  | none => exact .refl writer
  | some found =>
      have logged : Quiet writer (writer.log (.archiveResolved name found.1)) :=
        .log writer (by simp [Event.severity])
      dsimp only
      cases archives.files.read found.2 with
      | error error => exact logged
      | ok content => exact logged.trans (takeParser _)

theorem enterArchive (name : String) (writer : Writer) : Quiet writer (writer.enterArchive name) :=
  ⟨rfl, (Quiet.log writer (by simp [Event.severity])).warnings⟩

theorem leaveArchive (name : String) (outcome : Outcome Unit) :
    Quiet outcome.2 (Writer.leaveArchive name outcome).2 := by
  obtain ⟨result | result, writer⟩ := outcome
  · exact .refl writer
  · exact .log writer (by simp [Event.severity])

theorem stream_eq (quiet : Quiet first second) : second.stream = first.stream :=
  eq_of_untraced_eq Writer.stream (fun _ => rfl) quiet.untraced

theorem dictionary_eq (quiet : Quiet first second) : second.dictionary = first.dictionary :=
  eq_of_untraced_eq Writer.dictionary (fun _ => rfl) quiet.untraced

end Quiet

theorem leaveArchive_fst (name : String) (outcome : Outcome Unit) :
    (leaveArchive name outcome).1 = outcome.1 := by
  obtain ⟨result | result, writer⟩ := outcome <;> rfl

variable {archives : Archives} {name : String} {parameters : List ParamSource} {writer : Writer}

/-- An archive is inlined by a writer that was asked to, and only where it is found. -/
theorem quiet_of_fate_inlined {script : Script} {opened : Writer}
    (fate : writer.fate archives name parameters = .inlined script opened) :
    Quiet writer opened ∧ ∃ content, writer.openArchive archives name = (.ok content, opened) ∧
      script = archives.parse name content := by
  rw [Writer.fate] at fate
  split at fate
  · have opening := Quiet.openArchive archives name writer
    cases opens : writer.openArchive archives name with
    | mk result next =>
        rw [opens] at fate opening
        cases result with
        | error cause => cases fate
        | ok found =>
            cases fate
            exact ⟨opening, found, rfl, rfl⟩
  · cases fate

theorem quiet_of_fate_kept {logged : Writer}
    (fate : writer.fate archives name parameters = .kept logged) : Quiet writer logged := by
  rw [Writer.fate] at fate
  split at fate
  · have opening := Quiet.openArchive archives name writer
    generalize writer.openArchive archives name = outcome at fate opening
    obtain ⟨result, opened⟩ := outcome
    cases result with
    | ok statements => cases fate
    | error cause =>
        cases fate
        exact opening.trans (.log opened (by simp [Event.severity]))
  · cases fate
    exact .refl writer

/-- What a request to read an archive does is determined by its fate. -/
theorem runStatement_readArchive (archives : Archives)
    (replay : Script → Writer → Outcome Unit) (name : String) (parameters : List ParamSource)
    (writer : Writer) :
    runStatement archives replay (.request (.readArchive name parameters)) writer =
      match writer.fate archives name parameters with
      | .inlined script opened => reply (leaveArchive name (replay script (opened.enterArchive name)))
      | .kept writer => writer.perform (.readArchive name parameters) := by
  rw [runStatement, issue, fate]
  cases resolved : ParamSource.resolveAll writer.dictionary parameters with
  | error error =>
      show _ = writer.perform (.readArchive name parameters)
      rw [perform, plan, planParams, resolved]
      rfl
  | ok params =>
      cases asked : writer.interpolateArchives with
      | false =>
          simp only [readArchive, asked]
          exact emitArchive_eq_perform resolved
      | true =>
          have dictionary := (Quiet.openArchive archives name writer).dictionary_eq
          simp only [readArchive, asked, if_true]
          generalize openArchive archives name writer = outcome at dictionary ⊢
          obtain ⟨result, opened⟩ := outcome
          cases result with
          | ok content => rfl
          | error cause => exact emitArchive_eq_perform (dictionary.symm ▸ resolved)

end Writer

end RibStream
