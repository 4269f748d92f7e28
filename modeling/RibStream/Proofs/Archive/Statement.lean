/-
This file says what one statement does: an archive is replayed in place, anything else is issued.
-/

import RibStream.Proofs.Archive.Expansion
import RibStream.Proofs.Writer.Frame
import RibStream.Proofs.Writer.Untraced

namespace RibStream.Writer

variable {archives : Archives}

/-- Issues a statement without looking for archives. -/
def literal (statement : Statement) (writer : Writer) : Outcome Reply :=
  match statement with
  | .request request => writer.perform request
  | .service service => (service.answer writer.dictionary, writer)
  | .room room => (.ok .done, { writer with stream.sink := writer.stream.sink.grant room })
  | .unreadable error => (.error error, writer)

theorem literal_alike (statement : Statement) {left right : Writer}
    (same : left.untraced = right.untraced) :
    Outcome.Alike (left.literal statement) (right.literal statement) := by
  cases statement with
  | request request => exact perform_alike request same
  | service service =>
      have dictionary : left.dictionary = right.dictionary :=
        eq_of_untraced_eq Writer.dictionary (fun _ => rfl) same
      exact ⟨congrArg service.answer dictionary, same⟩
  | room room =>
      refine ⟨rfl, ?_⟩
      exact congrArg (fun writer : Writer =>
        { writer with stream.sink := writer.stream.sink.grant room }) same
  | unreadable error => exact ⟨rfl, same⟩

theorem hasParser_literal (statement : Statement) (writer : Writer) :
    (writer.literal statement).2.hasParser = writer.hasParser := by
  cases statement with
  | request request => exact congrArg (·.2.1) (settings_perform request writer)
  | _ => rfl

/-- Whether an archive is inlined does not depend on the trace. -/
theorem Inlines.of_untraced_eq {left right : Writer} (same : left.untraced = right.untraced)
    {name : String} {parameters : List ParamSource} {file : Fin archives.files.count}
    {content : archives.Content} (inlines : Inlines archives left name parameters file content) :
    Inlines archives right name parameters file content := by
  have interpolate : left.interpolateArchives = right.interpolateArchives :=
    eq_of_untraced_eq Writer.interpolateArchives (fun _ => rfl) same
  have parser : left.hasParser = right.hasParser :=
    eq_of_untraced_eq Writer.hasParser (fun _ => rfl) same
  have dictionary : left.dictionary = right.dictionary :=
    eq_of_untraced_eq Writer.dictionary (fun _ => rfl) same
  have path : left.searchPath = right.searchPath :=
    eq_of_untraced_eq Writer.searchPath (fun _ => rfl) same
  obtain ⟨asked, parsed, typed, found, reads⟩ := inlines
  exact ⟨interpolate ▸ asked, parser ▸ parsed, dictionary ▸ typed, path ▸ found, reads⟩

/-- A parser is found wherever one was given. -/
theorem takeParser_ok (writer : Writer) (parsed : writer.hasParser = true) :
    writer.takeParser.1 = .ok () ∧ writer.takeParser.2.untraced = writer.untraced := by
  rw [takeParser]
  by_cases made : writer.parserMade
  · rw [if_pos made]
    exact ⟨rfl, rfl⟩
  · rw [if_neg made, if_pos parsed]
    exact ⟨rfl, rfl⟩

/-- An archive that resolves is opened, which only the trace shows. -/
theorem Inlines.opens {writer : Writer} {name : String} {parameters : List ParamSource}
    {file : Fin archives.files.count} {content : archives.Content}
    (inlines : Inlines archives writer name parameters file content) :
    ∃ opened, openArchive archives name writer = (.ok content, opened) ∧
      opened.untraced = writer.untraced := by
  obtain ⟨asked, parsed, typed, ⟨path, located⟩, reads⟩ := inlines
  obtain ⟨taken, unchanged⟩ := takeParser_ok (writer.log (.archiveResolved name path)) parsed
  refine ⟨_, ?_, unchanged⟩
  rw [openArchive, located]
  simp only [reads, taken, Except.map]

/-- An archive that resolves is replayed in place of the request that names it. -/
theorem runStatement_inlined (replay : Script → Writer → Outcome Unit) {writer : Writer}
    {name : String} {parameters : List ParamSource} {file : Fin archives.files.count}
    {content : archives.Content} (inlines : Inlines archives writer name parameters file content) :
    ∃ opening : Writer, opening.untraced = writer.untraced ∧
      Outcome.Alike (runStatement archives replay (.request (.readArchive name parameters)) writer)
        (reply (replay (archives.parse name content) opening)) := by
  obtain ⟨opened, opens, unchanged⟩ := inlines.opens
  obtain ⟨params, typed⟩ := inlines.typed
  refine ⟨{ opened.log (.archiveOpened name) with
    trace.archives := (opened.log (.archiveOpened name)).trace.archives.push name }, unchanged, ?_⟩
  rw [runStatement, issue, typed]
  simp only [readArchive, if_pos inlines.asked, opens, replayArchive]
  rcases replay (archives.parse name content) _ with ⟨result | result, final⟩ <;> exact ⟨rfl, rfl⟩

/-- Reading an archive that is not inlined writes the request, after a note in the trace at most. -/
theorem readArchive_kept (replay : Script → Writer → Outcome Unit) {writer : Writer} {name : String}
    {parameters : List ParamSource} {params : List Param} (parsed : writer.hasParser = true)
    (typed : ParamSource.resolveAll writer.dictionary parameters = .ok params)
    (kept : ¬ IsInlined archives writer (.request (.readArchive name parameters))) :
    Outcome.Alike (readArchive archives replay name params writer)
      (writer.emitArchive name params) := by
  rw [readArchive]
  by_cases asked : writer.interpolateArchives = true
  · rw [if_pos asked, openArchive]
    cases located : writer.searchPath.locate? archives.files name with
    | none => exact ⟨rfl, rfl⟩
    | some found =>
        obtain ⟨path, file⟩ := found
        dsimp only
        cases reads : archives.files.read file with
        | error cause => exact ⟨rfl, rfl⟩
        | ok content =>
            exact absurd ⟨name, parameters, file, content, rfl, asked, parsed, ⟨params, typed⟩,
              ⟨path, located⟩, reads⟩ kept
  · rw [if_neg asked]
    exact .refl _

/-- A statement that is not inlined is issued as it stands. -/
theorem runStatement_kept (replay : Script → Writer → Outcome Unit) {writer : Writer}
    (parsed : writer.hasParser = true) {statement : Statement}
    (kept : ¬ IsInlined archives writer statement) :
    Outcome.Alike (runStatement archives replay statement writer) (writer.literal statement) := by
  cases statement with
  | request request =>
      show Outcome.Alike (writer.issue (readArchive archives replay) request)
        (writer.perform request)
      rw [← issue_eq_perform (fun name params writer => writer.emitArchive name params) request writer
          fun _ _ => rfl]
      cases request with
      | readArchive name parameters =>
          rw [issue, issue]
          cases typed : ParamSource.resolveAll writer.dictionary parameters with
          | error error => exact .refl _
          | ok params =>
              have written := readArchive_kept replay parsed typed kept
              exact ⟨congrArg (Except.map _) written.1, written.2⟩
      | _ => exact .refl _
  | _ => exact .refl _

end RibStream.Writer
