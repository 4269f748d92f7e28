/-
This file says what happens when an archive is opened.
-/

import RibStream.Proofs.Archive.Content
import RibStream.Proofs.Request.Resolved

namespace RibStream.Writer

variable {archives : Archives}

theorem stream_takeParser (writer : Writer) : writer.takeParser.2.stream = writer.stream := by
  rw [takeParser]
  repeat' split
  all_goals rfl

theorem stream_openArchive (name : String) (writer : Writer) :
    (openArchive archives name writer).2.stream = writer.stream := by
  rw [openArchive]
  cases writer.searchPath.locate? archives.files name with
  | none => rfl
  | some found =>
      obtain ⟨path, file⟩ := found
      dsimp only
      cases archives.files.read file with
      | error error => rfl
      | ok content => exact stream_takeParser (writer.log (.archiveResolved name path))

/-- Only archives that are found and whose files open are opened. -/
theorem found_of_openArchive {name : String} {writer opened : Writer} {content : archives.Content}
    (opens : openArchive archives name writer = (.ok content, opened)) :
    ∃ path file, writer.searchPath.locate? archives.files name = some (path, file) ∧
      archives.files.read file = .ok content ∧
      (writer.log (.archiveResolved name path)).takeParser = (.ok (), opened) := by
  rw [openArchive] at opens
  cases located : writer.searchPath.locate? archives.files name with
  | none =>
      rw [located] at opens
      cases opens
  | some found =>
      obtain ⟨path, file⟩ := found
      rw [located] at opens
      dsimp only at opens
      cases read : archives.files.read file with
      | error error =>
          rw [read] at opens
          cases opens
      | ok found =>
          rw [read] at opens
          dsimp only at opens
          obtain ⟨taken, after⟩ := Prod.mk.inj opens
          obtain ⟨⟨⟩, success, rfl⟩ := exists_of_map_eq_ok taken
          exact ⟨path, file, rfl, read, Prod.ext success after⟩

end RibStream.Writer
