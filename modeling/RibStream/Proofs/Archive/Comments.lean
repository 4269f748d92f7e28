/-
This file compares a session with the same session without some of its comments.
The comments can stand in the session itself and in the archives that it inlines.
-/

import RibStream.Proofs.Archive.Fate
import RibStream.Proofs.Archive.Inlining
import RibStream.Proofs.Writer.Accepted

namespace RibStream

/-- A statement, or a comment that can be left out. -/
inductive Annotated where
  | kept (statement : Statement)
  | comment (text : String)

namespace Annotated

def withComment : Annotated → Statement
  | kept statement => statement
  | comment text => .request (.record "comment" text)

def withoutComment? : Annotated → Option Statement
  | kept statement => some statement
  | comment _ => none

def withComments (lines : List Annotated) : List Statement :=
  lines.map withComment

def withoutComments (lines : List Annotated) : List Statement :=
  lines.filterMap withoutComment?

@[simp]
theorem withComments_cons (line : Annotated) (rest : List Annotated) :
    withComments (line :: rest) = line.withComment :: withComments rest := rfl

@[simp]
theorem withoutComments_kept (statement : Statement) (rest : List Annotated) :
    withoutComments (.kept statement :: rest) = statement :: withoutComments rest := rfl

@[simp]
theorem withoutComments_comment (text : String) (rest : List Annotated) :
    withoutComments (.comment text :: rest) = withoutComments rest := rfl

/-- The statement ends its lines, and the comment is one of those that can be left out. -/
def EndsLines (optional : String → Prop) : Annotated → Prop
  | kept statement => statement.EndsLines
  | comment text => optional text

instance (optional : String → Prop) [DecidablePred optional] (line : Annotated) :
    Decidable (line.EndsLines optional) :=
  match line with
  | kept statement => inferInstanceAs (Decidable statement.EndsLines)
  | comment text => inferInstanceAs (Decidable (optional text))

end Annotated

/-- Archives with comments that can be left out. -/
abbrev AnnotatedArchives := Files (List Annotated)

namespace AnnotatedArchives

def withComments (archives : AnnotatedArchives) : Archives :=
  .replaying (archives.map Annotated.withComments)

def withoutComments (archives : AnnotatedArchives) : Archives :=
  .replaying (archives.map Annotated.withoutComments)

/-- Every line of every archive has the property. -/
def All (property : Annotated → Prop) (archives : AnnotatedArchives) : Prop :=
  ∀ file lines, archives.read file = .ok lines → ∀ line ∈ lines, property line

theorem nestingLimit_eq (archives : AnnotatedArchives) :
    Writer.nestingLimit archives.withoutComments = Writer.nestingLimit archives.withComments := rfl

end AnnotatedArchives

/-- An archive is read with its comments by one writer and without them by the other one, or it is
read by none. -/
inductive Fate.Drops (archives : AnnotatedArchives) (accepted : Array UInt8) : Fate → Fate → Prop where
  | inlined {file : Fin archives.count} {lines : List Annotated}
      (reads : archives.read file = .ok lines) (opened : Writer) :
      Fate.Drops archives accepted (.inlined (.replaying (Annotated.withComments lines)) opened)
        (.inlined (.replaying (Annotated.withoutComments lines)) (opened.rebase accepted))
  | kept (logged : Writer) : Fate.Drops archives accepted (.kept logged) (.kept (logged.rebase accepted))

namespace Writer

theorem takeParser_rebase (writer : Writer) (accepted : Array UInt8) :
    (writer.rebase accepted).takeParser =
      (writer.takeParser.1, writer.takeParser.2.rebase accepted) := by
  have made : (writer.rebase accepted).parserMade = writer.parserMade := rfl
  have parsed : (writer.rebase accepted).hasParser = writer.hasParser := rfl
  rw [takeParser, takeParser, made, parsed]
  repeat' split
  all_goals rfl

/-- Whether an archive is inlined depends neither on its comments nor on the output. -/
theorem fate_drops (archives : AnnotatedArchives) (name : String) (parameters : List ParamSource)
    (writer : Writer) (accepted : Array UInt8) :
    Fate.Drops archives accepted (writer.fate archives.withComments name parameters)
      ((writer.rebase accepted).fate archives.withoutComments name parameters) := by
  have dictionary : (writer.rebase accepted).dictionary = writer.dictionary := rfl
  have asked : (writer.rebase accepted).interpolateArchives = writer.interpolateArchives := rfl
  have searchPath : (writer.rebase accepted).searchPath = writer.searchPath := rfl
  rw [fate, fate, dictionary, asked]
  split
  · have located (change : List Annotated → List Statement) :
        writer.searchPath.locate? (archives.map change) name =
          writer.searchPath.locate? archives name := rfl
    rw [openArchive, openArchive, searchPath]
    dsimp only [AnnotatedArchives.withComments, AnnotatedArchives.withoutComments,
      Archives.replaying]
    rw [located, located]
    cases writer.searchPath.locate? archives name with
    | none => exact .kept _
    | some found =>
        have taken : ((writer.rebase accepted).log (.archiveResolved name found.1)).takeParser = _ :=
          takeParser_rebase (writer.log (.archiveResolved name found.1)) accepted
        cases reads : archives.read found.2 with
        | error error =>
            simp only [Files.map, reads, Except.map]
            exact .kept _
        | ok lines =>
            simp only [Files.map, reads, Except.map, taken]
            generalize (writer.log (.archiveResolved name found.1)).takeParser = outcome
            obtain ⟨result | result, opened⟩ := outcome
            · exact .kept _
            · exact .inlined reads opened
  · exact .kept _

section Replay

variable {optional : String → Prop} {archives : AnnotatedArchives}
  {replay replayBare : Script → Writer → Outcome Unit}

/-- A comment in the place of a statement. -/
theorem dropsComments_runStatement_comment {text : String} (allowed : optional text) :
    DropsComments optional
      (runStatement archives.withComments replay (.request (.record "comment" text)))
      fun writer => (.ok .done, writer) := by
  have performs : runStatement archives.withComments replay (.request (.record "comment" text)) =
      perform (.record "comment" text) := by
    funext writer
    exact runStatement_of_ne (by simp) writer
  rw [performs]
  exact dropsComments_comment allowed

variable (steady : archives.All (Annotated.EndsLines optional))
  (replays : ∀ lines, (∀ line ∈ lines, Annotated.EndsLines optional line) →
    DropsComments optional (replay (.replaying (Annotated.withComments lines)))
      (replayBare (.replaying (Annotated.withoutComments lines))))

include steady replays

theorem dropsComments_readArchive (name : String) (parameters : List ParamSource) :
    DropsComments optional
      (runStatement archives.withComments replay (.request (.readArchive name parameters)))
      (runStatement archives.withoutComments replayBare
        (.request (.readArchive name parameters))) := by
  have left (run : Script → Writer → Outcome Unit) (script : Script) (writer : Writer) :
      reply (leaveArchive name (run script writer)) =
        followedBy (run script)
          (fun _ writer => (.ok .done, writer.log (.archiveFinished name))) writer := by
    rw [followedBy]
    rcases run script writer with ⟨result | result, final⟩ <;> rfl
  have literal : DropsComments optional (perform (.readArchive name parameters))
      (perform (.readArchive name parameters)) :=
    dropsComments_perform (List.forall_mem_nil _)
  intro writer accepted text
  have fates := fate_drops archives name parameters writer accepted
  rw [runStatement_readArchive, runStatement_readArchive]
  generalize fate : writer.fate archives.withComments name parameters = fate at fates ⊢
  generalize (writer.rebase accepted).fate archives.withoutComments name parameters = other at fates ⊢
  cases fates with
  | kept logged =>
      have stream := (quiet_of_fate_kept fate).stream_eq
      obtain ⟨passages, whole, drops⟩ := literal logged accepted (text.of_stream_eq stream)
      exact ⟨passages, whole, drops.changed stream⟩
  | @inlined file lines reads opened =>
      have stream := (quiet_of_fate_inlined fate).1.stream_eq
      have finish : DropsComments optional
          (fun writer => (.ok Reply.done, writer.log (.archiveFinished name))) _ :=
        .silent (fun _ text => text.of_stream_eq rfl) (fun _ => rfl) fun _ _ => rfl
      have inside := (replays lines (steady file lines reads)).followedBy fun _ => finish
      obtain ⟨passages, whole, drops⟩ :=
        inside (opened.enterArchive name) accepted (text.of_stream_eq stream)
      rw [← left, ← left] at drops
      exact ⟨passages, whole, drops.changed stream⟩

theorem dropsComments_runStatement {statement : Statement} (ends : statement.EndsLines) :
    DropsComments optional (runStatement archives.withComments replay statement)
      (runStatement archives.withoutComments replayBare statement) := by
  cases statement with
  | service service => exact .answer fun _ _ => rfl
  | unreadable error => exact .answer fun _ _ => rfl
  | room room =>
      cases ends
      exact .silent (fun _ text => ⟨text.ascii, rfl⟩) (fun _ => rfl) fun _ _ => rfl
  | request request =>
      rcases readArchive_or_ne request with ⟨name, parameters, rfl⟩ | other
      · exact dropsComments_readArchive steady replays name parameters
      · have performs (files : Archives) (run : Script → Writer → Outcome Unit) :
            runStatement files run (.request request) = perform request := by
          funext writer
          exact runStatement_of_ne other writer
        rw [performs, performs]
        exact dropsComments_perform ends

end Replay

section Run

variable {optional : String → Prop} {archives : AnnotatedArchives}

/-- A line is run as its statement, or left out. -/
theorem dropsComments_replaying {run runBare : Statement → Writer → Outcome Reply}
    (runs : ∀ statement : Statement, statement.EndsLines →
      DropsComments optional (run statement) (runBare statement))
    (comments : ∀ text, optional text → DropsComments optional
      (run (.request (.record "comment" text))) fun writer => (.ok .done, writer))
    (lines : List Annotated) (own : ∀ line ∈ lines, Annotated.EndsLines optional line) :
    DropsComments optional (runScript run (.replaying (Annotated.withComments lines)))
      (runScript runBare (.replaying (Annotated.withoutComments lines))) := by
  have steps (run : Statement → Writer → Outcome Reply) (statement : Statement)
      (rest : List Statement) :
      runScript run (.replaying (statement :: rest)) =
        followedBy (run statement) fun _ => runScript run (.replaying rest) := by
    funext writer
    rw [Script.replaying, runScript, followedBy]
    rcases run statement writer with ⟨result | result, next⟩ <;> rfl
  induction lines with
  | nil => exact .answer fun _ _ => rfl
  | cons line rest inductionHypothesis =>
      have later := inductionHypothesis fun other member => own other (List.mem_cons_of_mem _ member)
      have ends := own line List.mem_cons_self
      rw [Annotated.withComments_cons, steps]
      cases line with
      | kept statement =>
          rw [Annotated.withoutComments_kept, steps]
          exact (runs statement ends).followedBy fun _ => later
      | comment text =>
          rw [Annotated.withoutComments_comment]
          exact (comments text ends).followedBy fun _ => later

/-- The induction is on the depth of nesting. -/
theorem dropsComments_replay (steady : archives.All (Annotated.EndsLines optional)) (depth : Nat)
    (lines : List Annotated) (own : ∀ line ∈ lines, Annotated.EndsLines optional line) :
    DropsComments optional
      (replay archives.withComments depth (.replaying (Annotated.withComments lines)))
      (replay archives.withoutComments depth (.replaying (Annotated.withoutComments lines))) := by
  induction depth generalizing lines with
  | zero => exact .answer fun _ _ => rfl
  | succ depth inductionHypothesis =>
      refine dropsComments_replaying (fun statement ends => ?_) (fun text allowed => ?_) lines own
      · exact dropsComments_runStatement steady inductionHypothesis ends
      · exact dropsComments_runStatement_comment allowed

theorem dropsComments_run (steady : archives.All (Annotated.EndsLines optional))
    {statement : Statement} (ends : statement.EndsLines) :
    DropsComments optional (run archives.withComments statement)
      (run archives.withoutComments statement) := by
  have replays := dropsComments_replay steady (nestingLimit archives.withComments)
  have runs := dropsComments_runStatement steady replays ends
  intro writer accepted text
  rw [run, run, archives.nestingLimit_eq]
  exact runs writer accepted text

theorem run_comment (archives : Archives) (text : String) (writer : Writer) :
    writer.run archives (.request (.record "comment" text)) =
      writer.perform (.record "comment" text) :=
  runStatement_of_ne (by simp) writer

/-- Every comment of the session itself is left out, and so are those of the archives that it inlines.
A session goes on after statements that fail. -/
theorem drops_session (steady : archives.All (Annotated.EndsLines optional)) (lines : List Annotated)
    (own : ∀ line ∈ lines, Annotated.EndsLines optional line) (writer : Writer)
    (accepted : Array UInt8) (text : writer.TakesText) :
    ∃ passages : List Ascii.Passage, (∀ passage ∈ passages, passage.Whole optional) ∧
      (∀ note, .comment note ∈ lines → ∃ depth, .comment depth note ∈ passages) ∧
      Drops writer accepted passages
        ((.ok .done, writer.session archives.withComments (Annotated.withComments lines)) :
          Outcome Reply)
        (.ok .done, (writer.rebase accepted).session archives.withoutComments
          (Annotated.withoutComments lines)) := by
  induction lines generalizing writer accepted with
  | nil => exact ⟨[], List.forall_mem_nil _, fun note absent => absurd absent List.not_mem_nil,
      .nothing text rfl _⟩
  | cons line rest inductionHypothesis =>
      have others (other : Annotated) (member : other ∈ rest) : other.EndsLines optional :=
        own other (List.mem_cons_of_mem _ member)
      have ends := own line List.mem_cons_self
      cases line with
      | kept statement =>
          obtain ⟨front, frontWhole, first⟩ := dropsComments_run steady ends writer accepted text
          obtain ⟨back, backWhole, known, later⟩ := inductionHypothesis others _
            (accepted ++ front.flatMap Ascii.Passage.withoutComment) first.text
          refine ⟨front ++ back, List.forall_mem_append.mpr ⟨frontWhole, backWhole⟩, ?_, ?_⟩
          · intro note member
            obtain ⟨depth, inside⟩ := known note (List.mem_of_ne_of_mem (by simp) member)
            exact ⟨depth, List.mem_append_right front inside⟩
          · rw [Annotated.withComments_cons, Annotated.withoutComments_kept, session, session,
              first.dropped]
            exact first.trans later
      | comment note =>
          obtain ⟨depth, ascii⟩ := text.ascii
          have first := drops_comment note ascii text.unlimited accepted
          rw [← run_comment archives.withComments] at first
          have skipped : writer.rebase accepted = _ := congrArg Prod.snd first.dropped
          obtain ⟨back, backWhole, known, later⟩ := inductionHypothesis others _
            (accepted ++ [.comment depth note].flatMap Ascii.Passage.withoutComment) first.text
          refine ⟨.comment depth note :: back, List.forall_mem_cons.mpr ⟨ends, backWhole⟩, ?_, ?_⟩
          · intro other member
            rcases List.mem_cons.mp member with same | inRest
            · cases same
              exact ⟨depth, List.mem_cons_self⟩
            · obtain ⟨otherDepth, inside⟩ := known other inRest
              exact ⟨otherDepth, List.mem_cons_of_mem _ inside⟩
          · rw [Annotated.withComments_cons, Annotated.withoutComments_comment, session, skipped]
            exact first.trans later

end Run

/-- What a comment does: the call succeeds, it changes nothing but the output, and it adds the lines of
the text, the first of them indented and marked. -/
structure AddsComment (archives : Archives) (writer : Writer) (text : String) (depth : Nat) : Prop where
  encoding : writer.stream.encoding = .ascii depth
  outcome : writer.run archives (.request (.record "comment" text)) = (.ok .done,
    writer.rebase (writer.stream.sink.accepted ++ Ascii.record depth "comment" text))
  lines : (Ascii.record depth "comment" text).splitOn Ascii.newline =
    (Ascii.indentation depth ++ Ascii.hash :: Ascii.firstLine text) ::
      (Ascii.furtherLines text ++ [[]])
  single : (Ascii.record depth "comment" text).count Ascii.newline = 1 ↔
    Ascii.newline ∉ Text.bytes text
  further : Ascii.furtherLines text = [] ↔ Ascii.newline ∉ Text.bytes text

theorem TakesText.addsComment {writer : Writer} (takes : writer.TakesText) (archives : Archives)
    (text : String) : ∃ depth, writer.AddsComment archives text depth := by
  obtain ⟨depth, ascii⟩ := takes.ascii
  refine ⟨depth, ascii, ?_, ?_, ?_, Ascii.furtherLines_eq_nil_iff text⟩
  · rw [run_comment, perform_comment text ascii takes.unlimited]
  · rw [Ascii.record_comment, List.splitOn_append_cons_self, Ascii.splitOn_comment,
      List.splitOn_nil]
    rfl
  · rw [Ascii.count_comment, Nat.add_eq_right, List.count_eq_zero]

/-- A text writer adds a comment to a sink that never fails. It adds one line if the text has no break
in it, and otherwise the further lines of the text stand in the stream as they are. A reader that skips
comments sees the same requests with and without any comments of a session and of its archives exactly
if the further lines of all of them are blank or comments themselves. -/
theorem requestLines_session {optional : String → Prop} {archives : AnnotatedArchives}
    (steady : archives.All (Annotated.EndsLines optional)) (lines : List Annotated)
    (own : ∀ line ∈ lines, Annotated.EndsLines optional line) (writer : Writer)
    (takes : writer.TakesText) (whole : Ascii.WholeLines writer.stream.sink.accepted.toList) :
    (∀ text, ∃ depth, writer.AddsComment archives.withComments text depth) ∧
      ∃ passages : List Ascii.Passage,
        (∀ text, .comment text ∈ lines → ∃ depth, .comment depth text ∈ passages) ∧
        (∀ depth text, .comment depth text ∈ passages → optional text) ∧
        (writer.session archives.withComments
            (Annotated.withComments lines)).stream.sink.accepted =
          writer.stream.sink.accepted ++ passages.flatMap Ascii.Passage.withComment ∧
        writer.session archives.withoutComments (Annotated.withoutComments lines) =
          (writer.session archives.withComments (Annotated.withComments lines)).rebase
            (writer.stream.sink.accepted ++ passages.flatMap Ascii.Passage.withoutComment) ∧
        (Ascii.requestLines (writer.session archives.withComments
              (Annotated.withComments lines)).stream.sink.accepted.toList =
            Ascii.requestLines (writer.session archives.withoutComments
              (Annotated.withoutComments lines)).stream.sink.accepted.toList ↔
          ∀ depth text, .comment depth text ∈ passages → Ascii.StaysComment text) := by
  obtain ⟨passages, wholePassages, known, drops⟩ :=
    drops_session steady lines own writer writer.stream.sink.accepted takes
  have dropped : writer.session archives.withoutComments (Annotated.withoutComments lines) = _ :=
    congrArg Prod.snd drops.dropped
  refine ⟨takes.addsComment archives.withComments, passages, known, ?_, drops.written, dropped, ?_⟩
  · intro depth text member
    exact wholePassages _ member
  · have full := congrArg Array.toList drops.written
    have bare := congrArg (fun final : Writer => final.stream.sink.accepted.toList) dropped
    simp only [rebase, Array.toList_appendList] at full bare
    rw [full, bare, whole.requestLines_append, whole.requestLines_append,
      List.append_cancel_left_eq]
    exact Ascii.requestLines_passages wholePassages

/-- An archive with a comment of three lines, two of which are blank. -/
def notedArchives : AnnotatedArchives :=
  FileTree.files
    { workingDirectory := ["home"]
      directories := []
      links := []
      entries := [(["ribs", "leaf.rib"],
        [.comment "leaf\n\n", .kept (.request (.opening .attributes))])] }

def notedScene : List Annotated :=
  [.comment "scene 1", .kept (.request (.opening .world)),
    .kept (.request (.readArchive "leaf.rib" [])), .kept (.request (.closing .world))]

/-- All comments stay comments, so that they can be left out. -/
theorem requestLines_session_noted :
    notedArchives.All (Annotated.EndsLines Ascii.StaysComment) ∧
      (∀ line ∈ notedScene, Annotated.EndsLines Ascii.StaysComment line) ∧
      archiveReader.TakesText ∧
      Ascii.WholeLines archiveReader.stream.sink.accepted.toList ∧
      Ascii.requestLines (archiveReader.session notedArchives.withComments
          (Annotated.withComments notedScene)).stream.sink.accepted.toList =
        Ascii.requestLines (archiveReader.session notedArchives.withoutComments
          (Annotated.withoutComments notedScene)).stream.sink.accepted.toList := by
  have leaf : ∀ line ∈ [Annotated.comment "leaf\n\n", .kept (.request (.opening .attributes))],
      Annotated.EndsLines Ascii.StaysComment line := by decide +kernel
  have steady : notedArchives.All (Annotated.EndsLines Ascii.StaysComment) := by
    intro file lines reads
    obtain rfl := Except.ok.inj reads
    obtain ⟨index, inside⟩ := file
    obtain rfl : index = 0 := Nat.lt_one_iff.mp inside
    exact leaf
  have own : ∀ line ∈ notedScene, Annotated.EndsLines Ascii.StaysComment line := by decide +kernel
  have takes : archiveReader.TakesText := ⟨⟨0, rfl⟩, rfl⟩
  have whole : Ascii.WholeLines archiveReader.stream.sink.accepted.toList := Ascii.wholeLines_nil
  obtain ⟨-, passages, -, stay, -, -, same⟩ :=
    requestLines_session steady notedScene own archiveReader takes whole
  exact ⟨steady, own, takes, whole, same.mpr stay⟩

def brokenComment : List Statement :=
  [.request (.record "comment" "note\nWorldBegin")]

/-- Only the first line of this comment is marked. A reader takes the second one for a request. -/
theorem not_staysComment_broken :
    (sceneWriter.session .empty brokenComment).stream.sink.accepted.toList.count Ascii.newline = 2 ∧
      Ascii.requestLines
          (sceneWriter.session .empty brokenComment).stream.sink.accepted.toList =
        [Text.bytes "WorldBegin"] ∧
      Ascii.requestLines (sceneWriter.session .empty []).stream.sink.accepted.toList = [] := by
  decide +kernel

end Writer

end RibStream
