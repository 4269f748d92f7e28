/-
This file lists the requests of a session in the order in which they are carried out.
The requests of an archive that is inlined stand in its place. Between two requests nothing happens
but reports about archives and changes of the room in the sink.
-/

import RibStream.Proofs.Archive.Fate
import RibStream.Proofs.Writer.Session

namespace RibStream

/-- A request with the writer in which it is carried out. -/
structure Issue where
  request : Request
  writer : Writer

def Issue.outcome (issue : Issue) : Outcome Reply :=
  issue.writer.perform issue.request

namespace Writer

section Definitions

variable (archives : Archives)

/-- The requests of a script, each statement of which follows from the answers to those before. -/
def scriptIssues (issuesOf : Statement → Writer → List Issue)
    (run : Statement → Writer → Outcome Reply) : Script → Writer → List Issue
  | .done _, _ => []
  | .issue statement next, writer =>
      let (answer, after) := run statement writer
      issuesOf statement writer ++ scriptIssues issuesOf run (next answer) after

/-- The requests that stand in the place of a statement. A request to read an archive stands for
itself unless the archive is inlined. -/
def issuesOf (replayed : Script → Writer → List Issue) (statement : Statement) (writer : Writer) :
    List Issue :=
  match statement with
  | .request (.readArchive name parameters) =>
      match ParamSource.resolveAll writer.dictionary parameters, writer.interpolateArchives with
      | .ok _, true =>
          match writer.openArchive archives name with
          | (.ok content, writer) =>
              replayed (archives.parse name content) (writer.enterArchive name)
          | (.error cause, writer) =>
              [⟨.readArchive name parameters, writer.log (.archiveUnavailable name cause)⟩]
      | _, _ => [⟨.readArchive name parameters, writer⟩]
  | .request request => [⟨request, writer⟩]
  | _ => []

/-- The requests of an archive. -/
def replayedIssues : Nat → Script → Writer → List Issue
  | 0, _, _ => []
  | depth + 1, script, writer =>
      scriptIssues (issuesOf archives (replayedIssues depth))
        (runStatement archives (replay archives depth)) script writer

/-- The requests of a session, which goes on after those that fail. -/
def issues : List Statement → Writer → List Issue
  | [], _ => []
  | statement :: rest, writer =>
      issuesOf archives (replayedIssues archives (nestingLimit archives)) statement writer ++
        issues rest (writer.run archives statement).2

end Definitions

/-- A request that reads no archive stands for itself. -/
theorem issuesOf_of_ne {archives : Archives} {replayed : Script → Writer → List Issue}
    {request : Request} (other : ∀ name parameters, request ≠ .readArchive name parameters)
    (writer : Writer) :
    issuesOf archives replayed (.request request) writer = [⟨request, writer⟩] := by
  cases request with
  | readArchive name parameters => exact absurd rfl (other name parameters)
  | _ => rfl

theorem issuesOf_readArchive (archives : Archives) (replayed : Script → Writer → List Issue)
    (name : String) (parameters : List ParamSource) (writer : Writer) :
    issuesOf archives replayed (.request (.readArchive name parameters)) writer =
      match writer.fate archives name parameters with
      | .inlined script opened => replayed script (opened.enterArchive name)
      | .kept writer => [⟨.readArchive name parameters, writer⟩] := by
  rw [issuesOf, fate]
  cases ParamSource.resolveAll writer.dictionary parameters with
  | error error => rfl
  | ok params =>
      cases writer.interpolateArchives with
      | false => rfl
      | true => rcases writer.openArchive archives name with ⟨result | result, opened⟩ <;> rfl

/-- From one writer to another the given requests are carried out. They and the changes of the room
belong to statements with the given property, and nothing else happens that is not quiet. -/
inductive Path (property : Statement → Prop) : Writer → List Issue → Writer → Prop where
  | done (writer : Writer) : Path property writer [] writer
  | quiet {writer next last : Writer} {issues : List Issue} (quiet : Quiet writer next)
      (later : Path property next issues last) : Path property writer issues last
  | granted {writer last : Writer} {room : Option Nat} {issues : List Issue}
      (has : property (.room room))
      (later : Path property { writer with stream.sink := writer.stream.sink.grant room } issues
        last) :
      Path property writer issues last
  | carriedOut {writer last : Writer} {request : Request} {issues : List Issue}
      (has : property (.request request))
      (later : Path property (writer.perform request).2 issues last) :
      Path property writer (⟨request, writer⟩ :: issues) last

namespace Path

variable {property : Statement → Prop} {first middle last : Writer}

theorem append {front back : List Issue} (before : Path property first front middle)
    (after : Path property middle back last) : Path property first (front ++ back) last := by
  induction before with
  | done writer => exact after
  | quiet quiet later inductionHypothesis => exact .quiet quiet (inductionHypothesis after)
  | granted has later inductionHypothesis => exact .granted has (inductionHypothesis after)
  | carriedOut has later inductionHypothesis => exact .carriedOut has (inductionHypothesis after)

theorem of_quiet (quiet : Quiet first last) : Path property first [] last :=
  .quiet quiet (.done last)

theorem single {request : Request} (has : property (.request request)) (writer : Writer) :
    Path property writer [⟨request, writer⟩] (writer.perform request).2 :=
  .carriedOut has (.done _)

/-- A path can be cut at every request. -/
theorem cut {issues front back : List Issue} {issue : Issue} (path : Path property first issues last)
    (split : issues = front ++ issue :: back) :
    Path property first front issue.writer ∧ property (.request issue.request) ∧
      Path property issue.outcome.2 back last := by
  induction path generalizing front with
  | done writer => simp at split
  | quiet quiet later inductionHypothesis =>
      obtain ⟨before, has, after⟩ := inductionHypothesis split
      exact ⟨.quiet quiet before, has, after⟩
  | granted granted later inductionHypothesis =>
      obtain ⟨before, has, after⟩ := inductionHypothesis split
      exact ⟨.granted granted before, has, after⟩
  | @carriedOut writer last request issues own later inductionHypothesis =>
      cases front with
      | nil =>
          obtain ⟨rfl, rfl⟩ := List.cons_eq_cons.mp split
          exact ⟨.done writer, own, later⟩
      | cons head front =>
          obtain ⟨rfl, rest⟩ := List.cons_eq_cons.mp split
          obtain ⟨before, has, after⟩ := inductionHypothesis rest
          exact ⟨.carriedOut own before, has, after⟩

end Path

variable {archives : Archives} {property : Statement → Prop}

/-- A request to read an archive is replaced by the requests of the archive, or carried out itself. -/
theorem path_readArchive (steady : archives.All property) {replay : Script → Writer → Outcome Unit}
    {replayed : Script → Writer → List Issue}
    (replays : ∀ script, script.All property → ∀ writer,
      Path property writer (replayed script writer) (replay script writer).2)
    {name : String} {parameters : List ParamSource}
    (has : property (.request (.readArchive name parameters))) (writer : Writer) :
    Path property writer
      (issuesOf archives replayed (.request (.readArchive name parameters)) writer)
      (runStatement archives replay (.request (.readArchive name parameters)) writer).2 := by
  rw [issuesOf_readArchive, runStatement_readArchive]
  cases fate : writer.fate archives name parameters with
  | kept logged => exact .quiet (quiet_of_fate_kept fate) (.single has logged)
  | inlined script opened =>
      obtain ⟨opening, content, opens, rfl⟩ := quiet_of_fate_inlined fate
      obtain ⟨path, file, -, read, -⟩ := found_of_openArchive opens
      have inside := replays _ (steady file content read name) (opened.enterArchive name)
      have whole := inside.append (.of_quiet (.leaveArchive name (replay _ _)))
      rw [List.append_nil] at whole
      exact .quiet (opening.trans (.enterArchive name opened)) whole

theorem path_runStatement (steady : archives.All property) {replay : Script → Writer → Outcome Unit}
    {replayed : Script → Writer → List Issue}
    (replays : ∀ script, script.All property → ∀ writer,
      Path property writer (replayed script writer) (replay script writer).2)
    {statement : Statement} (has : property statement) (writer : Writer) :
    Path property writer (issuesOf archives replayed statement writer)
      (runStatement archives replay statement writer).2 := by
  cases statement with
  | service service => exact .done writer
  | unreadable error => exact .done writer
  | room room => exact .granted has (.done _)
  | request request =>
      rcases readArchive_or_ne request with ⟨name, parameters, rfl⟩ | other
      · exact path_readArchive steady replays has writer
      · rw [issuesOf_of_ne other, runStatement_of_ne other]
        exact .single has writer

/-- The induction is on the script, over all answers. -/
theorem path_runScript {issuesOf : Statement → Writer → List Issue}
    {run : Statement → Writer → Outcome Reply}
    (runs : ∀ statement, property statement → ∀ writer,
      Path property writer (issuesOf statement writer) (run statement writer).2)
    (script : Script) (own : script.All property) (writer : Writer) :
    Path property writer (scriptIssues issuesOf run script writer) (runScript run script writer).2 := by
  induction script generalizing writer with
  | done result => exact .done writer
  | issue statement next inductionHypothesis =>
      exact (runs statement own.1 writer).append (inductionHypothesis _ (own.2 _) _)

/-- The induction is on the depth of nesting. -/
theorem path_replay (steady : archives.All property) (depth : Nat) (script : Script)
    (own : script.All property) (writer : Writer) :
    Path property writer (replayedIssues archives depth script writer)
      (replay archives depth script writer).2 := by
  induction depth generalizing script writer with
  | zero => exact .done writer
  | succ depth inductionHypothesis =>
      refine path_runScript (fun statement has writer => ?_) script own writer
      exact path_runStatement steady inductionHypothesis has writer

/-- A session is a path through its requests. -/
theorem path_session (steady : archives.All property) (statements : List Statement)
    (own : ∀ statement ∈ statements, property statement) (writer : Writer) :
    Path property writer (writer.issues archives statements) (writer.session archives statements) := by
  induction statements generalizing writer with
  | nil => exact .done writer
  | cons statement rest inductionHypothesis =>
      have first := path_runStatement steady (path_replay steady (nestingLimit archives))
        (own statement List.mem_cons_self) writer
      exact first.append
        (inductionHypothesis (fun other member => own other (List.mem_cons_of_mem _ member)) _)

/-- A session is a path, whatever its statements and its archives are like. -/
theorem path_of_session (archives : Archives) (statements : List Statement) (writer : Writer) :
    Path (fun _ => True) writer (writer.issues archives statements)
      (writer.session archives statements) :=
  path_session (Archives.all_of_forall (fun _ => trivial) archives) statements (fun _ _ => trivial)
    writer

/-- The requests of later statements are those of a session that goes on from the earlier ones. -/
theorem issues_append (archives : Archives) (front back : List Statement) (writer : Writer) :
    writer.issues archives (front ++ back) =
      writer.issues archives front ++ (writer.session archives front).issues archives back := by
  induction front generalizing writer with
  | nil => rfl
  | cons statement front inductionHypothesis =>
      rw [List.cons_append, issues, inductionHypothesis, ← List.append_assoc]
      rfl

/-- A request of the session that reads no archive stands for itself, with the result that its
statement has. -/
theorem issues_request (archives : Archives) {request : Request}
    (other : ∀ name parameters, request ≠ .readArchive name parameters) (front back : List Statement)
    (writer : Writer) :
    writer.issues archives (front ++ .request request :: back) =
        writer.issues archives front ++ ⟨request, writer.session archives front⟩ ::
          (Issue.outcome ⟨request, writer.session archives front⟩).2.issues archives back ∧
      (writer.session archives front).run archives (.request request) =
        Issue.outcome ⟨request, writer.session archives front⟩ := by
  have runs : (writer.session archives front).run archives (.request request) =
      Issue.outcome ⟨request, writer.session archives front⟩ := issue_eq_perform_of_ne _ other _
  refine ⟨?_, runs⟩
  rw [issues_append, issues, issuesOf_of_ne other, runs]
  rfl

end Writer

end RibStream
