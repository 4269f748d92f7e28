/-
This file proves that every call to read an archive is accounted for.
Its archive is handed to the parser once or its request is written once. All archives of a session go
to one parser, which is made for the first of them.
-/

import RibStream.Proofs.Archive.Calls
import RibStream.Proofs.Ascii.Layout

namespace RibStream

/-- The requests to read an archive that a request has written. -/
def Issue.archiveLines (issue : Issue) : List RequestLine :=
  (issue.pieces.flatMap Piece.lines).filter (·.name = "ReadArchive")

namespace Issue

theorem archiveLines_of_ne {issue : Issue}
    (other : ∀ name parameters, issue.request ≠ .readArchive name parameters) :
    issue.archiveLines = [] := by
  rw [archiveLines, pieces]
  cases issue.outcome.1 with
  | error error => rfl
  | ok reply =>
      cases planned : (issue.writer.plan issue.request).1 with
      | error error => rfl
      | ok plan =>
          cases sends : plan.piece with
          | nothing => simp [sends, Piece.lines]
          | record kind text => simp [sends, Piece.lines]
          | line line =>
              have named := Writer.plan_keyword planned sends
              have ne : line.name ≠ "ReadArchive" := fun same =>
                Request.keyword?_ne_readArchive other (same ▸ named)
              simp [sends, Piece.lines, ne]

/-- A request to read an archive that is left to the writer has written its line if it succeeds. -/
theorem archiveLines_readArchive {writer : Writer} {name : String}
    {parameters : List ParamSource} {params : List Param}
    (resolved : ParamSource.resolveAll writer.dictionary parameters = .ok params) :
    archiveLines ⟨.readArchive name parameters, writer⟩ =
      if (writer.emitArchive name params).1.isOk then
        [⟨"ReadArchive", .string name :: params.flatMap Param.spelled⟩]
      else [] := by
  have planned : (writer.plan (.readArchive name parameters)).1 =
      .ok ⟨.line ⟨"ReadArchive", .string name :: params.flatMap Token.param⟩, .done, .none⟩ := by
    rw [Writer.plan, Writer.planParams, resolved]
    rfl
  have performed : (Issue.mk (.readArchive name parameters) writer).outcome =
      Writer.reply (writer.emitArchive name params) :=
    (Writer.emitArchive_eq_perform resolved).symm
  rw [archiveLines, pieces, performed]
  simp only [planned]
  cases sent : (writer.emitArchive name params).1 with
  | error error => simp [Writer.reply, sent, Except.map, Except.isOk, Except.toBool]
  | ok success =>
      simp [Writer.reply, sent, Except.map, Except.isOk, Except.toBool, Piece.lines,
        Token.params_eq_spelled]

theorem archiveLines_of_unresolved {writer : Writer} {name : String}
    {parameters : List ParamSource} {error : Error}
    (unresolved : ParamSource.resolveAll writer.dictionary parameters = .error error) :
    archiveLines ⟨.readArchive name parameters, writer⟩ = [] := by
  have planned : (writer.plan (.readArchive name parameters)).1 = .error error := by
    rw [Writer.plan, Writer.planParams, unresolved]
    rfl
  rw [archiveLines, pieces, planned]
  split
  · contradiction
  · rfl

end Issue

namespace Writer

variable {archives : Archives}

/-- From one writer to another the given calls are made and the given requests are carried out. The
archives handed over are those of the calls that resolve, and the requests to read archives that are
written are those of the other calls that succeed, in their order. -/
structure Accounted (archives : Archives) (before : Writer) (calls : List ArchiveCall)
    (issues : List Issue) (after : Writer) : Prop where
  called : ∀ call ∈ calls, call.writer.Tracked
  tracked : after.Tracked
  handed : after.trace.archives.toList = before.trace.archives.toList ++
    (calls.filter (·.resolves archives)).map ArchiveCall.name
  written : issues.flatMap Issue.archiveLines =
    (calls.filter (·.isWritten archives)).map ArchiveCall.line
  made : after.parserMade = (before.parserMade || calls.any (·.resolves archives))

namespace Accounted

variable {first middle last : Writer}

/-- Where no call is made, nothing happens to the parser. -/
theorem of_handling_eq (tracked : first.Tracked) (ready : last.Ready)
    (same : last.handling = first.handling) {issues : List Issue}
    (silent : issues.flatMap Issue.archiveLines = []) : Accounted archives first [] issues last := by
  have after := tracked.of_handling_eq ready same
  simp only [handling, Prod.mk.injEq] at same
  exact ⟨by simp, after, by simp [same], silent, by simp [same]⟩

theorem append {front back : List ArchiveCall} {frontIssues backIssues : List Issue}
    (before : Accounted archives first front frontIssues middle)
    (after : Accounted archives middle back backIssues last) :
    Accounted archives first (front ++ back) (frontIssues ++ backIssues) last where
  called call member := (List.mem_append.mp member).elim (before.called call) (after.called call)
  tracked := after.tracked
  handed := by
    rw [after.handed, before.handed, List.filter_append, List.map_append, List.append_assoc]
  written := by
    rw [List.flatMap_append, before.written, after.written, List.filter_append, List.map_append]
  made := by rw [after.made, before.made, List.any_append, Bool.or_assoc]

end Accounted

theorem handling_leaveArchive (name : String) (outcome : Outcome Unit) :
    (leaveArchive name outcome).2.handling = outcome.2.handling := by
  obtain ⟨result | result, writer⟩ := outcome <;> rfl

/-- A call that is left to the writer is accounted for by its request. -/
theorem Accounted.single {call : ArchiveCall} (tracked : call.writer.Tracked)
    (unresolved : call.resolves archives = false) {parameters : List ParamSource}
    (resolved : ParamSource.resolveAll call.writer.dictionary parameters = .ok call.params)
    {events : Array Event} (outcome : call.outcome archives =
      { call.writer with trace.events := events }.emitArchive call.name call.params) :
    Accounted archives call.writer [call]
      [⟨.readArchive call.name parameters, { call.writer with trace.events := events }⟩]
      ({ call.writer with trace.events := events }.perform (.readArchive call.name parameters)).2 := by
  have ready : { call.writer with trace.events := events }.Ready := tracked.toReady.of_stream_eq rfl
  have lines : Issue.archiveLines
      ⟨.readArchive call.name parameters, { call.writer with trace.events := events }⟩ =
        if (call.outcome archives).1.isOk then [call.line] else [] := by
    rw [outcome]
    exact Issue.archiveLines_readArchive resolved
  have same := handling_perform (.readArchive call.name parameters)
    { call.writer with trace.events := events }
  have after := tracked.of_handling_eq (ready.perform _) same
  simp only [handling, Prod.mk.injEq] at same
  obtain ⟨unchanged, -, made, -⟩ := same
  refine ⟨by simp [tracked], after, ?_, ?_, ?_⟩
  · simp [unresolved, unchanged]
  · rw [List.flatMap_singleton, lines, List.filter_singleton, ArchiveCall.isWritten, unresolved]
    cases ok : (call.outcome archives).1.isOk <;> simp
  · simp [unresolved, made]

/-- A call that resolves is accounted for by the statements of the archive. -/
theorem Accounted.inlined {call : ArchiveCall} (tracked : call.writer.Tracked)
    (resolves : call.resolves archives = true) {path : String} {calls : List ArchiveCall}
    {issues : List Issue} {outcome : Outcome Unit}
    (inside : Accounted archives (call.entered path) calls issues outcome.2) :
    Accounted archives call.writer (call :: calls) issues (leaveArchive call.name outcome).2 := by
  have same := handling_leaveArchive call.name outcome
  have after := inside.tracked.of_handling_eq
    (inside.tracked.toReady.of_stream_eq (Quiet.leaveArchive call.name outcome).stream_eq) same
  simp only [handling, Prod.mk.injEq] at same
  obtain ⟨unchanged, -, made, -⟩ := same
  have handed : (call.entered path).trace.archives.toList =
      call.writer.trace.archives.toList ++ [call.name] := Array.toList_push
  refine ⟨?_, after, ?_, ?_, ?_⟩
  · intro other member
    rcases List.mem_cons.mp member with rfl | later
    · exact tracked
    · exact inside.called other later
  · rw [unchanged, inside.handed, handed, List.append_assoc]
    simp [resolves]
  · rw [inside.written]
    simp [resolves, ArchiveCall.isWritten]
  · have ready : (call.entered path).parserMade = true := rfl
    rw [made, inside.made, ready]
    simp [resolves]

section Replay

variable {replay : Script → Writer → Outcome Unit}
  {replayedCalls : Script → Writer → List ArchiveCall}
  {replayedIssues : Script → Writer → List Issue}
  (steady : archives.All Statement.KeepsUnlimited)
  (replays : ∀ script, script.All Statement.KeepsUnlimited → ∀ writer, writer.Tracked →
    Accounted archives writer (replayedCalls script writer) (replayedIssues script writer)
      (replay script writer).2)

include steady replays

theorem accounted_readArchive (depth : Nat) (name : String) (parameters : List ParamSource)
    {writer : Writer} (tracked : writer.Tracked) :
    Accounted archives writer
      (callsOf archives depth replayedCalls (.request (.readArchive name parameters)) writer)
      (issuesOf archives replayedIssues (.request (.readArchive name parameters)) writer)
      (runStatement archives replay (.request (.readArchive name parameters)) writer).2 := by
  rw [callsOf, issuesOf_readArchive, runStatement_readArchive]
  cases resolved : ParamSource.resolveAll writer.dictionary parameters with
  | error error =>
      have kept : writer.fate archives name parameters = .kept writer := by
        rw [fate, resolved]
      rw [kept]
      exact .of_handling_eq tracked (tracked.toReady.perform _) (handling_perform _ writer)
        (by simp [Issue.archiveLines_of_unresolved resolved])
  | ok params =>
      dsimp only
      cases resolves : (ArchiveCall.mk name params writer depth).resolves archives with
      | false =>
          obtain ⟨events, outcome, kept⟩ := ArchiveCall.exists_of_not_resolves tracked resolves
          rw [kept parameters resolved]
          exact .single tracked resolves resolved outcome
      | true =>
          obtain ⟨asked, given, -⟩ := ArchiveCall.resolves_iff.mp resolves
          obtain ⟨path, file, content, -, read, -, inlined⟩ :=
            ArchiveCall.exists_of_resolves tracked resolves
          rw [inlined parameters resolved]
          exact (replays _ (steady file content read name) _
            (ArchiveCall.tracked_entered tracked given path)).inlined tracked resolves

theorem accounted_runStatement (depth : Nat) (statement : Statement)
    (has : statement.KeepsUnlimited) (writer : Writer) (tracked : writer.Tracked) :
    Accounted archives writer (callsOf archives depth replayedCalls statement writer)
      (issuesOf archives replayedIssues statement writer)
      (runStatement archives replay statement writer).2 := by
  cases statement with
  | service service => exact .of_handling_eq tracked tracked.toReady rfl rfl
  | unreadable error => exact .of_handling_eq tracked tracked.toReady rfl rfl
  | room room =>
      have ready : { writer with stream.sink := writer.stream.sink.grant room }.Ready :=
        ⟨tracked.codesNamed, has⟩
      exact .of_handling_eq tracked ready rfl rfl
  | request request =>
      rcases readArchive_or_ne request with ⟨name, parameters, rfl⟩ | other
      · exact accounted_readArchive steady replays depth name parameters tracked
      · have none : callsOf archives depth replayedCalls (.request request) writer = [] := by
          cases request with
          | readArchive name parameters => exact absurd rfl (other name parameters)
          | _ => rfl
        have silent : Issue.archiveLines ⟨request, writer⟩ = [] := Issue.archiveLines_of_ne other
        rw [none, issuesOf_of_ne other, runStatement_of_ne other]
        exact .of_handling_eq tracked (tracked.toReady.perform request)
          (handling_perform request writer) (by simp [silent])

end Replay

theorem accounted_runScript {callsOf : Statement → Writer → List ArchiveCall}
    {issuesOf : Statement → Writer → List Issue} {run : Statement → Writer → Outcome Reply}
    (runs : ∀ statement, statement.KeepsUnlimited → ∀ writer, writer.Tracked →
      Accounted archives writer (callsOf statement writer) (issuesOf statement writer)
        (run statement writer).2)
    (script : Script) (own : script.All Statement.KeepsUnlimited) {writer : Writer}
    (tracked : writer.Tracked) :
    Accounted archives writer (scriptCalls callsOf run script writer)
      (scriptIssues issuesOf run script writer) (runScript run script writer).2 := by
  induction script generalizing writer with
  | done result => exact .of_handling_eq tracked tracked.toReady rfl rfl
  | issue statement next inductionHypothesis =>
      have first := runs statement own.1 writer tracked
      exact first.append (inductionHypothesis _ (own.2 _) first.tracked)

/-- The induction is on the depth of nesting. -/
theorem accounted_replay (steady : archives.All Statement.KeepsUnlimited) (depth : Nat)
    (script : Script) (own : script.All Statement.KeepsUnlimited) (writer : Writer)
    (tracked : writer.Tracked) :
    Accounted archives writer (replayedCalls archives depth script writer)
      (replayedIssues archives depth script writer) (replay archives depth script writer).2 := by
  induction depth generalizing script writer with
  | zero => exact .of_handling_eq tracked tracked.toReady rfl rfl
  | succ depth inductionHypothesis =>
      exact accounted_runScript (accounted_runStatement steady inductionHypothesis depth) script own
        tracked

theorem accounted_session (steady : archives.All Statement.KeepsUnlimited)
    (statements : List Statement) (own : ∀ statement ∈ statements, statement.KeepsUnlimited)
    {writer : Writer} (tracked : writer.Tracked) :
    Accounted archives writer (writer.calls archives statements) (writer.issues archives statements)
      (writer.session archives statements) := by
  induction statements generalizing writer with
  | nil => exact .of_handling_eq tracked tracked.toReady rfl rfl
  | cons statement rest inductionHypothesis =>
      have first := accounted_runStatement steady (accounted_replay steady (nestingLimit archives))
        (nestingLimit archives) statement (own statement List.mem_cons_self) writer tracked
      exact first.append (inductionHypothesis
        (fun other member => own other (List.mem_cons_of_mem _ member)) first.tracked)

/-- A new writer has handed nothing to a parser and has made none. -/
theorem Made.tracked {writer : Writer} (made : Made writer)
    (unlimited : writer.stream.sink.room = none) :
    writer.Tracked ∧ writer.trace.archives = #[] ∧ writer.parserMade = false := by
  have fresh : writer.trace.archives = #[] ∧ writer.trace.parsers = 0 ∧ writer.parserMade = false := by
    cases made with
    | ofStream sink options fresh => exact ⟨rfl, rfl, rfl⟩
    | create sink options =>
        rw [Writer.create]
        split <;> exact ⟨rfl, rfl, rfl⟩
  obtain ⟨archives, parsers, unmade⟩ := fresh
  exact ⟨⟨⟨made.codesNamed, unlimited⟩, by simp [unmade], by simp [parsers, unmade]⟩, archives, unmade⟩

end Writer

namespace ArchiveCall

open Writer

variable {archives : Archives} {call : ArchiveCall}

theorem inlined_of_resolves (steady : archives.All Statement.KeepsUnlimited)
    (tracked : call.writer.Tracked) (resolves : call.resolves archives = true) :
    call.Inlined archives := by
  obtain ⟨-, given, -⟩ := resolves_iff.mp resolves
  obtain ⟨path, file, content, located, read, outcome, -⟩ := exists_of_resolves tracked resolves
  have inside := accounted_replay steady call.depth _ (steady file content read call.name)
    (call.entered path) (tracked_entered tracked given path)
  have whole := Accounted.inlined tracked resolves inside
  have handed := whole.handed
  rw [← outcome, List.filter_cons_of_pos resolves, List.map_cons] at handed
  exact ⟨⟨_, handed⟩, path, file, content, call.entered path, located, read, rfl, rfl, rfl, rfl,
    outcome⟩

/-- A call that is inlined hands something over, and one that is written does not. -/
theorem Inlined.not_written (inlined : call.Inlined archives) : ¬ call.Written archives := by
  intro written
  obtain ⟨nested, handed⟩ := inlined.handed
  rw [written.writer] at handed
  simp at handed

end ArchiveCall

namespace Writer

variable {archives : Archives}

/-- The calls of later statements are those of a session that goes on from the earlier ones. -/
theorem calls_append (archives : Archives) (front back : List Statement) (writer : Writer) :
    writer.calls archives (front ++ back) =
      writer.calls archives front ++ (writer.session archives front).calls archives back := by
  induction front generalizing writer with
  | nil => rfl
  | cons statement front inductionHypothesis =>
      rw [List.cons_append, calls, inductionHypothesis, ← List.append_assoc]
      rfl

/-- An archive that reads another one, and an archive that does not exist. -/
def borrowed : List Statement :=
  [searchRibs, .request (.readArchive "branch.rib" []),
    .request (.readArchive "root.rib" [.typed (.uniformString "label" "old")])]

end Writer

end RibStream
