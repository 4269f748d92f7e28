/-
This file proves that a session does the same in every encoding.
The encoding shows in the bytes and in the warnings about blocks, and nowhere else.
-/

import RibStream.Proofs.Archive.Inlining
import RibStream.Proofs.Writer.Agreement
import Mathlib.Data.List.Forall2

namespace RibStream

/-- The same request is carried out by writers that agree, and they answer alike. -/
structure Issue.Agree (left right : Issue) : Prop where
  request : left.request = right.request
  writers : Writer.Agree left.writer right.writer
  outcomes : Outcome.Agree left.outcome right.outcome

/-- An archive is read by both writers or by none. -/
inductive Fate.Agree : Fate → Fate → Prop where
  | inlined (script : Script) {left right : Writer} (writers : Writer.Agree left right) :
      Fate.Agree (.inlined script left) (.inlined script right)
  | kept {left right : Writer} (writers : Writer.Agree left right) :
      Fate.Agree (.kept left) (.kept right)

/-- Two runs carry out the same requests with the same answers, and they end alike. -/
structure Outcome.Parallel {Result : Type} (leftIssues rightIssues : List Issue)
    (left right : Outcome Result) : Prop where
  issues : List.Forall₂ Issue.Agree leftIssues rightIssues
  outcomes : Outcome.Agree left right

namespace Writer

section Agree

variable {left right : Writer} (agree : Agree left right)

include agree

theorem Agree.single {request : Request} (short : request.Short) :
    Outcome.Parallel [⟨request, left⟩] [⟨request, right⟩] (left.perform request)
      (right.perform request) :=
  ⟨.cons ⟨rfl, agree, agree.perform short⟩ .nil, agree.perform short⟩

theorem Agree.takeParser : Outcome.Agree left.takeParser right.takeParser := by
  have made : left.parserMade = right.parserMade := agree.part_eq Writer.parserMade fun _ => rfl
  have given : left.hasParser = right.hasParser := agree.part_eq Writer.hasParser fun _ => rfl
  rw [Writer.takeParser, Writer.takeParser]
  by_cases ready : right.parserMade = true
  · rw [if_pos (made.trans ready), if_pos ready]
    exact ⟨rfl, agree⟩
  rw [if_neg (made ▸ ready), if_neg ready]
  by_cases factory : right.hasParser = true
  · rw [if_pos (given.trans factory), if_pos factory]
    refine ⟨rfl, agree.of_stream_eq rfl rfl ?_⟩
    exact congrArg (fun writer : Writer => { writer with
      parserMade := true, trace.parsers := writer.trace.parsers + 1 }) agree.unstreamed
  · rw [if_neg (given ▸ factory), if_neg factory]
    exact ⟨rfl, agree⟩

theorem Agree.openArchive (archives : Archives) (name : String) :
    Outcome.Agree (left.openArchive archives name) (right.openArchive archives name) := by
  have path : left.searchPath = right.searchPath := agree.part_eq Writer.searchPath fun _ => rfl
  rw [Writer.openArchive, Writer.openArchive, path]
  cases right.searchPath.locate? archives.files name with
  | none => exact ⟨rfl, agree⟩
  | some found =>
      have logged := agree.log (.archiveResolved name found.1)
      dsimp only
      cases archives.files.read found.2 with
      | error error => exact ⟨rfl, logged⟩
      | ok content =>
          exact ⟨congrArg (Except.map _) logged.takeParser.result, logged.takeParser.writers⟩

theorem Agree.enterArchive (name : String) :
    Agree (left.enterArchive name) (right.enterArchive name) := by
  refine agree.of_stream_eq rfl rfl ?_
  exact congrArg (fun writer : Writer => { writer with
    trace.archives := writer.trace.archives.push name }) (agree.log (.archiveOpened name)).unstreamed

/-- Whether an archive is inlined does not depend on the encoding. -/
theorem Agree.fate (archives : Archives) (name : String) (parameters : List ParamSource) :
    Fate.Agree (left.fate archives name parameters) (right.fate archives name parameters) := by
  have dictionary : left.dictionary = right.dictionary :=
    agree.part_eq Writer.dictionary fun _ => rfl
  have asked : left.interpolateArchives = right.interpolateArchives :=
    agree.part_eq Writer.interpolateArchives fun _ => rfl
  have opening := agree.openArchive archives name
  rw [Writer.fate, Writer.fate, dictionary, asked]
  split
  · generalize left.openArchive archives name = leftOutcome at opening ⊢
    generalize right.openArchive archives name = rightOutcome at opening ⊢
    obtain ⟨leftResult, leftOpened⟩ := leftOutcome
    obtain ⟨rightResult, rightOpened⟩ := rightOutcome
    obtain ⟨result, writers⟩ := opening
    cases result
    cases leftResult with
    | ok content => exact .inlined _ writers
    | error cause => exact .kept (writers.log _)
  · exact .kept agree

end Agree

theorem leaveArchive_agree {left right : Outcome Unit} (agree : Outcome.Agree left right)
    (name : String) : Outcome.Agree (leaveArchive name left) (leaveArchive name right) := by
  obtain ⟨leftResult, leftWriter⟩ := left
  obtain ⟨rightResult, rightWriter⟩ := right
  obtain ⟨result, writers⟩ := agree
  cases result
  cases leftResult with
  | error error => exact ⟨rfl, writers⟩
  | ok done => exact ⟨rfl, writers.log _⟩

variable {archives : Archives}

/-- The runs are parallel as long as the lengths in the requests are small. -/
def ShortParallel {Result : Type} (leftIssues rightIssues : List Issue)
    (left right : Outcome Result) : Prop :=
  (∀ issue ∈ leftIssues, issue.request.Short) → Outcome.Parallel leftIssues rightIssues left right

section Replay

variable {replay : Script → Writer → Outcome Unit} {replayed : Script → Writer → List Issue}
  (steady : archives.All Statement.KeepsUnlimited)
  (replays : ∀ script, script.All Statement.KeepsUnlimited → ∀ left right, Agree left right →
    ShortParallel (replayed script left) (replayed script right) (replay script left)
      (replay script right))

include steady replays

theorem parallel_readArchive {left right : Writer} (agree : Agree left right) (name : String)
    (parameters : List ParamSource) :
    ShortParallel
      (issuesOf archives replayed (.request (.readArchive name parameters)) left)
      (issuesOf archives replayed (.request (.readArchive name parameters)) right)
      (runStatement archives replay (.request (.readArchive name parameters)) left)
      (runStatement archives replay (.request (.readArchive name parameters)) right) := by
  have fates := agree.fate archives name parameters
  rw [issuesOf_readArchive, issuesOf_readArchive, runStatement_readArchive,
    runStatement_readArchive]
  generalize leftFate : left.fate archives name parameters = fate at fates ⊢
  generalize right.fate archives name parameters = other at fates ⊢
  intro short
  cases fates with
  | kept writers => exact writers.single (short _ (List.mem_singleton_self _))
  | inlined script writers =>
      obtain ⟨-, content, opens, rfl⟩ := quiet_of_fate_inlined leftFate
      obtain ⟨path, file, -, read, -⟩ := found_of_openArchive opens
      obtain ⟨issues, outcomes⟩ :=
        replays _ (steady file content read name) _ _ (writers.enterArchive name) short
      have ended := leaveArchive_agree outcomes name
      exact ⟨issues, congrArg (Except.map _) ended.result, ended.writers⟩

theorem parallel_runStatement (statement : Statement) (has : statement.KeepsUnlimited)
    (left right : Writer) (agree : Agree left right) :
    ShortParallel (issuesOf archives replayed statement left)
      (issuesOf archives replayed statement right) (runStatement archives replay statement left)
      (runStatement archives replay statement right) := by
  cases statement with
  | service service =>
      have dictionary : left.dictionary = right.dictionary :=
        agree.part_eq Writer.dictionary fun _ => rfl
      exact fun _ => ⟨.nil, congrArg service.answer dictionary, agree⟩
  | unreadable error => exact fun _ => ⟨.nil, rfl, agree⟩
  | room room =>
      exact fun _ =>
        ⟨.nil, rfl, agree.unstreamed, ⟨agree.left.codesNamed, has⟩, agree.right.codesNamed, has⟩
  | request request =>
      rcases readArchive_or_ne request with ⟨name, parameters, rfl⟩ | other
      · exact parallel_readArchive steady replays agree name parameters
      · rw [issuesOf_of_ne other, issuesOf_of_ne other, runStatement_of_ne other,
          runStatement_of_ne other]
        exact fun short => agree.single (short _ (List.mem_singleton_self _))

end Replay

/-- Since the answers are the same, the script goes on alike. -/
theorem parallel_runScript {issuesOf : Statement → Writer → List Issue}
    {run : Statement → Writer → Outcome Reply}
    (runs : ∀ statement, statement.KeepsUnlimited → ∀ left right, Agree left right →
      ShortParallel (issuesOf statement left) (issuesOf statement right) (run statement left)
        (run statement right))
    (script : Script) (own : script.All Statement.KeepsUnlimited) {left right : Writer}
    (agree : Agree left right) :
    ShortParallel (scriptIssues issuesOf run script left) (scriptIssues issuesOf run script right)
      (runScript run script left) (runScript run script right) := by
  induction script generalizing left right with
  | done result => exact fun _ => ⟨.nil, rfl, agree⟩
  | issue statement next inductionHypothesis =>
      intro short
      obtain ⟨firstShort, laterShort⟩ := List.forall_mem_append.mp short
      obtain ⟨first, result, writers⟩ := runs statement own.1 left right agree firstShort
      obtain ⟨later, ended⟩ := inductionHypothesis _ (own.2 _) writers laterShort
      constructor
      · refine List.rel_append first ?_
        show List.Forall₂ _ _ (scriptIssues issuesOf run (next (run statement right).1) _)
        rw [← result]
        exact later
      · show Outcome.Agree _ (runScript run (next (run statement right).1) _)
        rw [← result]
        exact ended

/-- The induction is on the depth of nesting. -/
theorem parallel_replay (steady : archives.All Statement.KeepsUnlimited) (depth : Nat)
    (script : Script) (own : script.All Statement.KeepsUnlimited) (left right : Writer)
    (agree : Agree left right) :
    ShortParallel (replayedIssues archives depth script left)
      (replayedIssues archives depth script right) (replay archives depth script left)
      (replay archives depth script right) := by
  induction depth generalizing script left right with
  | zero => exact fun _ => ⟨.nil, rfl, agree⟩
  | succ depth inductionHypothesis =>
      exact parallel_runScript (parallel_runStatement steady inductionHypothesis) script own agree

theorem Made.ready {writer : Writer} (made : Made writer)
    (unlimited : writer.stream.sink.room = none) : writer.Ready :=
  ⟨made.codesNamed, unlimited⟩

/-- New writers with the same settings for archives agree. -/
theorem Made.agree {left right : Writer} (leftMade : Made left) (rightMade : Made right)
    (leftRoom : left.stream.sink.room = none) (rightRoom : right.stream.sink.room = none)
    (asked : left.interpolateArchives = right.interpolateArchives)
    (parsed : left.hasParser = right.hasParser) : Agree left right := by
  have fresh {writer : Writer} (made : Made writer) : writer.unstreamed =
      .ofStream ⟨.startAscii, {}⟩ ⟨writer.interpolateArchives, false, false, writer.hasParser⟩ := by
    cases made with
    | ofStream sink options fresh => rfl
    | create sink options =>
        rw [Writer.create]
        split <;> rfl
  refine ⟨?_, leftMade.ready leftRoom, rightMade.ready rightRoom⟩
  rw [fresh leftMade, fresh rightMade, asked, parsed]

/-- From writers that agree, a session runs alike. -/
theorem Agree.session (steady : archives.All Statement.KeepsUnlimited) {statements : List Statement}
    (own : ∀ statement ∈ statements, statement.KeepsUnlimited) {left right : Writer}
    (agree : Agree left right) (short : ∀ issue ∈ left.issues archives statements, issue.request.Short) :
    (left.exchanges archives statements).map Exchange.result =
        (right.exchanges archives statements).map Exchange.result ∧
      List.Forall₂ Issue.Agree (left.issues archives statements) (right.issues archives statements) ∧
      Agree (left.session archives statements) (right.session archives statements) := by
  induction statements generalizing left right with
  | nil => exact ⟨rfl, .nil, agree⟩
  | cons statement rest inductionHypothesis =>
      obtain ⟨firstShort, laterShort⟩ := List.forall_mem_append.mp short
      obtain ⟨first, outcomes⟩ := parallel_runStatement steady
        (parallel_replay steady (nestingLimit archives)) statement
        (own statement List.mem_cons_self) left right agree firstShort
      obtain ⟨results, later, ended⟩ := inductionHypothesis
        (fun other member => own other (List.mem_cons_of_mem _ member)) outcomes.writers laterShort
      exact ⟨List.cons_eq_cons.mpr ⟨outcomes.result, results⟩, List.rel_append first later, ended⟩

/-- New writers in any two encodings, on sinks that accept everything, do the same with any files and any
parser, as long as the lengths in the requests are small. Every statement of a session has the same
result on both. They carry out the same requests, those of archives included, with the same replies and
the same handles, and before and after each of them they have the same dictionary, search path and
counters, have given back the same strings, and have handed the same archives to as many parsers. In
particular no request fails for want of a code or of a length. An end without a beginning is taken as
in a release build, where the text writer warns of it and goes on. -/
theorem agree_session (steady : archives.All Statement.KeepsUnlimited) (statements : List Statement)
    (own : ∀ statement ∈ statements, statement.KeepsUnlimited) {left right : Writer}
    (leftMade : Made left) (rightMade : Made right)
    (leftRoom : left.stream.sink.room = none) (rightRoom : right.stream.sink.room = none)
    (asked : left.interpolateArchives = right.interpolateArchives)
    (parsed : left.hasParser = right.hasParser)
    (short : ∀ issue ∈ left.issues archives statements, issue.request.Short) :
    (left.exchanges archives statements).map Exchange.result =
        (right.exchanges archives statements).map Exchange.result ∧
      List.Forall₂ Issue.Agree (left.issues archives statements) (right.issues archives statements) ∧
      Agree (left.session archives statements) (right.session archives statements) :=
  (leftMade.agree rightMade leftRoom rightRoom asked parsed).session steady own short

/-- An archive that fails inside of its block, one end too many, and a light. -/
def overclosed : List Statement :=
  [searchRibs, .request (.readArchive "branch.rib" []), .request (.closing .attributes),
    .request (.closing .attributes), .request (.lightSource "spot" [])]

/-- A binary writer that compresses its stream and reads archives. -/
def packedReader : Writer :=
  .create {} ⟨true, true, true, true⟩

/-- The binary writer fails as the text writer does, though only the latter warns of an end without a
beginning. -/
theorem agree_session_overclosed :
    twoArchives.All Statement.KeepsUnlimited ∧
      (∀ statement ∈ overclosed, statement.KeepsUnlimited) ∧
      Made newReader ∧ Made packedReader ∧
      newReader.stream.encoding = .startAscii ∧ packedReader.stream.encoding = .startBinary ∧
      (∀ issue ∈ newReader.issues twoArchives overclosed, issue.request.Short) ∧
      (newReader.session twoArchives overclosed).warnings = 1 ∧
      (packedReader.session twoArchives overclosed).warnings = 0 ∧
      (packedReader.exchanges twoArchives overclosed).map Exchange.result =
        [.ok .done, .error (.other "teapot"), .ok .done, .ok .done, .ok (.handle 2)] ∧
      (newReader.session twoArchives overclosed).unstreamed =
        (packedReader.session twoArchives overclosed).unstreamed := by
  have steady : twoArchives.All Statement.KeepsUnlimited := grants_twoArchives _
  have own : ∀ statement ∈ overclosed, statement.KeepsUnlimited := by decide
  have left : Made newReader := .ofStream {} ⟨true, false, false, true⟩ (.inl rfl)
  have right : Made packedReader := .create {} ⟨true, true, true, true⟩
  have short : ∀ issue ∈ newReader.issues twoArchives overclosed, issue.request.Short := by decide
  obtain ⟨results, -, agree⟩ := agree_session steady overclosed own left right rfl rfl rfl rfl short
  exact ⟨steady, own, left, right, rfl, rfl, short, rfl, rfl, results.symm, agree.unstreamed⟩

end Writer

end RibStream
