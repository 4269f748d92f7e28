/-
This file says what a call to read an archive does.
Either it hands the archive to the parser, or it writes the request.
-/

import RibStream.Proofs.Archive.Fate
import RibStream.Proofs.Writer.Rejection

namespace RibStream

/-- A call to read an archive, with the writer in which it is made and the depth to which archives can
nest inside of it. -/
structure ArchiveCall where
  name : String
  params : List Param
  writer : Writer
  depth : Nat

namespace ArchiveCall

variable (archives : Archives)

def outcome (call : ArchiveCall) : Outcome Unit :=
  call.writer.readArchive archives (Writer.replay archives call.depth) call.name call.params

/-- The same call where no archive is to be inlined. -/
def outcomeOff (call : ArchiveCall) : Outcome Unit :=
  { call.writer with interpolateArchives := false }.readArchive archives
    (Writer.replay archives call.depth) call.name call.params

/-- Archives are to be inlined, there is a parser, and the name leads to a file on the search path of the
moment, which opens. -/
def resolves (call : ArchiveCall) : Bool :=
  call.writer.interpolateArchives && call.writer.hasParser &&
    match call.writer.searchPath.locate? archives.files call.name with
    | some (_, file) => (archives.files.read file).isOk
    | none => false

/-- The request that stands for the call, with its name and its parameters. -/
def line (call : ArchiveCall) : RequestLine :=
  ⟨"ReadArchive", .string call.name :: call.params.flatMap Param.spelled⟩

/-- The call hands one archive to the parser under its name, and what the parser does with the file is
carried out in a writer that is otherwise the same. All that is handed over later belongs to it. -/
structure Inlined (call : ArchiveCall) : Prop where
  handed : ∃ nested, (call.outcome archives).2.trace.archives.toList =
    call.writer.trace.archives.toList ++ call.name :: nested
  replayed : ∃ path file content entered,
    call.writer.searchPath.locate? archives.files call.name = some (path, file) ∧
    archives.files.read file = .ok content ∧
    entered.untraced = call.writer.untraced ∧
    entered.trace.archives = call.writer.trace.archives.push call.name ∧
    entered.parserMade = true ∧ entered.trace.parsers = 1 ∧
    call.outcome archives = Writer.leaveArchive call.name
      (Writer.replay archives call.depth (archives.parse call.name content) entered)

/-- The call writes its request and hands nothing to the parser. The sink accepts the whole request if
its lengths fit, and otherwise the call fails. With inlining off it does the same. -/
structure Written (call : ArchiveCall) : Prop where
  request : ∃ bytes : List UInt8,
    (call.outcome archives).2.stream.sink.accepted = call.writer.stream.sink.accepted ++ bytes ∧
    ((∀ token ∈ call.line.tokens, call.writer.stream.encoding.Fits token) →
      (call.outcome archives).1 = .ok () ∧ call.writer.stream.encoding.Shows call.line bytes) ∧
    ((∃ token ∈ call.line.tokens, ¬ call.writer.stream.encoding.Fits token) →
      ∃ count, (call.outcome archives).1 = .error (.lengthExceeded count))
  writer : (call.outcome archives).2 = { call.writer with
    stream := (call.outcome archives).2.stream
    trace.events := (call.outcome archives).2.trace.events }
  resultOff : (call.outcome archives).1 = (call.outcomeOff archives).1
  writerOff : (call.outcome archives).2 = { (call.outcomeOff archives).2 with
    interpolateArchives := call.writer.interpolateArchives
    trace.events := (call.outcome archives).2.trace.events }

/-- The call does not resolve, and its request has been written to the end. -/
def isWritten (call : ArchiveCall) : Bool :=
  !call.resolves archives && (call.outcome archives).1.isOk

end ArchiveCall

namespace Writer

section Definitions

variable (archives : Archives)

/-- The calls of a script, each statement of which follows from the answers to those before. -/
def scriptCalls (callsOf : Statement → Writer → List ArchiveCall)
    (run : Statement → Writer → Outcome Reply) : Script → Writer → List ArchiveCall
  | .done _, _ => []
  | .issue statement next, writer =>
      let (answer, after) := run statement writer
      callsOf statement writer ++ scriptCalls callsOf run (next answer) after

/-- The call that a statement makes, followed by those of the archive if it is inlined. Parameters that
are not known make no call. -/
def callsOf (depth : Nat) (replayed : Script → Writer → List ArchiveCall) (statement : Statement)
    (writer : Writer) : List ArchiveCall :=
  match statement with
  | .request (.readArchive name parameters) =>
      match ParamSource.resolveAll writer.dictionary parameters with
      | .ok params =>
          ⟨name, params, writer, depth⟩ ::
            match writer.fate archives name parameters with
            | .inlined script opened => replayed script (opened.enterArchive name)
            | .kept _ => []
      | .error _ => []
  | _ => []

/-- The calls of an archive. -/
def replayedCalls : Nat → Script → Writer → List ArchiveCall
  | 0, _, _ => []
  | depth + 1, script, writer =>
      scriptCalls (callsOf archives depth (replayedCalls depth))
        (runStatement archives (replay archives depth)) script writer

/-- The calls of a session, those of its archives included. -/
def calls : List Statement → Writer → List ArchiveCall
  | [], _ => []
  | statement :: rest, writer =>
      callsOf archives (nestingLimit archives) (replayedCalls archives (nestingLimit archives))
          statement writer ++
        calls rest (writer.run archives statement).2

end Definitions

/-- At most one parser has been made, and only if one was given. -/
structure Tracked (writer : Writer) : Prop extends Ready writer where
  given : writer.parserMade = true → writer.hasParser = true
  parsers : writer.trace.parsers = if writer.parserMade then 1 else 0

/-- What a writer knows about parsers and what it has handed to them. -/
def handling (writer : Writer) : Array String × Nat × Bool × Bool :=
  (writer.trace.archives, writer.trace.parsers, writer.parserMade, writer.hasParser)

theorem handling_change (change : Change) (writer : Writer) :
    (writer.change change).handling = writer.handling := by
  cases change with
  | leave =>
      rw [Writer.change, leave]
      split <;> rfl
  | _ => rfl

/-- A request that reads no archive has nothing to do with parsers. -/
theorem handling_perform (request : Request) (writer : Writer) :
    (writer.perform request).2.handling = writer.handling := by
  rw [perform_frame handling fun _ _ _ _ => rfl]
  obtain ⟨change, checks⟩ := exists_checks request writer
  rw [checks.plan_eq]
  exact handling_change change writer

theorem Tracked.of_handling_eq {writer changed : Writer} (tracked : writer.Tracked)
    (ready : changed.Ready) (same : changed.handling = writer.handling) : changed.Tracked := by
  simp only [handling, Prod.mk.injEq] at same
  obtain ⟨-, parsers, made, given⟩ := same
  refine ⟨ready, ?_, ?_⟩
  · rw [made, given]
    exact tracked.given
  · rw [parsers, made]
    exact tracked.parsers

/-- The parser is made once. -/
theorem Tracked.takeParser_eq {writer : Writer} (tracked : writer.Tracked)
    (given : writer.hasParser = true) :
    writer.takeParser = (.ok (), { writer with parserMade := true, trace.parsers := 1 }) := by
  have parsers := tracked.parsers
  rw [takeParser]
  cases made : writer.parserMade with
  | true =>
      rw [made, if_pos rfl] at parsers
      rw [if_pos rfl, ← parsers, ← made]
  | false =>
      rw [made] at parsers
      rw [if_neg (by decide), if_pos given, parsers]
      rfl

theorem Tracked.takeParser_missing {writer : Writer} (tracked : writer.Tracked)
    (missing : writer.hasParser ≠ true) : writer.takeParser = (.error .parserMissing, writer) := by
  rw [takeParser, if_neg fun made => missing (tracked.given made), if_neg missing]

end Writer

namespace ArchiveCall

open Writer

variable {archives : Archives} {call : ArchiveCall}

theorem resolves_iff : call.resolves archives = true ↔
    call.writer.interpolateArchives = true ∧ call.writer.hasParser = true ∧
      ∃ path file content,
        call.writer.searchPath.locate? archives.files call.name = some (path, file) ∧
          archives.files.read file = .ok content := by
  rw [resolves, Bool.and_eq_true, Bool.and_eq_true, and_assoc]
  apply and_congr_right
  intro _
  apply and_congr_right
  intro _
  cases call.writer.searchPath.locate? archives.files call.name with
  | none => simp
  | some found =>
      obtain ⟨path, file⟩ := found
      cases read : archives.files.read file with
      | error error => simp [read, Except.isOk, Except.toBool]
      | ok content => simp [read, Except.isOk, Except.toBool]

/-- The writer that has opened the file. -/
def opened (call : ArchiveCall) (path : String) : Writer :=
  { call.writer.log (.archiveResolved call.name path) with
    parserMade := true, trace.parsers := 1 }

/-- The writer in which the parser begins with the file. -/
def entered (call : ArchiveCall) (path : String) : Writer :=
  (call.opened path).enterArchive call.name

theorem tracked_logged (tracked : call.writer.Tracked) (path : String) :
    (call.writer.log (.archiveResolved call.name path)).Tracked :=
  tracked.of_handling_eq (tracked.toReady.of_stream_eq rfl) rfl

theorem tracked_entered (tracked : call.writer.Tracked) (given : call.writer.hasParser = true)
    (path : String) : (call.entered path).Tracked :=
  ⟨tracked.toReady.of_stream_eq rfl, fun _ => given, rfl⟩

/-- A call that resolves is replaced by what the parser does with the file. -/
theorem exists_of_resolves (tracked : call.writer.Tracked)
    (resolves : call.resolves archives = true) :
    ∃ path file content,
      call.writer.searchPath.locate? archives.files call.name = some (path, file) ∧
      archives.files.read file = .ok content ∧
      call.outcome archives = leaveArchive call.name
        (replay archives call.depth (archives.parse call.name content) (call.entered path)) ∧
      ∀ parameters, ParamSource.resolveAll call.writer.dictionary parameters = .ok call.params →
        call.writer.fate archives call.name parameters =
          .inlined (archives.parse call.name content) (call.opened path) := by
  obtain ⟨asked, given, path, file, content, located, read⟩ := resolves_iff.mp resolves
  have opens : call.writer.openArchive archives call.name = (.ok content, call.opened path) := by
    rw [openArchive, located]
    simp only [read, (tracked_logged tracked path).takeParser_eq given]
    rfl
  refine ⟨path, file, content, located, read, ?_, fun parameters resolved => ?_⟩
  · rw [outcome, readArchive, if_pos asked, opens]
    rfl
  · rw [fate, resolved, asked]
    simp only [opens]

/-- An archive that is not opened leaves the reason for it behind. -/
theorem openArchive_of_not_resolves (tracked : call.writer.Tracked)
    (asked : call.writer.interpolateArchives = true) (unresolved : call.resolves archives = false) :
    ∃ cause events, call.writer.openArchive archives call.name =
      (.error cause, { call.writer with trace.events := events }) := by
  rw [openArchive]
  cases located : call.writer.searchPath.locate? archives.files call.name with
  | none => exact ⟨_, call.writer.trace.events, rfl⟩
  | some found =>
      obtain ⟨path, file⟩ := found
      dsimp only
      cases read : archives.files.read file with
      | error cause => exact ⟨_, _, rfl⟩
      | ok content =>
          have missing : call.writer.hasParser ≠ true := fun given =>
            Bool.eq_false_iff.mp unresolved
              (resolves_iff.mpr ⟨asked, given, path, file, content, located, read⟩)
          dsimp only
          rw [(tracked_logged tracked path).takeParser_missing missing]
          exact ⟨_, _, rfl⟩

/-- A call that does not resolve is left to the writer, which logs why if it was asked to inline. -/
theorem exists_of_not_resolves (tracked : call.writer.Tracked)
    (unresolved : call.resolves archives = false) :
    ∃ events,
      call.outcome archives =
        { call.writer with trace.events := events }.emitArchive call.name call.params ∧
      ∀ parameters, ParamSource.resolveAll call.writer.dictionary parameters = .ok call.params →
        call.writer.fate archives call.name parameters =
          .kept { call.writer with trace.events := events } := by
  cases asked : call.writer.interpolateArchives with
  | false =>
      refine ⟨call.writer.trace.events, ?_, fun parameters resolved => ?_⟩
      · rw [outcome, readArchive, if_neg (by simp [asked])]
      · rw [fate, resolved, asked]
  | true =>
      obtain ⟨cause, events, opens⟩ := openArchive_of_not_resolves tracked asked unresolved
      refine ⟨events.push (.archiveUnavailable call.name cause), ?_, fun parameters resolved => ?_⟩
      · rw [outcome, readArchive, if_pos asked, opens]
        rfl
      · rw [fate, resolved, asked]
        simp only [opens]
        rfl

/-- The request of a call is its line. -/
theorem emitArchive_eq (writer : Writer) (call : ArchiveCall) :
    writer.emitArchive call.name call.params =
      ((writer.stream.request call.line.name call.line.tokens).1,
        { writer with stream := (writer.stream.request call.line.name call.line.tokens).2 }) := by
  rw [emitArchive, Token.params_eq_spelled]
  rfl

theorem written_of_not_resolves (tracked : call.writer.Tracked)
    (unresolved : call.resolves archives = false) : call.Written archives := by
  obtain ⟨events, outcome, -⟩ := exists_of_not_resolves tracked unresolved
  have off : call.outcomeOff archives =
      { call.writer with interpolateArchives := false }.emitArchive call.name call.params := rfl
  rw [emitArchive_eq] at outcome off
  have known : call.line.name ∈ Request.names := (by decide : "ReadArchive" ∈ Request.names)
  have sent := Stream.exists_of_request_unlimited tracked.codesNamed tracked.unlimited known
  refine ⟨?_, ?_, ?_, ?_⟩
  · rw [outcome]
    exact sent
  · rw [outcome]
  · rw [outcome, off]
  · rw [outcome, off]

end ArchiveCall

end RibStream
