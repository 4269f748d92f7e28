/-
This file proves that a sink that fills up cuts the output of a session off and does nothing else.
Up to the request that does not fit, the session runs as on a sink that accepts everything.
-/

import RibStream.Proofs.Archive.Inlining
import RibStream.Proofs.Archive.Opening
import RibStream.Proofs.Writer.Session
import RibStream.Proofs.Writer.Truncation

namespace RibStream

/-- The script stops at the first failure, which is its result. -/
def Script.StopsAtError : Script → Prop
  | .done _ => True
  | .issue _ next =>
      (∀ error, next (.error error) = .done (.error error)) ∧
        ∀ reply, (next (.ok reply)).StopsAtError

theorem Script.Replays.stopsAtError {script : Script} (replays : script.Replays) :
    script.StopsAtError := by
  induction script with
  | done result => trivial
  | issue statement next inductionHypothesis =>
      exact ⟨replays.1, fun reply => inductionHypothesis _ (replays.2 reply)⟩

namespace Writer

theorem takeParser_limit (writer : Writer) (room : Nat) :
    (writer.limit room).takeParser = (writer.takeParser.1, writer.takeParser.2.limit room) := by
  have made : (writer.limit room).parserMade = writer.parserMade := rfl
  have parsed : (writer.limit room).hasParser = writer.hasParser := rfl
  rw [takeParser, takeParser, made, parsed]
  repeat' split
  all_goals rfl

section Archives

variable {archives : Archives}

theorem openArchive_limit (name : String) (writer : Writer) (room : Nat) :
    openArchive archives name (writer.limit room) =
      ((openArchive archives name writer).1, (openArchive archives name writer).2.limit room) := by
  have searchPath : (writer.limit room).searchPath = writer.searchPath := rfl
  rw [openArchive, openArchive, searchPath]
  cases writer.searchPath.locate? archives.files name with
  | none => rfl
  | some found =>
      obtain ⟨path, file⟩ := found
      dsimp only
      cases archives.files.read file with
      | error error => rfl
      | ok content =>
          have taken := takeParser_limit (writer.log (.archiveResolved name path)) room
          exact congrArg (fun outcome : Outcome Unit =>
            (outcome.1.map fun () => content, outcome.2)) taken

variable {replay : Script → Writer → Outcome Unit}

theorem truncates_replayArchive {name : String} {content : archives.Content}
    (replays : Truncates (replay (archives.parse name content))) :
    Truncates (replayArchive archives replay name content) := by
  have steps : replayArchive archives replay name content = fun writer =>
      followedBy (replay (archives.parse name content))
        (fun _ writer => (.ok (), writer.log (.archiveFinished name)))
        { writer.log (.archiveOpened name) with
          trace.archives := (writer.log (.archiveOpened name)).trace.archives.push name } := by
    funext writer
    rw [replayArchive, followedBy]
    rcases replay (archives.parse name content) _ with ⟨result | result, final⟩ <;> rfl
  rw [steps]
  intro writer unlimited
  have replayed := replays.followedBy fun _ =>
    (silent_log (.archiveFinished name)).truncates (.ok ())
  obtain ⟨bytes, written⟩ := replayed
    { writer.log (.archiveOpened name) with
      trace.archives := (writer.log (.archiveOpened name)).trace.archives.push name } unlimited
  exact ⟨bytes, written.of_changed rfl rfl fun _ => rfl⟩

theorem truncates_readArchive
    (replays : ∀ file content, archives.files.read file = .ok content → ∀ name,
      Truncates (replay (archives.parse name content))) (name : String) (params : List Param) :
    Truncates (readArchive archives replay name params) := by
  intro writer unlimited
  have literal (current : Writer) (unlimited : current.stream.sink.room = none) :=
    truncates_emit ⟨"ReadArchive", .string name :: params.flatMap Token.param⟩ current unlimited
  by_cases asked : writer.interpolateArchives = true
  · have limitedAsked (room : Nat) : (writer.limit room).interpolateArchives = true := asked
    have stream : (openArchive archives name writer).2.stream = writer.stream :=
      stream_openArchive name writer
    have limitedOpens (room : Nat) : openArchive archives name (writer.limit room) = _ :=
      openArchive_limit name writer room
    cases opens : openArchive archives name writer with
    | mk result opened =>
        rw [opens] at stream limitedOpens
        have opensUnlimited : opened.stream.sink.room = none := by rw [stream, unlimited]
        cases result with
        | ok content =>
            obtain ⟨path, file, -, read, -⟩ := found_of_openArchive opens
            obtain ⟨bytes, written⟩ :=
              truncates_replayArchive (replays file content read name) opened opensUnlimited
            refine ⟨bytes, written.of_changed (congrArg Stream.sink stream) ?_ fun room => ?_⟩
            · rw [readArchive, if_pos asked, opens]
            · rw [readArchive, if_pos (limitedAsked room), limitedOpens]
        | error cause =>
            obtain ⟨bytes, written⟩ := literal (opened.log (.archiveUnavailable name cause))
              opensUnlimited
            refine ⟨bytes, written.of_changed (congrArg Stream.sink stream) ?_ fun room => ?_⟩
            · rw [readArchive, if_pos asked, opens]
              rfl
            · rw [readArchive, if_pos (limitedAsked room), limitedOpens]
              rfl
  · have limitedAsked (room : Nat) : ¬ (writer.limit room).interpolateArchives = true := asked
    obtain ⟨bytes, written⟩ := literal writer unlimited
    refine ⟨bytes, written.of_changed rfl ?_ fun room => ?_⟩
    · rw [readArchive, if_neg asked]
      rfl
    · rw [readArchive, if_neg (limitedAsked room)]
      rfl

theorem truncates_issue {readArchive : String → List Param → Writer → Outcome Unit}
    (reads : ∀ name params, Truncates (readArchive name params)) (request : Request) :
    Truncates fun writer => writer.issue readArchive request := by
  by_cases archive : ∃ name parameters, request = .readArchive name parameters
  · obtain ⟨name, parameters, rfl⟩ := archive
    intro writer unlimited
    have dictionary (room : Nat) : (writer.limit room).dictionary = writer.dictionary := rfl
    cases typed : ParamSource.resolveAll writer.dictionary parameters with
    | error error =>
        have whole (current : Writer) (same : current.dictionary = writer.dictionary) :
            current.issue readArchive (.readArchive name parameters) = (.error error, current) := by
          rw [issue, same, typed]
        refine ⟨[], .nothing unlimited (by rw [whole writer rfl]) fun room => ?_⟩
        rw [whole writer rfl, whole _ (dictionary room)]
    | ok params =>
        obtain ⟨bytes, written⟩ := reads name params writer unlimited
        refine ⟨bytes, (written.map fun () => Reply.done).of_changed rfl ?_ fun room => ?_⟩
        · rw [issue, typed]
          rfl
        · rw [issue, dictionary, typed]
          rfl
  · have other (name : String) (parameters : List ParamSource) :
        request ≠ .readArchive name parameters := fun same => archive ⟨name, parameters, same⟩
    simp only [issue_eq_perform_of_ne readArchive other]
    exact truncates_perform request

theorem truncates_runStatement
    (replays : ∀ file content, archives.files.read file = .ok content → ∀ name,
      Truncates (replay (archives.parse name content))) {statement : Statement}
    (own : statement.KeepsRoom) : Truncates (runStatement archives replay statement) := by
  cases statement with
  | request request => exact truncates_issue (truncates_readArchive replays) request
  | service service =>
      intro writer unlimited
      exact ⟨[], .nothing unlimited rfl fun _ => rfl⟩
  | room room => exact own.elim
  | unreadable error => exact silent_id.truncates _

/-- A script that stops at its first failure goes on only with what has succeeded. -/
theorem truncates_runScript {run : Statement → Writer → Outcome Reply}
    (runs : ∀ statement, statement.KeepsRoom → Truncates (run statement)) (script : Script)
    (own : script.All Statement.KeepsRoom) (stops : script.StopsAtError) :
    Truncates (runScript run script) := by
  induction script with
  | done result => exact silent_id.truncates result
  | issue statement next inductionHypothesis =>
      have steps : runScript run (.issue statement next) =
          followedBy (run statement) fun reply => runScript run (next (.ok reply)) := by
        funext writer
        rw [runScript, followedBy]
        rcases run statement writer with ⟨error | reply, after⟩
        · dsimp only
          rw [stops.1, runScript]
        · rfl
      rw [steps]
      exact (runs statement own.1).followedBy fun reply =>
        inductionHypothesis _ (own.2 _) (stops.2 reply)

/-- However deep archives are nested, a full sink ends all of them. -/
theorem truncates_replay (steady : archives.All Statement.KeepsRoom)
    (stopping : archives.Each Script.StopsAtError) (depth : Nat) (script : Script)
    (own : script.All Statement.KeepsRoom) (stops : script.StopsAtError) :
    Truncates (Writer.replay archives depth script) := by
  induction depth generalizing script with
  | zero => exact silent_id.truncates (.error .nestingExceeded)
  | succ depth inductionHypothesis =>
      refine truncates_runScript (fun statement keeps => ?_) script own stops
      exact truncates_runStatement (fun file content read name =>
        inductionHypothesis _ (steady file content read name) (stopping file content read name)) keeps

theorem truncates_run (steady : archives.All Statement.KeepsRoom)
    (stopping : archives.Each Script.StopsAtError) {statement : Statement}
    (own : statement.KeepsRoom) : Truncates (run archives statement) :=
  truncates_runStatement (fun file content read name =>
    truncates_replay steady stopping _ _ (steady file content read name)
      (stopping file content read name)) own

end Archives

end Writer

namespace Exchange

/-- The exchange with this number is the first one after which the output is longer than the room. -/
def FirstBeyond (room : Nat) (exchanges : List Exchange) (index : Nat) : Prop :=
  index < exchanges.length ∧ (output (exchanges.take index)).length ≤ room ∧
    room < (output (exchanges.take (index + 1))).length

instance (room : Nat) (exchanges : List Exchange) (index : Nat) :
    Decidable (FirstBeyond room exchanges index) :=
  inferInstanceAs (Decidable (_ ∧ _))

variable {room : Nat} {exchange : Exchange} {rest : List Exchange}

theorem firstBeyond_zero :
    FirstBeyond room (exchange :: rest) 0 ↔ room < exchange.accepted.length := by
  simp [FirstBeyond, output]

theorem firstBeyond_succ (fits : exchange.accepted.length ≤ room) (index : Nat) :
    FirstBeyond room (exchange :: rest) (index + 1) ↔
      FirstBeyond (room - exchange.accepted.length) rest index := by
  simp only [FirstBeyond, output, List.take_succ_cons, List.flatMap_cons, List.length_append,
    List.length_cons]
  omega

theorem fits_of_firstBeyond_succ {index : Nat}
    (beyond : FirstBeyond room (exchange :: rest) (index + 1)) :
    exchange.accepted.length ≤ room := by
  simp only [FirstBeyond, output, List.take_succ_cons, List.flatMap_cons, List.length_append] at beyond
  omega

end Exchange

namespace Writer

variable {archives : Archives}

/-- The accepted bytes of a statement are those that it writes. -/
theorem writes_exchange (steady : archives.All Statement.KeepsRoom)
    (stopping : archives.Each Script.StopsAtError) {statement : Statement}
    (own : statement.KeepsRoom) (writer : Writer) (unlimited : writer.stream.sink.room = none) :
    Writes (run archives statement) writer (writer.exchange archives statement).accepted := by
  obtain ⟨bytes, written⟩ := truncates_run steady stopping own writer unlimited
  have same : (writer.exchange archives statement).accepted = bytes := by
    rw [exchange, written.accepted]
    simp
  rw [same]
  exact written

/-- A statement whose output fits is the same on both sinks. -/
theorem exchange_limit {statement : Statement} {writer : Writer} {bytes : List UInt8} {room : Nat}
    (written : Writes (run archives statement) writer bytes) (fits : bytes.length ≤ room) :
    (writer.limit room).exchange archives statement = writer.exchange archives statement := by
  have limited : (writer.limit room).run archives statement = _ := written.fits room fits
  rw [exchange, exchange, limited]
  rfl

section Session

variable (steady : archives.All Statement.KeepsRoom)
  (stopping : archives.Each Script.StopsAtError) (statements : List Statement)
  (own : ∀ statement ∈ statements, statement.KeepsRoom) (writer : Writer)
  (unlimited : writer.stream.sink.room = none)

include steady stopping own unlimited

/-- The exchanges make up the whole output. -/
theorem accepted_session :
    (writer.session archives statements).stream.sink.accepted =
      writer.stream.sink.accepted ++ Exchange.output (writer.exchanges archives statements) := by
  induction statements generalizing writer with
  | nil => simp [session, exchanges, Exchange.output]
  | cons statement statements inductionHypothesis =>
      have written := writes_exchange steady stopping (own statement List.mem_cons_self) writer unlimited
      have others (other : Statement) (member : other ∈ statements) : other.KeepsRoom :=
        own other (List.mem_cons_of_mem _ member)
      rw [session, inductionHypothesis others _ written.unlimited, written.accepted, exchanges,
        Exchange.output_cons, Sink.append_pieces]

/-- The first statement whose output does not fit ends with the sink full. -/
theorem exchanges_limit_of_firstBeyond {room index : Nat}
    (beyond : Exchange.FirstBeyond room (writer.exchanges archives statements) index) :
    ((writer.limit room).exchanges archives statements).take index =
        (writer.exchanges archives statements).take index ∧
      ((writer.limit room).exchanges archives statements)[index]?.map Exchange.result =
        some (.error .sinkFull) ∧
      ((writer.limit room).session archives (statements.take (index + 1))).stream.sink.accepted =
        writer.stream.sink.accepted ++
          (Exchange.output (writer.exchanges archives statements)).take room := by
  induction statements generalizing writer room index with
  | nil => exact absurd beyond.1 (Nat.not_lt_zero index)
  | cons statement statements inductionHypothesis =>
      have written := writes_exchange steady stopping (own statement List.mem_cons_self) writer unlimited
      rw [exchanges] at beyond
      cases index with
      | zero =>
          have exceeds := Exchange.firstBeyond_zero.mp beyond
          obtain ⟨failed, filled⟩ := written.exceeds room exceeds
          refine ⟨rfl, congrArg some failed, ?_⟩
          rw [exchanges, Exchange.output_cons,
            List.take_append_of_le_length (Nat.le_of_lt exceeds)]
          exact filled
      | succ index =>
          have fits := Exchange.fits_of_firstBeyond_succ beyond
          have others (other : Statement) (member : other ∈ statements) : other.KeepsRoom :=
            own other (List.mem_cons_of_mem _ member)
          have next : ((writer.limit room).run archives statement).2 = _ :=
            congrArg Prod.snd (written.fits room fits)
          obtain ⟨before, refused, filled⟩ := inductionHypothesis others _ written.unlimited
            ((Exchange.firstBeyond_succ fits index).mp beyond)
          rw [exchanges, exchanges, exchange_limit written fits, next]
          refine ⟨by rw [List.take_succ_cons, List.take_succ_cons, before], refused, ?_⟩
          rw [List.take_succ_cons, session, next, filled, written.accepted, ← Sink.append_pieces,
            Exchange.output_cons, List.take_append, List.take_of_length_le fits]

/-- A session whose output fits is the same on both sinks. -/
theorem exchanges_limit_of_fits {room : Nat}
    (within : ∀ index, ¬ Exchange.FirstBeyond room (writer.exchanges archives statements) index) :
    (writer.limit room).exchanges archives statements = writer.exchanges archives statements ∧
      (writer.limit room).session archives statements =
        (writer.session archives statements).limit
          (room - (Exchange.output (writer.exchanges archives statements)).length) := by
  induction statements generalizing writer room with
  | nil => exact ⟨rfl, rfl⟩
  | cons statement statements inductionHypothesis =>
      have written := writes_exchange steady stopping (own statement List.mem_cons_self) writer unlimited
      have others (other : Statement) (member : other ∈ statements) : other.KeepsRoom :=
        own other (List.mem_cons_of_mem _ member)
      rw [exchanges] at within
      have fits := Nat.le_of_not_lt fun exceeds =>
        within 0 (Exchange.firstBeyond_zero.mpr exceeds)
      have next : ((writer.limit room).run archives statement).2 = _ :=
        congrArg Prod.snd (written.fits room fits)
      obtain ⟨exchangesSame, sessionSame⟩ := inductionHypothesis others _ written.unlimited
        fun index beyond => within (index + 1) ((Exchange.firstBeyond_succ fits index).mpr beyond)
      constructor
      · rw [exchanges, exchanges, exchange_limit written fits, next, exchangesSame]
      · rw [session, next, sessionSame, session, exchanges, Exchange.output_cons,
          List.length_append, Nat.sub_sub]

/-- On a sink with room for a number of bytes a session runs as it does on a sink that accepts
everything, up to the first statement with which its output is longer than that. This statement ends
with the sink full, and exactly the bytes that fit have been accepted. If the whole output fits, the
sessions are the same to the end. -/
theorem exchanges_limit (room : Nat) :
    (writer.session archives statements).stream.sink.accepted =
        writer.stream.sink.accepted ++ Exchange.output (writer.exchanges archives statements) ∧
      (∀ index, Exchange.FirstBeyond room (writer.exchanges archives statements) index →
        ((writer.limit room).exchanges archives statements).take index =
            (writer.exchanges archives statements).take index ∧
          ((writer.limit room).exchanges archives statements)[index]?.map Exchange.result =
            some (.error .sinkFull) ∧
          ((writer.limit room).session archives (statements.take (index + 1))).stream.sink.accepted =
            writer.stream.sink.accepted ++
              (Exchange.output (writer.exchanges archives statements)).take room) ∧
      ((∀ index, ¬ Exchange.FirstBeyond room (writer.exchanges archives statements) index) →
        (writer.limit room).exchanges archives statements = writer.exchanges archives statements ∧
          (writer.limit room).session archives statements =
            (writer.session archives statements).limit
              (room - (Exchange.output (writer.exchanges archives statements)).length)) :=
  ⟨accepted_session steady stopping statements own writer unlimited,
    fun _ => exchanges_limit_of_firstBeyond steady stopping statements own writer unlimited,
    exchanges_limit_of_fits steady stopping statements own writer unlimited⟩

end Session

/-- An archive that fails, and a request after it. -/
def branchThenWorld : List Statement :=
  [.request (.readArchive "branch.rib" []), .request (.opening .world)]

/-- The archive of the first request fails after its third line. The second request is cut off in its
indentation, and what the first one returns is not affected. -/
theorem exchanges_limit_branch :
    twoArchives.All Statement.KeepsRoom ∧ twoArchives.Each Script.StopsAtError ∧
      (∀ statement ∈ branchThenWorld, statement.KeepsRoom) ∧
      archiveReader.stream.sink.room = none ∧
      Exchange.FirstBeyond 59 (archiveReader.exchanges twoArchives branchThenWorld) 1 ∧
      ((archiveReader.limit 59).exchanges twoArchives branchThenWorld)[1]?.map Exchange.result =
        some (.error .sinkFull) ∧
      ((archiveReader.limit 59).session twoArchives branchThenWorld).stream.sink.accepted.toList =
        Text.bytes "LightSource \"pointlight\" 1\nIlluminate 1 0\nAttributeBegin\n  " := by
  have steady : twoArchives.All Statement.KeepsRoom := grants_twoArchives _
  have stopping : twoArchives.Each Script.StopsAtError :=
    each_twoArchives (Script.replays_replaying _).stopsAtError replays_lampScript.stopsAtError
  have own : ∀ statement ∈ branchThenWorld, statement.KeepsRoom := by decide
  have whole : archiveReader.exchanges twoArchives branchThenWorld =
      [⟨.error (.other "teapot"),
          Text.bytes "LightSource \"pointlight\" 1\nIlluminate 1 0\nAttributeBegin\n"⟩,
        ⟨.ok .done, Text.bytes "    WorldBegin\n"⟩] := by decide +kernel
  have beyond : Exchange.FirstBeyond 59 (archiveReader.exchanges twoArchives branchThenWorld) 1 := by
    rw [whole]
    decide
  obtain ⟨-, first, -⟩ := exchanges_limit steady stopping branchThenWorld own archiveReader rfl 59
  obtain ⟨-, refused, filled⟩ := first 1 beyond
  refine ⟨steady, stopping, own, rfl, beyond, refused, ?_⟩
  have all : branchThenWorld.take (1 + 1) = branchThenWorld := rfl
  rw [all, whole] at filled
  rw [filled]
  decide

end Writer

end RibStream
