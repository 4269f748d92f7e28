/-
This file says where the failure of a statement comes from.
A parser can turn the failure of a request into another one, or into a success. If it brings up no
other kind of error by itself, its archives fail in no other way than their requests.
-/

import RibStream.Proofs.Archive.Issues
import RibStream.Proofs.Request.Failure

namespace RibStream

/-- The failure of no request: a question without an answer, or archives that are nested too deeply. -/
inductive Error.IsAside : Error → Prop where
  | question {service : Service} {dictionary : Dictionary} {error : Error}
      (failed : service.answer dictionary = .error error) : IsAside error
  | nesting : IsAside .nestingExceeded

/-- The result is a success or one of the given failures. -/
def FailsAs (allowed : Error → Prop) {Value : Type} (result : Except Error Value) : Prop :=
  ∀ error, result = .error error → allowed error

/-- A statement that cannot be read fails in one of the given ways. -/
def Statement.FailsAs (allowed : Error → Prop) : Statement → Prop
  | .unreadable error => allowed error
  | _ => True

/-- As long as statements fail in the given ways only, so does the script, whatever it makes of their
answers. -/
def Script.FailsAs (allowed : Error → Prop) : Script → Prop
  | .done result => RibStream.FailsAs allowed result
  | .issue statement next =>
      statement.FailsAs allowed ∧
        ∀ answer, RibStream.FailsAs allowed answer → (next answer).FailsAs allowed

theorem FailsAs.map {allowed : Error → Prop} {Value Result : Type} {result : Except Error Value}
    (fails : FailsAs allowed result) (change : Value → Result) :
    FailsAs allowed (result.map change) :=
  fun error failed => fails error (error_of_map_eq_error failed)

/-- A replay brings up the failures of its statements and no others. -/
theorem Script.failsAs_replaying {allowed : Error → Prop} {statements : List Statement}
    (own : ∀ statement ∈ statements, statement.FailsAs allowed) :
    (Script.replaying statements).FailsAs allowed := by
  induction statements with
  | nil =>
      intro error failed
      cases failed
  | cons statement rest inductionHypothesis =>
      refine ⟨own statement List.mem_cons_self, fun answer fails => ?_⟩
      cases answer with
      | ok reply => exact inductionHypothesis fun other member => own other (.tail _ member)
      | error error => exact fun cause same => Except.error.inj same ▸ fails error rfl

/-- The requests fail in the given ways only. -/
def Issue.AllFailAs (allowed : Error → Prop) (issues : List Issue) : Prop :=
  ∀ issue ∈ issues, FailsAs allowed issue.outcome.1

namespace Writer

variable {archives : Archives} {allowed : Error → Prop}
  (aside : ∀ error, error.IsAside → allowed error)
  (steady : archives.Each (Script.FailsAs allowed))

section Replay

variable {replay : Script → Writer → Outcome Unit} {replayed : Script → Writer → List Issue}
  (replays : ∀ script, script.FailsAs allowed → ∀ writer,
    Issue.AllFailAs allowed (replayed script writer) → FailsAs allowed (replay script writer).1)

include steady replays

theorem failsAs_readArchive {name : String} {parameters : List ParamSource} {writer : Writer}
    (issued : Issue.AllFailAs allowed
      (issuesOf archives replayed (.request (.readArchive name parameters)) writer)) :
    FailsAs allowed
      (runStatement archives replay (.request (.readArchive name parameters)) writer).1 := by
  rw [issuesOf_readArchive] at issued
  rw [runStatement_readArchive]
  cases fate : writer.fate archives name parameters with
  | kept logged =>
      rw [fate] at issued
      exact issued _ (List.mem_singleton_self _)
  | inlined script opened =>
      rw [fate] at issued
      obtain ⟨-, content, opens, rfl⟩ := quiet_of_fate_inlined fate
      obtain ⟨path, file, -, read, -⟩ := found_of_openArchive opens
      have inside := replays _ (steady file content read name) _ issued
      rw [← leaveArchive_fst name] at inside
      exact inside.map _

include aside

theorem failsAs_runStatement {statement : Statement} (own : statement.FailsAs allowed)
    {writer : Writer} (issued : Issue.AllFailAs allowed (issuesOf archives replayed statement writer)) :
    FailsAs allowed (runStatement archives replay statement writer).1 := by
  cases statement with
  | service service => exact fun error failed => aside error (.question failed)
  | unreadable error => exact fun cause same => Except.error.inj same ▸ own
  | room room =>
      intro error failed
      cases failed
  | request request =>
      rcases readArchive_or_ne request with ⟨name, parameters, rfl⟩ | other
      · exact failsAs_readArchive steady replays issued
      · rw [issuesOf_of_ne other] at issued
        rw [runStatement_of_ne other]
        exact issued _ (List.mem_singleton_self _)

end Replay

theorem failsAs_runScript {issuesOf : Statement → Writer → List Issue}
    {run : Statement → Writer → Outcome Reply}
    (runs : ∀ statement, statement.FailsAs allowed → ∀ writer,
      Issue.AllFailAs allowed (issuesOf statement writer) → FailsAs allowed (run statement writer).1)
    {script : Script} (own : script.FailsAs allowed) {writer : Writer}
    (issued : Issue.AllFailAs allowed (scriptIssues issuesOf run script writer)) :
    FailsAs allowed (runScript run script writer).1 := by
  induction script generalizing writer with
  | done result => exact own
  | issue statement next inductionHypothesis =>
      obtain ⟨first, later⟩ := List.forall_mem_append.mp issued
      exact inductionHypothesis _ (own.2 _ (runs statement own.1 writer first)) later

include aside steady

/-- An archive fails in no other way than its requests. The induction is on the depth of nesting. -/
theorem failsAs_replay (depth : Nat) (script : Script) (own : script.FailsAs allowed)
    (writer : Writer) (issued : Issue.AllFailAs allowed (replayedIssues archives depth script writer)) :
    FailsAs allowed (replay archives depth script writer).1 := by
  induction depth generalizing script writer with
  | zero => exact fun error same => Except.error.inj same ▸ aside _ .nesting
  | succ depth inductionHypothesis =>
      refine failsAs_runScript (fun statement own writer issued => ?_) own issued
      exact failsAs_runStatement aside steady inductionHypothesis own issued

/-- The statements of a session fail in no other way than its requests. -/
theorem failsAs_session {statements : List Statement}
    (own : ∀ statement ∈ statements, statement.FailsAs allowed) {writer : Writer}
    (issued : Issue.AllFailAs allowed (writer.issues archives statements)) :
    ∀ exchange ∈ writer.exchanges archives statements, FailsAs allowed exchange.result := by
  induction statements generalizing writer with
  | nil => exact fun exchange absent => absurd absent List.not_mem_nil
  | cons statement rest inductionHypothesis =>
      obtain ⟨first, later⟩ := List.forall_mem_append.mp issued
      have result : FailsAs allowed (writer.exchange archives statement).result :=
        failsAs_runStatement aside steady (failsAs_replay aside steady (nestingLimit archives))
          (own statement List.mem_cons_self) first
      exact List.forall_mem_cons.mpr
        ⟨result, inductionHypothesis (fun other member => own other (.tail _ member)) later⟩

end Writer

end RibStream
