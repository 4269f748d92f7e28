/-
This file defines the expansion of an archive into the statements that are issued in its place.
What the parser issues next depends on the answers, and which archives are opened depends on the
search path of the moment, so the expansion follows the run.
-/

import Mathlib.Logic.Relation
import RibStream.Proofs.Archive.Content
import RibStream.Proofs.Writer.Session

namespace RibStream

/-- The script issues its statements in order and stops at the first failure, which is its result. A
statement can depend on the answers to those before. -/
def Script.Replays : Script → Prop
  | .done result => result = .ok ()
  | .issue _ next =>
      (∀ error, next (.error error) = .done (.error error)) ∧ ∀ reply, (next (.ok reply)).Replays

/-- Statements that are replayed in order. -/
theorem Script.replays_replaying (statements : List Statement) :
    (Script.replaying statements).Replays := by
  induction statements with
  | nil => rfl
  | cons statement rest inductionHypothesis => exact ⟨fun _ => rfl, fun _ => inductionHypothesis⟩

namespace Writer

variable {archives : Archives}

/-- Issues statements in order up to the first failure, as a session would. -/
def runAll (archives : Archives) : List Statement → Writer → Outcome Unit
  | [], writer => (.ok (), writer)
  | statement :: rest, writer =>
      match run archives statement writer with
      | (.ok _, writer) => runAll archives rest writer
      | (.error error, writer) => (.error error, writer)

/-- The request to read an archive resolves to the given file, which opens with the given content. -/
structure Inlines (archives : Archives) (writer : Writer) (name : String)
    (parameters : List ParamSource) (file : Fin archives.files.count) (content : archives.Content) :
    Prop where
  asked : writer.interpolateArchives = true
  parsed : writer.hasParser = true
  typed : ∃ params, ParamSource.resolveAll writer.dictionary parameters = .ok params
  found : ∃ path, writer.searchPath.locate? archives.files name = some (path, file)
  reads : archives.files.read file = .ok content

/-- The statement is a request to read an archive that resolves. -/
def IsInlined (archives : Archives) (writer : Writer) (statement : Statement) : Prop :=
  ∃ name parameters file content, statement = .request (.readArchive name parameters) ∧
    Inlines archives writer name parameters file content

/-- From a writer on a script comes to the rest of it in another writer. Between them stand the given
statements. An archive that is inlined stands for the statements of its own script, and its result
is the answer to the request that names it. -/
inductive Reaches (archives : Archives) :
    Script → Writer → List Statement → Script → Writer → Prop where
  | here (script : Script) (writer : Writer) : Reaches archives script writer [] script writer
  | issued {statement : Statement} {next rest : Script} {script : Except Error Reply → Script}
      {writer last : Writer} {statements : List Statement}
      (kept : ¬ IsInlined archives writer statement)
      (answered : next = script (run archives statement writer).1)
      (later : Reaches archives next (run archives statement writer).2 statements rest last) :
      Reaches archives (.issue statement script) writer (statement :: statements) rest last
  | inlined {name : String} {parameters : List ParamSource} {file : Fin archives.files.count}
      {content : archives.Content} {script : Except Error Reply → Script} {rest : Script}
      {writer middle last : Writer} {result : Except Error Unit} {inside statements : List Statement}
      (inlines : Inlines archives writer name parameters file content)
      (inner : Reaches archives (archives.parse name content) writer inside (.done result) middle)
      (later : Reaches archives (script (result.map fun () => .done)) middle statements rest last) :
      Reaches archives (.issue (.request (.readArchive name parameters)) script) writer
        (inside ++ statements) rest last

/-- The statements that a whole script stands for, with its outcome. -/
def Expansion (archives : Archives) (script : Script) (writer : Writer)
    (statements : List Statement) (outcome : Outcome Unit) : Prop :=
  Reaches archives script writer statements (.done outcome.1) outcome.2

/-- None of the statements is inlined when its turn comes. -/
def NoneInlined (archives : Archives) : List Statement → Writer → Prop
  | [], _ => True
  | statement :: rest, writer =>
      ¬ IsInlined archives writer statement ∧
        NoneInlined archives rest (run archives statement writer).2

/-- If an outcome is a failure, it is the failure of the last statement and of no other. -/
def FailsAtEnd (archives : Archives) (statements : List Statement) (writer : Writer)
    (outcome : Outcome Unit) : Prop :=
  ∀ error, outcome.1 = .error error → ∃ front last current,
    statements = front ++ [last] ∧ runAll archives front writer = (.ok (), current) ∧
      run archives last current = (.error error, outcome.2)

theorem runAll_append {first : List Statement} {writer next : Writer}
    (success : runAll archives first writer = (.ok (), next)) (second : List Statement) :
    runAll archives (first ++ second) writer = runAll archives second next := by
  induction first generalizing writer with
  | nil =>
      cases success
      rfl
  | cons statement first inductionHypothesis =>
      rw [runAll] at success
      rw [List.cons_append, runAll]
      generalize run archives statement writer = issued at success ⊢
      obtain ⟨result, current⟩ := issued
      cases result with
      | error error => cases success
      | ok reply => exact inductionHypothesis success

theorem session_append (archives : Archives) (first second : List Statement) (writer : Writer) :
    writer.session archives (first ++ second) =
      (writer.session archives first).session archives second := by
  induction first generalizing writer with
  | nil => rfl
  | cons statement first inductionHypothesis => exact inductionHypothesis _

theorem NoneInlined.append {first second : List Statement} {writer : Writer}
    (none : NoneInlined archives first writer)
    (others : NoneInlined archives second (writer.session archives first)) :
    NoneInlined archives (first ++ second) writer := by
  induction first generalizing writer with
  | nil => exact others
  | cons statement first inductionHypothesis =>
      obtain ⟨kept, rest⟩ := none
      exact ⟨kept, inductionHypothesis rest others⟩

namespace Reaches

variable {script middle rest : Script} {writer current last : Writer}
  {front back statements : List Statement}

theorem append (before : Reaches archives script writer front middle current)
    (after : Reaches archives middle current back rest last) :
    Reaches archives script writer (front ++ back) rest last := by
  induction before with
  | here script writer => exact after
  | issued kept answered later inductionHypothesis =>
      exact .issued kept answered (inductionHypothesis after)
  | inlined inlines inner later innerHypothesis laterHypothesis =>
      rw [List.append_assoc]
      exact .inlined inlines inner (laterHypothesis after)

/-- Nothing comes after the end of a script. -/
theorem eq_of_done {result : Except Error Unit}
    (reaches : Reaches archives (.done result) writer statements rest last) :
    statements = [] ∧ rest = .done result ∧ last = writer := by
  cases reaches
  exact ⟨rfl, rfl, rfl⟩

/-- The statements lead from one writer to the other also when a session issues them. -/
theorem session_eq (reaches : Reaches archives script writer statements rest last) :
    writer.session archives statements = last := by
  induction reaches with
  | here script writer => rfl
  | issued kept answered later inductionHypothesis => exact inductionHypothesis
  | inlined inlines inner later innerHypothesis laterHypothesis =>
      rw [session_append, innerHypothesis, laterHypothesis]

/-- What holds of all statements of a script holds of those that are left. -/
theorem all {property : Statement → Prop}
    (reaches : Reaches archives script writer statements rest last) (own : script.All property) :
    rest.All property := by
  induction reaches with
  | here script writer => exact own
  | issued kept answered later inductionHypothesis => exact inductionHypothesis (answered ▸ own.2 _)
  | inlined inlines inner later innerHypothesis laterHypothesis => exact laterHypothesis (own.2 _)

theorem noneInlined (reaches : Reaches archives script writer statements rest last) :
    NoneInlined archives statements writer := by
  induction reaches with
  | here script writer => trivial
  | issued kept answered later inductionHypothesis => exact ⟨kept, inductionHypothesis⟩
  | inlined inlines inner later innerHypothesis laterHypothesis =>
      exact innerHypothesis.append (inner.session_eq ▸ laterHypothesis)

end Reaches

/-- A replay has succeeded so far, or its last statement has failed and ended it. -/
inductive Replayed (archives : Archives) (writer : Writer) (statements : List Statement)
    (rest : Script) (last : Writer) : Prop where
  | going (replays : rest.Replays) (success : runAll archives statements writer = (.ok (), last))
  | failed {error : Error} {front : List Statement} {statement : Statement} {current : Writer}
      (ended : rest = .done (.error error)) (split : statements = front ++ [statement])
      (before : runAll archives front writer = (.ok (), current))
      (failure : run archives statement current = (.error error, last))

theorem Replayed.append {writer middle last : Writer} {first second : List Statement} {rest : Script}
    (success : runAll archives first writer = (.ok (), middle))
    (later : Replayed archives middle second rest last) :
    Replayed archives writer (first ++ second) rest last := by
  cases later with
  | going replays others => exact .going replays ((runAll_append success second).trans others)
  | failed ended split before failure =>
      refine .failed ended (by rw [split, List.append_assoc]) ?_ failure
      exact (runAll_append success _).trans before

/-- Along a replay every statement succeeds but for a last one that ends it, at every depth. -/
theorem Reaches.replayed (replaying : archives.Each Script.Replays) {script rest : Script}
    {writer last : Writer} {statements : List Statement}
    (reaches : Reaches archives script writer statements rest last) (replays : script.Replays) :
    Replayed archives writer statements rest last := by
  induction reaches with
  | here script writer => exact .going replays rfl
  | @issued statement next rest script writer last statements kept answered later
      inductionHypothesis =>
      obtain ⟨stops, goes⟩ := replays
      subst answered
      rcases issued : run archives statement writer with ⟨error | reply, after⟩
      · rw [issued] at later
        dsimp only at later
        rw [stops] at later
        obtain ⟨rfl, rfl, rfl⟩ := later.eq_of_done
        exact .failed rfl (List.nil_append _).symm rfl issued
      · rw [issued] at inductionHypothesis
        have one : runAll archives [statement] writer = (.ok (), after) := by
          rw [runAll, issued]
          rfl
        exact Replayed.append one (inductionHypothesis (goes reply))
  | @inlined name parameters file content script rest writer middle last result inside statements
      inlines inner later innerHypothesis laterHypothesis =>
      obtain ⟨stops, goes⟩ := replays
      cases innerHypothesis (replaying file content inlines.reads name) with
      | going ended success =>
          obtain rfl : result = .ok () := ended
          exact Replayed.append success (laterHypothesis (goes .done))
      | @failed error front statement current ended split before failure =>
          obtain rfl : result = .error error := Script.done.inj ended
          rw [Except.map, stops] at later
          obtain ⟨rfl, rfl, rfl⟩ := later.eq_of_done
          exact .failed rfl (by rw [List.append_nil, split]) before failure

namespace Expansion

variable {script : Script} {writer : Writer} {statements : List Statement} {outcome : Outcome Unit}

/-- Issuing the statements of a replay in order has its outcome, and a failure is that of the last
statement. -/
theorem runAll_eq (expansion : Expansion archives script writer statements outcome)
    (replaying : archives.Each Script.Replays) (replays : script.Replays) :
    runAll archives statements writer = outcome ∧
      FailsAtEnd archives statements writer outcome := by
  obtain ⟨result, last⟩ := outcome
  cases Reaches.replayed replaying expansion replays with
  | going ended success =>
      obtain rfl : result = .ok () := ended
      refine ⟨success, fun error failure => ?_⟩
      cases failure
  | @failed error front statement current ended split before failure =>
      obtain rfl : result = .error error := Script.done.inj ended
      constructor
      · rw [split, runAll_append before, runAll, failure]
      · intro cause same
        cases same
        exact ⟨front, statement, current, split, before, failure⟩

end Expansion

end Writer

end RibStream
