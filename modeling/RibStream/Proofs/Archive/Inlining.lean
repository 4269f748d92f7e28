/-
This file proves that reading an archive is the same as issuing its expansion in its place.
As long as no archive is opened inside itself, no more archives are open than there are files.
-/

import Mathlib.Data.List.FinRange
import Mathlib.Data.List.Nodup
import Mathlib.Data.List.Perm.Subperm
import RibStream.Proofs.Archive.Statement

namespace RibStream

/-- An archive that is replayed, with the writer as it was when the archive was opened. -/
structure OpenArchive (archives : Archives) where
  name : String
  file : Fin archives.files.count
  content : archives.Content
  writer : Writer

def OpenArchive.script {archives : Archives} (archive : OpenArchive archives) : Script :=
  archives.parse archive.name archive.content

namespace Writer

open Relation (ReflTransGen TransGen)

variable {archives : Archives}

/-- While one archive is replayed, it comes to a request that opens the other. -/
def Opens (archives : Archives) (outer inner : OpenArchive archives) : Prop :=
  ∃ parameters next statements,
    Reaches archives outer.script outer.writer statements
        (.issue (.request (.readArchive inner.name parameters)) next) inner.writer ∧
      Inlines archives inner.writer inner.name parameters inner.file inner.content

/-- Whatever is opened from the given archive on, no file is opened while it is open already, directly
or through others. -/
def Acyclic (archives : Archives) (start : OpenArchive archives) : Prop :=
  ∀ outer inner, ReflTransGen (Opens archives) start outer → TransGen (Opens archives) outer inner →
    outer.file ≠ inner.file

/-- The files that are open when the innermost one is that of `opened`. -/
structure Nesting (archives : Archives) (start opened : OpenArchive archives)
    (visited : List (Fin archives.files.count)) : Prop where
  reached : ReflTransGen (Opens archives) start opened
  distinct : visited.Nodup
  outer : ∀ file ∈ visited, ∃ outer : OpenArchive archives, outer.file = file ∧
    ReflTransGen (Opens archives) start outer ∧ ReflTransGen (Opens archives) outer opened

namespace Nesting

variable {start opened inner : OpenArchive archives} {visited : List (Fin archives.files.count)}

theorem single (start : OpenArchive archives) : Nesting archives start start [start.file] where
  reached := .refl
  distinct := List.nodup_singleton _
  outer _ member := ⟨start, (List.mem_singleton.mp member).symm, .refl, .refl⟩

/-- A file that is opened is not open yet. -/
theorem opens (nesting : Nesting archives start opened visited) (acyclic : Acyclic archives start)
    (opening : Opens archives opened inner) :
    Nesting archives start inner (inner.file :: visited) where
  reached := nesting.reached.tail opening
  distinct := by
    refine List.nodup_cons.mpr ⟨?_, nesting.distinct⟩
    intro member
    obtain ⟨outer, same, reached, inside⟩ := nesting.outer inner.file member
    exact acyclic outer inner reached (.tail' inside opening) same
  outer file member := by
    rcases List.mem_cons.mp member with rfl | earlier
    · exact ⟨inner, rfl, nesting.reached.tail opening, .refl⟩
    · obtain ⟨outer, same, reached, inside⟩ := nesting.outer file earlier
      exact ⟨outer, same, reached, inside.tail opening⟩

/-- No more files are open than there are. -/
theorem length_le (nesting : Nesting archives start opened visited) :
    visited.length ≤ archives.files.count := by
  have counted := (List.subperm_of_subset nesting.distinct
    (fun file _ => List.mem_finRange file)).length_le
  rwa [List.length_finRange] at counted

end Nesting

/-- A script can be expanded, and running it has the outcome of the expansion. -/
def Expands (archives : Archives) (script : Script) (writer : Writer) (run : Outcome Unit) : Prop :=
  ∃ statements outcome, Expansion archives script writer statements outcome ∧
    Outcome.Alike run outcome ∧ outcome.2.hasParser = true

/-- A statement that is not inlined has the same outcome in an archive and in a session. -/
theorem run_alike (replay : Script → Writer → Outcome Unit) {running current : Writer}
    (same : running.untraced = current.untraced) (parsed : current.hasParser = true)
    {statement : Statement} (kept : ¬ IsInlined archives current statement) :
    Outcome.Alike (runStatement archives replay statement running)
        (run archives statement current) ∧
      (run archives statement current).2.hasParser = true := by
  have runningKept : ¬ IsInlined archives running statement := by
    rintro ⟨name, parameters, file, content, reads, inlines⟩
    exact kept ⟨name, parameters, file, content, reads, inlines.of_untraced_eq same⟩
  have runningParsed : running.hasParser = true :=
    (eq_of_untraced_eq Writer.hasParser (fun _ => rfl) same).trans parsed
  have issued : Outcome.Alike (run archives statement current) (current.literal statement) :=
    runStatement_kept _ parsed kept
  constructor
  · have ran := runStatement_kept replay runningParsed runningKept
    exact (ran.trans (literal_alike statement same)).trans issued.symm
  · rw [eq_of_untraced_eq Writer.hasParser (fun _ => rfl) issued.2, hasParser_literal, parsed]

section Step

variable {replay : Script → Writer → Outcome Unit} {script : Except Error Reply → Script}
  {running current : Writer}

/-- A nested archive is expanded first. What follows it is expanded from where it ends. -/
theorem expands_inlined {name : String} {parameters : List ParamSource}
    {file : Fin archives.files.count} {content : archives.Content}
    (same : running.untraced = current.untraced)
    (inlines : Inlines archives current name parameters file content)
    (nested : ∀ opening : Writer, opening.untraced = current.untraced →
      Expands archives (archives.parse name content) current
        (replay (archives.parse name content) opening))
    (later : ∀ answer inside next following,
      Reaches archives (.issue (.request (.readArchive name parameters)) script) current inside
        (script answer) next → next.hasParser = true → following.untraced = next.untraced →
      Expands archives (script answer) next
        (runScript (runStatement archives replay) (script answer) following)) :
    Expands archives (.issue (.request (.readArchive name parameters)) script) current
      (runScript (runStatement archives replay)
        (.issue (.request (.readArchive name parameters)) script) running) := by
  obtain ⟨opening, untraced, replayed⟩ :=
    runStatement_inlined replay (inlines.of_untraced_eq same.symm)
  obtain ⟨inside, ⟨result, next⟩, inner, ran, innerParsed⟩ := nested opening (untraced.trans same)
  have answered : (runStatement archives replay (.request (.readArchive name parameters))
      running).1 = result.map fun () => .done := by
    rw [replayed.1]
    exact congrArg (Except.map fun () => Reply.done) ran.1
  have followed := replayed.2.trans ran.2
  have one := Reaches.inlined inlines inner (.here (script (result.map fun () => .done)) next)
  obtain ⟨more, outcome, expansion, alike, lastParsed⟩ :=
    later _ _ next _ one innerParsed followed
  rw [runScript]
  dsimp only
  rw [answered]
  exact ⟨_, outcome, one.append expansion, alike, lastParsed⟩

/-- Any other statement stands for itself, and what follows it depends on the answer. -/
theorem expands_issued {statement : Statement} (same : running.untraced = current.untraced)
    (parsed : current.hasParser = true) (kept : ¬ IsInlined archives current statement)
    (later : ∀ answer inside next following,
      Reaches archives (.issue statement script) current inside (script answer) next →
      next.hasParser = true → following.untraced = next.untraced →
      Expands archives (script answer) next
        (runScript (runStatement archives replay) (script answer) following)) :
    Expands archives (.issue statement script) current
      (runScript (runStatement archives replay) (.issue statement script) running) := by
  obtain ⟨ran, stillParsed⟩ := run_alike replay same parsed kept
  have one := Reaches.issued kept rfl (.here (script (run archives statement current).1)
    (run archives statement current).2)
  obtain ⟨more, outcome, expansion, alike, lastParsed⟩ := later _ _ _ _ one stillParsed ran.2
  rw [runScript]
  dsimp only
  rw [ran.1]
  exact ⟨_, outcome, one.append expansion, alike, lastParsed⟩

end Step

/-- The rest of an archive can be expanded as soon as all archives that it opens can be. The
induction is on the rest of its script. -/
theorem expands_rest {opened : OpenArchive archives} {replay : Script → Writer → Outcome Unit}
    (nested : ∀ inner, Opens archives opened inner → inner.writer.hasParser = true →
      ∀ running : Writer, running.untraced = inner.writer.untraced →
        Expands archives inner.script inner.writer (replay inner.script running))
    (rest : Script) {running current : Writer} {statements : List Statement}
    (before : Reaches archives opened.script opened.writer statements rest current)
    (parsed : current.hasParser = true) (same : running.untraced = current.untraced) :
    Expands archives rest current (runScript (runStatement archives replay) rest running) := by
  induction rest generalizing running current statements with
  | done result => exact ⟨[], (result, current), .here _ _, ⟨rfl, same⟩, parsed⟩
  | issue statement script inductionHypothesis =>
      have later (answer : Except Error Reply) (inside : List Statement) (next following : Writer)
          (one : Reaches archives (.issue statement script) current inside (script answer) next)
          (nextParsed : next.hasParser = true) (followed : following.untraced = next.untraced) :
          Expands archives (script answer) next
            (runScript (runStatement archives replay) (script answer) following) :=
        inductionHypothesis answer (before.append one) nextParsed followed
      by_cases inline : IsInlined archives current statement
      · obtain ⟨name, parameters, file, content, rfl, inlines⟩ := inline
        refine expands_inlined same inlines (fun opening untraced => ?_) later
        exact nested ⟨name, file, content, current⟩ ⟨parameters, script, statements, before, inlines⟩
          parsed opening untraced
      · exact expands_issued same parsed inline later

/-- Nested deep enough, an archive that is opened can be expanded. -/
theorem expands_replay {start : OpenArchive archives} (acyclic : Acyclic archives start) (depth : Nat)
    {opened : OpenArchive archives} {visited : List (Fin archives.files.count)} {running : Writer}
    (nesting : Nesting archives start opened visited)
    (enough : archives.files.count < depth + visited.length)
    (parsed : opened.writer.hasParser = true)
    (same : running.untraced = opened.writer.untraced) :
    Expands archives opened.script opened.writer (replay archives depth opened.script running) := by
  induction depth generalizing opened visited running with
  | zero =>
      have bounded := nesting.length_le
      omega
  | succ depth inductionHypothesis =>
      rw [replay]
      refine expands_rest (fun inner opening innerParsed innerRunning innerSame => ?_)
        opened.script (.here opened.script opened.writer) parsed same
      refine inductionHypothesis (nesting.opens acyclic opening) ?_ innerParsed innerSame
      rw [List.length_cons]
      omega

/-- Reading an archive that resolves leads where its expansion leads, whatever its parser makes of the
answers. -/
theorem exists_expansion {writer : Writer} {name : String} {parameters : List ParamSource}
    {file : Fin archives.files.count} {content : archives.Content}
    (inlines : Inlines archives writer name parameters file content)
    (acyclic : Acyclic archives ⟨name, file, content, writer⟩) :
    ∃ statements result final,
      Expansion archives (archives.parse name content) writer statements (result, final) ∧
        (run archives (.request (.readArchive name parameters)) writer).1 =
          result.map (fun () => .done) ∧
        (run archives (.request (.readArchive name parameters)) writer).2.untraced =
          final.untraced := by
  obtain ⟨opening, untraced, replayed⟩ :=
    runStatement_inlined (replay archives (nestingLimit archives)) inlines
  have enough : archives.files.count < nestingLimit archives + [file].length := by
    rw [nestingLimit, List.length_singleton]
    omega
  obtain ⟨statements, ⟨result, final⟩, expansion, ran, -⟩ :=
    expands_replay acyclic (nestingLimit archives) (.single _) enough inlines.parsed untraced
  refine ⟨statements, result, final, expansion, ?_, ?_⟩
  · rw [run, replayed.1]
    exact congrArg (Except.map fun () => Reply.done) ran.1
  · rw [run, replayed.2]
    exact ran.2

/-- With a parser that replays, reading an archive that resolves issues the statements of its expansion
in order, none of which is an archive that resolves. It has their result and leaves the writer as they
do, apart from the trace. It fails exactly as the last of them fails. -/
theorem readArchive_expands (replaying : archives.Each Script.Replays) (writer : Writer)
    (name : String) (parameters : List ParamSource) (file : Fin archives.files.count)
    (content : archives.Content) (inlines : Inlines archives writer name parameters file content)
    (acyclic : Acyclic archives ⟨name, file, content, writer⟩) :
    ∃ statements result final,
      Expansion archives (archives.parse name content) writer statements (result, final) ∧
        NoneInlined archives statements writer ∧
        runAll archives statements writer = (result, final) ∧
        FailsAtEnd archives statements writer (result, final) ∧
        (run archives (.request (.readArchive name parameters)) writer).1 =
          result.map (fun () => .done) ∧
        (run archives (.request (.readArchive name parameters)) writer).2.untraced =
          final.untraced := by
  obtain ⟨statements, result, final, expansion, replies, same⟩ := exists_expansion inlines acyclic
  obtain ⟨issued, fails⟩ :=
    expansion.runAll_eq replaying (replaying file content inlines.reads name)
  exact ⟨statements, result, final, expansion, Reaches.noneInlined expansion, issued, fails, replies,
    same⟩

/-- A lamp that is switched off by the handle with which its request was answered. The block after it
cannot be read to its end. -/
def lampScript : Script :=
  .issue (.request (.lightSource "pointlight" [])) fun
    | .ok (.handle number) =>
        .issue (.request (.plain (.appearance (.illuminate number false)))) fun
          | .ok _ => .replaying [.request (.opening .attributes), .unreadable (.other "teapot"),
              .request (.closing .attributes)]
          | .error error => .done (.error error)
    | .ok _ => .done (.ok ())
    | .error error => .done (.error error)

/-- An archive that reads another one. -/
def branchScript : Script :=
  .replaying [.request (.readArchive "lamp.rib" []), .request (.plain .otherwise)]

/-- Two archives in a directory that is not the working directory. -/
def twoArchives : Archives where
  Content := Script
  files := FileTree.files
    { workingDirectory := ["home"]
      directories := []
      links := []
      entries := [(["ribs", "branch.rib"], branchScript), (["ribs", "lamp.rib"], lampScript)] }
  parse _ script := script

/-- A new writer that reads archives. -/
def newReader : Writer :=
  .ascii {} ⟨true, false, false, true⟩

/-- The writer once it looks for archives in their directory. -/
def archiveReader : Writer :=
  { newReader with searchPath := .parse "/ribs" }

def searchRibs : Statement :=
  .request (.option "searchpath" [.typed (.uniformString "archive" "/ribs")])

theorem each_twoArchives {property : Script → Prop} (branch : property branchScript)
    (lamp : property lampScript) : twoArchives.Each property := by
  intro file content read name
  obtain rfl := Except.ok.inj read
  obtain ⟨index, inside⟩ := file
  match index, inside with
  | 0, _ => exact branch
  | 1, _ => exact lamp

theorem inlines_branch :
    Inlines twoArchives archiveReader "branch.rib" [] ⟨0, by decide⟩ branchScript :=
  ⟨rfl, rfl, ⟨[], rfl⟩, ⟨"/ribs/branch.rib", by decide⟩, rfl⟩

theorem inlines_lamp : Inlines twoArchives archiveReader "lamp.rib" [] ⟨1, by decide⟩ lampScript :=
  ⟨rfl, rfl, ⟨[], rfl⟩, ⟨"/ribs/lamp.rib", by decide⟩, rfl⟩

theorem replays_lampScript : lampScript.Replays := by
  refine ⟨fun _ => rfl, fun reply => ?_⟩
  cases reply with
  | handle number => exact ⟨fun _ => rfl, fun _ => Script.replays_replaying _⟩
  | _ => rfl

/-- The lamp comes to these statements, with whatever handle. -/
theorem all_lampScript {property : Statement → Prop}
    (light : property (.request (.lightSource "pointlight" [])))
    (switch : ∀ number, property (.request (.plain (.appearance (.illuminate number false)))))
    (rest : ∀ statement ∈ [Statement.request (.opening .attributes), .unreadable (.other "teapot"),
      .request (.closing .attributes)], property statement) : lampScript.All property := by
  refine ⟨light, fun answer => ?_⟩
  rcases answer with error | reply
  · trivial
  · cases reply with
    | handle number =>
        refine ⟨switch number, fun answer => ?_⟩
        rcases answer with error | reply
        · trivial
        · exact Script.all_replaying rest
    | _ => trivial

/-- The two archives do not touch the sink. -/
theorem grants_twoArchives (allowed : Option Nat → Prop) :
    twoArchives.All (Statement.Grants allowed) :=
  each_twoArchives (Script.all_replaying (by simp [Statement.Grants]))
    (all_lampScript trivial (fun _ => trivial) (by simp [Statement.Grants]))

/-- No archive is read. -/
def Statement.ReadsNothing (statement : Statement) : Prop :=
  ∀ name parameters, statement ≠ .request (.readArchive name parameters)

theorem readsNothing_lampScript : lampScript.All Statement.ReadsNothing :=
  all_lampScript (by simp [Statement.ReadsNothing]) (by simp [Statement.ReadsNothing])
    (by simp [Statement.ReadsNothing])

def openBranch : OpenArchive twoArchives :=
  ⟨"branch.rib", ⟨0, by decide⟩, branchScript, archiveReader⟩

/-- An archive that reads nothing opens nothing. -/
theorem not_opens_of_all {outer inner : OpenArchive archives}
    (silent : outer.script.All Statement.ReadsNothing) : ¬ Opens archives outer inner := by
  rintro ⟨parameters, next, statements, reaches, -⟩
  exact (reaches.all silent).1 _ _ rfl

theorem opens_branch {inner : OpenArchive twoArchives}
    (opening : Opens twoArchives openBranch inner) :
    inner.file = ⟨1, by decide⟩ ∧ inner.script = lampScript := by
  obtain ⟨name, file, content, writer⟩ := inner
  obtain ⟨parameters, next, statements, reaches, inlines⟩ := opening
  have start : openBranch.script = .issue (.request (.readArchive "lamp.rib" [])) fun
      | .ok _ => .replaying [.request (.plain .otherwise)]
      | .error error => .done (.error error) := rfl
  rw [start] at reaches
  cases reaches with
  | here =>
      obtain ⟨path, located⟩ := inlines.found
      obtain ⟨other, known⟩ := inlines_lamp.found
      cases located.symm.trans known
      cases inlines.reads.symm.trans inlines_lamp.reads
      exact ⟨rfl, rfl⟩
  | issued kept answered later => exact absurd ⟨_, _, _, _, rfl, inlines_lamp⟩ kept
  | @inlined _ _ _ _ _ _ _ _ _ result inside statements inlines inner later =>
      have rest : Script.All Statement.ReadsNothing
          (match result.map (fun () => Reply.done) with
            | .ok _ => .replaying [.request (.plain .otherwise)]
            | .error error => .done (.error error)) := by
        cases result with
        | error error => trivial
        | ok success => exact Script.all_replaying (by simp [Statement.ReadsNothing])
      exact absurd rfl ((later.all rest).1 name parameters)

theorem acyclic_branch : Acyclic twoArchives openBranch := by
  intro outer inner reached inside
  have within : outer = openBranch ∨ outer.script = lampScript := by
    induction reached with
    | refl => exact .inl rfl
    | tail earlier opening inductionHypothesis =>
        rcases inductionHypothesis (.head opening inside) with rfl | lamp
        · exact .inr (opens_branch opening).2
        · exact absurd opening (not_opens_of_all (lamp ▸ readsNothing_lampScript))
  obtain ⟨middle, opening, deeper⟩ := Relation.TransGen.head'_iff.mp inside
  rcases within with rfl | lamp
  · obtain ⟨place, script⟩ := opens_branch opening
    rcases Relation.ReflTransGen.cases_head deeper with rfl | ⟨next, opens, -⟩
    · rw [place]
      decide
    · exact absurd opens (not_opens_of_all (script ▸ readsNothing_lampScript))
  · exact absurd opening (not_opens_of_all (lamp ▸ readsNothing_lampScript))

/-- The failure of the inner archive ends the outer one too, with the block left open and one light
made. -/
theorem readArchive_expands_branch :
    twoArchives.Each Script.Replays ∧
      Inlines twoArchives archiveReader "branch.rib" [] ⟨0, by decide⟩ branchScript ∧
      Acyclic twoArchives openBranch ∧
      ∃ statements result final,
        Expansion twoArchives branchScript archiveReader statements (result, final) ∧
          runAll twoArchives statements archiveReader = (result, final) ∧
          (run twoArchives (.request (.readArchive "branch.rib" [])) archiveReader).2.untraced =
            final.untraced ∧
          result = .error (.other "teapot") ∧ final.lights = ⟨1⟩ ∧
          final.stream.encoding.indent = Ascii.indentStep := by
  have replaying : twoArchives.Each Script.Replays :=
    each_twoArchives (Script.replays_replaying _) replays_lampScript
  refine ⟨replaying, inlines_branch, acyclic_branch, ?_⟩
  obtain ⟨statements, result, final, expansion, -, issued, -, replies, same⟩ :=
    readArchive_expands replaying archiveReader "branch.rib" [] _ branchScript inlines_branch
      acyclic_branch
  have fails : (run twoArchives (.request (.readArchive "branch.rib" [])) archiveReader).1 =
      .error (.other "teapot") := by decide
  have lights : (run twoArchives (.request (.readArchive "branch.rib" []))
      archiveReader).2.lights = ⟨1⟩ := by decide
  have indented : (run twoArchives (.request (.readArchive "branch.rib" []))
      archiveReader).2.stream.encoding.indent = Ascii.indentStep := by decide
  refine ⟨statements, result, final, expansion, issued, same, ?_, ?_, ?_⟩
  · rw [fails] at replies
    cases result with
    | error error => exact congrArg Except.error (Except.error.inj replies).symm
    | ok success => cases replies
  · rw [← lights]
    exact (eq_of_untraced_eq Writer.lights (fun _ => rfl) same).symm
  · rw [← indented]
    exact (eq_of_untraced_eq (·.stream.encoding.indent) (fun _ => rfl) same).symm

end Writer

end RibStream
