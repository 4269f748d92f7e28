/-
This file proves that the search path is the history of its options.
Every option that has been written adds the paths that it names, and nothing else changes the path.
-/

import RibStream.Proofs.Request.Resolved
import RibStream.Proofs.Writer.RequestCodes

namespace RibStream

/-- The paths that a request names if it is written: those of the option `searchpath`, in the order of
its parameters. -/
def Request.searchPaths (dictionary : Dictionary) : Request → List String
  | .option name parameters =>
      if name = "searchpath" then
        match ParamSource.resolveAll dictionary parameters with
        | .ok params => params.filterMap Writer.archivePath?
        | .error _ => []
      else []
  | _ => []

/-- A request that fails names no paths. -/
def Issue.searchPaths (issue : Issue) : List String :=
  if issue.outcome.1.isOk then issue.request.searchPaths issue.writer.dictionary else []

namespace Writer

/-- A parameter names a path if it is a single uniform string called `archive` and has a string value.
The path is the first value, however many there are. -/
theorem archivePath?_eq_some_iff (param : Param) (path : String) :
    archivePath? param = some path ↔
      param.name = "archive" ∧ param.spec = ⟨.uniform, .string, 1⟩ ∧
        ∃ rest, param.values = .strings (path :: rest) := by
  have first : param.firstString? = some path ↔
      ∃ rest, param.values = .strings (path :: rest) := by
    rw [Param.firstString?]
    cases param.values with
    | strings values => cases values <;> simp
    | _ => simp
  rw [archivePath?, ← and_assoc, ← first]
  exact Option.ite_none_right_eq_some

/-- The last effect of a request adds the paths that the request names. -/
theorem plan_paths {request : Request} {writer : Writer} {plan : Plan}
    (success : (writer.plan request).1 = .ok plan) :
    plan.effect.paths = request.searchPaths writer.dictionary := by
  have planned := planned_of_plan success
  generalize (writer.plan request).2 = checked at planned
  cases planned with
  | @option name parameters params resolved =>
      rw [Request.searchPaths, resolved]
      show (optionPaths name params).paths = _
      rw [optionPaths]
      split <;> rfl
  | _ => rfl

theorem searchPath_plan (request : Request) (writer : Writer) :
    (writer.plan request).2.searchPath = writer.searchPath := by
  obtain ⟨change, checks⟩ := exists_checks request writer
  rw [checks.plan_eq]
  cases change with
  | leave =>
      show writer.leave.searchPath = writer.searchPath
      rw [leave]
      split <;> rfl
  | _ => rfl

/-- A request expands the search path by the paths that it names, once it has been written. -/
theorem searchPath_perform (issue : Issue) :
    issue.outcome.2.searchPath = issue.searchPaths.foldl SearchPath.expand issue.writer.searchPath := by
  have checked := searchPath_plan issue.request issue.writer
  have named (plan : Plan) := @plan_paths issue.request issue.writer plan
  rw [Issue.searchPaths, Issue.outcome, perform]
  generalize issue.writer.plan issue.request = outcome at checked named ⊢
  obtain ⟨result, next⟩ := outcome
  cases result with
  | error error => exact checked
  | ok plan =>
      have sent : (next.send plan.piece).2.searchPath = issue.writer.searchPath := by
        rw [send_eq]
        exact checked
      rw [complete]
      generalize next.send plan.piece = outcome at sent ⊢
      obtain ⟨result, after⟩ := outcome
      cases result with
      | error error => exact sent
      | ok success =>
          show (after.apply plan.effect).searchPath =
            (issue.request.searchPaths issue.writer.dictionary).foldl _ _
          rw [apply_eq, ← named plan rfl, ← sent]

/-- Along a path the search path is expanded by all paths that are named, in their order. -/
theorem Path.searchPath {property : Statement → Prop} {first last : Writer} {issues : List Issue}
    (path : Path property first issues last) :
    last.searchPath =
      (issues.flatMap Issue.searchPaths).foldl SearchPath.expand first.searchPath := by
  induction path with
  | done writer => rfl
  | quiet quiet later inductionHypothesis =>
      rw [inductionHypothesis, eq_of_untraced_eq Writer.searchPath (fun _ => rfl) quiet.untraced]
  | granted has later inductionHypothesis => exact inductionHypothesis
  | @carriedOut writer last request issues has later inductionHypothesis =>
      rw [inductionHypothesis, List.flatMap_cons, List.foldl_append,
        ← searchPath_perform ⟨request, writer⟩]
      rfl

theorem Made.searchPath {writer : Writer} (made : Made writer) : writer.searchPath = .empty := by
  obtain ⟨stream, options, trace, rfl⟩ := made.exists_ofStream
  rfl

/-- Only the option `searchpath` names paths, and only once it has been written. -/
theorem searchPaths_spec (issue : Issue) :
    (∀ parameters params reply, issue.request = .option "searchpath" parameters →
      ParamSource.resolveAll issue.writer.dictionary parameters = .ok params →
      issue.outcome.1 = .ok reply → issue.searchPaths = params.filterMap archivePath?) ∧
    ((∀ parameters, issue.request ≠ .option "searchpath" parameters) ∨
      (∃ error, issue.outcome.1 = .error error) → issue.searchPaths = []) := by
  constructor
  · intro parameters params reply option resolved success
    rw [Issue.searchPaths, success, option, Request.searchPaths, resolved]
    rfl
  · rintro (other | ⟨error, failure⟩)
    · have none : issue.request.searchPaths issue.writer.dictionary = [] := by
        cases request : issue.request with
        | option name parameters =>
            rw [Request.searchPaths, if_neg]
            rintro rfl
            exact other parameters request
        | _ => rfl
      rw [Issue.searchPaths, none, ite_self]
    · rw [Issue.searchPaths, failure]
      rfl

/-- After a session that starts with a new writer, the search path is what the options `searchpath` that
have been written make of the empty path, one parameter after the other, wherever they stand. The same
holds before every request of the session. A parameter counts if it is a single uniform string called
`archive` and has a string value. No other request changes the path, and no request that fails. -/
theorem searchPath_session (archives : Archives) {start : Writer} (made : Made start)
    (statements : List Statement) :
    Path (fun _ => True) start (start.issues archives statements)
      (start.session archives statements) ∧
    (∀ front name parameters back,
      statements = front ++ .request (.option name parameters) :: back →
      start.issues archives statements =
        start.issues archives front ++ ⟨.option name parameters, start.session archives front⟩ ::
          (Issue.outcome ⟨.option name parameters, start.session archives front⟩).2.issues archives
            back ∧
      (start.session archives front).run archives (.request (.option name parameters)) =
        Issue.outcome ⟨.option name parameters, start.session archives front⟩) ∧
    (start.session archives statements).searchPath =
      ((start.issues archives statements).flatMap Issue.searchPaths).foldl SearchPath.expand
        .empty ∧
    (∀ front issue back, start.issues archives statements = front ++ issue :: back →
      issue.writer.searchPath =
        (front.flatMap Issue.searchPaths).foldl SearchPath.expand .empty ∧
      issue.outcome.2.searchPath =
        issue.searchPaths.foldl SearchPath.expand issue.writer.searchPath ∧
      (∀ parameters params reply, issue.request = .option "searchpath" parameters →
        ParamSource.resolveAll issue.writer.dictionary parameters = .ok params →
        issue.outcome.1 = .ok reply → issue.searchPaths = params.filterMap archivePath?) ∧
      ((∀ parameters, issue.request ≠ .option "searchpath" parameters) ∨
        (∃ error, issue.outcome.1 = .error error) → issue.searchPaths = [])) ∧
    ∀ param path, archivePath? param = some path ↔
      param.name = "archive" ∧ param.spec = ⟨.uniform, .string, 1⟩ ∧
        ∃ rest, param.values = .strings (path :: rest) := by
  have path := path_of_session archives statements start
  refine ⟨path, ?_, ?_, ?_, archivePath?_eq_some_iff⟩
  · rintro front name parameters back rfl
    exact issues_request archives (fun _ _ => by simp) front back start
  · rw [path.searchPath, made.searchPath]
  · intro front issue back split
    have before := (path.cut split).1.searchPath
    rw [made.searchPath] at before
    exact ⟨before, searchPath_perform issue, searchPaths_spec issue⟩

/-- An archive in a directory of its own, which adds another directory. -/
def shelf : Archives :=
  .replaying (FileTree.ofPaths ["home"] [("lib/shelf.rib", [.request (.option "searchpath"
    [.token "archive" (.strings ["&:late"]),
      .token "uniform string texture" (.strings ["wood"])])])]).files

/-- An option that the sink refuses, one with all kinds of parameters, one with another name, and the
archive. -/
def directed : List Statement :=
  [.request (.option "searchpath" [.typed (.uniformString "archive" "lost")]), .room none,
    .request (.option "searchpath" [.typed (.uniformString "archive" "lib:&"),
      .typed (.uniformString "texture" "wood"), .token "uniform string[2] archive" (.strings ["two"]),
      .typed ⟨.uniform .string, "archive", .floats []⟩,
      .typed ⟨.uniform .string, "archive", .strings ["&;more", "second"]⟩]),
    .request (.option "limits" [.typed (.uniformString "archive" "other")]),
    .request (.readArchive "shelf.rib" [])]

/-- A writer that reads archives, on a sink without room for an option. -/
def cramped : Writer :=
  .binary { room := some 3 } ⟨true, true, false, true⟩

/-- Three of the values have been taken up, one after the other. -/
theorem searchPath_session_shelf :
    Made cramped ∧
      (cramped.exchanges shelf directed).map Exchange.result =
        [.error .sinkFull, .ok .done, .ok .done, .ok .done, .ok .done] ∧
      (cramped.issues shelf directed).flatMap Issue.searchPaths = ["lib:&", "&;more", "&:late"] ∧
      (cramped.session shelf directed).searchPath = ⟨["lib", "more", "late"]⟩ := by
  have made : Made cramped := .ofStream { room := some 3 } ⟨true, true, false, true⟩ (.inr rfl)
  have history := (searchPath_session shelf made directed).2.2.1
  refine ⟨made, rfl, rfl, ?_⟩
  rw [history]
  rfl

end Writer

end RibStream
