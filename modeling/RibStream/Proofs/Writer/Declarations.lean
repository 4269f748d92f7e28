/-
This file proves that a name has the type of its last readable declaration, wherever that stands.
A declaration is in force even if the sink refuses its request, and it is in force for its own name
only.
-/

import RibStream.Proofs.Text.Word
import RibStream.Proofs.Writer.RequestCodes

namespace RibStream

/-- The type that a request gives to a name. An unreadable declaration gives none. -/
def Request.declares? (name : String) : Request → Option TypeSpec
  | .declare declared text => if declared = name then TypeSpec.ofString? text else none
  | _ => none

namespace Issue

/-- The type that the last of the requests to do so gives to a name. -/
def lastDeclared? (name : String) (issues : List Issue) : Option TypeSpec :=
  issues.reverse.findSome? (·.request.declares? name)

/-- What a bare name stands for after the requests: for the type that was declared last, and without
one for the standard type. -/
def declaration (issues : List Issue) (name : String) : Except Error Declaration :=
  match (lastDeclared? name issues).or (Dictionary.standardEntries.lookup name) with
  | some spec => .ok ⟨spec, name⟩
  | none => .error (.undeclaredToken name)

theorem lastDeclared?_cons (name : String) (issue : Issue) (issues : List Issue) :
    lastDeclared? name (issue :: issues) =
      (lastDeclared? name issues).or (issue.request.declares? name) := by
  simp [lastDeclared?, List.findSome?_append]

end Issue

namespace Dictionary

/-- A token is resolved by its own type or by the type of the name that it consists of. -/
theorem resolve_congr {first second : Dictionary} (token : String)
    (same : first.lookup (String.ofList (Text.trim token.toList)) =
      second.lookup (String.ofList (Text.trim token.toList))) :
    first.resolve token = second.resolve token := by
  simp only [resolve, same]

/-- A word carries no type of its own. -/
theorem resolve_word (dictionary : Dictionary) {token : String}
    (unbroken : Text.Unbroken token.toList) :
    dictionary.resolve token =
      match dictionary.lookup token with
      | some spec => .ok ⟨spec, token⟩
      | none => .error (.undeclaredToken token) := by
  have bare : Declaration.ofString? token = none := by
    rw [Declaration.ofString?, unbroken.trim_eq, unbroken.lastWord_eq]
    rfl
  cases entry : dictionary.lookup token with
  | none | some spec => simp only [resolve, bare, unbroken.trim_eq, String.ofList_toList, entry]

theorem lookup_declare {dictionary : Dictionary} {name text : String} {spec : TypeSpec}
    {next : Dictionary} (declared : dictionary.declare name text = .ok (spec, next))
    (other : String) :
    next.lookup other =
      ((Request.declare name text).declares? other).or (dictionary.lookup other) := by
  rw [declare] at declared
  cases read : TypeSpec.ofString? text with
  | none =>
      rw [read] at declared
      cases declared
  | some type =>
      rw [read] at declared
      cases declared
      rw [lookup_insert, Request.declares?, read]
      by_cases same : other = name
      · rw [if_pos same, if_pos same.symm, Option.some_or]
      · rw [if_neg same, if_neg (Ne.symm same), Option.none_or]

end Dictionary

namespace Writer

/-- The check of a request declares what the request says, before anything is written. -/
theorem lookup_plan (request : Request) (writer : Writer) (name : String) :
    (writer.plan request).2.dictionary.lookup name =
      (request.declares? name).or (writer.dictionary.lookup name) := by
  have checked := checked_plan request writer
  generalize writer.plan request = outcome at checked ⊢
  obtain ⟨error | plan, after⟩ := outcome
  · cases checked with
    | @declare declared text _ failed =>
        have unreadable : TypeSpec.ofString? text = none := by
          rw [Dictionary.declare] at failed
          cases read : TypeSpec.ofString? text with
          | none => rfl
          | some type =>
              rw [read] at failed
              cases failed
        simp [Request.declares?, unreadable]
    | @procedural strings bound refine release => cases release <;> rfl
    | _ => rfl
  · cases checked with
    | declare declared => exact Dictionary.lookup_declare declared name
    | closing =>
        rw [leave]
        split <;> rfl
    | @procedural strings bound refine release => cases release <;> rfl
    | _ => rfl

/-- No request changes the type of a name but a readable declaration of it, and that one does so even
if the sink refuses it. -/
theorem lookup_perform (request : Request) (writer : Writer) (name : String) :
    (writer.perform request).2.dictionary.lookup name =
      (request.declares? name).or (writer.dictionary.lookup name) := by
  rw [perform_frame Writer.dictionary (fun _ _ _ _ => rfl), lookup_plan]

/-- The last declaration along a path hides all earlier ones. -/
theorem Path.lookup {property : Statement → Prop} {first last : Writer} {issues : List Issue}
    (path : Path property first issues last) (name : String) :
    last.dictionary.lookup name =
      (Issue.lastDeclared? name issues).or (first.dictionary.lookup name) := by
  induction path with
  | done writer => rfl
  | quiet quiet later inductionHypothesis =>
      rw [inductionHypothesis, quiet.dictionary_eq]
  | granted has later inductionHypothesis => exact inductionHypothesis
  | carriedOut has later inductionHypothesis =>
      rw [inductionHypothesis, lookup_perform, Issue.lastDeclared?_cons, Option.or_assoc]

theorem Made.dictionary {writer : Writer} (made : Made writer) : writer.dictionary = .standard := by
  obtain ⟨stream, options, trace, rfl⟩ := made.exists_ofStream
  rfl

/-- A word is resolved by the requests that have been carried out since the writer was new. -/
theorem Path.resolve_word {property : Statement → Prop} {first last : Writer} {issues : List Issue}
    (path : Path property first issues last) (made : Made first) {token : String}
    (unbroken : Text.Unbroken token.toList) :
    last.dictionary.resolve token = Issue.declaration issues token := by
  rw [Dictionary.resolve_word _ unbroken, path.lookup, made.dictionary, Issue.declaration]
  rfl

/-- A declaration that cannot be read is refused and changes nothing. -/
theorem perform_unreadable {name text : String} (unreadable : TypeSpec.ofString? text = none)
    (writer : Writer) :
    writer.perform (.declare name text) = (.error (.unreadableDeclaration text name), writer) := by
  rw [perform, plan, Dictionary.declare, unreadable]
  rfl

theorem declares?_eq_none {request : Request} {name : String}
    (other : ∀ text, request ≠ .declare name text) : request.declares? name = none := by
  cases request with
  | declare declared text =>
      rw [Request.declares?, if_neg]
      rintro rfl
      exact other text rfl
  | _ => rfl

/-- After a session that starts with a new writer, a word stands for the type of its last readable
declaration, be it refused by the sink or inside of an archive, and without one for its standard type.
The same holds before every request of the session. A declaration that cannot be read changes nothing,
and no token is resolved differently after a request unless the request declares the very name that
the token consists of. -/
theorem declaration_session (archives : Archives) {start : Writer} (made : Made start)
    (statements : List Statement) :
    Path (fun _ => True) start (start.issues archives statements)
      (start.session archives statements) ∧
    (∀ front name text back, statements = front ++ .request (.declare name text) :: back →
      start.issues archives statements =
        start.issues archives front ++ ⟨.declare name text, start.session archives front⟩ ::
          (Issue.outcome ⟨.declare name text, start.session archives front⟩).2.issues archives
            back ∧
      (start.session archives front).run archives (.request (.declare name text)) =
        Issue.outcome ⟨.declare name text, start.session archives front⟩) ∧
    (∀ token, Text.Unbroken token.toList →
      (start.session archives statements).run archives (.service (.declaration token)) =
        ((Issue.declaration (start.issues archives statements) token).map .declaration,
          start.session archives statements)) ∧
    ∀ front issue back, start.issues archives statements = front ++ issue :: back →
      (∀ token, Text.Unbroken token.toList →
        issue.writer.dictionary.resolve token = Issue.declaration front token) ∧
      (∀ name text, issue.request = .declare name text → TypeSpec.ofString? text = none →
        issue.outcome = (.error (.unreadableDeclaration text name), issue.writer)) ∧
      ∀ token, (∀ text, issue.request ≠ .declare (String.ofList (Text.trim token.toList)) text) →
        issue.outcome.2.dictionary.resolve token = issue.writer.dictionary.resolve token := by
  have path := path_of_session archives statements start
  refine ⟨path, ?_, ?_, ?_⟩
  · rintro front name text back rfl
    exact issues_request archives (fun _ _ => by simp) front back start
  · intro token unbroken
    show (((start.session archives statements).dictionary.resolve token).map Reply.declaration, _) = _
    rw [path.resolve_word made unbroken]
  · intro front issue back split
    refine ⟨fun token unbroken => (path.cut split).1.resolve_word made unbroken, ?_, ?_⟩
    · intro name text declares unreadable
      rw [Issue.outcome, declares, perform_unreadable unreadable]
    · intro token other
      apply Dictionary.resolve_congr
      rw [Issue.outcome, lookup_perform, declares?_eq_none other, Option.none_or]

/-- An archive that declares a standard name anew and stops at a declaration that cannot be read. -/
def types : Archives :=
  .replaying (FileTree.ofPaths ["home"] [("types.rib",
    [.request (.declare "P" "constant string [2]"), .request (.declare "glow" "quaternion"),
      .request (.declare "Cs" "int")])]).files

/-- A declaration that the sink refuses, one that cannot be read, and the archive. -/
def typed : List Statement :=
  [.request (.declare "glow" "varying float"), .room none, .request (.declare "glow" "uniform"),
    .request (.readArchive "types.rib" [])]

/-- A writer that reads archives, on a sink without room for a declaration. -/
def narrow : Writer :=
  .ascii { room := some 5 } ⟨true, false, false, true⟩

/-- The refused declaration is in force, those that cannot be read are not, and neither is the one
that the archive did not come to. -/
theorem declaration_session_types :
    Made narrow ∧
      (narrow.exchanges types typed).map Exchange.result =
        [.error .sinkFull, .ok .done, .error (.unreadableDeclaration "uniform" "glow"),
          .error (.unreadableDeclaration "quaternion" "glow")] ∧
      ((narrow.session types typed).run types (.service (.declaration "glow"))).1 =
        .ok (.declaration ⟨⟨.varying, .float, 1⟩, "glow"⟩) ∧
      ((narrow.session types typed).run types (.service (.declaration "P"))).1 =
        .ok (.declaration ⟨⟨.constant, .string, 2⟩, "P"⟩) ∧
      ((narrow.session types typed).run types (.service (.declaration "Cs"))).1 =
        .ok (.declaration ⟨⟨.varying, .color, 1⟩, "Cs"⟩) ∧
      ((narrow.session types typed).run types (.service (.declaration "tint"))).1 =
        .error (.undeclaredToken "tint") := by
  have made : Made narrow := .ofStream { room := some 5 } ⟨true, false, false, true⟩ (.inl rfl)
  have resolves := (declaration_session types made typed).2.2.1
  refine ⟨made, rfl, ?_, ?_, ?_, ?_⟩
  · rw [resolves "glow" (by decide)]
    rfl
  · rw [resolves "P" (by decide)]
    rfl
  · rw [resolves "Cs" (by decide)]
    rfl
  · rw [resolves "tint" (by decide)]
    rfl

end Writer

end RibStream
