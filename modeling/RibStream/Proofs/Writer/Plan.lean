/-
This file says what every request does, in one form for all of them.
A request is checked and changes the writer, then it is sent, and its last effect waits for success.
-/

import RibStream.Writer.Archive

namespace RibStream

/-- What a request sends to the stream. -/
inductive Piece where
  | nothing
  | record (kind text : String)
  | line (line : RequestLine)
deriving DecidableEq

/-- The lines in a piece. A record is no request. -/
def Piece.lines : Piece → List RequestLine
  | .line request => [request]
  | _ => []

/-- What changes in the writer once a request has been sent. -/
inductive Effect where
  | none
  | enter
  | searchPath (paths : List String)
deriving DecidableEq

/-- A request that has been checked. -/
structure Plan where
  piece : Piece
  reply : Reply
  effect : Effect

namespace Writer

def apply (writer : Writer) : Effect → Writer
  | .none => writer
  | .enter => writer.enter
  | .searchPath paths => paths.foldl expandSearchPath writer

def send (writer : Writer) : Piece → Outcome Unit
  | .nothing => (.ok (), writer)
  | .record kind text => writer.record kind text
  | .line line => writer.emit line

/-- A line that is known as soon as the parameters of its request are. -/
def planParams (writer : Writer) (name : String) (tokens : List Token)
    (parameters : List ParamSource) (effect : List Param → Effect) : Except Error Plan :=
  (ParamSource.resolveAll writer.dictionary parameters).map fun params =>
    ⟨.line ⟨name, tokens ++ params.flatMap Token.param⟩, .done, effect params⟩

def planLight (writer : Writer) (request name : String) (parameters : List ParamSource) :
    Outcome Plan :=
  match ParamSource.resolveAll writer.dictionary parameters with
  | .ok params =>
      match writer.lights.issue with
      | .ok (handle, lights) =>
          (.ok ⟨.line ⟨request, .string name :: .handle handle :: params.flatMap Token.param⟩,
            .handle handle, .none⟩, { writer with lights })
      | .error error => (.error error, writer)
  | .error error => (.error error, writer)

/-- The paths that an option adds to the search path. -/
def optionPaths (name : String) (params : List Param) : Effect :=
  if name = "searchpath" then .searchPath (params.filterMap archivePath?) else .none

/-- The plan of a request, and the writer in which it is sent. An archive is not inlined here. -/
def plan (request : Request) (writer : Writer) : Outcome Plan :=
  match request with
  | .plain request =>
      ((request.layout.resolve writer.dictionary).map fun line => ⟨.line line, .done, .none⟩, writer)
  | .record kind text => (.ok ⟨.record kind text, .done, .none⟩, writer)
  | .report message => (.ok ⟨.nothing, .done, .none⟩, writer.log (.reported message))
  | .declare name declaration =>
      match writer.dictionary.declare name declaration with
      | .ok (_, dictionary) =>
          (.ok ⟨.line ⟨"Declare", [.string name, .string declaration]⟩, .done, .none⟩,
            { writer with dictionary })
      | .error error => (.error error, writer)
  | .option name parameters =>
      (writer.planParams "Option" [.string name] parameters (optionPaths name), writer)
  | .lightSource name parameters => writer.planLight "LightSource" name parameters
  | .areaLightSource name parameters => writer.planLight "AreaLightSource" name parameters
  | .opening block => (.ok ⟨.line block.line, .done, .enter⟩, writer)
  | .objectBegin =>
      match writer.objects.issue with
      | .ok (handle, objects) =>
          (.ok ⟨.line ⟨"ObjectBegin", [.handle handle]⟩, .handle handle, .enter⟩,
            { writer with objects })
      | .error error => (.error error, writer)
  | .closing block => (.ok ⟨.line block.line, .done, .none⟩, writer.leave)
  | .procedural strings bound refine release =>
      match refine.resolve .procedurals with
      | .ok handle =>
          ((proceduralLine strings bound handle).map fun line => ⟨.line line, .done, .none⟩,
            if release then writer.release strings else writer)
      | .error error => (.error error, writer)
  | .readArchive name parameters =>
      (writer.planParams "ReadArchive" [.string name] parameters fun _ => .none, writer)

/-- Sends what has been planned. -/
def complete (outcome : Outcome Plan) : Outcome Reply :=
  match outcome with
  | (.ok plan, writer) =>
      match writer.send plan.piece with
      | (.ok (), writer) => (.ok plan.reply, writer.apply plan.effect)
      | (.error error, writer) => (.error error, writer)
  | (.error error, writer) => (.error error, writer)

/-- A request as it is carried out when no archive is inlined. -/
def perform (request : Request) (writer : Writer) : Outcome Reply :=
  complete (writer.plan request)

/-- The release of strings does not touch the stream, so it can come before the sending. -/
theorem emit_release (writer : Writer) (strings : List String) (line : RequestLine) :
    (writer.release strings).emit line =
      ((writer.emit line).1, (writer.emit line).2.release strings) := by
  simp only [emit, release]

theorem complete_line (line : RequestLine) (writer : Writer) :
    complete (.ok ⟨.line line, .done, .none⟩, writer) = reply (writer.emit line) := by
  rw [complete, send]
  rcases writer.emit line with ⟨result | result, final⟩ <;> rfl

theorem complete_enter (line : RequestLine) (writer : Writer) :
    complete (.ok ⟨.line line, .done, .enter⟩, writer) = reply (writer.openBlock line) := by
  rw [complete, send, openBlock]
  rcases writer.emit line with ⟨result | result, final⟩ <;> rfl

/-- Both kinds of light source follow one plan. -/
theorem complete_planLight (writer : Writer) (request name : String)
    (parameters : List ParamSource) :
    complete (writer.planLight request name parameters) =
      replyHandle (writer.lightSource request name parameters) := by
  rw [planLight, lightSource]
  cases ParamSource.resolveAll writer.dictionary parameters with
  | error error => rfl
  | ok params =>
      cases writer.lights.issue with
      | error error => rfl
      | ok issued =>
          obtain ⟨handle, lights⟩ := issued
          simp only [complete, send, replyHandle]
          rcases emit _ _ with ⟨result | result, final⟩ <;> rfl

/-- Every request follows its plan. -/
theorem issue_eq_perform (readArchive : String → List Param → Writer → Outcome Unit)
    (request : Request) (writer : Writer)
    (literal : ∀ name params, readArchive name params writer = writer.emitArchive name params) :
    writer.issue readArchive request = writer.perform request := by
  cases request with
  | plain request =>
      rw [issue, perform, plan, write]
      cases request.layout.resolve writer.dictionary with
      | error error => rfl
      | ok line => exact (complete_line line writer).symm
  | record kind text =>
      rw [issue, perform, plan, complete, send]
      rcases writer.record kind text with ⟨result | result, final⟩ <;> rfl
  | report message => rfl
  | declare name declaration =>
      rw [issue, perform, plan, declare]
      cases writer.dictionary.declare name declaration with
      | error error => rfl
      | ok declared => exact (complete_line _ _).symm
  | option name parameters =>
      rw [issue, perform, plan, option, planParams]
      cases ParamSource.resolveAll writer.dictionary parameters with
      | error error => rfl
      | ok params =>
          simp only [Except.map, complete, send, optionPaths, List.singleton_append]
          rcases writer.emit _ with ⟨result | result, final⟩
          · rfl
          · by_cases path : name = "searchpath" <;> simp [reply, path, apply, Except.map]
  | lightSource name parameters => exact (complete_planLight writer _ name parameters).symm
  | areaLightSource name parameters => exact (complete_planLight writer _ name parameters).symm
  | opening block => exact (complete_enter block.line writer).symm
  | objectBegin =>
      rw [issue, perform, plan, objectBegin]
      cases writer.objects.issue with
      | error error => rfl
      | ok issued =>
          obtain ⟨handle, objects⟩ := issued
          simp only [complete, send, replyHandle, openBlock]
          rcases emit _ _ with ⟨result | result, final⟩ <;> rfl
  | closing block => exact (complete_line block.line writer.leave).symm
  | procedural strings bound refine release =>
      rw [issue, perform, plan, procedural]
      cases refine.resolve .procedurals with
      | error error => rfl
      | ok handle =>
          dsimp only
          cases proceduralLine strings bound handle with
          | error error => rfl
          | ok line =>
              refine Eq.trans ?_ (complete_line line _).symm
              cases release with
              | true => exact congrArg reply (emit_release writer strings line).symm
              | false => rfl
  | readArchive name parameters =>
      rw [issue, perform, plan, planParams]
      cases ParamSource.resolveAll writer.dictionary parameters with
      | error error => rfl
      | ok params =>
          simp only [literal]
          exact (complete_line _ writer).symm

/-- A request that reads no archive is carried out by its plan. -/
theorem issue_eq_perform_of_ne (readArchive : String → List Param → Writer → Outcome Unit)
    {request : Request} (other : ∀ name parameters, request ≠ .readArchive name parameters)
    (writer : Writer) : writer.issue readArchive request = writer.perform request := by
  rw [← issue_eq_perform (fun name params writer => writer.emitArchive name params) request writer
    fun _ _ => rfl]
  cases request with
  | readArchive name parameters => exact absurd rfl (other name parameters)
  | _ => rfl

theorem readArchive_or_ne (request : Request) :
    (∃ name parameters, request = .readArchive name parameters) ∨
      ∀ name parameters, request ≠ .readArchive name parameters := by
  by_cases reads : ∃ name parameters, request = .readArchive name parameters
  · exact .inl reads
  · exact .inr fun name parameters same => reads ⟨name, parameters, same⟩

theorem runStatement_of_ne {archives : Archives} {replay : Script → Writer → Outcome Unit}
    {request : Request} (other : ∀ name parameters, request ≠ .readArchive name parameters)
    (writer : Writer) :
    runStatement archives replay (.request request) writer = writer.perform request :=
  issue_eq_perform_of_ne _ other writer

/-- The request to read an archive is written by its plan. -/
theorem emitArchive_eq_perform {name : String} {parameters : List ParamSource} {params : List Param}
    {writer : Writer} (resolved : ParamSource.resolveAll writer.dictionary parameters = .ok params) :
    reply (writer.emitArchive name params) = writer.perform (.readArchive name parameters) := by
  rw [← issue_eq_perform (fun name params writer => writer.emitArchive name params)
    (.readArchive name parameters) writer fun _ _ => rfl, issue, resolved]

/-- A writer that does not inline writes every request by its plan. -/
theorem run_eq_perform (archives : Archives) (request : Request) (writer : Writer)
    (off : writer.interpolateArchives = false) :
    writer.run archives (.request request) = writer.perform request := by
  apply issue_eq_perform
  intro name params
  rw [readArchive, off]
  rfl

end Writer

end RibStream
