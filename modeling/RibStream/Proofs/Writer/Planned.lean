/-
This file lists what the check of a request comes to: a plan for each kind of request, or an error.
What holds of every plan follows by cases from the list.
-/

import RibStream.Proofs.Request.Resolved
import RibStream.Proofs.Writer.Plan

namespace RibStream

theorem HandleCounter.issue_cases (counter : HandleCounter) :
    (counter.issued < greatest ∧
        counter.issue = .ok (counter.issued + 1, ⟨counter.issued + 1⟩)) ∨
      (greatest ≤ counter.issued ∧ counter.issue = .error .handlesExhausted) := by
  rw [issue]
  split
  next room => exact .inl ⟨room, rfl⟩
  next full => exact .inr ⟨Nat.le_of_not_lt full, rfl⟩

namespace Writer

/-- The check of a request succeeds with this plan, and with the writer in which it is sent. -/
inductive Planned (writer : Writer) : Request → Plan → Writer → Prop where
  | plain {request : PlainRequest} {line : RequestLine}
      (resolved : request.layout.resolve writer.dictionary = .ok line) :
      Planned writer (.plain request) ⟨.line line, .done, .none⟩ writer
  | record {kind text : String} :
      Planned writer (.record kind text) ⟨.record kind text, .done, .none⟩ writer
  | report {message : String} :
      Planned writer (.report message) ⟨.nothing, .done, .none⟩ (writer.log (.reported message))
  | declare {name declaration : String} {spec : TypeSpec} {dictionary : Dictionary}
      (declared : writer.dictionary.declare name declaration = .ok (spec, dictionary)) :
      Planned writer (.declare name declaration)
        ⟨.line ⟨"Declare", [.string name, .string declaration]⟩, .done, .none⟩
        { writer with dictionary }
  | option {name : String} {parameters : List ParamSource} {params : List Param}
      (resolved : ParamSource.resolveAll writer.dictionary parameters = .ok params) :
      Planned writer (.option name parameters)
        ⟨.line ⟨"Option", .string name :: params.flatMap Token.param⟩, .done,
          optionPaths name params⟩ writer
  | lightSource {name : String} {parameters : List ParamSource} {params : List Param}
      (resolved : ParamSource.resolveAll writer.dictionary parameters = .ok params)
      (room : writer.lights.issued < HandleCounter.greatest) :
      Planned writer (.lightSource name parameters)
        ⟨.line ⟨"LightSource", .string name :: .handle (writer.lights.issued + 1) ::
          params.flatMap Token.param⟩, .handle (writer.lights.issued + 1), .none⟩
        { writer with lights := ⟨writer.lights.issued + 1⟩ }
  | areaLightSource {name : String} {parameters : List ParamSource} {params : List Param}
      (resolved : ParamSource.resolveAll writer.dictionary parameters = .ok params)
      (room : writer.lights.issued < HandleCounter.greatest) :
      Planned writer (.areaLightSource name parameters)
        ⟨.line ⟨"AreaLightSource", .string name :: .handle (writer.lights.issued + 1) ::
          params.flatMap Token.param⟩, .handle (writer.lights.issued + 1), .none⟩
        { writer with lights := ⟨writer.lights.issued + 1⟩ }
  | opening {block : Opening} :
      Planned writer (.opening block) ⟨.line block.line, .done, .enter⟩ writer
  | objectBegin (room : writer.objects.issued < HandleCounter.greatest) :
      Planned writer .objectBegin
        ⟨.line ⟨"ObjectBegin", [.handle (writer.objects.issued + 1)]⟩,
          .handle (writer.objects.issued + 1), .enter⟩
        { writer with objects := ⟨writer.objects.issued + 1⟩ }
  | closing {block : Closing} :
      Planned writer (.closing block) ⟨.line block.line, .done, .none⟩ writer.leave
  | procedural {strings : List String} {bound : Bound} {refine : FunctionSource} {release : Bool}
      {handle : Nat} {name : String} (resolved : refine.resolve .procedurals = .ok handle)
      (named : Vocabulary.procedurals.name handle = .ok name)
      (enough : proceduralArity name ≤ strings.length) :
      Planned writer (.procedural strings bound refine release)
        ⟨.line ⟨"Procedural",
          [.string name, .strings (strings.take (proceduralArity name)), .bound bound]⟩,
          .done, .none⟩
        (if release then writer.release strings else writer)
  | readArchive {name : String} {parameters : List ParamSource} {params : List Param}
      (resolved : ParamSource.resolveAll writer.dictionary parameters = .ok params) :
      Planned writer (.readArchive name parameters)
        ⟨.line ⟨"ReadArchive", .string name :: params.flatMap Token.param⟩, .done, .none⟩ writer

/-- The check of a request fails with this error, and with the writer that is left. -/
inductive Refuses (writer : Writer) : Request → Error → Writer → Prop where
  | plain {request : PlainRequest} {error : Error}
      (failed : request.layout.resolve writer.dictionary = .error error) :
      Refuses writer (.plain request) error writer
  | declare {name declaration : String} {error : Error}
      (failed : writer.dictionary.declare name declaration = .error error) :
      Refuses writer (.declare name declaration) error writer
  | option {name : String} {parameters : List ParamSource} {error : Error}
      (failed : ParamSource.resolveAll writer.dictionary parameters = .error error) :
      Refuses writer (.option name parameters) error writer
  | lightSource {name : String} {parameters : List ParamSource} {error : Error}
      (failed : ParamSource.resolveAll writer.dictionary parameters = .error error) :
      Refuses writer (.lightSource name parameters) error writer
  | areaLightSource {name : String} {parameters : List ParamSource} {error : Error}
      (failed : ParamSource.resolveAll writer.dictionary parameters = .error error) :
      Refuses writer (.areaLightSource name parameters) error writer
  | readArchive {name : String} {parameters : List ParamSource} {error : Error}
      (failed : ParamSource.resolveAll writer.dictionary parameters = .error error) :
      Refuses writer (.readArchive name parameters) error writer
  | noLight {name : String} {parameters : List ParamSource}
      (full : HandleCounter.greatest ≤ writer.lights.issued) :
      Refuses writer (.lightSource name parameters) .handlesExhausted writer
  | noAreaLight {name : String} {parameters : List ParamSource}
      (full : HandleCounter.greatest ≤ writer.lights.issued) :
      Refuses writer (.areaLightSource name parameters) .handlesExhausted writer
  | noObject (full : HandleCounter.greatest ≤ writer.objects.issued) :
      Refuses writer .objectBegin .handlesExhausted writer
  | function {strings : List String} {bound : Bound} {refine : FunctionSource} {release : Bool}
      {error : Error} (failed : refine.resolve .procedurals = .error error) :
      Refuses writer (.procedural strings bound refine release) error writer
  | procedural {strings : List String} {bound : Bound} {refine : FunctionSource} {release : Bool}
      {handle : Nat} {error : Error} (resolved : refine.resolve .procedurals = .ok handle)
      (failed : proceduralLine strings bound handle = .error error) :
      Refuses writer (.procedural strings bound refine release) error
        (if release then writer.release strings else writer)

/-- One of both happens. -/
def Checked (writer : Writer) (request : Request) : Outcome Plan → Prop
  | (.ok plan, checked) => Planned writer request plan checked
  | (.error error, left) => Refuses writer request error left

theorem checked_planLight {writer : Writer} {request : Request} {keyword name : String}
    {parameters : List ParamSource}
    (succeeds : ∀ params, ParamSource.resolveAll writer.dictionary parameters = .ok params →
      writer.lights.issued < HandleCounter.greatest →
      Planned writer request
        ⟨.line ⟨keyword, .string name :: .handle (writer.lights.issued + 1) ::
          params.flatMap Token.param⟩, .handle (writer.lights.issued + 1), .none⟩
        { writer with lights := ⟨writer.lights.issued + 1⟩ })
    (fails : ∀ error, ParamSource.resolveAll writer.dictionary parameters = .error error →
      Refuses writer request error writer)
    (exhausted : HandleCounter.greatest ≤ writer.lights.issued →
      Refuses writer request .handlesExhausted writer) :
    Checked writer request (writer.planLight keyword name parameters) := by
  rw [planLight]
  cases resolved : ParamSource.resolveAll writer.dictionary parameters with
  | error error => exact fails error resolved
  | ok params =>
      rcases writer.lights.issue_cases with ⟨room, issued⟩ | ⟨full, issued⟩
      · rw [issued]
        exact succeeds params resolved room
      · rw [issued]
        exact exhausted full

theorem checked_plan (request : Request) (writer : Writer) :
    Checked writer request (writer.plan request) := by
  cases request with
  | plain request =>
      rw [plan]
      cases resolved : request.layout.resolve writer.dictionary with
      | error error => exact .plain resolved
      | ok line => exact .plain resolved
  | record kind text => exact .record
  | report message => exact .report
  | declare name declaration =>
      rw [plan]
      cases declared : writer.dictionary.declare name declaration with
      | error error => exact .declare declared
      | ok entry => exact .declare declared
  | option name parameters =>
      rw [plan, planParams]
      cases resolved : ParamSource.resolveAll writer.dictionary parameters with
      | error error => exact .option resolved
      | ok params => exact .option resolved
  | lightSource name parameters =>
      exact checked_planLight (fun _ => .lightSource) (fun _ => .lightSource) .noLight
  | areaLightSource name parameters =>
      exact checked_planLight (fun _ => .areaLightSource) (fun _ => .areaLightSource) .noAreaLight
  | opening block => exact .opening
  | objectBegin =>
      rw [plan]
      rcases writer.objects.issue_cases with ⟨room, issued⟩ | ⟨full, issued⟩
      · rw [issued]
        exact .objectBegin room
      · rw [issued]
        exact .noObject full
  | closing block => exact .closing
  | procedural strings bound refine release =>
      rw [plan]
      cases resolved : refine.resolve .procedurals with
      | error error => exact .function resolved
      | ok handle =>
          dsimp only
          cases made : proceduralLine strings bound handle with
          | error error => exact .procedural resolved made
          | ok line =>
              obtain ⟨name, named, enough, rfl⟩ := proceduralLine_ok made
              exact .procedural resolved named enough
  | readArchive name parameters =>
      rw [plan, planParams]
      cases resolved : ParamSource.resolveAll writer.dictionary parameters with
      | error error => exact .readArchive resolved
      | ok params => exact .readArchive resolved

variable {request : Request} {writer : Writer}

theorem planned_of_plan {plan : Plan} (success : (writer.plan request).1 = .ok plan) :
    Planned writer request plan (writer.plan request).2 := by
  have checked := checked_plan request writer
  generalize writer.plan request = outcome at success checked ⊢
  obtain ⟨result, after⟩ := outcome
  cases success
  exact checked

theorem refuses_of_plan {error : Error} (failed : (writer.plan request).1 = .error error) :
    Refuses writer request error (writer.plan request).2 := by
  have checked := checked_plan request writer
  generalize writer.plan request = outcome at failed checked ⊢
  obtain ⟨result, after⟩ := outcome
  cases failed
  exact checked

end Writer

end RibStream
