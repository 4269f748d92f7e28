/-
This file says what the check of a request looks at in the writer and what it changes there.
It looks at nothing but the dictionary and the counters of handles, and it makes at most one change.
What is left after it touches only the stream, the search path and the events.
-/

import RibStream.Proofs.Writer.Plan

namespace RibStream

/-- What the check of a request changes in the writer. -/
inductive Change where
  | none
  | report (message : String)
  | declare (dictionary : Dictionary)
  | light (lights : HandleCounter)
  | object (objects : HandleCounter)
  | leave
  | release (strings : List String)

/-- The paths with which the search path is expanded. -/
def Effect.paths : Effect → List String
  | .searchPath paths => paths
  | _ => []

namespace Writer

def change (writer : Writer) : Change → Writer
  | .none => writer
  | .report message => writer.log (.reported message)
  | .declare dictionary => { writer with dictionary }
  | .light lights => { writer with lights }
  | .object objects => { writer with objects }
  | .leave => writer.leave
  | .release strings => writer.release strings

/-- Every writer with this dictionary and these counters has the same plan for the request, and makes
the given change for it. -/
def Checks (writer : Writer) (request : Request) (change : Change) : Prop :=
  ∀ other : Writer, other.dictionary = writer.dictionary → other.lights = writer.lights →
    other.objects = writer.objects →
    other.plan request = ((writer.plan request).1, other.change change)

theorem Checks.plan_eq {writer : Writer} {request : Request} {change : Change}
    (checks : writer.Checks request change) :
    writer.plan request = ((writer.plan request).1, writer.change change) :=
  checks writer rfl rfl rfl

theorem exists_checks_light {writer : Writer} {request : Request} {keyword name : String}
    {parameters : List ParamSource}
    (planned : ∀ other : Writer, other.plan request = other.planLight keyword name parameters) :
    ∃ change, writer.Checks request change := by
  cases resolved : ParamSource.resolveAll writer.dictionary parameters with
  | error error =>
      refine ⟨.none, fun other dictionary _ _ => ?_⟩
      rw [planned, planned, planLight, planLight, dictionary, resolved]
      rfl
  | ok params =>
      cases issued : writer.lights.issue with
      | error error =>
          refine ⟨.none, fun other dictionary lights _ => ?_⟩
          rw [planned, planned, planLight, planLight, lights, dictionary, resolved, issued]
          rfl
      | ok next =>
          refine ⟨.light next.2, fun other dictionary lights _ => ?_⟩
          have otherResolved : ParamSource.resolveAll other.dictionary parameters = .ok params :=
            dictionary ▸ resolved
          rw [planned, planned, planLight, planLight, otherResolved, resolved, lights, issued]
          rfl

/-- Every check makes one change. -/
theorem exists_checks (request : Request) (writer : Writer) :
    ∃ change, writer.Checks request change := by
  cases request with
  | plain request =>
      refine ⟨.none, fun other dictionary _ _ => ?_⟩
      rw [plan, plan, dictionary]
      rfl
  | report message => exact ⟨.report message, fun _ _ _ _ => rfl⟩
  | declare name declaration =>
      cases declared : writer.dictionary.declare name declaration with
      | error error =>
          refine ⟨.none, fun other dictionary _ _ => ?_⟩
          rw [plan, plan, dictionary, declared]
          rfl
      | ok entry =>
          refine ⟨.declare entry.2, fun other dictionary _ _ => ?_⟩
          rw [plan, plan, dictionary, declared]
          rfl
  | option name parameters =>
      refine ⟨.none, fun other dictionary _ _ => ?_⟩
      rw [plan, plan, planParams, planParams, dictionary]
      rfl
  | lightSource name parameters => exact exists_checks_light fun _ => rfl
  | areaLightSource name parameters => exact exists_checks_light fun _ => rfl
  | objectBegin =>
      cases issued : writer.objects.issue with
      | error error =>
          refine ⟨.none, fun other _ _ objects => ?_⟩
          rw [plan, plan, objects, issued]
          rfl
      | ok next =>
          refine ⟨.object next.2, fun other _ _ objects => ?_⟩
          rw [plan, plan, objects, issued]
          rfl
  | closing block => exact ⟨.leave, fun _ _ _ _ => rfl⟩
  | procedural strings bound refine release =>
      cases resolved : refine.resolve .procedurals with
      | error error =>
          refine ⟨.none, fun other _ _ _ => ?_⟩
          rw [plan, plan, resolved]
          rfl
      | ok handle =>
          refine ⟨if release then .release strings else .none, fun other _ _ _ => ?_⟩
          rw [plan, plan, resolved]
          cases release <;> rfl
  | readArchive name parameters =>
      refine ⟨.none, fun other dictionary _ _ => ?_⟩
      rw [plan, plan, planParams, planParams, dictionary]
      rfl
  | record kind text => exact ⟨.none, fun _ _ _ _ => rfl⟩
  | opening block => exact ⟨.none, fun _ _ _ _ => rfl⟩

theorem foldl_expandSearchPath (paths : List String) (writer : Writer) :
    paths.foldl expandSearchPath writer = { writer with
      searchPath := paths.foldl SearchPath.expand writer.searchPath
      trace.events := writer.trace.events ++ paths.map Event.searchPathUpdated } := by
  induction paths generalizing writer with
  | nil => simp
  | cons path paths inductionHypothesis =>
      rw [List.foldl_cons, inductionHypothesis]
      simp [expandSearchPath, log]

theorem apply_eq (effect : Effect) (writer : Writer) :
    writer.apply effect = { writer with
      stream := if effect = .enter then writer.stream.enter else writer.stream
      searchPath := effect.paths.foldl SearchPath.expand writer.searchPath
      trace.events := writer.trace.events ++ effect.paths.map Event.searchPathUpdated } := by
  cases effect with
  | none => simp [apply, Effect.paths]
  | enter => simp [apply, Effect.paths, enter]
  | searchPath paths => simp [apply, Effect.paths, foldl_expandSearchPath]

theorem send_eq (piece : Piece) (writer : Writer) :
    (writer.send piece).2 = { writer with stream := (writer.send piece).2.stream } := by
  cases piece <;> rfl

/-- A part of the writer outside of the stream, the search path and the events is changed by the check
of a request or not at all. -/
theorem perform_frame {Value : Type} (part : Writer → Value)
    (outside : ∀ (writer : Writer) (stream : Stream) (searchPath : SearchPath) (events : Array Event),
      part { writer with stream, searchPath, trace.events := events } = part writer)
    (request : Request) (writer : Writer) :
    part (writer.perform request).2 = part (writer.plan request).2 := by
  rw [perform]
  generalize writer.plan request = outcome
  obtain ⟨result, checked⟩ := outcome
  cases result with
  | error error => rfl
  | ok plan =>
      have sent : part (checked.send plan.piece).2 = part checked := by
        rw [send_eq]
        exact outside checked _ checked.searchPath checked.trace.events
      rw [complete]
      generalize checked.send plan.piece = outcome at sent ⊢
      obtain ⟨result, after⟩ := outcome
      cases result with
      | error error => exact sent
      | ok success =>
          refine Eq.trans ?_ sent
          show part (after.apply plan.effect) = part after
          rw [apply_eq]
          exact outside after _ _ _

end Writer

end RibStream
