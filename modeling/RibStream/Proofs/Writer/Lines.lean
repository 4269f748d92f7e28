/-
This file says what a checked request sends to the stream.
A line has the name of a request, it reads as the request is spelled out, and its numbers and its
lengths are those that the request was given.
-/

import RibStream.Proofs.Request.Finite
import RibStream.Proofs.Request.Layout
import RibStream.Proofs.Request.Names
import RibStream.Proofs.Request.Short
import RibStream.Proofs.Writer.Planned
import RibStream.Proofs.Writer.Session

namespace RibStream

/-- The name under which a request is written. -/
def Request.keyword? : Request → Option String
  | .plain request => some request.layout.name
  | .record _ _ => none
  | .report _ => none
  | .declare _ _ => some "Declare"
  | .option _ _ => some "Option"
  | .lightSource _ _ => some "LightSource"
  | .areaLightSource _ _ => some "AreaLightSource"
  | .opening block => some block.line.name
  | .objectBegin => some "ObjectBegin"
  | .closing block => some block.line.name
  | .procedural _ _ _ _ => some "Procedural"
  | .readArchive _ _ => some "ReadArchive"

/-- No other request is written under the name of those that read archives. -/
theorem Request.keyword?_ne_readArchive {request : Request}
    (other : ∀ name parameters, request ≠ .readArchive name parameters) :
    request.keyword? ≠ some "ReadArchive" := by
  have table : "ReadArchive" ∉ PlainRequest.names ++ Opening.names ++ Closing.names := by decide
  intro same
  cases request with
  | plain request =>
      refine table (List.mem_append_left _ (List.mem_append_left _ ?_))
      exact Option.some.inj same ▸ request.name_mem
  | opening block =>
      refine table (List.mem_append_left _ (List.mem_append_right _ ?_))
      exact Option.some.inj same ▸ block.name_mem
  | closing block => exact table (List.mem_append_right _ (Option.some.inj same ▸ block.name_mem))
  | readArchive name parameters => exact other name parameters rfl
  | _ => simp [keyword?] at same

namespace Writer

/-- A line after its own tokens has those of resolved parameters. -/
theorem allFinite_params {name : String} (tokens : List Token) {dictionary : Dictionary}
    {parameters : List ParamSource} {params : List Param}
    (resolved : ParamSource.resolveAll dictionary parameters = .ok params)
    (own : AllFinite (tokens.flatMap Token.singles))
    (finite : AllFinite (parameters.flatMap ParamSource.singles)) :
    AllFinite (RequestLine.mk name (tokens ++ params.flatMap Token.param)).singles := by
  rw [RequestLine.singles, List.flatMap_append, allFinite_append]
  exact ⟨own, ParamSource.allFinite_of_resolveAll resolved finite⟩

/-- A line after its own tokens has lengths that fit if they do and the given parameters are short. -/
theorem fits_params {tokens : List Token} {dictionary : Dictionary} {parameters : List ParamSource}
    {params : List Param} (resolved : ParamSource.resolveAll dictionary parameters = .ok params)
    (own : ∀ token ∈ tokens, token.Fits) (short : AllShort (parameters.flatMap ParamSource.lengths)) :
    ∀ token ∈ tokens ++ params.flatMap Token.param, token.Fits :=
  List.forall_mem_append.mpr ⟨own, ParamSource.fits_of_resolveAll resolved short⟩

/-- What a request can send: nothing if it is a report, its own record, or a line with the name of a
request, with numbers and lengths that were given to it. -/
inductive Sends (request : Request) : Piece → Prop where
  | nothing {message : String} (same : request = .report message) : Sends request .nothing
  | record {kind text : String} (same : request = .record kind text) :
      Sends request (.record kind text)
  | line {line : RequestLine} (named : line.name ∈ Request.names)
      (finite : AllFinite request.singles → AllFinite line.singles)
      (short : request.Short → ∀ token ∈ line.tokens, token.Fits) : Sends request (.line line)

theorem plan_sends {request : Request} {writer : Writer} {plan : Plan}
    (success : (writer.plan request).1 = .ok plan) : Sends request plan.piece := by
  have silent : AllFinite [] := fun value absent => absurd absent List.not_mem_nil
  have bare : ∀ token ∈ ([] : List Token), token.Fits := fun token absent =>
    absurd absent List.not_mem_nil
  have headed {name : String} {lengths : List Nat} (short : AllShort (Text.size name :: lengths))
      {tokens : List Token} (rest : ∀ token ∈ tokens, token.Fits) :
      ∀ token ∈ Token.string name :: tokens, token.Fits :=
    List.forall_mem_cons.mpr ⟨textFits_of_size (short _ List.mem_cons_self), rest⟩
  have tail {length : Nat} {lengths : List Nat} (short : AllShort (length :: lengths)) :
      AllShort lengths := fun other member => short other (.tail _ member)
  have handled (number : Nat) : ∀ token ∈ [Token.handle number], token.Fits :=
    List.forall_mem_singleton.mpr trivial
  have planned := planned_of_plan success
  generalize (writer.plan request).2 = checked at planned
  cases planned with
  | plain resolved =>
      refine .line ?_ (Layout.allFinite_of_resolve resolved) (Layout.fits_of_resolve resolved)
      rw [Layout.name_of_resolve resolved]
      simp [Request.names, PlainRequest.name_mem]
  | record => exact .record rfl
  | report => exact .nothing rfl
  | declare declared =>
      exact .line (by simp [Request.names]) (fun _ => silent)
        fun short => headed short (headed (tail short) bare)
  | option resolved | readArchive resolved =>
      exact .line (by simp [Request.names]) (allFinite_params [.string _] resolved silent)
        fun short => fits_params resolved (headed short bare) (tail short)
  | lightSource resolved room | areaLightSource resolved room =>
      exact .line (by simp [Request.names])
        (allFinite_params [.string _, .handle _] resolved silent)
        fun short => fits_params resolved (headed short (handled _)) (tail short)
  | @opening block =>
      refine .line (by simp [Request.names, block.name_mem]) id fun short token member => ?_
      exact Token.fits_of_allShort fun length part =>
        short length (List.mem_flatMap.mpr ⟨token, member, part⟩)
  | objectBegin room => exact .line (by simp [Request.names]) (fun _ => silent) fun _ => handled _
  | @closing block =>
      refine .line (by simp [Request.names, block.name_mem]) (fun _ => ?_) fun _ => ?_
      · cases block <;> exact silent
      · cases block <;> exact bare
  | procedural resolved named enough =>
      refine .line (by simp [Request.names]) id fun short => ?_
      refine List.forall_mem_cons.mpr ⟨?_, List.forall_mem_cons.mpr ⟨?_,
        List.forall_mem_singleton.mpr (show 6 < Binary.lengthLimit by decide)⟩⟩
      · have names : ∀ name ∈ Vocabulary.procedurals.names, Binary.TextFits name := by decide
        exact names _ (Vocabulary.mem_of_name named)
      · intro value member
        exact textFits_of_size (short _ (List.mem_map_of_mem (List.mem_of_mem_take member)))

/-- What a request sends is how it reads. -/
theorem plan_spelled {request : Request} {writer : Writer} {plan : Plan}
    (success : (writer.plan request).1 = .ok plan) : plan.piece.lines = writer.spelled request := by
  have planned := planned_of_plan success
  generalize (writer.plan request).2 = checked at planned
  rw [spelled]
  cases planned with
  | plain resolved =>
      rw [Request.spelled?, PlainRequest.spelled?_eq, Layout.spelled?_of_resolve resolved]
      rfl
  | option resolved | readArchive resolved
  | lightSource resolved room | areaLightSource resolved room =>
      rw [Request.spelled?, spell_of_resolveAll resolved]
      rfl
  | @opening block | @closing block => cases block <;> rfl
  | procedural resolved named enough =>
      rw [Request.spelled?, FunctionSource.name?_of_resolve resolved named]
      rfl
  | record | report | declare declared | objectBegin room => rfl

/-- A request is written under its own name. -/
theorem plan_keyword {request : Request} {writer : Writer} {plan : Plan} {line : RequestLine}
    (success : (writer.plan request).1 = .ok plan) (sends : plan.piece = .line line) :
    request.keyword? = some line.name := by
  have planned := planned_of_plan success
  generalize (writer.plan request).2 = checked at planned
  cases planned with
  | plain resolved =>
      cases sends
      exact congrArg some (Layout.name_of_resolve resolved).symm
  | record | report => cases sends
  | _ =>
      cases sends
      rfl

end Writer

end RibStream
