/-
This file says when a request that was given by value can fail its check.
Nothing is looked up by name in it, so only its handles, its strings and its declaration matter.
-/

import RibStream.Proofs.Request.Resolved
import Mathlib.Data.List.Nodup

namespace RibStream

section Traversal

variable {Failure Value Result : Type} {step : Value → Except Failure Result} {values : List Value}

/-- The first failure is the failure of the whole. -/
theorem exists_of_mapM_error {failure : Failure} (failed : values.mapM step = .error failure) :
    ∃ value ∈ values, step value = .error failure := by
  induction values with
  | nil => cases failed
  | cons first values inductionHypothesis =>
      rw [List.mapM_cons] at failed
      cases stepped : step first with
      | error cause =>
          simp only [stepped, bind, Except.bind, Except.error.injEq] at failed
          exact ⟨first, List.mem_cons_self, failed ▸ stepped⟩
      | ok head =>
          cases rest : values.mapM step with
          | error cause =>
              simp only [stepped, rest, bind, Except.bind, Except.error.injEq] at failed
              obtain ⟨value, inside, source⟩ := inductionHypothesis (failed ▸ rest)
              exact ⟨value, List.mem_cons_of_mem _ inside, source⟩
          | ok tail => simp [stepped, rest, bind, Except.bind, pure, Except.pure] at failed

/-- Every step of a success is a success. -/
theorem exists_of_mapM_ok {results : List Result} (success : values.mapM step = .ok results)
    {value : Value} (member : value ∈ values) : ∃ result, step value = .ok result := by
  induction values generalizing results with
  | nil => cases member
  | cons first values inductionHypothesis =>
      rw [List.mapM_cons] at success
      cases stepped : step first with
      | error cause => simp [stepped, bind, Except.bind] at success
      | ok head =>
          cases rest : values.mapM step with
          | error cause => simp [stepped, rest, bind, Except.bind] at success
          | ok tail =>
              rcases List.mem_cons.mp member with rfl | inTail
              · exact ⟨head, stepped⟩
              · exact inductionHypothesis rest inTail

/-- A traversal succeeds as soon as all of its steps do. -/
theorem exists_mapM_ok (succeeds : ∀ value ∈ values, ∃ result, step value = .ok result) :
    ∃ results, values.mapM step = .ok results := by
  cases outcome : values.mapM step with
  | ok results => exact ⟨results, rfl⟩
  | error failure =>
      obtain ⟨value, member, failed⟩ := exists_of_mapM_error outcome
      obtain ⟨result, success⟩ := succeeds value member
      rw [failed] at success
      cases success

/-- A traversal that changes nothing. -/
theorem mapM_eq_self {step : Value → Except Failure Value}
    (same : ∀ value ∈ values, step value = .ok value) : values.mapM step = .ok values := by
  induction values with
  | nil => rfl
  | cons first values inductionHypothesis =>
      have rest := inductionHypothesis fun value member => same value (List.mem_cons_of_mem _ member)
      rw [List.mapM_cons, same first List.mem_cons_self, rest]
      rfl

end Traversal

namespace Vocabulary

/-- The handle is what some name is looked up as. -/
def Issues (vocabulary : Vocabulary) (handle : Nat) : Prop :=
  ∃ name, vocabulary.handle name = .ok handle

/-- In a list without repetitions the last position of a name is its only one. -/
theorem lastPosition?_of_getElem? {names : List String} (distinct : names.Nodup) {index : Nat}
    {name : String} (stands : names[index]? = some name) :
    lastPosition? name names = some (index + 1) := by
  cases found : lastPosition? name names with
  | none =>
      exact absurd (List.mem_of_getElem? stands) ((lastPosition?_eq_none_iff name names).mp found)
  | some position =>
      obtain ⟨positive, last⟩ := getElem?_of_lastPosition? name names position found
      obtain ⟨inside, same⟩ := List.getElem?_eq_some_iff.mp stands
      obtain ⟨lastInside, lastSame⟩ := List.getElem?_eq_some_iff.mp last
      have equal := (List.Nodup.getElem_inj_iff distinct).mp (same.trans lastSame.symm)
      rw [Option.some.injEq]
      omega

/-- A handle has a name exactly if it was issued. -/
theorem exists_name_iff {vocabulary : Vocabulary} (distinct : vocabulary.names.Nodup)
    (handle : Nat) : (∃ name, vocabulary.name handle = .ok name) ↔ vocabulary.Issues handle := by
  constructor
  · rintro ⟨name, named⟩
    cases handle with
    | zero => cases named
    | succ index =>
        rw [Vocabulary.name] at named
        cases stands : vocabulary.names[index]? with
        | none =>
            rw [stands] at named
            cases named
        | some found =>
            exact ⟨found, by rw [Vocabulary.handle, lastPosition?_of_getElem? distinct stands]⟩
  · rintro ⟨name, issued⟩
    rw [Vocabulary.handle] at issued
    cases found : lastPosition? name vocabulary.names with
    | none =>
        rw [found] at issued
        cases issued
    | some position =>
        rw [found] at issued
        cases issued
        obtain ⟨positive, stands⟩ := getElem?_of_lastPosition? name _ handle found
        obtain ⟨index, rfl⟩ := Nat.exists_eq_succ_of_ne_zero (Nat.ne_of_gt positive)
        refine ⟨name, ?_⟩
        rw [Vocabulary.name]
        rw [Nat.succ_eq_add_one, Nat.add_sub_cancel] at stands
        rw [stands]

theorem name_error {vocabulary : Vocabulary} {handle : Nat} {error : Error}
    (unknown : vocabulary.name handle = .error error) : error = .badHandle handle := by
  cases handle with
  | zero =>
      cases unknown
      rfl
  | succ index =>
      rw [Vocabulary.name] at unknown
      split at unknown <;> cases unknown
      rfl

end Vocabulary

def FunctionSource.IsHandle : FunctionSource → Prop
  | .handle _ => True
  | .named _ => False

def BasisSource.IsMatrix : BasisSource → Prop
  | .matrix _ => True
  | .named _ => False

def ParamSource.IsTyped : ParamSource → Prop
  | .typed _ => True
  | .token _ _ => False

theorem ParamSource.exists_resolveAll (dictionary : Dictionary) {sources : List ParamSource}
    (typed : ∀ source ∈ sources, source.IsTyped) :
    ∃ params, resolveAll dictionary sources = .ok params := by
  apply exists_mapM_ok
  intro source member
  cases source with
  | typed param => exact ⟨param, rfl⟩
  | token text values => exact absurd (typed _ member) id

/-- The argument needs no name to be looked up. -/
def Argument.ByValue : Argument → Prop
  | .token _ => True
  | .function _ source => source.IsHandle
  | .basis source => source.IsMatrix

theorem Argument.resolve_of_byValue {argument : Argument} (byValue : argument.ByValue) :
    argument.resolve = .ok argument := by
  cases argument with
  | token value => rfl
  | function vocabulary source =>
      cases source with
      | named name => exact absurd byValue id
      | handle number => rfl
  | basis source =>
      cases source with
      | named name => exact absurd byValue id
      | matrix value => rfl

/-- Only a function without a name cannot be written. -/
theorem Argument.written_error {argument : Argument} (byValue : argument.ByValue) {error : Error}
    (failed : argument.written = .error error) :
    ∃ vocabulary handle, argument = .function vocabulary (.handle handle) ∧
      error = .badHandle handle ∧ ¬ ∃ name, vocabulary.name handle = .ok name := by
  cases argument with
  | token value => cases failed
  | function vocabulary source =>
      cases source with
      | named name => exact absurd byValue id
      | handle number =>
          cases known : vocabulary.name number with
          | ok name =>
              simp [written, FunctionSource.resolve, known, bind, Except.bind, pure, Except.pure]
                at failed
          | error cause =>
              simp only [written, FunctionSource.resolve, known, bind, Except.bind,
                Except.error.injEq] at failed
              refine ⟨vocabulary, number, rfl, failed ▸ Vocabulary.name_error known, ?_⟩
              rintro ⟨name, named⟩
              rw [known] at named
              cases named
  | basis source =>
      cases source with
      | named name => exact absurd byValue id
      | matrix value => cases failed

theorem Argument.exists_name_of_written {vocabulary : Vocabulary} {handle : Nat} {token : Token}
    (success : (Argument.function vocabulary (.handle handle)).written = .ok token) :
    ∃ name, vocabulary.name handle = .ok name := by
  cases known : vocabulary.name handle with
  | ok name => exact ⟨name, rfl⟩
  | error cause => simp [written, FunctionSource.resolve, known, bind, Except.bind] at success

namespace Layout

/-- All arguments and parameters are given by value. -/
def ByValue (layout : Layout) : Prop :=
  (∀ argument ∈ layout.arguments, argument.ByValue) ∧ ∀ source ∈ layout.parameters, source.IsTyped

/-- One of the functions has no name. -/
def HasUnknownHandle (layout : Layout) : Prop :=
  ∃ vocabulary handle, .function vocabulary (.handle handle) ∈ layout.arguments ∧
    ¬ ∃ name, vocabulary.name handle = .ok name

variable {layout : Layout} (byValue : layout.ByValue) (dictionary : Dictionary)

include byValue

/-- What is given by value is only put into writing. -/
theorem resolve_of_byValue :
    ∃ params : List Param, layout.resolve dictionary =
      (layout.arguments.mapM Argument.written).map fun tokens =>
        ⟨layout.name, tokens ++ params.flatMap Token.param⟩ := by
  obtain ⟨params, resolved⟩ := ParamSource.exists_resolveAll dictionary byValue.2
  have arguments : layout.arguments.mapM Argument.resolve = .ok layout.arguments :=
    mapM_eq_self fun argument member => Argument.resolve_of_byValue (byValue.1 argument member)
  refine ⟨params, ?_⟩
  rw [resolve, arguments]
  simp only [resolved, bind, Except.bind]
  cases layout.arguments.mapM Argument.written <;> rfl

theorem resolve_error {error : Error} (failed : layout.resolve dictionary = .error error) :
    (∃ handle, error = .badHandle handle) ∧ layout.HasUnknownHandle := by
  obtain ⟨params, resolved⟩ := resolve_of_byValue byValue dictionary
  rw [resolved] at failed
  cases written : layout.arguments.mapM Argument.written with
  | ok tokens =>
      rw [written] at failed
      cases failed
  | error cause =>
      rw [written] at failed
      cases failed
      obtain ⟨argument, member, refused⟩ := exists_of_mapM_error written
      obtain ⟨vocabulary, handle, rfl, rfl, unknown⟩ :=
        Argument.written_error (byValue.1 argument member) refused
      exact ⟨⟨handle, rfl⟩, vocabulary, handle, member, unknown⟩

theorem not_hasUnknownHandle {line : RequestLine} (success : layout.resolve dictionary = .ok line) :
    ¬ layout.HasUnknownHandle := by
  rintro ⟨vocabulary, handle, member, unknown⟩
  obtain ⟨params, resolved⟩ := resolve_of_byValue byValue dictionary
  rw [resolved] at success
  obtain ⟨tokens, written, -⟩ := exists_of_map_eq_ok success
  obtain ⟨token, own⟩ := exists_of_mapM_ok written member
  exact unknown (Argument.exists_name_of_written own)

end Layout

/-- The functions in a plain request are filters and error handlers. -/
theorem PlainRequest.vocabulary_mem (request : PlainRequest) {vocabulary : Vocabulary}
    {source : FunctionSource} (member : .function vocabulary source ∈ request.layout.arguments) :
    vocabulary ∈ [Vocabulary.filters, Vocabulary.errorHandlers] := by
  cases request with
  | camera request =>
      cases request <;> simp_all [layout, Camera.layout, Layout.fixed, Layout.withParams]
  | appearance request =>
      cases request <;> simp_all [layout, Appearance.layout, Layout.fixed, Layout.withParams]
  | placement request =>
      cases request <;> simp_all [layout, Placement.layout, Layout.fixed, Layout.withParams]
  | shape request =>
      cases request <;> simp_all [layout, Shape.layout, Layout.fixed, Layout.withParams]
  | textureMap request =>
      cases request <;> simp_all [layout, TextureMap.layout, filtered, Layout.withParams]
  | resource handle kind parameters => simp_all [layout, Layout.withParams]
  | elseIf condition => simp_all [layout, Layout.fixed, Layout.withParams]
  | otherwise => simp_all [layout, Layout.fixed, Layout.withParams]
  | errorHandler handler => simp_all [layout]

/-- Each name has one handle only. -/
theorem Vocabulary.nodup_standard {vocabulary : Vocabulary}
    (standard : vocabulary ∈ [filters, errorHandlers, procedurals]) : vocabulary.names.Nodup := by
  revert vocabulary
  decide

namespace Request

/-- The request needs no name to be looked up. -/
def ByValue : Request → Prop
  | .plain request => request.layout.ByValue
  | .option _ parameters | .lightSource _ parameters | .areaLightSource _ parameters
  | .readArchive _ parameters => ∀ source ∈ parameters, source.IsTyped
  | .procedural _ _ refine _ => refine.IsHandle
  | _ => True

/-- What is wrong with a request: a filter, an error handler or a procedural that was not issued, too
few strings for a procedural, or a declaration that cannot be read. -/
inductive Refused : Request → Prop where
  | function {request : PlainRequest} {vocabulary : Vocabulary} {handle : Nat}
      (standard : vocabulary ∈ [Vocabulary.filters, Vocabulary.errorHandlers])
      (member : .function vocabulary (.handle handle) ∈ request.layout.arguments)
      (unknown : ¬ vocabulary.Issues handle) : Refused (.plain request)
  | procedural {strings : List String} {bound : Bound} {handle : Nat} {release : Bool}
      (unknown : ¬ Vocabulary.procedurals.Issues handle) :
      Refused (.procedural strings bound (.handle handle) release)
  | strings {strings : List String} {bound : Bound} {name : String} {handle : Nat} {release : Bool}
      (known : Vocabulary.procedurals.name handle = .ok name)
      (few : strings.length < proceduralArity name) :
      Refused (.procedural strings bound (.handle handle) release)
  | declaration {name declaration : String} (unreadable : TypeSpec.ofString? declaration = none) :
      Refused (.declare name declaration)

end Request

/-- The errors of requests that are wrong in themselves. -/
def Error.IsRejection : Error → Prop
  | .badHandle _ | .badToken _ | .badArgument _ _ | .badDeclaration _ => True
  | _ => False

theorem PlainRequest.hasUnknownHandle_iff (request : PlainRequest) :
    request.layout.HasUnknownHandle ↔ Request.Refused (.plain request) := by
  have distinct {vocabulary : Vocabulary}
      (standard : vocabulary ∈ [Vocabulary.filters, Vocabulary.errorHandlers]) :
      vocabulary.names.Nodup :=
    Vocabulary.nodup_standard (List.mem_append_left [Vocabulary.procedurals] standard)
  constructor
  · rintro ⟨vocabulary, handle, member, unknown⟩
    have standard := request.vocabulary_mem member
    exact .function standard member fun issued =>
      unknown ((Vocabulary.exists_name_iff (distinct standard) handle).mpr issued)
  · rintro (⟨standard, member, unknown⟩ | _ | _ | _)
    exact ⟨_, _, member, fun named =>
      unknown ((Vocabulary.exists_name_iff (distinct standard) _).mp named)⟩

/-- A procedural cannot be written if its handle is unknown or some of its strings are missing. -/
theorem proceduralLine_error {strings : List String} {bound : Bound} {handle : Nat} {error : Error}
    (failed : proceduralLine strings bound handle = .error error) (release : Bool) :
    error.IsRejection ∧ Request.Refused (.procedural strings bound (.handle handle) release) := by
  rw [proceduralLine] at failed
  cases named : Vocabulary.procedurals.name handle with
  | error cause =>
      simp only [named, bind, Except.bind, Except.error.injEq] at failed
      rw [← failed, Vocabulary.name_error named]
      refine ⟨trivial, .procedural fun issued => ?_⟩
      obtain ⟨name, known⟩ := (Vocabulary.exists_name_iff
        (Vocabulary.nodup_standard (by simp)) handle).mpr issued
      rw [named] at known
      cases known
  | ok name =>
      simp only [named, bind, Except.bind] at failed
      split at failed
      · rename_i few
        cases failed
        exact ⟨trivial, .strings named few⟩
      · cases failed

end RibStream
