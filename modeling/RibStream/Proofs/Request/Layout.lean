/-
This file proves that requests are laid out as they are spelled out for readers.
-/

import RibStream.Proofs.Request.Spelled

namespace RibStream

theorem Token.values_eq_spelled (values : Values) : Token.values values = values.spelled := by
  cases values <;> rfl

theorem Token.param_eq_spelled (param : Param) : Token.param param = param.spelled := by
  rw [Token.param, Token.values_eq_spelled]
  rfl

theorem Token.params_eq_spelled (params : List Param) :
    params.flatMap Token.param = params.flatMap Param.spelled :=
  List.flatMap_congr fun param _ => Token.param_eq_spelled param

theorem Token.matrix_eq_spelled (matrix : Matrix) : Token.matrix matrix = matrix.spelled :=
  congrArg Token.floats matrix.entries_eq_rowMajor

theorem ParamSource.spelled?_of_resolve {dictionary : Dictionary} {source : ParamSource}
    {param : Param} (resolved : source.resolve dictionary = .ok param) :
    source.spelled? dictionary = some param.spelled := by
  cases source with
  | typed given =>
      cases resolved
      rfl
  | token text values =>
      obtain ⟨declaration, found, rfl⟩ := exists_of_map_eq_ok resolved
      rw [spelled?, found]
      rfl

/-- Resolved parameters are written as they are spelled. -/
theorem spell_of_resolveAll {dictionary : Dictionary} {parameters : List ParamSource}
    {params : List Param} (resolved : ParamSource.resolveAll dictionary parameters = .ok params)
    (name : String) (tokens : List Token) :
    spell dictionary name tokens parameters =
      some ⟨name, tokens ++ params.flatMap Token.param⟩ := by
  have each : parameters.mapM (ParamSource.spelled? dictionary) = some (params.map Param.spelled) := by
    apply mapM_eq_some_of_forall₂
    rw [List.forall₂_map_right_iff]
    exact (forall₂_of_mapM resolved).imp fun _ _ => ParamSource.spelled?_of_resolve
  have written : params.map Param.spelled = params.map Token.param :=
    List.map_congr_left fun param _ => (Token.param_eq_spelled param).symm
  rw [spell, each, written]
  rfl

/-- A function that can be written has a name. -/
theorem FunctionSource.name?_of_resolve {vocabulary : Vocabulary} {source : FunctionSource}
    {handle : Nat} {name : String} (resolved : source.resolve vocabulary = .ok handle)
    (named : vocabulary.name handle = .ok name) : source.name? vocabulary = some name := by
  cases handle with
  | zero => cases named
  | succ index =>
      have stands : vocabulary.names[index]? = some name := by
        rw [Vocabulary.name] at named
        cases found : vocabulary.names[index]? with
        | none =>
            rw [found] at named
            cases named
        | some other =>
            rw [found] at named
            exact congrArg some (Except.ok.inj named)
      cases source with
      | handle number =>
          cases resolved
          exact stands
      | named given =>
          rw [resolve, Vocabulary.handle] at resolved
          cases position : Vocabulary.lastPosition? given vocabulary.names with
          | none =>
              rw [position] at resolved
              cases resolved
          | some last =>
              rw [position] at resolved
              cases resolved
              obtain ⟨-, same⟩ := Vocabulary.getElem?_of_lastPosition? _ _ _ position
              rw [Nat.add_sub_cancel, stands, Option.some.injEq] at same
              subst same
              rw [name?, if_pos (List.mem_of_getElem? stands)]

/-- The name of a basis is written as it is given, since its matrix is recognized again. -/
theorem BasisSource.spelled?_of_resolve {source : BasisSource} {matrix : Matrix}
    (resolved : source.resolve = .ok matrix) : source.spelled? = some (Token.basis matrix) := by
  cases source with
  | named name =>
      obtain ⟨basis, found, rfl⟩ := exists_of_map_eq_ok resolved
      rw [Basis.ofName] at found
      cases known : Basis.all.find? fun basis => basis.name == name with
      | none =>
          rw [known] at found
          cases found
      | some other =>
          rw [known] at found
          cases found
          have named := List.find?_some known
          rw [beq_iff_eq] at named
          subst named
          have member : basis.name ∈ Basis.all.map Basis.name :=
            List.mem_map_of_mem basis.mem_all
          rw [spelled?, if_pos member, Token.basis, Basis.recognize?_matrix]
  | matrix value =>
      cases resolved
      rw [spelled?, Token.basis]
      cases recognized : Basis.recognize? matrix with
      | some basis => rfl
      | none => exact congrArg some (Token.matrix_eq_spelled matrix).symm

/-- The token that a reader sees of an argument. -/
def Argument.spelled? : Argument → Option Token
  | token value => some value
  | function vocabulary source => (source.name? vocabulary).map .string
  | basis source => source.spelled?

theorem Argument.spelled?_of_written {argument resolved : Argument} {token : Token}
    (success : argument.resolve = .ok resolved) (written : resolved.written = .ok token) :
    argument.spelled? = some token := by
  cases argument with
  | token value =>
      cases success
      cases written
      rfl
  | function vocabulary source =>
      obtain ⟨handle, found, rfl⟩ := exists_of_map_eq_ok success
      rw [Argument.written, FunctionSource.resolve] at written
      cases named : vocabulary.name handle with
      | error error => simp [named, bind, Except.bind] at written
      | ok name =>
          simp only [named, bind, Except.bind, pure, Except.pure, Except.ok.injEq] at written
          subst written
          rw [spelled?, FunctionSource.name?_of_resolve found named]
          rfl
  | basis source =>
      obtain ⟨matrix, found, rfl⟩ := exists_of_map_eq_ok success
      cases written
      exact BasisSource.spelled?_of_resolve found

/-- Arguments that are resolved and then written are read as they are spelled. -/
theorem Argument.mapM_spelled? {given resolved : List Argument} {tokens : List Token}
    (success : given.mapM resolve = .ok resolved) (written : resolved.mapM written = .ok tokens) :
    given.mapM spelled? = some tokens := by
  apply mapM_eq_some_of_forall₂
  have pairs := forall₂_of_mapM success
  have results := forall₂_of_mapM written
  clear success written
  induction pairs generalizing tokens with
  | nil =>
      cases results
      exact .nil
  | cons first rest inductionHypothesis =>
      cases results with
      | cons token others =>
          exact .cons (spelled?_of_written first token) (inductionHypothesis others)

/-- What a layout reads as: its arguments and then its parameters. -/
def Layout.spelled? (dictionary : Dictionary) (layout : Layout) : Option RequestLine := do
  let tokens ← layout.arguments.mapM Argument.spelled?
  spell dictionary layout.name tokens layout.parameters

theorem Layout.spelled?_of_resolve {dictionary : Dictionary} {layout : Layout} {line : RequestLine}
    (success : layout.resolve dictionary = .ok line) : layout.spelled? dictionary = some line := by
  obtain ⟨arguments, params, tokens, resolved, parameters, written, rfl⟩ := parts_of_resolve success
  rw [spelled?, Argument.mapM_spelled? resolved written]
  exact spell_of_resolveAll parameters layout.name tokens

/-- The layouts of all requests without further effect are those of the table. -/
theorem PlainRequest.spelled?_eq (dictionary : Dictionary) (request : PlainRequest) :
    request.spelled? dictionary = request.layout.spelled? dictionary := by
  cases request with
  | camera request =>
      cases request with
      | pixelFilter function xwidth ywidth =>
          simp only [spelled?, Camera.spelled?, layout, Camera.layout, Layout.spelled?,
            List.mapM_cons, Argument.spelled?]
          cases function.name? .filters <;> rfl
      | _ => rfl
  | appearance request => cases request <;> rfl
  | placement request =>
      cases request with
      | transform matrix | concatTransform matrix =>
          rw [spelled?, Placement.spelled, ← Token.matrix_eq_spelled]
          rfl
      | _ => rfl
  | shape request =>
      cases request with
      | basis ubasis ustep vbasis vstep =>
          simp only [spelled?, Shape.spelled?, layout, Shape.layout, Layout.spelled?,
            List.mapM_cons, Argument.spelled?]
          cases ubasis.spelled? <;> cases vbasis.spelled? <;> rfl
      | _ => rfl
  | textureMap request =>
      cases request with
      | texture imageFile textureFile swrap twrap filter swidth twidth parameters
      | latLongEnvironment imageFile reflectionFile filter swidth twidth parameters
      | cubeFaceEnvironment px nx py ny pz nz reflectionFile fov filter swidth twidth parameters =>
          simp only [spelled?, TextureMap.spelled?, layout, TextureMap.layout, filtered,
            Layout.spelled?, List.map_cons, List.map_nil, List.cons_append, List.nil_append,
            List.mapM_cons, Argument.spelled?]
          cases filter.name? .filters <;> rfl
      | _ => rfl
  | errorHandler handler =>
      simp only [spelled?, layout, Layout.spelled?, List.mapM_cons, Argument.spelled?]
      cases handler.name? .errorHandlers <;> rfl
  | _ => rfl

end RibStream
