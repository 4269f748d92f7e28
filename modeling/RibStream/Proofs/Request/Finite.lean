/-
This file collects the numbers in a request.
A request with finite numbers only is written with finite numbers only.
-/

import RibStream.Proofs.Request.Resolved
import RibStream.Proofs.Single.Magnitude

namespace RibStream

def Token.singles : Token → List Single
  | .float value => [value]
  | .floats values => values
  | _ => []

def RequestLine.singles (line : RequestLine) : List Single :=
  line.tokens.flatMap Token.singles

def ParamSource.singles : ParamSource → List Single
  | .typed param => (Token.values param.values).singles
  | .token _ values => (Token.values values).singles

/-- The numbers that the caller gives. A basis that is given by its name has none. -/
def Argument.singles : Argument → List Single
  | .token value => value.singles
  | .basis (.matrix matrix) => matrix.entries
  | _ => []

def Layout.singles (layout : Layout) : List Single :=
  layout.arguments.flatMap Argument.singles ++ layout.parameters.flatMap ParamSource.singles

def Request.singles : Request → List Single
  | .plain request => request.layout.singles
  | .option _ parameters => parameters.flatMap ParamSource.singles
  | .lightSource _ parameters => parameters.flatMap ParamSource.singles
  | .areaLightSource _ parameters => parameters.flatMap ParamSource.singles
  | .opening block => block.line.singles
  | .procedural _ bound _ _ => bound.entries
  | .readArchive _ parameters => parameters.flatMap ParamSource.singles
  | _ => []

/-- None of the numbers is an infinity or a NaN. -/
def AllFinite (values : List Single) : Prop :=
  ∀ value ∈ values, value.Finite

instance (values : List Single) : Decidable (AllFinite values) :=
  inferInstanceAs (Decidable (∀ value ∈ values, value.Finite))

theorem allFinite_append (first second : List Single) :
    AllFinite (first ++ second) ↔ AllFinite first ∧ AllFinite second :=
  List.forall_mem_append

theorem allFinite_flatMap {Value : Type} (values : List Value) (singles : Value → List Single) :
    AllFinite (values.flatMap singles) ↔ ∀ value ∈ values, AllFinite (singles value) := by
  constructor
  · intro finite value member single inside
    exact finite single (List.mem_flatMap.mpr ⟨value, member, inside⟩)
  · intro finite single member
    obtain ⟨value, outside, inside⟩ := List.mem_flatMap.mp member
    exact finite value outside single inside

theorem Basis.allFinite_entries (basis : Basis) : AllFinite basis.matrix.entries := by
  cases basis <;> decide

theorem ParamSource.allFinite_of_resolve {dictionary : Dictionary} {source : ParamSource}
    {param : Param} (success : source.resolve dictionary = .ok param)
    (finite : AllFinite source.singles) :
    AllFinite ((Token.param param).flatMap Token.singles) := by
  have values : AllFinite (Token.values param.values).singles := by
    cases source with
    | typed given =>
        cases success
        exact finite
    | token text values =>
        obtain ⟨declaration, -, rfl⟩ := exists_of_map_eq_ok success
        exact finite
  rw [Token.param, List.flatMap_cons, List.flatMap_singleton]
  exact values

/-- The tokens of resolved parameters are as finite as the given values. -/
theorem ParamSource.allFinite_of_resolveAll {dictionary : Dictionary} {sources : List ParamSource}
    {params : List Param} (success : resolveAll dictionary sources = .ok params)
    (finite : AllFinite (sources.flatMap singles)) :
    AllFinite ((params.flatMap Token.param).flatMap Token.singles) := by
  rw [List.flatMap_assoc, allFinite_flatMap]
  rw [allFinite_flatMap] at finite
  intro param member
  obtain ⟨source, inside, resolved⟩ := exists_of_mem_mapM success member
  exact allFinite_of_resolve resolved (finite source inside)

/-- A name of a basis is resolved to one of the standard matrices, which are finite. -/
theorem BasisSource.allFinite_of_resolve {source : BasisSource} {matrix : Matrix}
    (success : source.resolve = .ok matrix)
    (finite : AllFinite (Argument.basis source).singles) : AllFinite matrix.entries := by
  cases source with
  | named name =>
      obtain ⟨basis, -, rfl⟩ := exists_of_map_eq_ok success
      exact basis.allFinite_entries
  | matrix value =>
      cases success
      exact finite

theorem Argument.allFinite_of_resolve {argument resolved : Argument}
    (success : argument.resolve = .ok resolved) (finite : AllFinite argument.singles) :
    AllFinite resolved.singles := by
  cases argument with
  | token value =>
      cases success
      exact finite
  | function vocabulary source =>
      obtain ⟨handle, -, rfl⟩ := exists_of_map_eq_ok success
      exact finite
  | basis source =>
      obtain ⟨matrix, resolves, rfl⟩ := exists_of_map_eq_ok success
      exact BasisSource.allFinite_of_resolve resolves finite

theorem Argument.allFinite_of_written {argument : Argument} {token : Token}
    (success : argument.written = .ok token) (finite : AllFinite argument.singles) :
    AllFinite token.singles := by
  cases argument with
  | token value =>
      cases success
      exact finite
  | function vocabulary source =>
      rw [written] at success
      cases handle : source.resolve vocabulary with
      | error error => simp [handle, bind, Except.bind] at success
      | ok number =>
          cases name : vocabulary.name number with
          | error error => simp [handle, name, bind, Except.bind] at success
          | ok text =>
              simp only [handle, name, bind, Except.bind, pure, Except.pure,
                Except.ok.injEq] at success
              subst success
              exact fun value absent => absurd absent List.not_mem_nil
  | basis source =>
      obtain ⟨matrix, resolves, rfl⟩ := exists_of_map_eq_ok success
      have entries := BasisSource.allFinite_of_resolve resolves finite
      rw [Token.basis]
      cases Basis.recognize? matrix with
      | none => exact entries
      | some basis => exact fun value absent => absurd absent List.not_mem_nil

/-- A request that is resolved from finite numbers has finite numbers only. -/
theorem Layout.allFinite_of_resolve {dictionary : Dictionary} {layout : Layout}
    {line : RequestLine} (success : layout.resolve dictionary = .ok line)
    (finite : AllFinite layout.singles) : AllFinite line.singles := by
  obtain ⟨arguments, params, tokens, resolved, parameters, written, rfl⟩ := parts_of_resolve success
  rw [singles, allFinite_append, allFinite_flatMap] at finite
  rw [RequestLine.singles, List.flatMap_append, allFinite_append, allFinite_flatMap]
  refine ⟨?_, ParamSource.allFinite_of_resolveAll parameters finite.2⟩
  intro token member
  obtain ⟨argument, inside, source⟩ := exists_of_mem_mapM written member
  obtain ⟨given, known, origin⟩ := exists_of_mem_mapM resolved inside
  exact Argument.allFinite_of_written source
    (Argument.allFinite_of_resolve origin (finite.1 given known))

end RibStream
