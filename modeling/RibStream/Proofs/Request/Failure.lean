/-
This file says how the look-ups of a request fail.
Whatever a request refers to, it is rejected if that is not known.
-/

import RibStream.Proofs.Request.ByValue
import RibStream.Writer.Archive

namespace RibStream

theorem error_of_map_eq_error {Failure Value Result : Type} {change : Value → Result}
    {outcome : Except Failure Value} {failure : Failure}
    (failed : outcome.map change = .error failure) : outcome = .error failure := by
  cases outcome with
  | error cause => exact congrArg Except.error (Except.error.inj failed)
  | ok value => cases failed

/-- A sequence fails in its first step, or in what follows the success of that step. -/
theorem error_of_bind_eq_error {Failure Value Result : Type} {first : Except Failure Value}
    {next : Value → Except Failure Result} {failure : Failure}
    (failed : (first >>= next) = .error failure) :
    first = .error failure ∨ ∃ value, first = .ok value ∧ next value = .error failure := by
  cases first with
  | error cause => exact .inl (congrArg Except.error (Except.error.inj failed))
  | ok value => exact .inr ⟨value, rfl, failed⟩

variable {error : Error}

theorem Vocabulary.isRejection_of_handle {vocabulary : Vocabulary} {name : String}
    (failed : vocabulary.handle name = .error error) : error.IsRejection := by
  rw [handle] at failed
  split at failed <;> cases failed
  trivial

theorem Basis.isRejection_of_ofName {name : String} (failed : ofName name = .error error) :
    error.IsRejection := by
  rw [ofName] at failed
  split at failed <;> cases failed
  trivial

theorem Dictionary.isRejection_of_resolve {dictionary : Dictionary} {token : String}
    (failed : dictionary.resolve token = .error error) : error.IsRejection := by
  rw [resolve] at failed
  split at failed
  · cases failed
  · dsimp only at failed
    split at failed <;> cases failed
    trivial

theorem Dictionary.isRejection_of_declare {dictionary : Dictionary} {name declaration : String}
    (failed : dictionary.declare name declaration = .error error) : error.IsRejection := by
  rw [declare] at failed
  split at failed <;> cases failed
  trivial

theorem FunctionSource.isRejection_of_resolve {vocabulary : Vocabulary} {source : FunctionSource}
    (failed : source.resolve vocabulary = .error error) : error.IsRejection := by
  cases source with
  | named name => exact Vocabulary.isRejection_of_handle failed
  | handle number => cases failed

theorem BasisSource.isRejection_of_resolve {source : BasisSource}
    (failed : source.resolve = .error error) : error.IsRejection := by
  cases source with
  | named name => exact Basis.isRejection_of_ofName (error_of_map_eq_error failed)
  | matrix value => cases failed

theorem Argument.isRejection_of_resolve {argument : Argument}
    (failed : argument.resolve = .error error) : error.IsRejection := by
  cases argument with
  | token value => cases failed
  | function vocabulary source =>
      exact FunctionSource.isRejection_of_resolve (error_of_map_eq_error failed)
  | basis source => exact BasisSource.isRejection_of_resolve (error_of_map_eq_error failed)

theorem Argument.isRejection_of_written {argument : Argument}
    (failed : argument.written = .error error) : error.IsRejection := by
  cases argument with
  | token value => cases failed
  | function vocabulary source =>
      rcases error_of_bind_eq_error failed with unresolved | ⟨handle, -, unwritten⟩
      · exact FunctionSource.isRejection_of_resolve unresolved
      · rcases error_of_bind_eq_error unwritten with unknown | ⟨name, -, named⟩
        · rw [Vocabulary.name_error unknown]
          trivial
        · cases named
  | basis source => exact BasisSource.isRejection_of_resolve (error_of_map_eq_error failed)

theorem ParamSource.isRejection_of_resolveAll {dictionary : Dictionary} {sources : List ParamSource}
    (failed : resolveAll dictionary sources = .error error) : error.IsRejection := by
  obtain ⟨source, -, unresolved⟩ := exists_of_mapM_error failed
  cases source with
  | typed param => cases unresolved
  | token text values =>
      exact Dictionary.isRejection_of_resolve (error_of_map_eq_error unresolved)

/-- A line that cannot be put together refers to something that is not known. -/
theorem Layout.isRejection_of_resolve {dictionary : Dictionary} {layout : Layout}
    (failed : layout.resolve dictionary = .error error) : error.IsRejection := by
  rcases error_of_bind_eq_error failed with arguments | ⟨resolved, -, later⟩
  · obtain ⟨argument, -, unresolved⟩ := exists_of_mapM_error arguments
    exact Argument.isRejection_of_resolve unresolved
  · rcases error_of_bind_eq_error later with parameters | ⟨params, -, last⟩
    · exact ParamSource.isRejection_of_resolveAll parameters
    · rcases error_of_bind_eq_error last with tokens | ⟨tokens, -, done⟩
      · obtain ⟨argument, -, unknown⟩ := exists_of_mapM_error tokens
        exact Argument.isRejection_of_written unknown
      · cases done

theorem Service.isRejection_of_answer {service : Service} {dictionary : Dictionary}
    (failed : service.answer dictionary = .error error) : error.IsRejection := by
  cases service with
  | filter name | errorHandler name | procedural name =>
      exact Vocabulary.isRejection_of_handle (error_of_map_eq_error failed)
  | basis name => exact Basis.isRejection_of_ofName (error_of_map_eq_error failed)
  | declaration token => exact Dictionary.isRejection_of_resolve (error_of_map_eq_error failed)

end RibStream
