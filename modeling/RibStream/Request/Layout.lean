/-
This file defines the form in which requests are written.
-/

import RibStream.Token
import RibStream.Vocabulary

namespace RibStream

/-- An argument is a token, or stands for the token of a function or of a basis. -/
inductive Argument where
  | token (value : Token)
  | function (vocabulary : Vocabulary) (source : FunctionSource)
  | basis (source : BasisSource)
deriving DecidableEq

namespace Argument

/-- Replaces names by the handles and matrices they stand for. -/
def resolve : Argument → Except Error Argument
  | .token value => .ok (.token value)
  | .function vocabulary source =>
      (source.resolve vocabulary).map fun handle => .function vocabulary (.handle handle)
  | .basis source => source.resolve.map fun matrix => .basis (.matrix matrix)

/-- A function is written by its name, so its handle must be known. -/
def written : Argument → Except Error Token
  | .token value => .ok value
  | .function vocabulary source => do
      let handle ← source.resolve vocabulary
      let name ← vocabulary.name handle
      return .string name
  | .basis source => source.resolve.map Token.basis

end Argument

/-- The name of a request and its tokens in order. -/
structure RequestLine where
  name : String
  tokens : List Token
deriving DecidableEq

/-- A request as it is given: its name, its arguments in order and its parameters. -/
structure Layout where
  name : String
  arguments : List Argument
  parameters : List ParamSource
deriving DecidableEq

namespace Layout

def withParams (name : String) (tokens : List Token) (parameters : List ParamSource) : Layout :=
  ⟨name, tokens.map .token, parameters⟩

def fixed (name : String) (tokens : List Token) : Layout :=
  withParams name tokens []

/-- Names and parameter types are looked up from left to right. Only then are handles checked. -/
def resolve (dictionary : Dictionary) (layout : Layout) : Except Error RequestLine := do
  let arguments ← layout.arguments.mapM Argument.resolve
  let params ← ParamSource.resolveAll dictionary layout.parameters
  let tokens ← arguments.mapM Argument.written
  return ⟨layout.name, tokens ++ params.flatMap Token.param⟩

/-- A resolved line is put together from resolved arguments and resolved parameters. -/
theorem parts_of_resolve {dictionary : Dictionary} {layout : Layout} {line : RequestLine}
    (success : layout.resolve dictionary = .ok line) :
    ∃ arguments params tokens, layout.arguments.mapM Argument.resolve = .ok arguments ∧
      ParamSource.resolveAll dictionary layout.parameters = .ok params ∧
      arguments.mapM Argument.written = .ok tokens ∧
      line = ⟨layout.name, tokens ++ params.flatMap Token.param⟩ := by
  unfold resolve at success
  cases arguments : layout.arguments.mapM Argument.resolve with
  | error error => simp [arguments, bind, Except.bind] at success
  | ok resolved =>
      cases parameters : ParamSource.resolveAll dictionary layout.parameters with
      | error error => simp [arguments, parameters, bind, Except.bind] at success
      | ok params =>
          cases tokens : resolved.mapM Argument.written with
          | error error => simp [arguments, parameters, tokens, bind, Except.bind] at success
          | ok written =>
              simp only [arguments, parameters, tokens, bind, Except.bind, pure, Except.pure,
                Except.ok.injEq] at success
              exact ⟨resolved, params, written, rfl, rfl, tokens, success.symm⟩

theorem name_of_resolve {dictionary : Dictionary} {layout : Layout} {line : RequestLine}
    (success : layout.resolve dictionary = .ok line) : line.name = layout.name := by
  obtain ⟨arguments, params, tokens, -, -, -, rfl⟩ := parts_of_resolve success
  rfl

end Layout

end RibStream
