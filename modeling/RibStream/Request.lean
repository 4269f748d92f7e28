/-
This file collects the requests of a scene.
-/

import RibStream.Request.Appearance
import RibStream.Request.Block
import RibStream.Request.Camera
import RibStream.Request.Placement
import RibStream.Request.Shape
import RibStream.Request.TextureMap

namespace RibStream

/-- The requests whose only effect is that they are written. -/
inductive PlainRequest where
  | camera (request : Camera)
  | appearance (request : Appearance)
  | placement (request : Placement)
  | shape (request : Shape)
  | textureMap (request : TextureMap)
  | resource (handle kind : String) (parameters : List ParamSource)
  | elseIf (condition : String)
  | otherwise
  | errorHandler (handler : FunctionSource)
deriving DecidableEq

def PlainRequest.layout : PlainRequest → Layout
  | camera request => request.layout
  | appearance request => request.layout
  | placement request => request.layout
  | shape request => request.layout
  | textureMap request => request.layout
  | resource handle kind parameters =>
      .withParams "Resource" [.string handle, .string kind] parameters
  | elseIf condition => .fixed "ElseIf" [.string condition]
  | otherwise => .fixed "Else" []
  | errorHandler handler => ⟨"ErrorHandler", [.function .errorHandlers handler], []⟩

inductive Request where
  | plain (request : PlainRequest)
  | record (kind text : String)
  | report (message : String)
  | declare (name declaration : String)
  | option (name : String) (parameters : List ParamSource)
  | lightSource (name : String) (parameters : List ParamSource)
  | areaLightSource (name : String) (parameters : List ParamSource)
  | opening (block : Opening)
  | objectBegin
  | closing (block : Closing)
  /-- The flag `release` says that the caller wants its strings back. -/
  | procedural (strings : List String) (bound : Bound) (refine : FunctionSource) (release : Bool)
  | readArchive (name : String) (parameters : List ParamSource)
deriving DecidableEq

/-- The number of strings that a procedural of the given name takes. -/
def proceduralArity (name : String) : Nat :=
  if name = "DelayedReadArchive" then 1 else 2

/-- The line of a procedural. Strings beyond those it takes are left out. -/
def proceduralLine (strings : List String) (bound : Bound) (refine : Nat) :
    Except Error RequestLine := do
  let name ← Vocabulary.procedurals.name refine
  let arity := proceduralArity name
  if strings.length < arity then
    throw (.badArgument "Procedural"
      (name ++ " takes " ++ toString arity ++ " string arguments, got " ++ toString strings.length))
  return ⟨"Procedural", [.string name, .strings (strings.take arity), .bound bound]⟩

end RibStream
