/-
This file carries out the requests of a scene, one at a time.
A request is checked first. What it changes in the writer and when is said at each kind of request.
-/

import RibStream.Writer.Basic

namespace RibStream.Writer

/-- Writes a request that has no other effect. -/
def write (writer : Writer) (layout : Layout) : Outcome Unit :=
  match layout.resolve writer.dictionary with
  | .ok line => writer.emit line
  | .error error => (.error error, writer)

def record (writer : Writer) (kind text : String) : Outcome Unit :=
  let (result, stream) := writer.stream.record kind text
  (result, { writer with stream })

/-- A readable declaration is in force even when the sink refuses the request. -/
def declare (writer : Writer) (name declaration : String) : Outcome Unit :=
  match writer.dictionary.declare name declaration with
  | .ok (_, dictionary) =>
      { writer with dictionary }.emit ⟨"Declare", [.string name, .string declaration]⟩
  | .error error => (.error error, writer)

/-- The value that a parameter gives to the search path: the first string of a uniform string named
`archive`. -/
def archivePath? (param : Param) : Option String :=
  if param.name = "archive" ∧ param.spec = .uniform .string then param.firstString? else none

def expandSearchPath (writer : Writer) (path : String) : Writer :=
  { writer with searchPath := writer.searchPath.expand path }.log (.searchPathUpdated path)

/-- The option `searchpath` changes the search path once it has been written. -/
def option (writer : Writer) (name : String) (parameters : List ParamSource) : Outcome Unit :=
  match ParamSource.resolveAll writer.dictionary parameters with
  | .ok params =>
      match writer.emit ⟨"Option", .string name :: params.flatMap Token.param⟩ with
      | (.ok (), writer) =>
          (.ok (), if name = "searchpath" then
            (params.filterMap archivePath?).foldl expandSearchPath writer else writer)
      | (.error error, writer) => (.error error, writer)
  | .error error => (.error error, writer)

/-- Light sources of both kinds share one sequence of handles. A handle is used up even when the sink
refuses the request. -/
def lightSource (writer : Writer) (request name : String) (parameters : List ParamSource) :
    Outcome Nat :=
  match ParamSource.resolveAll writer.dictionary parameters with
  | .ok params =>
      match writer.lights.issue with
      | .ok (handle, lights) =>
          let (result, writer) := { writer with lights }.emit
            ⟨request, .string name :: .handle handle :: params.flatMap Token.param⟩
          (result.map fun () => handle, writer)
      | .error error => (.error error, writer)
  | .error error => (.error error, writer)

/-- The block is entered once its beginning has been written. -/
def openBlock (writer : Writer) (line : RequestLine) : Outcome Unit :=
  match writer.emit line with
  | (.ok (), writer) => (.ok (), writer.enter)
  | (.error error, writer) => (.error error, writer)

/-- The block is left before its end is written, so that the end is aligned with the beginning. -/
def closeBlock (writer : Writer) (line : RequestLine) : Outcome Unit :=
  writer.leave.emit line

/-- An object's handle is used up even when the sink refuses the request. -/
def objectBegin (writer : Writer) : Outcome Nat :=
  match writer.objects.issue with
  | .ok (handle, objects) =>
      let (result, writer) := { writer with objects }.openBlock ⟨"ObjectBegin", [.handle handle]⟩
      (result.map fun () => handle, writer)
  | .error error => (.error error, writer)

/-- The strings of an issued procedural are given back on every outcome. A procedural with an unknown
name is not issued. -/
def procedural (writer : Writer) (strings : List String) (bound : Bound) (refine : FunctionSource)
    (release : Bool) : Outcome Unit :=
  match refine.resolve .procedurals with
  | .ok handle =>
      let (result, writer) := match proceduralLine strings bound handle with
        | .ok line => writer.emit line
        | .error error => (.error error, writer)
      (result, if release then writer.release strings else writer)
  | .error error => (.error error, writer)

def reply (outcome : Outcome Unit) : Outcome Reply :=
  (outcome.1.map fun () => .done, outcome.2)

def replyHandle (outcome : Outcome Nat) : Outcome Reply :=
  (outcome.1.map Reply.handle, outcome.2)

/-- Carries out a request. Archives are read by `readArchive`, which is given their resolved
parameters. -/
def issue (readArchive : String → List Param → Writer → Outcome Unit) (request : Request)
    (writer : Writer) : Outcome Reply :=
  match request with
  | .plain request => reply (writer.write request.layout)
  | .record kind text => reply (writer.record kind text)
  | .report message => (.ok .done, writer.log (.reported message))
  | .declare name declaration => reply (writer.declare name declaration)
  | .option name parameters => reply (writer.option name parameters)
  | .lightSource name parameters => replyHandle (writer.lightSource "LightSource" name parameters)
  | .areaLightSource name parameters =>
      replyHandle (writer.lightSource "AreaLightSource" name parameters)
  | .opening block => reply (writer.openBlock block.line)
  | .objectBegin => replyHandle writer.objectBegin
  | .closing block => reply (writer.closeBlock block.line)
  | .procedural strings bound refine release =>
      reply (writer.procedural strings bound refine release)
  | .readArchive name parameters =>
      match ParamSource.resolveAll writer.dictionary parameters with
      | .ok params => reply (readArchive name params writer)
      | .error error => (.error error, writer)

end RibStream.Writer
