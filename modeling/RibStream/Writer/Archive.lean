/-
This file inlines archives.
An archive that is inlined is replayed statement by statement in place of the request that names it.
-/

import RibStream.Writer.Issue

namespace RibStream

/-- A question about names, which changes nothing. -/
inductive Service where
  | filter (name : String)
  | errorHandler (name : String)
  | procedural (name : String)
  | basis (name : String)
  | declaration (token : String)
deriving DecidableEq

def Service.answer (dictionary : Dictionary) : Service → Except Error Reply
  | filter name => (Vocabulary.filters.handle name).map .function
  | errorHandler name => (Vocabulary.errorHandlers.handle name).map .function
  | procedural name => (Vocabulary.procedurals.handle name).map .function
  | basis name => (Basis.ofName name).map fun basis => .basis basis.matrix
  | declaration token => (dictionary.resolve token).map .declaration

/-- A statement of a session or of an archive. Beside requests and questions it can change the room in
the sink, or be one that cannot be read, with the error for it. -/
inductive Statement where
  | request (request : Request)
  | service (service : Service)
  | room (room : Option Nat)
  | unreadable (error : Error)
deriving DecidableEq

/-- What a parser does with a stream. It issues statements one after the other, each of which can
depend on the answers to those before. An error need not end it. -/
inductive Script where
  | done (result : Except Error Unit)
  | issue (statement : Statement) (next : Except Error Reply → Script)

/-- Replays statements in order up to the first failure. -/
def Script.replaying : List Statement → Script
  | [] => .done (.ok ())
  | statement :: rest => .issue statement fun
      | .ok _ => replaying rest
      | .error error => .done (.error error)

/-- The files that archives are read from, and the parser that reads them under the name of the
stream. -/
structure Archives where
  Content : Type
  files : Files Content
  parse : String → Content → Script

namespace Archives

def empty : Archives := ⟨Unit, .empty, fun _ _ => .done (.ok ())⟩

/-- Archives that hold statements, with a parser that replays them. -/
def replaying (files : Files (List Statement)) : Archives :=
  ⟨List Statement, files, fun _ statements => .replaying statements⟩

end Archives

namespace Writer

/-- Carries out a script. -/
def runScript (run : Statement → Writer → Outcome Reply) : Script → Writer → Outcome Unit
  | .done result, writer => (result, writer)
  | .issue statement next, writer =>
      let (answer, writer) := run statement writer
      runScript run (next answer) writer

/-- The parser for archives, which is made when it is first needed. -/
def takeParser (writer : Writer) : Outcome Unit :=
  if writer.parserMade then (.ok (), writer)
  else if writer.hasParser then
    (.ok (), { writer with parserMade := true, trace.parsers := writer.trace.parsers + 1 })
  else (.error .parserMissing, writer)

/-- Finds an archive on the search path, opens its file and makes sure that it can be parsed. -/
def openArchive (archives : Archives) (name : String) (writer : Writer) : Outcome archives.Content :=
  match writer.searchPath.locate? archives.files name with
  | some (path, file) =>
      let writer := writer.log (.archiveResolved name path)
      match archives.files.read file with
      | .ok content =>
          let (result, writer) := writer.takeParser
          (result.map fun () => content, writer)
      | .error error => (.error error, writer)
  | none => (.error (.fileNotFound name), writer)

/-- Hands an archive to the parser under the name given in the request. -/
def replayArchive (archives : Archives) (replay : Script → Writer → Outcome Unit) (name : String)
    (content : archives.Content) (writer : Writer) : Outcome Unit :=
  let writer := writer.log (.archiveOpened name)
  match replay (archives.parse name content)
      { writer with trace.archives := writer.trace.archives.push name } with
  | (.ok (), writer) => (.ok (), writer.log (.archiveFinished name))
  | (.error error, writer) => (.error error, writer)

/-- The request to read an archive, written as such. -/
def emitArchive (name : String) (params : List Param) (writer : Writer) : Outcome Unit :=
  writer.emit ⟨"ReadArchive", .string name :: params.flatMap Token.param⟩

/-- Replaces an archive by its statements if that is asked for and possible. Otherwise the request is
written. -/
def readArchive (archives : Archives) (replay : Script → Writer → Outcome Unit) (name : String)
    (params : List Param) (writer : Writer) : Outcome Unit :=
  if writer.interpolateArchives then
    match writer.openArchive archives name with
    | (.ok content, writer) => replayArchive archives replay name content writer
    | (.error cause, writer) =>
        (writer.log (.archiveUnavailable name cause)).emitArchive name params
  else writer.emitArchive name params

def runStatement (archives : Archives) (replay : Script → Writer → Outcome Unit)
    (statement : Statement) (writer : Writer) : Outcome Reply :=
  match statement with
  | .request request => writer.issue (readArchive archives replay) request
  | .service service => (service.answer writer.dictionary, writer)
  | .room room =>
      (.ok .done, { writer with stream.sink := writer.stream.sink.grant room })
  | .unreadable error => (.error error, writer)

/-- Carries out what the parser does with an archive. The archives inside of it can nest up to the
given depth. -/
def replay (archives : Archives) : Nat → Script → Writer → Outcome Unit
  | 0, _, writer => (.error .nestingExceeded, writer)
  | depth + 1, script, writer =>
      runScript (runStatement archives (replay archives depth)) script writer

/-- A depth that is enough for archives that do not read themselves, since each of them is open at
most once. The spare levels let an archive that reads itself go on until a full sink stops it. -/
def nestingLimit (archives : Archives) : Nat :=
  archives.files.count + 10000

/-- Runs one statement of a session. -/
def run (archives : Archives) (statement : Statement) (writer : Writer) : Outcome Reply :=
  runStatement archives (replay archives (nestingLimit archives)) statement writer

end Writer

end RibStream
