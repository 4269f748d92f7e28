/-
This file defines the state of a writer.
-/

import RibStream.Event
import RibStream.Handle
import RibStream.Request
import RibStream.SearchPath
import RibStream.Stream

namespace RibStream

/-- What a writer has shown to its caller beside the stream: the events, the strings given back by
procedurals, the names of the archives handed to the parser, and the number of parsers made. -/
structure Trace where
  events : Array Event
  released : Array (List String)
  archives : Array String
  parsers : Nat

def Trace.empty : Trace := ⟨#[], #[], #[], 0⟩

/-- The state that requests depend on. A parser is made for the first archive that needs one and is
kept for all later ones. -/
structure Writer where
  stream : Stream
  dictionary : Dictionary
  lights : HandleCounter
  objects : HandleCounter
  searchPath : SearchPath
  interpolateArchives : Bool
  hasParser : Bool
  parserMade : Bool
  trace : Trace

/-- The answer to a request. -/
inductive Reply where
  | done
  | handle (value : Nat)
  | function (handle : Nat)
  | basis (matrix : Matrix)
  | declaration (declaration : Declaration)
deriving DecidableEq

/-- A result together with the writer after it, which goes on also after a failure. -/
abbrev Outcome (Result : Type) := Except Error Result × Writer

namespace Writer

/-- A new writer on a stream. The encoding is that of the stream, whatever the options say. -/
def ofStream (stream : Stream) (options : Options) : Writer where
  stream := stream
  dictionary := .standard
  lights := .start
  objects := .start
  searchPath := .empty
  interpolateArchives := options.interpolateArchives
  hasParser := options.hasParser
  parserMade := false
  trace := .empty

def ascii (sink : Sink) (options : Options) : Writer :=
  ofStream ⟨.startAscii, { sink with compressed := options.gzip }⟩ options

def binary (sink : Sink) (options : Options) : Writer :=
  ofStream ⟨.startBinary, { sink with compressed := options.gzip }⟩ options

def log (writer : Writer) (event : Event) : Writer :=
  { writer with trace.events := writer.trace.events.push event }

/-- A new writer with the encoding that the options ask for. -/
def create (sink : Sink) (options : Options) : Writer :=
  (if options.binary then binary sink options else ascii sink options).log (.created options)

/-- Ends the stream and returns what went wrong. -/
def finish (writer : Writer) : Except Error Unit :=
  writer.stream.finish

/-- Ends the stream of a writer that was not finished. There is no caller left to tell, so a failure
is logged. -/
def abandon (writer : Writer) : Writer :=
  match writer.stream.finish with
  | .ok () => writer
  | .error cause => writer.log (.finishFailed cause)

def enter (writer : Writer) : Writer :=
  { writer with stream := writer.stream.enter }

/-- Leaves a block. An end without a beginning is logged and otherwise ignored. -/
def leave (writer : Writer) : Writer :=
  let writer := if writer.stream.encoding.isOutermost then writer.log .unmatchedEnd else writer
  { writer with stream := writer.stream.leave }

/-- Gives its strings back to the caller of a procedural. -/
def release (writer : Writer) (strings : List String) : Writer :=
  { writer with trace.released := writer.trace.released.push strings }

def emit (writer : Writer) (line : RequestLine) : Outcome Unit :=
  let (result, stream) := writer.stream.request line.name line.tokens
  (result, { writer with stream })

end Writer

end RibStream
