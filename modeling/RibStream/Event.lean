/-
This file lists what a writer reports beside the stream.
-/

import RibStream.Error
import RibStream.Options

namespace RibStream

inductive Severity where
  | debug | warning | error
deriving DecidableEq

def Severity.label : Severity → String
  | debug => "DEBUG"
  | warning => "WARN"
  | error => "ERROR"

inductive Event where
  | created (options : Options)
  | unmatchedEnd
  | reported (message : String)
  | searchPathUpdated (path : String)
  | archiveResolved (archive path : String)
  | archiveUnavailable (archive : String) (cause : Error)
  | archiveOpened (archive : String)
  | archiveFinished (archive : String)
  | finishFailed (cause : Error)
deriving DecidableEq

namespace Event

def severity : Event → Severity
  | created _ => .debug
  | unmatchedEnd => .warning
  | reported _ => .error
  | searchPathUpdated _ => .debug
  | archiveResolved _ _ => .debug
  | archiveUnavailable _ _ => .error
  | archiveOpened _ => .debug
  | archiveFinished _ => .debug
  | finishFailed _ => .error

def message : Event → String
  | created _ => "creating RIB writer"
  | unmatchedEnd => "End request without matching Begin, indentation left at 0"
  | reported message => message
  | searchPathUpdated _ => "archive search path updated"
  | archiveResolved _ _ => "resolved archive"
  | archiveUnavailable archive _ => "could not ReadArchive file \"" ++ archive ++ "\""
  | archiveOpened _ => "inlining archive"
  | archiveFinished _ => "finished inlining archive"
  | finishFailed _ => "failed to finish RIB stream"

/-- The values that belong to the message, by name. -/
def fields : Event → List (String × String)
  | created options => [("options", options.text)]
  | unmatchedEnd => []
  | reported _ => []
  | searchPathUpdated path => [("path", path)]
  | archiveResolved archive path => [("archive", archive), ("path", path)]
  | archiveUnavailable archive cause => [("archive", archive), ("error", cause.message)]
  | archiveOpened archive => [("archive", archive)]
  | archiveFinished archive => [("archive", archive)]
  | finishFailed cause => [("error", cause.message)]

end Event

end RibStream
