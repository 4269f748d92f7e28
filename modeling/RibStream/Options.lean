/-
This file defines the settings of a writer.
-/

namespace RibStream

structure Options where
  interpolateArchives : Bool
  binary : Bool
  gzip : Bool
  /-- A parser for archives is available. -/
  hasParser : Bool
deriving DecidableEq

def Options.text (options : Options) : String :=
  "RibOptions \x7b interpolate_archives: " ++ toString options.interpolateArchives ++
    ", binary: " ++ toString options.binary ++
    ", gzip: " ++ toString options.gzip ++
    ", has_parser: " ++ toString options.hasParser ++ " \x7d"

end RibStream
