/-
This file defines colors and points.
-/

import RibStream.Single

namespace RibStream

/-- The components of a color or the coordinates of a point. -/
structure Triple where
  first : Single
  second : Single
  third : Single
deriving DecidableEq

def Triple.entries (triple : Triple) : List Single :=
  [triple.first, triple.second, triple.third]

end RibStream
