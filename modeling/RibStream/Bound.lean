/-
This file defines bounding boxes.
-/

import RibStream.Single

namespace RibStream

/-- A box with its faces perpendicular to the axes. -/
structure Bound where
  xmin : Single
  xmax : Single
  ymin : Single
  ymax : Single
  zmin : Single
  zmax : Single
deriving DecidableEq

def Bound.entries (bound : Bound) : List Single :=
  [bound.xmin, bound.xmax, bound.ymin, bound.ymax, bound.zmin, bound.zmax]

end RibStream
