/-
This file lists the requests that change the coordinate system.
-/

import RibStream.Request.Layout

namespace RibStream

inductive Placement where
  | identity
  | transform (matrix : Matrix)
  | concatTransform (matrix : Matrix)
  | perspective (fov : Single)
  | translate (dx dy dz : Single)
  | rotate (angle dx dy dz : Single)
  | scale (sx sy sz : Single)
  | skew (angle dx1 dy1 dz1 dx2 dy2 dz2 : Single)
  | coordinateSystem (space : String)
  | coordSysTransform (space : String)
deriving DecidableEq

def Placement.layout : Placement → Layout
  | identity => .fixed "Identity" []
  | transform matrix => .fixed "Transform" [.matrix matrix]
  | concatTransform matrix => .fixed "ConcatTransform" [.matrix matrix]
  | perspective fov => .fixed "Perspective" [.float fov]
  | translate dx dy dz => .fixed "Translate" [.float dx, .float dy, .float dz]
  | rotate angle dx dy dz => .fixed "Rotate" [.float angle, .float dx, .float dy, .float dz]
  | scale sx sy sz => .fixed "Scale" [.float sx, .float sy, .float sz]
  | skew angle dx1 dy1 dz1 dx2 dy2 dz2 =>
      .fixed "Skew" [.float angle, .float dx1, .float dy1, .float dz1, .float dx2, .float dy2,
        .float dz2]
  | coordinateSystem space => .fixed "CoordinateSystem" [.string space]
  | coordSysTransform space => .fixed "CoordSysTransform" [.string space]

end RibStream
