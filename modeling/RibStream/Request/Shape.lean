/-
This file lists the requests that place geometry.
-/

import RibStream.Request.Layout

namespace RibStream

inductive Shape where
  | polygon (parameters : List ParamSource)
  | generalPolygon (nverts : List Int32) (parameters : List ParamSource)
  | pointsPolygons (nverts verts : List Int32) (parameters : List ParamSource)
  | pointsGeneralPolygons (nloops nverts verts : List Int32) (parameters : List ParamSource)
  | basis (ubasis : BasisSource) (ustep : Int32) (vbasis : BasisSource) (vstep : Int32)
  | patch (kind : String) (parameters : List ParamSource)
  | patchMesh (kind : String) (nu : Int32) (uwrap : String) (nv : Int32) (vwrap : String)
      (parameters : List ParamSource)
  | nuPatch (nu uorder : Int32) (uknot : List Single) (umin umax : Single) (nv vorder : Int32)
      (vknot : List Single) (vmin vmax : Single) (parameters : List ParamSource)
  | trimCurve (ncurves order : List Int32) (knot min max : List Single) (n : List Int32)
      (u v w : List Single)
  | subdivisionMesh (scheme : String) (nvertices vertices : List Int32) (tags : List String)
      (nargs intargs : List Int32) (floatargs : List Single) (parameters : List ParamSource)
  | sphere (radius zmin zmax thetaMax : Single) (parameters : List ParamSource)
  | cone (height radius thetaMax : Single) (parameters : List ParamSource)
  | cylinder (radius zmin zmax thetaMax : Single) (parameters : List ParamSource)
  | hyperboloid (point1 point2 : Triple) (thetaMax : Single) (parameters : List ParamSource)
  | paraboloid (rmax zmin zmax thetaMax : Single) (parameters : List ParamSource)
  | disk (height radius thetaMax : Single) (parameters : List ParamSource)
  | torus (majorRadius minorRadius phiMin phiMax thetaMax : Single) (parameters : List ParamSource)
  | points (parameters : List ParamSource)
  | curves (kind : String) (nvertices : List Int32) (wrap : String) (parameters : List ParamSource)
  | blobby (nleaf : Int32) (code : List Int32) (floats : List Single) (strings : List String)
      (parameters : List ParamSource)
  | geometry (kind : String) (parameters : List ParamSource)
  | objectInstance (object : Nat)
deriving DecidableEq

def Shape.layout : Shape → Layout
  | polygon parameters => .withParams "Polygon" [] parameters
  | generalPolygon nverts parameters =>
      .withParams "GeneralPolygon" [.ints nverts] parameters
  | pointsPolygons nverts verts parameters =>
      .withParams "PointsPolygons" [.ints nverts, .ints verts] parameters
  | pointsGeneralPolygons nloops nverts verts parameters =>
      .withParams "PointsGeneralPolygons" [.ints nloops, .ints nverts, .ints verts]
        parameters
  | basis ubasis ustep vbasis vstep =>
      ⟨"Basis", [.basis ubasis, .token (.int ustep), .basis vbasis, .token (.int vstep)], []⟩
  | patch kind parameters => .withParams "Patch" [.string kind] parameters
  | patchMesh kind nu uwrap nv vwrap parameters =>
      .withParams "PatchMesh"
        [.string kind, .int nu, .string uwrap, .int nv, .string vwrap] parameters
  | nuPatch nu uorder uknot umin umax nv vorder vknot vmin vmax parameters =>
      .withParams "NuPatch"
        [.int nu, .int uorder, .floats uknot, .float umin, .float umax,
          .int nv, .int vorder, .floats vknot, .float vmin, .float vmax] parameters
  | trimCurve ncurves order knot min max n u v w =>
      .fixed "TrimCurve"
        [.ints ncurves, .ints order, .floats knot, .floats min, .floats max, .ints n,
          .floats u, .floats v, .floats w]
  | subdivisionMesh scheme nvertices vertices tags nargs intargs floatargs parameters =>
      .withParams "SubdivisionMesh"
        [.string scheme, .ints nvertices, .ints vertices, .strings tags, .ints nargs, .ints intargs,
          .floats floatargs] parameters
  | sphere radius zmin zmax thetaMax parameters =>
      .withParams "Sphere" [.float radius, .float zmin, .float zmax, .float thetaMax]
        parameters
  | cone height radius thetaMax parameters =>
      .withParams "Cone" [.float height, .float radius, .float thetaMax] parameters
  | cylinder radius zmin zmax thetaMax parameters =>
      .withParams "Cylinder" [.float radius, .float zmin, .float zmax, .float thetaMax]
        parameters
  | hyperboloid point1 point2 thetaMax parameters =>
      .withParams "Hyperboloid"
        (Token.triple point1 ++ Token.triple point2 ++ [.float thetaMax]) parameters
  | paraboloid rmax zmin zmax thetaMax parameters =>
      .withParams "Paraboloid" [.float rmax, .float zmin, .float zmax, .float thetaMax]
        parameters
  | disk height radius thetaMax parameters =>
      .withParams "Disk" [.float height, .float radius, .float thetaMax] parameters
  | torus majorRadius minorRadius phiMin phiMax thetaMax parameters =>
      .withParams "Torus"
        [.float majorRadius, .float minorRadius, .float phiMin, .float phiMax, .float thetaMax]
        parameters
  | points parameters => .withParams "Points" [] parameters
  | curves kind nvertices wrap parameters =>
      .withParams "Curves" [.string kind, .ints nvertices, .string wrap] parameters
  | blobby nleaf code floats strings parameters =>
      .withParams "Blobby" [.int nleaf, .ints code, .floats floats, .strings strings]
        parameters
  | geometry kind parameters => .withParams "Geometry" [.string kind] parameters
  | objectInstance object => .fixed "ObjectInstance" [.handle object]

end RibStream
