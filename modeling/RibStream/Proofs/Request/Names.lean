/-
This file lists the names of all requests.
They are words of letters, so no name can be taken for a blank or for a comment.
-/

import RibStream.Request

namespace RibStream

def Camera.names : List String :=
  ["Format", "FrameAspectRatio", "ScreenWindow", "CropWindow", "Projection", "Clipping",
    "ClippingPlane", "DepthOfField", "Shutter", "PixelVariance", "PixelSamples", "PixelFilter",
    "Exposure", "Imager", "Quantize", "Display", "Hider", "ColorSamples", "RelativeDetail"]

theorem Camera.name_mem (request : Camera) : request.layout.name ∈ names := by
  cases request <;> simp [names, layout, Layout.fixed, Layout.withParams]

def Appearance.names : List String :=
  ["Color", "Opacity", "TextureCoordinates", "Illuminate", "Surface", "Displacement",
    "Atmosphere", "Interior", "Exterior", "ShaderLayer", "ConnectShaderLayers", "ShadingRate",
    "ShadingInterpolation", "Matte", "Bound", "Detail", "DetailRange", "GeometricApproximation",
    "Orientation", "ReverseOrientation", "Sides", "Attribute"]

theorem Appearance.name_mem (request : Appearance) : request.layout.name ∈ names := by
  cases request <;> simp [names, layout, Layout.fixed, Layout.withParams]

def Placement.names : List String :=
  ["Identity", "Transform", "ConcatTransform", "Perspective", "Translate", "Rotate", "Scale",
    "Skew", "CoordinateSystem", "CoordSysTransform"]

theorem Placement.name_mem (request : Placement) : request.layout.name ∈ names := by
  cases request <;> simp [names, layout, Layout.fixed, Layout.withParams]

def Shape.names : List String :=
  ["Polygon", "GeneralPolygon", "PointsPolygons", "PointsGeneralPolygons", "Basis", "Patch",
    "PatchMesh", "NuPatch", "TrimCurve", "SubdivisionMesh", "Sphere", "Cone", "Cylinder",
    "Hyperboloid", "Paraboloid", "Disk", "Torus", "Points", "Curves", "Blobby", "Geometry",
    "ObjectInstance"]

theorem Shape.name_mem (request : Shape) : request.layout.name ∈ names := by
  cases request <;> simp [names, layout, Layout.fixed, Layout.withParams]

def TextureMap.names : List String :=
  ["MakeTexture", "MakeLatLongEnvironment", "MakeCubeFaceEnvironment", "MakeShadow",
    "MakeOcclusion"]

theorem TextureMap.name_mem (request : TextureMap) : request.layout.name ∈ names := by
  cases request <;> simp [names, layout, Layout.withParams]

/-- The names of the requests without further effect. -/
def PlainRequest.names : List String :=
  Camera.names ++ Appearance.names ++ Placement.names ++ Shape.names ++ TextureMap.names ++
    ["Resource", "ElseIf", "Else", "ErrorHandler"]

theorem PlainRequest.name_mem (request : PlainRequest) : request.layout.name ∈ names := by
  cases request with
  | camera request => simp [names, layout, request.name_mem]
  | appearance request => simp [names, layout, request.name_mem]
  | placement request => simp [names, layout, request.name_mem]
  | shape request => simp [names, layout, request.name_mem]
  | textureMap request => simp [names, layout, request.name_mem]
  | resource handle kind parameters => simp [names, layout, Layout.withParams]
  | elseIf condition => simp [names, layout, Layout.fixed, Layout.withParams]
  | otherwise => simp [names, layout, Layout.fixed, Layout.withParams]
  | errorHandler handler => simp [names, layout]

def Opening.names : List String :=
  ["FrameBegin", "WorldBegin", "IfBegin", "AttributeBegin", "TransformBegin", "ResourceBegin",
    "SolidBegin", "MotionBegin"]

theorem Opening.name_mem (block : Opening) : block.line.name ∈ names := by
  cases block <;> simp [names, line]

def Closing.names : List String :=
  ["FrameEnd", "WorldEnd", "IfEnd", "AttributeEnd", "TransformEnd", "ResourceEnd", "SolidEnd",
    "ObjectEnd", "MotionEnd"]

theorem Closing.name_mem (block : Closing) : block.line.name ∈ names := by
  cases block <;> simp [names, line]

/-- The names that a writer can send. -/
def Request.names : List String :=
  PlainRequest.names ++ Opening.names ++ Closing.names ++
    ["Declare", "Option", "LightSource", "AreaLightSource", "ObjectBegin", "Procedural",
      "ReadArchive"]

end RibStream
