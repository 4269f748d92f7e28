/-
This file spells out how every request reads: its name, and its arguments and parameters as tokens.
It is a table for readers of a stream, and nothing in it depends on how a writer lays a request out.
-/

import RibStream.Handle
import RibStream.Proofs.Basis.Recognition
import RibStream.Proofs.Request.Resolved

namespace RibStream

/-- A color or a point reads as three floats. -/
def Triple.spelled (triple : Triple) : List Token :=
  [.float triple.first, .float triple.second, .float triple.third]

/-- The least and the greatest value on each axis. -/
def Bound.spelled (bound : Bound) : Token :=
  .floats [bound.xmin, bound.xmax, bound.ymin, bound.ymax, bound.zmin, bound.zmax]

/-- The rows of a matrix, one after the other. -/
def Matrix.spelled (matrix : Matrix) : Token :=
  .floats matrix.rowMajor

/-- All values of a parameter are one array. -/
def Values.spelled : Values → Token
  | floats values => .floats values
  | integers values => .ints values
  | strings values => .strings values

/-- The type and the name in one string, then the values. -/
def Param.spelled (param : Param) : List Token :=
  [.string (param.spec.text ++ " " ++ param.name), param.values.spelled]

/-- A token reads as the declaration that it stands for. -/
def ParamSource.spelled? (dictionary : Dictionary) : ParamSource → Option (List Token)
  | .typed param => some param.spelled
  | .token text values =>
      (dictionary.resolve text).toOption.map fun declaration =>
        [.string (declaration.spec.text ++ " " ++ declaration.name), values.spelled]

/-- A function reads as its name, also where its number was given. -/
def FunctionSource.name? (vocabulary : Vocabulary) : FunctionSource → Option String
  | .named name => if name ∈ vocabulary.names then some name else none
  | .handle 0 => none
  | .handle (index + 1) => vocabulary.names[index]?

/-- A standard basis reads as its name, also where its matrix was given. -/
def BasisSource.spelled? : BasisSource → Option Token
  | .named name => if name ∈ Basis.all.map Basis.name then some (.string name) else none
  | .matrix value =>
      match Basis.recognize? value with
      | some basis => some (.string basis.name)
      | none => some value.spelled

/-- Tokens followed by parameters. -/
def spell (dictionary : Dictionary) (name : String) (tokens : List Token)
    (parameters : List ParamSource) : Option RequestLine :=
  (parameters.mapM (ParamSource.spelled? dictionary)).map fun params =>
    ⟨name, tokens ++ params.flatten⟩

variable (dictionary : Dictionary)

def Camera.spelled? : Camera → Option RequestLine
  | format xresolution yresolution ratio =>
      some ⟨"Format", [.int xresolution, .int yresolution, .float ratio]⟩
  | frameAspectRatio ratio => some ⟨"FrameAspectRatio", [.float ratio]⟩
  | screenWindow left right bottom top =>
      some ⟨"ScreenWindow", [.float left, .float right, .float bottom, .float top]⟩
  | cropWindow xmin xmax ymin ymax =>
      some ⟨"CropWindow", [.float xmin, .float xmax, .float ymin, .float ymax]⟩
  | projection name parameters => spell dictionary "Projection" [.string name] parameters
  | clipping near far => some ⟨"Clipping", [.float near, .float far]⟩
  | clippingPlane x y z nx ny nz =>
      some ⟨"ClippingPlane", [.float x, .float y, .float z, .float nx, .float ny, .float nz]⟩
  | depthOfField fstop focalLength focalDistance =>
      some ⟨"DepthOfField", [.float fstop, .float focalLength, .float focalDistance]⟩
  | shutter openTime closeTime => some ⟨"Shutter", [.float openTime, .float closeTime]⟩
  | pixelVariance variance => some ⟨"PixelVariance", [.float variance]⟩
  | pixelSamples xsamples ysamples => some ⟨"PixelSamples", [.float xsamples, .float ysamples]⟩
  | pixelFilter function xwidth ywidth =>
      (function.name? .filters).map fun filter =>
        ⟨"PixelFilter", [.string filter, .float xwidth, .float ywidth]⟩
  | exposure gain gamma => some ⟨"Exposure", [.float gain, .float gamma]⟩
  | imager name parameters => spell dictionary "Imager" [.string name] parameters
  | quantize kind one min max ditherAmplitude =>
      some ⟨"Quantize", [.string kind, .int one, .int min, .int max, .float ditherAmplitude]⟩
  | display name kind mode parameters =>
      spell dictionary "Display" [.string name, .string kind, .string mode] parameters
  | hider name parameters => spell dictionary "Hider" [.string name] parameters
  | colorSamples nRgb rgbN => some ⟨"ColorSamples", [.floats nRgb, .floats rgbN]⟩
  | relativeDetail detail => some ⟨"RelativeDetail", [.float detail]⟩

def Appearance.spelled? : Appearance → Option RequestLine
  | color value => some ⟨"Color", value.spelled⟩
  | opacity value => some ⟨"Opacity", value.spelled⟩
  | textureCoordinates s1 t1 s2 t2 s3 t3 s4 t4 =>
      some ⟨"TextureCoordinates", [.float s1, .float t1, .float s2, .float t2, .float s3, .float t3,
        .float s4, .float t4]⟩
  | illuminate light on =>
      some ⟨"Illuminate", [.int (Int32.ofNat light), .int (if on then 1 else 0)]⟩
  | surface name parameters => spell dictionary "Surface" [.string name] parameters
  | displacement name parameters => spell dictionary "Displacement" [.string name] parameters
  | atmosphere name parameters => spell dictionary "Atmosphere" [.string name] parameters
  | interior name parameters => spell dictionary "Interior" [.string name] parameters
  | exterior name parameters => spell dictionary "Exterior" [.string name] parameters
  | shaderLayer kind name layerName parameters =>
      spell dictionary "ShaderLayer" [.string kind, .string name, .string layerName] parameters
  | connectShaderLayers kind layer1 variable1 layer2 variable2 =>
      some ⟨"ConnectShaderLayers",
        [.string kind, .string layer1, .string variable1, .string layer2, .string variable2]⟩
  | shadingRate size => some ⟨"ShadingRate", [.float size]⟩
  | shadingInterpolation kind => some ⟨"ShadingInterpolation", [.string kind]⟩
  | matte on => some ⟨"Matte", [.int (if on then 1 else 0)]⟩
  | bound value => some ⟨"Bound", [value.spelled]⟩
  | detail value => some ⟨"Detail", [value.spelled]⟩
  | detailRange offLow onLow onHigh offHigh =>
      some ⟨"DetailRange", [.float offLow, .float onLow, .float onHigh, .float offHigh]⟩
  | geometricApproximation kind value =>
      some ⟨"GeometricApproximation", [.string kind, .float value]⟩
  | orientation value => some ⟨"Orientation", [.string value]⟩
  | reverseOrientation => some ⟨"ReverseOrientation", []⟩
  | sides count => some ⟨"Sides", [.int count]⟩
  | attributes name parameters => spell dictionary "Attribute" [.string name] parameters

def Placement.spelled : Placement → RequestLine
  | identity => ⟨"Identity", []⟩
  | transform matrix => ⟨"Transform", [matrix.spelled]⟩
  | concatTransform matrix => ⟨"ConcatTransform", [matrix.spelled]⟩
  | perspective fov => ⟨"Perspective", [.float fov]⟩
  | translate dx dy dz => ⟨"Translate", [.float dx, .float dy, .float dz]⟩
  | rotate angle dx dy dz => ⟨"Rotate", [.float angle, .float dx, .float dy, .float dz]⟩
  | scale sx sy sz => ⟨"Scale", [.float sx, .float sy, .float sz]⟩
  | skew angle dx1 dy1 dz1 dx2 dy2 dz2 =>
      ⟨"Skew", [.float angle, .float dx1, .float dy1, .float dz1, .float dx2, .float dy2,
        .float dz2]⟩
  | coordinateSystem space => ⟨"CoordinateSystem", [.string space]⟩
  | coordSysTransform space => ⟨"CoordSysTransform", [.string space]⟩

def Shape.spelled? : Shape → Option RequestLine
  | polygon parameters => spell dictionary "Polygon" [] parameters
  | generalPolygon nverts parameters =>
      spell dictionary "GeneralPolygon" [.ints nverts] parameters
  | pointsPolygons nverts verts parameters =>
      spell dictionary "PointsPolygons" [.ints nverts, .ints verts] parameters
  | pointsGeneralPolygons nloops nverts verts parameters =>
      spell dictionary "PointsGeneralPolygons" [.ints nloops, .ints nverts, .ints verts] parameters
  | basis ubasis ustep vbasis vstep => do
      let ubasis ← ubasis.spelled?
      let vbasis ← vbasis.spelled?
      some ⟨"Basis", [ubasis, .int ustep, vbasis, .int vstep]⟩
  | patch kind parameters => spell dictionary "Patch" [.string kind] parameters
  | patchMesh kind nu uwrap nv vwrap parameters =>
      spell dictionary "PatchMesh" [.string kind, .int nu, .string uwrap, .int nv, .string vwrap]
        parameters
  | nuPatch nu uorder uknot umin umax nv vorder vknot vmin vmax parameters =>
      spell dictionary "NuPatch"
        [.int nu, .int uorder, .floats uknot, .float umin, .float umax,
          .int nv, .int vorder, .floats vknot, .float vmin, .float vmax] parameters
  | trimCurve ncurves order knot min max n u v w =>
      some ⟨"TrimCurve",
        [.ints ncurves, .ints order, .floats knot, .floats min, .floats max, .ints n,
          .floats u, .floats v, .floats w]⟩
  | subdivisionMesh scheme nvertices vertices tags nargs intargs floatargs parameters =>
      spell dictionary "SubdivisionMesh"
        [.string scheme, .ints nvertices, .ints vertices, .strings tags, .ints nargs, .ints intargs,
          .floats floatargs] parameters
  | sphere radius zmin zmax thetaMax parameters =>
      spell dictionary "Sphere" [.float radius, .float zmin, .float zmax, .float thetaMax] parameters
  | cone height radius thetaMax parameters =>
      spell dictionary "Cone" [.float height, .float radius, .float thetaMax] parameters
  | cylinder radius zmin zmax thetaMax parameters =>
      spell dictionary "Cylinder" [.float radius, .float zmin, .float zmax, .float thetaMax]
        parameters
  | hyperboloid point1 point2 thetaMax parameters =>
      spell dictionary "Hyperboloid"
        [.float point1.first, .float point1.second, .float point1.third,
          .float point2.first, .float point2.second, .float point2.third, .float thetaMax] parameters
  | paraboloid rmax zmin zmax thetaMax parameters =>
      spell dictionary "Paraboloid" [.float rmax, .float zmin, .float zmax, .float thetaMax]
        parameters
  | disk height radius thetaMax parameters =>
      spell dictionary "Disk" [.float height, .float radius, .float thetaMax] parameters
  | torus majorRadius minorRadius phiMin phiMax thetaMax parameters =>
      spell dictionary "Torus"
        [.float majorRadius, .float minorRadius, .float phiMin, .float phiMax, .float thetaMax]
        parameters
  | points parameters => spell dictionary "Points" [] parameters
  | curves kind nvertices wrap parameters =>
      spell dictionary "Curves" [.string kind, .ints nvertices, .string wrap] parameters
  | blobby nleaf code floats strings parameters =>
      spell dictionary "Blobby" [.int nleaf, .ints code, .floats floats, .strings strings] parameters
  | geometry kind parameters => spell dictionary "Geometry" [.string kind] parameters
  | objectInstance object => some ⟨"ObjectInstance", [.int (Int32.ofNat object)]⟩

def TextureMap.spelled? : TextureMap → Option RequestLine
  | texture imageFile textureFile swrap twrap filter swidth twidth parameters => do
      let filter ← filter.name? .filters
      spell dictionary "MakeTexture"
        [.string imageFile, .string textureFile, .string swrap, .string twrap, .string filter,
          .float swidth, .float twidth] parameters
  | latLongEnvironment imageFile reflectionFile filter swidth twidth parameters => do
      let filter ← filter.name? .filters
      spell dictionary "MakeLatLongEnvironment"
        [.string imageFile, .string reflectionFile, .string filter, .float swidth, .float twidth]
        parameters
  | cubeFaceEnvironment px nx py ny pz nz reflectionFile fov filter swidth twidth parameters => do
      let filter ← filter.name? .filters
      spell dictionary "MakeCubeFaceEnvironment"
        [.string px, .string nx, .string py, .string ny, .string pz, .string nz,
          .string reflectionFile, .float fov, .string filter, .float swidth,
          .float twidth] parameters
  | shadow pictureFile shadowFile parameters =>
      spell dictionary "MakeShadow" [.string pictureFile, .string shadowFile] parameters
  | occlusion pictureFiles shadowFile parameters =>
      spell dictionary "MakeOcclusion" [.strings pictureFiles, .string shadowFile] parameters

def PlainRequest.spelled? : PlainRequest → Option RequestLine
  | camera request => request.spelled? dictionary
  | appearance request => request.spelled? dictionary
  | placement request => some request.spelled
  | shape request => request.spelled? dictionary
  | textureMap request => request.spelled? dictionary
  | resource handle kind parameters =>
      spell dictionary "Resource" [.string handle, .string kind] parameters
  | elseIf condition => some ⟨"ElseIf", [.string condition]⟩
  | otherwise => some ⟨"Else", []⟩
  | errorHandler handler =>
      (handler.name? .errorHandlers).map fun name => ⟨"ErrorHandler", [.string name]⟩

def Opening.spelled : Opening → RequestLine
  | frame number => ⟨"FrameBegin", [.int number]⟩
  | world => ⟨"WorldBegin", []⟩
  | condition text => ⟨"IfBegin", [.string text]⟩
  | attributes => ⟨"AttributeBegin", []⟩
  | transform => ⟨"TransformBegin", []⟩
  | resource => ⟨"ResourceBegin", []⟩
  | solid operation => ⟨"SolidBegin", [.string operation]⟩
  | motion times => ⟨"MotionBegin", [.floats times]⟩

/-- The end of a block has no argument. -/
def Closing.spelled : Closing → RequestLine
  | frame => ⟨"FrameEnd", []⟩
  | world => ⟨"WorldEnd", []⟩
  | condition => ⟨"IfEnd", []⟩
  | attributes => ⟨"AttributeEnd", []⟩
  | transform => ⟨"TransformEnd", []⟩
  | resource => ⟨"ResourceEnd", []⟩
  | solid => ⟨"SolidEnd", []⟩
  | object => ⟨"ObjectEnd", []⟩
  | motion => ⟨"MotionEnd", []⟩

/-- A delayed archive reads with its first string, any other procedural with its first two. -/
def spellProcedural (strings : List String) (bound : Bound) (name : String) : RequestLine :=
  ⟨"Procedural",
    [.string name, .strings (strings.take (if name = "DelayedReadArchive" then 1 else 2)),
      bound.spelled]⟩

/-- A light or an object reads with the handle after the last one issued. Comments and reports are
nothing to a reader. -/
def Request.spelled? (lights objects : HandleCounter) : Request → Option RequestLine
  | plain request => request.spelled? dictionary
  | record _ _ => none
  | report _ => none
  | declare name declaration => some ⟨"Declare", [.string name, .string declaration]⟩
  | option name parameters => spell dictionary "Option" [.string name] parameters
  | lightSource name parameters =>
      spell dictionary "LightSource" [.string name, .int (Int32.ofNat (lights.issued + 1))] parameters
  | areaLightSource name parameters =>
      spell dictionary "AreaLightSource" [.string name, .int (Int32.ofNat (lights.issued + 1))]
        parameters
  | opening block => some block.spelled
  | objectBegin => some ⟨"ObjectBegin", [.int (Int32.ofNat (objects.issued + 1))]⟩
  | closing block => some block.spelled
  | procedural strings bound refine _ =>
      (refine.name? .procedurals).map (spellProcedural strings bound)
  | readArchive name parameters => spell dictionary "ReadArchive" [.string name] parameters

end RibStream
