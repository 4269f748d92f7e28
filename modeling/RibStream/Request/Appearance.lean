/-
This file lists the requests that describe how surfaces look.
-/

import RibStream.Request.Layout

namespace RibStream

inductive Appearance where
  | color (value : Triple)
  | opacity (value : Triple)
  | textureCoordinates (s1 t1 s2 t2 s3 t3 s4 t4 : Single)
  | illuminate (light : Nat) (on : Bool)
  | surface (name : String) (parameters : List ParamSource)
  | displacement (name : String) (parameters : List ParamSource)
  | atmosphere (name : String) (parameters : List ParamSource)
  | interior (name : String) (parameters : List ParamSource)
  | exterior (name : String) (parameters : List ParamSource)
  | shaderLayer (kind name layerName : String) (parameters : List ParamSource)
  | connectShaderLayers (kind layer1 variable1 layer2 variable2 : String)
  | shadingRate (size : Single)
  | shadingInterpolation (kind : String)
  | matte (on : Bool)
  | bound (value : Bound)
  | detail (value : Bound)
  | detailRange (offLow onLow onHigh offHigh : Single)
  | geometricApproximation (kind : String) (value : Single)
  | orientation (value : String)
  | reverseOrientation
  | sides (count : Int32)
  | attributes (name : String) (parameters : List ParamSource)
deriving DecidableEq

def Appearance.layout : Appearance → Layout
  | color value => .fixed "Color" (Token.triple value)
  | opacity value => .fixed "Opacity" (Token.triple value)
  | textureCoordinates s1 t1 s2 t2 s3 t3 s4 t4 =>
      .fixed "TextureCoordinates" [.float s1, .float t1, .float s2, .float t2, .float s3, .float t3,
        .float s4, .float t4]
  | illuminate light on => .fixed "Illuminate" [.handle light, .bool on]
  | surface name parameters => .withParams "Surface" [.string name] parameters
  | displacement name parameters => .withParams "Displacement" [.string name] parameters
  | atmosphere name parameters => .withParams "Atmosphere" [.string name] parameters
  | interior name parameters => .withParams "Interior" [.string name] parameters
  | exterior name parameters => .withParams "Exterior" [.string name] parameters
  | shaderLayer kind name layerName parameters =>
      .withParams "ShaderLayer" [.string kind, .string name, .string layerName] parameters
  | connectShaderLayers kind layer1 variable1 layer2 variable2 =>
      .fixed "ConnectShaderLayers"
        [.string kind, .string layer1, .string variable1, .string layer2, .string variable2]
  | shadingRate size => .fixed "ShadingRate" [.float size]
  | shadingInterpolation kind => .fixed "ShadingInterpolation" [.string kind]
  | matte on => .fixed "Matte" [.bool on]
  | bound value => .fixed "Bound" [.bound value]
  | detail value => .fixed "Detail" [.bound value]
  | detailRange offLow onLow onHigh offHigh =>
      .fixed "DetailRange" [.float offLow, .float onLow, .float onHigh, .float offHigh]
  | geometricApproximation kind value =>
      .fixed "GeometricApproximation" [.string kind, .float value]
  | orientation value => .fixed "Orientation" [.string value]
  | reverseOrientation => .fixed "ReverseOrientation" []
  | sides count => .fixed "Sides" [.int count]
  | attributes name parameters => .withParams "Attribute" [.string name] parameters

end RibStream
