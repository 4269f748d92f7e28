/-
This file lists the requests that turn images into texture maps.
-/

import RibStream.Request.Layout

namespace RibStream

inductive TextureMap where
  | texture (imageFile textureFile swrap twrap : String) (filter : FunctionSource)
      (swidth twidth : Single) (parameters : List ParamSource)
  | latLongEnvironment (imageFile reflectionFile : String) (filter : FunctionSource)
      (swidth twidth : Single) (parameters : List ParamSource)
  | cubeFaceEnvironment (px nx py ny pz nz reflectionFile : String) (fov : Single)
      (filter : FunctionSource) (swidth twidth : Single) (parameters : List ParamSource)
  | shadow (pictureFile shadowFile : String) (parameters : List ParamSource)
  | occlusion (pictureFiles : List String) (shadowFile : String) (parameters : List ParamSource)
deriving DecidableEq

/-- The arguments of a map: tokens first, then a filter with its widths. -/
def filtered (tokens : List Token) (filter : FunctionSource) (swidth twidth : Single) :
    List Argument :=
  tokens.map .token ++
    [.function .filters filter, .token (.float swidth), .token (.float twidth)]

def TextureMap.layout : TextureMap → Layout
  | texture imageFile textureFile swrap twrap filter swidth twidth parameters =>
      ⟨"MakeTexture",
        filtered [.string imageFile, .string textureFile, .string swrap, .string twrap]
          filter swidth twidth,
        parameters⟩
  | latLongEnvironment imageFile reflectionFile filter swidth twidth parameters =>
      ⟨"MakeLatLongEnvironment",
        filtered [.string imageFile, .string reflectionFile] filter swidth twidth,
        parameters⟩
  | cubeFaceEnvironment px nx py ny pz nz reflectionFile fov filter swidth twidth parameters =>
      ⟨"MakeCubeFaceEnvironment",
        filtered [.string px, .string nx, .string py, .string ny, .string pz, .string nz,
          .string reflectionFile, .float fov] filter swidth twidth,
        parameters⟩
  | shadow pictureFile shadowFile parameters =>
      .withParams "MakeShadow" [.string pictureFile, .string shadowFile] parameters
  | occlusion pictureFiles shadowFile parameters =>
      .withParams "MakeOcclusion" [.strings pictureFiles, .string shadowFile] parameters

end RibStream
