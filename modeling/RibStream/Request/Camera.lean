/-
This file lists the requests that set up the camera and the image.
-/

import RibStream.Request.Layout

namespace RibStream

inductive Camera where
  | format (xresolution yresolution : Int32) (pixelAspectRatio : Single)
  | frameAspectRatio (ratio : Single)
  | screenWindow (left right bottom top : Single)
  | cropWindow (xmin xmax ymin ymax : Single)
  | projection (name : String) (parameters : List ParamSource)
  | clipping (near far : Single)
  | clippingPlane (x y z nx ny nz : Single)
  | depthOfField (fstop focalLength focalDistance : Single)
  | shutter (openTime closeTime : Single)
  | pixelVariance (variance : Single)
  | pixelSamples (xsamples ysamples : Single)
  | pixelFilter (function : FunctionSource) (xwidth ywidth : Single)
  | exposure (gain gamma : Single)
  | imager (name : String) (parameters : List ParamSource)
  | quantize (kind : String) (one min max : Int32) (ditherAmplitude : Single)
  | display (name kind mode : String) (parameters : List ParamSource)
  | hider (name : String) (parameters : List ParamSource)
  | colorSamples (nRgb rgbN : List Single)
  | relativeDetail (detail : Single)
deriving DecidableEq

def Camera.layout : Camera → Layout
  | format xresolution yresolution ratio =>
      .fixed "Format" [.int xresolution, .int yresolution, .float ratio]
  | frameAspectRatio ratio => .fixed "FrameAspectRatio" [.float ratio]
  | screenWindow left right bottom top =>
      .fixed "ScreenWindow" [.float left, .float right, .float bottom, .float top]
  | cropWindow xmin xmax ymin ymax =>
      .fixed "CropWindow" [.float xmin, .float xmax, .float ymin, .float ymax]
  | projection name parameters => .withParams "Projection" [.string name] parameters
  | clipping near far => .fixed "Clipping" [.float near, .float far]
  | clippingPlane x y z nx ny nz =>
      .fixed "ClippingPlane" [.float x, .float y, .float z, .float nx, .float ny, .float nz]
  | depthOfField fstop focalLength focalDistance =>
      .fixed "DepthOfField" [.float fstop, .float focalLength, .float focalDistance]
  | shutter openTime closeTime => .fixed "Shutter" [.float openTime, .float closeTime]
  | pixelVariance variance => .fixed "PixelVariance" [.float variance]
  | pixelSamples xsamples ysamples => .fixed "PixelSamples" [.float xsamples, .float ysamples]
  | pixelFilter function xwidth ywidth =>
      ⟨"PixelFilter",
        [.function .filters function, .token (.float xwidth), .token (.float ywidth)], []⟩
  | exposure gain gamma => .fixed "Exposure" [.float gain, .float gamma]
  | imager name parameters => .withParams "Imager" [.string name] parameters
  | quantize kind one min max ditherAmplitude =>
      .fixed "Quantize" [.string kind, .int one, .int min, .int max, .float ditherAmplitude]
  | display name kind mode parameters =>
      .withParams "Display" [.string name, .string kind, .string mode] parameters
  | hider name parameters => .withParams "Hider" [.string name] parameters
  | colorSamples nRgb rgbN => .fixed "ColorSamples" [.floats nRgb, .floats rgbN]
  | relativeDetail detail => .fixed "RelativeDetail" [.float detail]

end RibStream
