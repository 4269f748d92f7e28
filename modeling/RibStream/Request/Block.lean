/-
This file lists the requests that open and close blocks.
-/

import RibStream.Request.Layout

namespace RibStream

/-- The blocks that are opened by a request without further effect. -/
inductive Opening where
  | frame (number : Int32)
  | world
  | condition (text : String)
  | attributes
  | transform
  | resource
  | solid (operation : String)
  | motion (times : List Single)
deriving DecidableEq

def Opening.line : Opening → RequestLine
  | frame number => ⟨"FrameBegin", [.int number]⟩
  | world => ⟨"WorldBegin", []⟩
  | condition text => ⟨"IfBegin", [.string text]⟩
  | attributes => ⟨"AttributeBegin", []⟩
  | transform => ⟨"TransformBegin", []⟩
  | resource => ⟨"ResourceBegin", []⟩
  | solid operation => ⟨"SolidBegin", [.string operation]⟩
  | motion times => ⟨"MotionBegin", [.floats times]⟩

inductive Closing where
  | frame | world | condition | attributes | transform | resource | solid | object | motion
deriving DecidableEq

def Closing.line : Closing → RequestLine
  | frame => ⟨"FrameEnd", []⟩
  | world => ⟨"WorldEnd", []⟩
  | condition => ⟨"IfEnd", []⟩
  | attributes => ⟨"AttributeEnd", []⟩
  | transform => ⟨"TransformEnd", []⟩
  | resource => ⟨"ResourceEnd", []⟩
  | solid => ⟨"SolidEnd", []⟩
  | object => ⟨"ObjectEnd", []⟩
  | motion => ⟨"MotionEnd", []⟩

end RibStream
