/-
This file gives the bytes of a text in UTF-8.
-/

namespace RibStream.Text

def bytes (text : String) : List UInt8 :=
  text.toUTF8.data.toList

theorem bytes_injective {left right : String} (same : bytes left = bytes right) : left = right := by
  apply String.toByteArray_inj.mp
  exact ByteArray.ext (Array.toList_inj.mp same)

end RibStream.Text
