/-
This file defines the white space that separates words in declarations.
The characters are those with the Unicode property White_Space.
-/

namespace RibStream.Text

/-- The ranges of white space characters, each with its first and last code point. -/
def blankRanges : List (Nat × Nat) :=
  [(0x0009, 0x000D), (0x0020, 0x0020), (0x0085, 0x0085), (0x00A0, 0x00A0), (0x1680, 0x1680),
    (0x2000, 0x200A), (0x2028, 0x2029), (0x202F, 0x202F), (0x205F, 0x205F), (0x3000, 0x3000)]

def isBlank (character : Char) : Bool :=
  blankRanges.any fun range => range.1 ≤ character.toNat && character.toNat ≤ range.2

def trimLeft (text : List Char) : List Char :=
  text.dropWhile isBlank

def trimRight (text : List Char) : List Char :=
  (text.reverse.dropWhile isBlank).reverse

def trim (text : List Char) : List Char :=
  trimRight (trimLeft text)

/-- The text up to the first blank, and what follows. -/
def firstWord (text : List Char) : List Char × List Char :=
  (text.takeWhile (!isBlank ·), text.dropWhile (!isBlank ·))

/-- The text split before its last word, which reaches to the end of the text. -/
def lastWord (text : List Char) : List Char × List Char :=
  ((text.reverse.dropWhile (!isBlank ·)).reverse, (text.reverse.takeWhile (!isBlank ·)).reverse)

/-- Nothing is lost in the split after the first word. -/
theorem append_firstWord (text : List Char) : (firstWord text).1 ++ (firstWord text).2 = text :=
  List.takeWhile_append_dropWhile

end RibStream.Text
