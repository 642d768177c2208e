/-!
# Blank characters

The characters with the Unicode property White_Space, and the removal of such
characters from the ends of a text. The set is closed: format characters such as
U+200B and U+FEFF, and the separators U+001C to U+001F, are not blank.
-/

set_option autoImplicit false

namespace PipeCast.Text

/-- The code point ranges of White_Space, in ascending order, both ends included. -/
def blankRanges : List (Nat × Nat) :=
  [(0x0009, 0x000D), (0x0020, 0x0020), (0x0085, 0x0085), (0x00A0, 0x00A0),
   (0x1680, 0x1680), (0x2000, 0x200A), (0x2028, 0x2029), (0x202F, 0x202F),
   (0x205F, 0x205F), (0x3000, 0x3000)]

def isBlank (character : Char) : Bool :=
  blankRanges.any fun range => range.1 ≤ character.toNat && character.toNat ≤ range.2

def trimStart (text : List Char) : List Char :=
  text.dropWhile isBlank

/-- Removes blank characters from the end. Those at the start stay. -/
def trimEnd (text : List Char) : List Char :=
  (text.reverse.dropWhile isBlank).reverse

def trim (text : List Char) : List Char :=
  trimEnd (trimStart text)

end PipeCast.Text
