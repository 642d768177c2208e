/-!
# Slices by byte offsets

A text is cut at offsets that count the bytes of its UTF-8 form. An offset is a
boundary if a character begins there or the text ends there; at any other offset
nothing can be cut.
-/

set_option autoImplicit false

namespace PipeCast.Text

/-- Splits a text at a byte offset, if the offset is a boundary. -/
def splitAt? : List Char → Nat → Option (List Char × List Char)
  | text, 0 => some ([], text)
  | [], _ + 1 => none
  | character :: rest, offset + 1 =>
      if character.utf8Size ≤ offset + 1 then
        (splitAt? rest (offset + 1 - character.utf8Size)).map fun (head, tail) =>
          (character :: head, tail)
      else none

/-- The characters that end at or before a byte offset. -/
def headAt? (text : List Char) (offset : Nat) : Option (List Char) :=
  (splitAt? text offset).map (·.1)

/-- The characters that begin at or after a byte offset. -/
def tailAt? (text : List Char) (offset : Nat) : Option (List Char) :=
  (splitAt? text offset).map (·.2)

/-- The characters between two byte offsets. -/
def sliceAt? (text : List Char) (start stop : Nat) : Option (List Char) :=
  (headAt? text stop).bind (tailAt? · start)

end PipeCast.Text
