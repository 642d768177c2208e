import PipeCast.Text.Blank

/-!
# Options of patterns

A pattern may set and clear options on its way. Three of them decide what may
stand in it: whether case is disregarded, whether it speaks of characters or of
bytes, and whether blanks and comments in it are skipped.
-/

set_option autoImplicit false

namespace PipeCast.Log.Pattern

open Text

/-- The options that decide what may stand in a pattern. -/
structure Options where
  ignoresCase : Bool
  /-- The pattern speaks of characters. Otherwise it speaks of bytes. -/
  isUnicode : Bool
  /-- Blanks are skipped, and comments from a number sign to the end of the line. -/
  isSpaced : Bool
  deriving DecidableEq, Repr

namespace Options

def start : Options := ⟨false, true, false⟩

def letters : List Char := ['i', 'm', 's', 'U', 'u', 'R', 'x']

/-- Whether characters change options: each letter at most once, and at most one
minus sign, with a letter after it. -/
def isChange (marks : List Char) : Bool :=
  (marks.all fun mark => mark = '-' || letters.contains mark) && decide marks.Nodup &&
    marks.getLast? ≠ some '-'

/-- Sets the options before the minus sign, and clears those after it. -/
def change (options : Options) (marks : List Char) : Options :=
  let (set, cleared) := marks.span (· ≠ '-')
  let value (letter : Char) (old : Bool) : Bool :=
    set.contains letter || (old && !cleared.contains letter)
  ⟨value 'i' options.ignoresCase, value 'u' options.isUnicode, value 'x' options.isSpaced⟩

def withoutSpace (inComment : Bool) : List Char → List Char
  | [] => []
  | character :: rest =>
      if inComment then withoutSpace (character ≠ '\n') rest
      else if isBlank character then withoutSpace false rest
      else if character = '#' then withoutSpace true rest
      else character :: rest

def skip (options : Options) (text : List Char) : List Char :=
  if options.isSpaced then withoutSpace false text else text

/-- The next character, seen past blanks and past the sign of a comment, but not past
the comment. -/
def peek? (options : Options) (text : List Char) : Option Char :=
  if options.isSpaced then
    match trimStart text with
    | '#' :: comment => (trimStart comment).head?
    | visible => visible.head?
  else text.head?

end Options

end PipeCast.Log.Pattern
