import PipeCast.Startup.Filter.Pattern.Options
import PipeCast.Text.Numeral

/-!
# Atoms of patterns

The smallest parts of a pattern, and the escapes that spell them. Which of them may
stand where follows from two facts. There are no tables of characters, so case can
be disregarded only among bytes, and the shorthands for digits, blanks and words
and the boundaries of words exist only among bytes. And a pattern fits text only,
so that what speaks of bytes must keep to ASCII.
-/

set_option autoImplicit false

namespace PipeCast.Log.Pattern

open Text

inductive Atom where
  /-- A character, with the fact whether it was written as the number of a byte. -/
  | literal (character : Char) (isByte : Bool)
  | dot
  /-- The start or the end of the text or of a line. -/
  | border
  /-- The start or the end of a word, or a place that is neither. -/
  | wordBorder
  /-- Digits, blanks or the characters of words, or everything else. -/
  | shorthand (isNegated : Bool)
  deriving DecidableEq, Repr

namespace Options

/-- Whether an atom may stand outside of brackets. -/
def allows (options : Options) : Atom → Bool
  | .literal character isByte =>
      if options.isUnicode then !options.ignoresCase
      else !isByte || character.toNat < 0x80
  | .dot => options.isUnicode
  | .border => true
  | .wordBorder => !options.isUnicode
  | .shorthand isNegated => !options.isUnicode && !isNegated

/-- Whether an atom may stand between brackets. -/
def allowsInside (options : Options) : Atom → Bool
  | .literal character _ =>
      if options.isUnicode then !options.ignoresCase else character.toNat < 0x80
  | .shorthand isNegated => !options.isUnicode && !isNegated
  | _ => false

end Options

namespace Atom

/-- How many digits follow the letter that announces a character by its number. -/
def numberLength? (letter : Char) : Option Nat :=
  [('x', 2), ('u', 4), ('U', 8)].lookup letter

/-- The control characters that have a letter. -/
def controls : List (Char × Char) :=
  [('a', '\x07'), ('f', '\x0c'), ('n', '\n'), ('r', '\r'), ('t', '\t'), ('v', '\x0b')]

/-- What one character after a backslash spells. Punctuation stands for itself. -/
def ofEscape? (character : Char) : Option Atom :=
  if ['d', 's', 'w'].contains character then some (.shorthand false)
  else if ['D', 'S', 'W'].contains character then some (.shorthand true)
  else if ['A', 'z'].contains character then some .border
  else if ['b', 'B', '<', '>'].contains character then some .wordBorder
  else if character.isAlphanum then (controls.lookup character).map fun control =>
    .literal control false
  else if character.toNat < 0x80 then some (.literal character false)
  else none

def readDigits? (options : Options) : Nat → Nat → List Char → Option (Nat × List Char)
  | 0, value, text => some (value, text)
  | _ + 1, _, [] => none
  | missing + 1, value, character :: rest =>
      (Numeral.hexDigit? character).bind fun digit =>
        readDigits? options missing (value * 16 + digit) (options.skip rest)

/-- Reads what follows a backslash. Numbers of surrogates and beyond the last
character spell nothing. -/
def readEscape? (options : Options) : List Char → Option (Atom × List Char)
  | [] => none
  | character :: rest =>
      match numberLength? character with
      | some length => do
          let (value, rest) ← readDigits? options length 0 (options.skip rest)
          if value.isValidChar then some (.literal (Char.ofNat value) (character = 'x'), rest)
          else none
      | none => (ofEscape? character).map fun atom => (atom, rest)

end Atom

end PipeCast.Log.Pattern
