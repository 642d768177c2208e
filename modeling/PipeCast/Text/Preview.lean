import PipeCast.Text.Slice

/-!
# Log previews

A client's message is logged in a bounded form. The bound counts characters; the
cut is made at a byte offset, found by walking over the characters that are kept.
-/

set_option autoImplicit false

namespace PipeCast.Text.Preview

def keptCharacters : Nat := 200

/-- Appended to a preview that was cut short. -/
def marker : String := ".."

/-- The byte offset at which the character of the given index begins, if there is
one. -/
def offset? : Nat → List Char → Option Nat
  | _, [] => none
  | 0, _ :: _ => some 0
  | index + 1, character :: rest => (offset? index rest).map (character.utf8Size + ·)

/-- The part of a message that is kept, with the fact whether anything was cut. -/
def cut (text : List Char) : List Char × Bool :=
  match (offset? keptCharacters text).bind (headAt? text) with
  | some head => (head ++ marker.toList, true)
  | none => (text, false)

/-- The form in which a message is logged. -/
def of (message : String) : String :=
  let (kept, wasCut) := cut message.toList
  if wasCut then String.ofList kept else message

end PipeCast.Text.Preview
