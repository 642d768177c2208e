/-!
# Bounded decimal numerals

The numerals accepted for numeric settings: an optional single plus sign, then
one or more ASCII digits. Leading zeros are allowed. A numeral above the bound is
refused as soon as a digit takes it there, whatever its length. Hexadecimal digits
are read one by one.
-/

set_option autoImplicit false

namespace PipeCast.Text.Numeral

/-- The value of an ASCII digit. Digits of other scripts have none. -/
def digit? (character : Char) : Option Nat :=
  if '0' ≤ character ∧ character ≤ '9' then some (character.toNat - '0'.toNat) else none

/-- The value of a hexadecimal digit, in either case. -/
def hexDigit? (character : Char) : Option Nat :=
  if '0' ≤ character ∧ character ≤ '9' then some (character.toNat - '0'.toNat)
  else if 'a' ≤ character ∧ character ≤ 'f' then some (character.toNat - 'a'.toNat + 10)
  else if 'A' ≤ character ∧ character ≤ 'F' then some (character.toNat - 'A'.toNat + 10)
  else none

/-- Appends one digit to a value that is at most `limit`, or refuses. -/
def extend? (limit value : Nat) (character : Char) : Option Nat :=
  (digit? character).bind fun digit =>
    if value * 10 + digit ≤ limit then some (value * 10 + digit) else none

/-- Removes the optional sign. Only one is taken. -/
def unsigned : List Char → List Char
  | '+' :: digits => digits
  | digits => digits

/-- Reads a numeral of value at most `limit`. -/
def read? (limit : Nat) (text : List Char) : Option Nat :=
  match unsigned text with
  | [] => none
  | digits => digits.foldlM (extend? limit) 0

end PipeCast.Text.Numeral
