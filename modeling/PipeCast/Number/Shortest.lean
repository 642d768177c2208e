import PipeCast.Number.Binary

/-!
# The shortest decimal text of a number

Many decimals round to the same number of 53 binary digits. The text of the number
is the one with the fewest digits among them, and of several such the nearest to
the number; of two equally near, the even one. It is written without an exponent,
and with at least one decimal place.
-/

set_option autoImplicit false

namespace PipeCast.Binary

/-- The bounds of the numbers that round to a number, and the number itself between
them, in quarters of its last binary digit. Below a number that begins a new power
of two its neighbour is only half as far as above. -/
structure Span where
  low : Nat
  middle : Nat
  high : Nat
  /-- Whether the bounds themselves round to the number. -/
  isClosed : Bool
  deriving DecidableEq, Repr

/-- What rounds to a number. A bound lies halfway between two numbers, so it rounds
to the one with the even significand. -/
def span (value : Binary) : Span where
  low := 4 * value.significand - if value.significand = Nat.pow 2 (precision - 1) then 1 else 2
  middle := 4 * value.significand
  high := 4 * value.significand + 2
  isClosed := value.significand % 2 = 0

/-- A decimal `digits * 10 ^ exponent`. -/
structure Decimal where
  digits : Nat
  exponent : Int
  deriving DecidableEq, Repr

/-- The multiple of a power of ten that rounds to a number and is nearest to it, if
one rounds to it at all. One of the two multiples next to the number is it. -/
def onGrid? (value : Binary) (power : Int) : Option Decimal :=
  let (unit, quarter) := scale 10 power 1 1
  let (quarter, unit) := scale 2 (value.exponent - 2) quarter unit
  let span := value.span
  let fits (digits : Nat) : Bool :=
    if span.isClosed then
      span.low * quarter ≤ digits * unit && digits * unit ≤ span.high * quarter
    else span.low * quarter < digits * unit && digits * unit < span.high * quarter
  let below := span.middle * quarter / unit
  let excess := span.middle * quarter % unit
  let isBelow := 2 * excess < unit || (2 * excess = unit && below % 2 = 0)
  let nearer := if isBelow then [below, below + 1] else [below + 1, below]
  (nearer.find? fits).map fun digits => ⟨digits, power⟩

/-- The decimal of fewest digits that rounds to a number. Powers of ten are tried
downwards from one above the number to the last at which it has a digit, where the
number itself stands. -/
def shortest (value : Binary) : Decimal :=
  let (numerator, denominator) := value.quotient
  let top := (Nat.toDigits 10 (numerator / denominator)).length
  let places := (-value.exponent).toNat
  ((List.range (top + places + 1)).findSome? fun (step : Nat) =>
    value.onGrid? ((top : Int) - step)).getD ⟨0, 0⟩

def Decimal.text (decimal : Decimal) : String :=
  let places := (-decimal.exponent).toNat
  let whole := decimal.digits * Nat.pow 10 decimal.exponent.toNat / Nat.pow 10 places
  let part := Nat.toDigits 10 (decimal.digits % Nat.pow 10 places)
  if places = 0 then toString whole ++ ".0"
  else
    toString whole ++ "." ++ String.ofList (List.replicate (places - part.length) '0' ++ part)

/-- The shortest text that reads back as a number. -/
def text (value : Binary) : String := value.shortest.text

end PipeCast.Binary
