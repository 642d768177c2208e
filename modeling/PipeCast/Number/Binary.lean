/-!
# Numbers of 53 binary digits

Numbers that are not negative, held to 53 significant binary digits. A result that
needs more digits is rounded to the nearest number that fits, and a result halfway
between two of them to the one that ends in zero. Exponents are not bounded.
-/

set_option autoImplicit false

namespace PipeCast

/-- The number `significand * 2 ^ exponent`. Unless it is zero, its significand has
53 binary digits. -/
structure Binary where
  significand : Nat
  exponent : Int
  deriving DecidableEq, Repr

namespace Binary

def precision : Nat := 53

def zero : Binary := ⟨0, 0⟩

/-- The numerator and the denominator of `quotient * base ^ exponent`, where the
quotient is given by its own numerator and denominator. -/
def scale (base : Nat) (exponent : Int) (numerator denominator : Nat) : Nat × Nat :=
  (numerator * Nat.pow base exponent.toNat, denominator * Nat.pow base (-exponent).toNat)

/-- The whole number nearest to a quotient. Of two that are equally near it is the
even one. -/
def nearest (numerator denominator : Nat) : Nat :=
  let below := numerator / denominator
  let excess := 2 * (numerator % denominator)
  if excess < denominator ∨ (excess = denominator ∧ below % 2 = 0) then below else below + 1

/-- The exponent with which the whole part of a quotient's significand has exactly
as many binary digits as are kept. -/
def exponentOf (numerator denominator : Nat) : Int :=
  let guess : Int := (numerator.log2 : Int) - denominator.log2 - precision
  let (numerator, denominator) := scale 2 (-guess) numerator denominator
  if numerator / denominator < Nat.pow 2 precision then guess else guess + 1

/-- A significand that rounding took to one more digit has a zero at its end. -/
def normalize (significand : Nat) (exponent : Int) : Binary :=
  if significand = Nat.pow 2 precision then ⟨Nat.pow 2 (precision - 1), exponent + 1⟩
  else ⟨significand, exponent⟩

def ofQuotient (numerator denominator : Nat) : Binary :=
  if numerator = 0 ∨ denominator = 0 then zero
  else
    let exponent := exponentOf numerator denominator
    let (numerator, denominator) := scale 2 (-exponent) numerator denominator
    normalize (nearest numerator denominator) exponent

def ofNat (value : Nat) : Binary := ofQuotient value 1

/-- The exact value, as a numerator and a denominator. -/
def quotient (value : Binary) : Nat × Nat := scale 2 value.exponent value.significand 1

def add (first second : Binary) : Binary :=
  let (left, leftUnits) := first.quotient
  let (right, rightUnits) := second.quotient
  ofQuotient (left * rightUnits + right * leftUnits) (leftUnits * rightUnits)

end Binary

end PipeCast
