import PipeCast.Number.Shortest

/-!
# Delays in seconds

A delay is counted in milliseconds and shown in seconds. The seconds and the
fraction are rounded one by one to numbers of 53 binary digits, then added; so the
text of a delay may show more digits than the delay has.
-/

set_option autoImplicit false

namespace PipeCast.Text.Seconds

def ofMilliseconds (milliseconds : Nat) : Binary :=
  (Binary.ofNat (milliseconds / 1000)).add (.ofQuotient (milliseconds % 1000) 1000)

def text (milliseconds : Nat) : String :=
  (ofMilliseconds milliseconds).text

end PipeCast.Text.Seconds
