import SwaggerLift.Decimal.Shortest
/-!
The binary fraction nearest to a decimal. Exponents far outside the range of fractions are answered
without computing their powers of ten.
-/

namespace SwaggerLift.Decimal

/-- The nearest fraction to `digits * 10 ^ exponent`: infinite above the largest one. -/
def nearest (digits : Nat) (exponent : Int) : Float :=
  if digits = 0 then 0
  else
    let magnitude := exponent + (digitsOf digits).length
    if magnitude > 310 then 1 / 0
    else if magnitude < -330 then 0
    else if exponent < 0 then Float.ofScientific digits true exponent.natAbs
    else Float.ofScientific digits false exponent.toNat

def isDecimalDigit (c : Char) : Bool := '0' ≤ c && c ≤ '9'

def digitValue (c : Char) : Nat := c.toNat - '0'.toNat

def digitsValue (digits : List Char) : Nat :=
  digits.foldl (fun n c => 10 * n + digitValue c) 0

end SwaggerLift.Decimal
