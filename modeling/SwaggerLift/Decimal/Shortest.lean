/-!
The fewest decimal digits that read back as a given binary fraction, and among those the nearest to
it. A fraction is `mantissa * 2 ^ exponent`; the reals that round to it form an interval, whose ends
belong to it exactly if the mantissa is even. Everything is done in whole numbers.
-/

namespace SwaggerLift.Decimal

def twoTo (power : Nat) : Nat := Nat.pow 2 power

def tenTo (power : Nat) : Nat := Nat.pow 10 power

/-- The absolute value of a finite fraction: a whole number of 53 bits scaled by a power of two.
    `narrow` tells that the next smaller fraction is only half as far away as the next larger. -/
structure Binary where
  mantissa : Nat
  exponent : Int
  narrow : Bool
  deriving DecidableEq

def Binary.ofBits (bits : Nat) : Binary :=
  let stored : Nat := bits / twoTo 52 % twoTo 11
  let low : Nat := bits % twoTo 52
  if stored = 0 then ⟨low, -1074, false⟩
    else ⟨low + twoTo 52, stored - 1075, low == 0 && stored != 1⟩

structure Scaled where
  digits : Nat
  exponent : Int
  deriving DecidableEq

def digitsOf (n : Nat) : List Char := Nat.toDigits 10 n

/-- The whole number of times that `10 ^ scale` goes into `x * 2 ^ exponent`, and the remainder; the
    third part is the divisor that the remainder is measured by. -/
def divideScaled (x : Nat) (exponent scale : Int) : Nat × Nat × Nat :=
  let upper := x * twoTo exponent.toNat * tenTo (-scale).toNat
  let lower := tenTo scale.toNat * twoTo (-exponent).toNat
  (upper / lower, upper % lower, lower)

/-- The power of ten of the first digit of a positive fraction. -/
def Binary.magnitude (b : Binary) : Int :=
  (digitsOf (divideScaled b.mantissa b.exponent (-400)).1).length - 401

/-- Whether `digits * 10 ^ scale` rounds to the fraction. -/
def Binary.reads (b : Binary) (digits : Nat) (scale : Int) : Bool :=
  -- Quarters of the last binary place make the ends of the interval whole.
  let quarter := b.exponent - 2
  let given := digits * tenTo scale.toNat * twoTo (-quarter).toNat
  let unit := twoTo quarter.toNat * tenTo (-scale).toNat
  let low := (4 * b.mantissa - (if b.narrow then 1 else 2)) * unit
  let high := (4 * b.mantissa + 2) * unit
  if b.mantissa % 2 = 0 then low ≤ given && given ≤ high else low < given && given < high

/-- The neighbour of the fraction with `count` digits that reads back; of two the nearer, and of two
    equally near the even one. -/
def Binary.withDigits (b : Binary) (magnitude : Int) (count : Nat) : Option Scaled :=
  let scale := magnitude - count + 1
  let (below, rest, unit) := divideScaled b.mantissa b.exponent scale
  let above := below + 1
  let nearer := if 2 * rest < unit || (2 * rest = unit && below % 2 = 0) then below else above
  let farther := if nearer = below then above else below
  if b.reads nearer scale then some ⟨nearer, scale⟩
  else if b.reads farther scale then some ⟨farther, scale⟩
  else none

/-- The first count of digits, from `count` upwards, at which some neighbour reads back. -/
def Binary.search (b : Binary) (magnitude : Int) : (tries count : Nat) → Scaled
  | 0, count =>
      ⟨(divideScaled b.mantissa b.exponent (magnitude - count + 1)).1, magnitude - count + 1⟩
  | tries + 1, count =>
      match b.withDigits magnitude count with
      | some found => found
      | none => b.search magnitude tries (count + 1)

/-- The fewest digits that read back as the fraction; seventeen always do. -/
def Binary.shortest (b : Binary) : Scaled := b.search b.magnitude 17 1

end SwaggerLift.Decimal
