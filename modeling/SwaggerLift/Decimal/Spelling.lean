import SwaggerLift.Decimal.Shortest
/-!
How a fraction is spelled: digits around a point while the exponent of the first digit lies in a
span, else a digit, a fraction and an exponent. A written fraction always shows a point or an
exponent.
-/

namespace SwaggerLift.Decimal

structure Spelling where
  /-- Whether a first digit of this power of ten is spelled around a point. -/
  positional : Int → Bool
  plus : Bool

def Spelling.positionalText (digits : List Char) (first : Int) : List Char :=
  if first < 0 then
    ['0', '.'] ++ List.replicate (-first - 1).toNat '0' ++ digits
  else
    let width := first.toNat + 1
    let whole := digits.take width ++ List.replicate (width - digits.length) '0'
    match digits.drop width with
    | [] => whole ++ ['.', '0']
    | fraction => whole ++ '.' :: fraction

def Spelling.scientificText (n : Spelling) (digits : List Char) (first : Int) : List Char :=
  let lead := match digits with
    | digit :: next :: rest => digit :: '.' :: next :: rest
    | short => short
  let sign := if first < 0 then ['-'] else if n.plus then ['+'] else []
  lead ++ 'e' :: sign ++ digitsOf first.natAbs

/-- The digits of a decimal without the zeros at their end, and the power of ten of the first. -/
def Scaled.leading (d : Scaled) : List Char × Int :=
  let digits := digitsOf d.digits
  ((digits.reverse.dropWhile (· == '0')).reverse, d.exponent + digits.length - 1)

def Spelling.text (n : Spelling) (x : Float) : List Char :=
  -- Zero keeps its sign.
  let bits := x.toBits.toNat
  let sign := if bits < 0x8000000000000000 then [] else ['-']
  let b := Binary.ofBits bits
  if b.mantissa = 0 then sign ++ ['0', '.', '0']
  else
    let (digits, first) := b.shortest.leading
    sign ++ if n.positional first then Spelling.positionalText digits first
      else n.scientificText digits first

def shortSpan (first : Int) : Bool := -5 ≤ first && first < 16

end SwaggerLift.Decimal
