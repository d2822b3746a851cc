/-!
Hexadecimal digits, as escapes spell code points.
-/

namespace SwaggerLift.Text

def hexValue? (c : Char) : Option Nat :=
  if '0' ≤ c ∧ c ≤ '9' then some (c.toNat - '0'.toNat)
  else if 'a' ≤ c ∧ c ≤ 'f' then some (c.toNat - 'a'.toNat + 10)
  else if 'A' ≤ c ∧ c ≤ 'F' then some (c.toNat - 'A'.toNat + 10)
  else none

/-- The number that a row of hexadecimal digits spells, if each character is one. -/
def hexRow? (row : List Char) : Option Nat :=
  row.foldl (fun n? c => do return 16 * (← n?) + (← hexValue? c)) (some 0)

def hexDigits (n : Nat) : List Char := Nat.toDigits 16 n

/-- The lower-case digits of a number, with zeros in front up to the width. -/
def hexPadded (width n : Nat) : List Char :=
  let digits := hexDigits n
  List.replicate (width - digits.length) '0' ++ digits

end SwaggerLift.Text
