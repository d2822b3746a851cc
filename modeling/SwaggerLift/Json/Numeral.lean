import SwaggerLift.Decimal.Nearest
import SwaggerLift.Json.Reading
import SwaggerLift.Value.Basic
/-!
Numerals of a JSON text: their grammar, and the number that a numeral means. Whole numerals of 64
bits are exact. Every other numeral is a fraction: of its digits as many count as fit an unsigned
word of 64 bits, and the result is scaled by powers of ten in binary arithmetic, so it can differ in
the last place from the nearest fraction.
-/

namespace SwaggerLift.Json

open Decimal

structure Numeral where
  negative : Bool
  whole : List Char
  fraction : Option (List Char)
  /-- Whether the exponent is negative, and its digits. -/
  exponent : Option (Bool × List Char)

def largestWord : Nat := 0xFFFFFFFFFFFFFFFF

/-- Takes digits into the number as long as it fits an unsigned word of 64 bits, and gives back
    those that do not fit. -/
def gather (n : Nat) : List Char → Nat × List Char
  | [] => (n, [])
  | digit :: rest =>
      let next := 10 * n + digitValue digit
      if next ≤ largestWord then gather next rest else (n, digit :: rest)

def largestPower : Nat := 308

def powerOfTen (power : Nat) : Float := Float.ofScientific 1 false power

def scaleDown (x : Float) (power : Nat) : Float :=
  if power ≤ largestPower then x / powerOfTen power
  else if x == 0 then x
  else scaleDown (x / powerOfTen largestPower) (power - largestPower)
termination_by power
decreasing_by simp only [largestPower] at *; omega

/-- The significand scaled by a power of ten; beyond the range of fractions it is no number. -/
def scaled (significand : Nat) (power : Int) : Float :=
  let x := nearest significand 0
  if power < 0 then scaleDown x power.natAbs
  else if power ≤ largestPower then x * powerOfTen power.toNat
  else if x == 0 then x
  else 1 / 0

def signed (negative : Bool) (x : Float) : Float := if negative then -x else x

def fractionNumber (negative : Bool) (x : Float) : Except Cut Number :=
  match Number.ofFloat? (signed negative x) with
  | some n => .ok n
  | none => .error .malformed

/-- The number of a numeral without fraction and exponent whose digits fit. -/
def wholeNumber (negative : Bool) (n : Nat) : Except Cut Number :=
  -- Below the negative range, and for a negative zero, it is a fraction.
  if negative && n = 0 then fractionNumber true 0
  else
    match Whole.ofInt? (if negative then -(n : Int) else n) with
    | some w => .ok (.whole w)
    | none => fractionNumber negative (nearest n 0)

/-- Exponents beyond this are out of every range. -/
def largestExponent : Nat := 0x7FFFFFFF

namespace Numeral

/-- The significand, and the power of ten that its last digit stands for. -/
def significand (numeral : Numeral) : Nat × Int :=
  let (n, dropped) := gather 0 numeral.whole
  match numeral.fraction with
  | none => (n, dropped.length)
  | some digits =>
      let (n, ignored) := gather n digits
      (n, (dropped.length : Int) - (digits.length - ignored.length : Nat))

def number (numeral : Numeral) : Except Cut Number :=
  let (n, dropped) := gather 0 numeral.whole
  if dropped.isEmpty && numeral.fraction.isNone && numeral.exponent.isNone then
    wholeNumber numeral.negative n
  else
    let (n, power) := numeral.significand
    match numeral.exponent with
    | none => fractionNumber numeral.negative (scaled n power)
    | some (below, digits) =>
        let size := digitsValue digits
        if size > largestExponent then
          if n ≠ 0 ∧ below = false then .error .malformed else fractionNumber numeral.negative 0
        else fractionNumber numeral.negative
          (scaled n (if below then power - size else power + size))

end Numeral

def leadingDigits (text : List Char) : List Char × List Char :=
  (text.takeWhile isDecimalDigit, text.dropWhile isDecimalDigit)

/-- A numeral that breaks off where a digit has to follow. If the text ends there, a wanted number
    counts as cut short, one that is passed over as malformed. -/
def missingDigit (rest : List Char) : Reading Number :=
  ⟨.error (if rest.isEmpty then .ended else .malformed), some .malformed⟩

def Numeral.reading (numeral : Numeral) : Reading Number := ⟨numeral.number, none⟩

def exponentSign : List Char → Bool × List Char
  | '+' :: rest => (false, rest)
  | '-' :: rest => (true, rest)
  | rest => (false, rest)

def readExponent (numeral : Numeral) : List Char → Reading Number × List Char
  | [] => (numeral.reading, [])
  | c :: rest =>
      if c = 'e' ∨ c = 'E' then
        let sign := exponentSign rest
        let digits := leadingDigits sign.2
        if digits.1.isEmpty then (missingDigit sign.2, [])
        else ({ numeral with exponent := some (sign.1, digits.1) }.reading, digits.2)
      else (numeral.reading, c :: rest)

def readFraction (numeral : Numeral) : List Char → Reading Number × List Char
  | '.' :: rest =>
      let digits := leadingDigits rest
      if digits.1.isEmpty then (missingDigit rest, [])
      else readExponent { numeral with fraction := some digits.1 } digits.2
  | rest => readExponent numeral rest

def readUnsigned (negative : Bool) (first : Char) (rest : List Char) : Reading Number × List Char :=
  -- A zero in front of other digits is no numeral.
  let digits := leadingDigits rest
  if first = '0' ∧ digits.1.isEmpty = false then (.broken .malformed, [])
  else readFraction ⟨negative, first :: digits.1, none, none⟩ digits.2

def readNegative : List Char → Reading Number × List Char
  | [] => (missingDigit [], [])
  | first :: rest =>
      if isDecimalDigit first then readUnsigned true first rest else (.broken .malformed, [])

theorem leadingDigits_length (text : List Char) : (leadingDigits text).2.length ≤ text.length :=
  (List.dropWhile_suffix _).length_le

theorem exponentSign_length (text : List Char) : (exponentSign text).2.length ≤ text.length := by
  fun_cases exponentSign text <;> simp

theorem readExponent_length (numeral : Numeral) (text : List Char) :
    (readExponent numeral text).2.length ≤ text.length := by
  fun_cases readExponent numeral text with
  | case1 => simp
  | case2 => simp
  | case3 c rest =>
      exact Nat.le_succ_of_le (Nat.le_trans (leadingDigits_length _) (exponentSign_length rest))
  | case4 => simp

theorem readFraction_length (numeral : Numeral) (text : List Char) :
    (readFraction numeral text).2.length ≤ text.length := by
  fun_cases readFraction numeral text with
  | case1 => simp
  | case2 rest =>
      exact Nat.le_succ_of_le (Nat.le_trans (readExponent_length _ _) (leadingDigits_length rest))
  | case3 rest => exact readExponent_length numeral _

theorem readUnsigned_length (negative : Bool) (first : Char) (rest : List Char) :
    (readUnsigned negative first rest).2.length ≤ rest.length := by
  fun_cases readUnsigned negative first rest with
  | case1 => simp
  | case2 => exact Nat.le_trans (readFraction_length _ _) (leadingDigits_length rest)

theorem readNegative_length (text : List Char) : (readNegative text).2.length ≤ text.length := by
  fun_cases readNegative text with
  | case1 => simp
  | case2 first rest => exact Nat.le_succ_of_le (readUnsigned_length true first rest)
  | case3 => simp

end SwaggerLift.Json
