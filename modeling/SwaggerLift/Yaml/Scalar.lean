import SwaggerLift.Decimal.Nearest
import SwaggerLift.Text.Hex
import SwaggerLift.Yaml.Node
/-!
What a scalar means. A plain one without a tag may be null, a truth value or a number; the core tags
force a meaning; every other scalar is its text.
-/

namespace SwaggerLift.Yaml

open Decimal

inductive Meaning where
  | null
  | flag (b : Bool)
  | whole (n : Int)
  | float (x : Float)
  | text (s : String)
  /-- The tag asks for something that the text is not. -/
  | unfit (tag : String) (s : String)

def isNullWord (s : List Char) : Bool :=
  s = ['~'] || s = "null".toList || s = "Null".toList || s = "NULL".toList

def flagWord? (s : List Char) : Option Bool :=
  if s = "true".toList || s = "True".toList || s = "TRUE".toList then some true
  else if s = "false".toList || s = "False".toList || s = "FALSE".toList then some false
  else none

def digitsIn? (base : Nat) (digits : List Char) : Option Nat :=
  if digits.isEmpty then none
  else digits.foldl (fun n? c => do
    let n ← n?
    let d ← Text.hexValue? c
    if d < base then some (base * n + d) else none) (some 0)

/-- A row of digits after an optional sign that starts with a zero and goes on:
    a text, not a number. -/
def isZeroLed (s : List Char) : Bool :=
  let digits := match s with
    | '-' :: rest | '+' :: rest => rest
    | _ => s
  match digits with
  | '0' :: rest => !rest.isEmpty && rest.all isDecimalDigit
  | _ => false

/-- The base that a mark in front of digits announces, and the digits. -/
def based? : List Char → Option (Nat × List Char)
  | '0' :: 'x' :: rest => some (16, rest)
  | '0' :: 'o' :: rest => some (8, rest)
  | '0' :: 'b' :: rest => some (2, rest)
  | _ => none

def largestWide : Nat := 0x7FFFFFFFFFFFFFFFFFFFFFFFFFFFFFFF

def wholeWord? (s : List Char) : Option Int :=
  let (negative, unsigned) := match s with
    | '-' :: rest => (true, rest)
    | '+' :: rest => (false, rest)
    | _ => (false, s)
  let value := match (based? unsigned).bind fun (base, digits) => digitsIn? base digits with
    | some n => some n
    | none => if isZeroLed s then none else digitsIn? 10 unsigned
  match value with
  | some n =>
      if negative then if n ≤ largestWide + 1 then some (-(n : Int)) else none
      else if n ≤ 2 * largestWide + 1 then some n else none
  | none => none

/-- Digits with an optional point and exponent: what they spell as digits and a power of ten. -/
def decimalWord? (s : List Char) : Option (Nat × Int) :=
  let whole := s.takeWhile isDecimalDigit
  let rest := s.dropWhile isDecimalDigit
  let (fraction, rest) := match rest with
    | '.' :: rest => (rest.takeWhile isDecimalDigit, rest.dropWhile isDecimalDigit)
    | _ => ([], rest)
  if whole.isEmpty && fraction.isEmpty then none
  else
    let digits := digitsValue (whole ++ fraction)
    match rest with
    | [] => some (digits, -fraction.length)
    | c :: rest =>
        if c = 'e' ∨ c = 'E' then
          let (negative, exponent) := match rest with
            | '-' :: rest => (true, rest)
            | '+' :: rest => (false, rest)
            | _ => (false, rest)
          match digitsIn? 10 exponent with
          | some n => some (digits, (if negative then -(n : Int) else n) - fraction.length)
          | none => none
        else none

def isInfinityWord (s : List Char) : Bool :=
  s = ".inf".toList || s = ".Inf".toList || s = ".INF".toList

def isNotANumberWord (s : List Char) : Bool :=
  s = ".nan".toList || s = ".NaN".toList || s = ".NAN".toList

/-- Fractions, infinities and what is no number. -/
def floatWord? (s : List Char) : Option Float :=
  -- A decimal beyond the largest fraction is none.
  let finite (negative : Bool) (s : List Char) : Option Float := do
    let (digits, exponent) ← decimalWord? s
    let x := nearest digits exponent
    if x.isFinite then some (if negative then -x else x) else none
  if isNotANumberWord s then some (0 / 0)
  else match s with
    | '+' :: rest => if isInfinityWord rest then some (1 / 0) else finite false rest
    | '-' :: rest => if isInfinityWord rest then some (-1 / 0) else finite true rest
    | _ => if isInfinityWord s then some (1 / 0) else finite false s

def plainMeaning (text : String) : Meaning :=
  let s := text.toList
  if s.isEmpty || isNullWord s then .null
  else match flagWord? s with
    | some b => .flag b
    | none => match wholeWord? s with
      | some n => .whole n
      | none => match if isZeroLed s then none else floatWord? s with
        | some x => .float x
        | none => .text text

def boolTag : String := "tag:yaml.org,2002:bool"
def intTag : String := "tag:yaml.org,2002:int"
def floatTag : String := "tag:yaml.org,2002:float"
def nullTag : String := "tag:yaml.org,2002:null"

/-- The name of a local tag: what follows the exclamation mark, or the mark if nothing does. -/
def localName? (tag : Option String) : Option String :=
  match tag with
  | some tag => match tag.toList with
      | '!' :: [] => some "!"
      | '!' :: name => some (String.ofList name)
      | _ => none
  | none => none

/-- What a scalar is taken for under its tag. -/
def meaning (tag : Option String) (style : Style) (text : String) : Meaning :=
  -- A local tag on a plain scalar leaves its meaning.
  match tag with
  | none => if style = .plain then plainMeaning text else .text text
  | some tag =>
      if tag = boolTag then match flagWord? text.toList with
        | some b => .flag b
        | none => .unfit tag text
      else if tag = intTag then match wholeWord? text.toList with
        | some n => .whole n
        | none => .unfit tag text
      else if tag = floatTag then match floatWord? text.toList with
        | some x => .float x
        | none => .unfit tag text
      else if tag = nullTag then if isNullWord text.toList then .null else .unfit tag text
      else if tag.toList.head? = some '!' ∧ style = .plain then plainMeaning text
      else .text text

end SwaggerLift.Yaml
