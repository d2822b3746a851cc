import SwaggerLift.Decimal.Spelling
import SwaggerLift.Json.Quotation
import SwaggerLift.Value.Basic
/-!
JSON texts of document values, on one line or with one member a line.
-/

namespace SwaggerLift.Json

/-- How fractions are spelled: around a point from the fifth place after it up to sixteen places
    before it, else with an exponent that shows its sign. -/
def fractions : Decimal.Spelling := ⟨Decimal.shortSpan, true⟩

def wholeText (n : Int) : List Char :=
  if n < 0 then '-' :: Decimal.digitsOf n.natAbs else Decimal.digitsOf n.natAbs

def numberText : Number → List Char
  | .whole n => wholeText n.val
  | .float x _ => fractions.text x

/-- A text on one line, or spread over lines that are indented by two blanks for each level. -/
inductive Spacing where
  | compact
  | pretty
  deriving DecidableEq

namespace Spacing

def line (depth : Nat) : Spacing → List Char
  | compact => []
  | pretty => '\n' :: List.replicate (2 * depth) ' '

def afterColon : Spacing → List Char
  | compact => [':']
  | pretty => [':', ' ']

end Spacing

/-- Parts between brackets, each on a line of its own, with commas between them. -/
def bracketed (spacing : Spacing) (depth : Nat) (opening closing : Char) :
    List (List Char) → List Char
  | [] => [opening, closing]
  | first :: rest =>
      opening :: spacing.line (depth + 1) ++ first ++
        rest.flatMap (fun part => ',' :: spacing.line (depth + 1) ++ part) ++
        spacing.line depth ++ [closing]

mutual
def print (spacing : Spacing) (depth : Nat) : Value → List Char
  | .null => ['n', 'u', 'l', 'l']
  | .flag true => ['t', 'r', 'u', 'e']
  | .flag false => ['f', 'a', 'l', 's', 'e']
  | .number n => numberText n
  | .text s => escaped s
  | .list items => bracketed spacing depth '[' ']' (printItems spacing (depth + 1) items)
  | .object members => bracketed spacing depth '{' '}' (printMembers spacing (depth + 1) members)

def printItems (spacing : Spacing) (depth : Nat) : List Value → List (List Char)
  | [] => []
  | item :: rest => print spacing depth item :: printItems spacing depth rest

def printMembers (spacing : Spacing) (depth : Nat) : List (String × Value) → List (List Char)
  | [] => []
  | (name, item) :: rest =>
      (escaped name ++ spacing.afterColon ++ print spacing depth item) ::
        printMembers spacing depth rest
end

def compact (value : Value) : String := String.ofList (print .compact 0 value)

/-- The text of a value with one member a line, and a line break at its end. -/
def pretty (value : Value) : String := String.ofList (print .pretty 0 value ++ ['\n'])

end SwaggerLift.Json
