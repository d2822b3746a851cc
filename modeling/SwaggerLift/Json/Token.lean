import SwaggerLift.Json.Numeral
import SwaggerLift.Json.Quotation
/-!
Tokens of a JSON text. `Token.scan` cuts a text into them, leaving out blanks. Where no token can be
read on, a broken one ends the row.
-/

namespace SwaggerLift.Json

inductive Token where
  | listOpen
  | listClose
  | objectOpen
  | objectClose
  | comma
  | colon
  | null
  | flag (b : Bool)
  | number (n : Reading Number)
  | text (s : Reading String)
  | broken (cut : Cut)

namespace Token

def isBlank (c : Char) : Bool := c == ' ' || c == '\n' || c == '\t' || c == '\r'

def word (token : Token) : (letters rest : List Char) → Token × List Char
  | [], rest => (token, rest)
  | _ :: _, [] => (.broken .ended, [])
  | letter :: letters, c :: rest =>
      if letter = c then word token letters rest else (.broken .malformed, [])

def first (c : Char) (rest : List Char) : Token × List Char :=
  if Decimal.isDecimalDigit c then
    let number := readUnsigned false c rest
    (.number number.1, number.2)
  else
    match c with
    | '-' => let number := readNegative rest; (.number number.1, number.2)
    | '"' => let quoted := readQuoted rest .start; (.text quoted.1, quoted.2)
    | 'n' => word .null ['u', 'l', 'l'] rest
    | 't' => word (.flag true) ['r', 'u', 'e'] rest
    | 'f' => word (.flag false) ['a', 'l', 's', 'e'] rest
    | '[' => (.listOpen, rest)
    | ']' => (.listClose, rest)
    | '{' => (.objectOpen, rest)
    | '}' => (.objectClose, rest)
    | ',' => (.comma, rest)
    | ':' => (.colon, rest)
    | _ => (.broken .malformed, [])

theorem word_length (token : Token) (letters rest : List Char) :
    (word token letters rest).2.length ≤ rest.length := by
  fun_induction word token letters rest with
  | case1 => simp
  | case2 => simp
  | case3 _ _ _ ih => exact Nat.le_succ_of_le ih
  | case4 => simp

theorem first_length (c : Char) (rest : List Char) : (first c rest).2.length ≤ rest.length := by
  fun_cases first c rest
  case case1 => exact readUnsigned_length false c rest
  case case2 => exact readNegative_length rest
  case case3 => exact readQuoted_length rest .start
  case case4 | case5 | case6 => exact word_length _ _ rest
  all_goals simp

def scan : List Char → List Token
  | [] => []
  | c :: rest =>
      if isBlank c then scan rest
      else
        let found := first c rest
        found.1 :: scan found.2
termination_by text => text.length
decreasing_by
  · simp
  · exact Nat.lt_succ_of_le (first_length c rest)

end Token

end SwaggerLift.Json
