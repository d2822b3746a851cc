import SwaggerLift.Text.Hex
import SwaggerLift.Yaml.Gap
/-!
Quoted scalars. Between single quotes a quote is written twice and nothing else is special; between
double quotes a backslash starts an escape. Both may go over lines; no line may start with a
document mark.
-/

namespace SwaggerLift.Yaml

structure Scanned where
  text : List Char
  cursor : Cursor

def scanSingle : (rest : List Char) → (line column : Nat) → (before : List Char) → Gap →
    Option Scanned
  -- What has been read is in reverse.
  | [], _, _, _, _ => none
  | '\'' :: '\'' :: rest, line, column, before, gap =>
      scanSingle rest line (column + 2) ('\'' :: gap.text ++ before) .none
  | c :: rest, line, column, before, gap =>
      if column = 0 ∧ atDocumentMark (c :: rest) then none
      else if c = '\'' then some ⟨(gap.text ++ before).reverse, rest, line, column + 1⟩
      else if isBlank c then scanSingle rest line (column + 1) before (gap.addBlank c)
      else if isBreak c then scanSingle rest (line + 1) 0 before (gap.addBreak c)
      else scanSingle rest line (column + 1) (c :: gap.text ++ before) .none

def shortEscape? : Char → Option Char
  | '0' => some '\x00'
  | 'a' => some '\x07'
  | 'b' => some '\x08'
  | 't' => some '\t'
  | '\t' => some '\t'
  | 'n' => some '\n'
  | 'v' => some '\x0b'
  | 'f' => some '\x0c'
  | 'r' => some '\r'
  | 'e' => some '\x1b'
  | ' ' => some ' '
  | '"' => some '"'
  | '/' => some '/'
  | '\\' => some '\\'
  | 'N' => some '\x85'
  | '_' => some '\xa0'
  | 'L' => some '\u2028'
  | 'P' => some '\u2029'
  | _ => none

def codeEscape? (digits : List Char) : Option Char := do
  let n ← Text.hexRow? digits
  if h : n.isValidChar then some (.ofNatAux n h) else none

def scanDouble : (rest : List Char) → (line column : Nat) → (before : List Char) → Gap →
    Option Scanned
  | [], _, _, _, _ => none
  | '\\' :: 'x' :: a :: b :: rest, line, column, before, gap => do
      let c ← codeEscape? [a, b]
      scanDouble rest line (column + 4) (c :: gap.text ++ before) .none
  | '\\' :: 'u' :: a :: b :: c :: d :: rest, line, column, before, gap => do
      let c ← codeEscape? [a, b, c, d]
      scanDouble rest line (column + 6) (c :: gap.text ++ before) .none
  | '\\' :: 'U' :: a :: b :: c :: d :: e :: f :: g :: h :: rest, line, column, before, gap => do
      let c ← codeEscape? [a, b, c, d, e, f, g, h]
      scanDouble rest line (column + 10) (c :: gap.text ++ before) .none
  | '\\' :: c :: rest, line, column, before, gap =>
      if isBreak c then scanDouble rest (line + 1) 0 (gap.text ++ before) .escaped
      else do
        let c ← shortEscape? c
        scanDouble rest line (column + 2) (c :: gap.text ++ before) .none
  | c :: rest, line, column, before, gap =>
      if column = 0 ∧ atDocumentMark (c :: rest) then none
      else if c = '"' then some ⟨(gap.text ++ before).reverse, rest, line, column + 1⟩
      else if isBlank c then scanDouble rest line (column + 1) before (gap.addBlank c)
      else if isBreak c then scanDouble rest (line + 1) 0 before (gap.addBreak c)
      else scanDouble rest line (column + 1) (c :: gap.text ++ before) .none

end SwaggerLift.Yaml
