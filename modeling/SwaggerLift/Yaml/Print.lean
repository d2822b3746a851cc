import SwaggerLift.Decimal.Spelling
import SwaggerLift.Value.Basic
import SwaggerLift.Yaml.ScalarStyle
/-!
YAML texts of document values, in block style. Members are indented by two spaces, the items of a
list under a key are not. An entry ends with a line break; a literal block brings its own.
-/

namespace SwaggerLift.Yaml

/-- How fractions are spelled: around a point from the fifth place after it up to sixteen places
    before it, else with an exponent without plus sign. -/
def fractions : Decimal.Spelling := ⟨Decimal.shortSpan, false⟩

def numberText : Number → List Char
  | .whole n =>
      if n.val < 0 then '-' :: Decimal.digitsOf n.val.natAbs else Decimal.digitsOf n.val.natAbs
  | .float x _ => fractions.text x

def pad (indent : Nat) : List Char := List.replicate indent ' '

def singleBody (indent : Nat) : (atBreak : Bool) → List Char → List Char
  | atBreak, [] => if atBreak then pad indent else []
  | atBreak, c :: rest =>
      if isBreak c then c :: singleBody indent true rest
      else
        (if atBreak then pad indent else []) ++ (if c = '\'' then ['\'', '\''] else [c]) ++
          singleBody indent false rest

def shortEscapeOf? (c : Char) : Option Char :=
  match c.toNat with
  | 0x00 => some '0'
  | 0x07 => some 'a'
  | 0x08 => some 'b'
  | 0x09 => some 't'
  | 0x0A => some 'n'
  | 0x0B => some 'v'
  | 0x0C => some 'f'
  | 0x0D => some 'r'
  | 0x1B => some 'e'
  | 0x22 => some '"'
  | 0x5C => some '\\'
  | 0x85 => some 'N'
  | 0x2028 => some 'L'
  | 0x2029 => some 'P'
  | _ => none

def codeEscapeOf (c : Char) : List Char :=
  let digits (width : Nat) := (Text.hexPadded width c.toNat).map Char.toUpper
  if c.toNat ≤ 0xFF then '\\' :: 'x' :: digits 2
  else if c.toNat ≤ 0xFFFF then '\\' :: 'u' :: digits 4
  else '\\' :: 'U' :: digits 8

def doubleChar (c : Char) : List Char :=
  match shortEscapeOf? c with
  | some letter => ['\\', letter]
  | none => if isPrintable c then [c] else codeEscapeOf c

def literalBody (indent : Nat) : (atBreak : Bool) → List Char → List Char
  | _, [] => []
  | atBreak, c :: rest =>
      if isBreak c then c :: literalBody indent true rest
      else (if atBreak then pad indent else []) ++ c :: literalBody indent false rest

/-- The header of a literal block: an indentation if the text starts with a space or a break, and
    what happens to the breaks at its end. -/
def literalHeader (s : List Char) : List Char :=
  let indentation := if s.head?.any (fun c => isSpace c || isBreak c) then ['2'] else []
  let chomping := match s.reverse with
    | [] => ['-']
    | [last] => if isBreak last then ['+'] else ['-']
    | last :: previous :: _ =>
        if !isBreak last then ['-'] else if isBreak previous then ['+'] else []
  '|' :: indentation ++ chomping ++ ['\n']

def styledText (style : Style) (indent : Nat) (s : List Char) : List Char :=
  match style with
  | .single => '\'' :: singleBody indent false s ++ ['\'']
  | .double => '"' :: s.flatMap doubleChar ++ ['"']
  | .literal => literalHeader s ++ literalBody indent true s
  | _ => s

def scalarText (indent : Nat) (s : List Char) : List Char := styledText (styleOf s) indent s

def endLine (text : List Char) : List Char :=
  if text.getLast?.any isBreak then text else text ++ ['\n']

/-- The longest key, in bytes, that needs no mark. -/
def keyBytes : Nat := 128

def isShortKey (s : List Char) : Bool :=
  !s.any isBreak && (String.ofList s).utf8ByteSize ≤ keyBytes

/-- Entries of which each but the first starts a line. -/
def joined (indent : Nat) : List (List Char) → List Char
  | [] => []
  | first :: rest => first ++ rest.flatMap fun entry => pad indent ++ entry

def lines (indent : Nat) (entries : List (List Char)) : List Char :=
  entries.flatMap fun entry => pad indent ++ entry

mutual
/-- A value behind a mark, in a collection at an indentation. -/
def afterMark (indent : Nat) : Value → List Char
  -- The first entry stands on the same line.
  | .null => " null\n".toList
  | .flag true => " true\n".toList
  | .flag false => " false\n".toList
  | .number n => ' ' :: numberText n ++ ['\n']
  | .text s => ' ' :: endLine (scalarText (indent + 2) s.toList)
  | .list [] => " []\n".toList
  | .object [] => " \x7b\x7d\n".toList
  | .list items => ' ' :: joined (indent + 2) (itemEntries (indent + 2) items)
  | .object members => ' ' :: joined (indent + 2) (memberEntries (indent + 2) members)

/-- A value behind a key and its colon, in a mapping at an indentation. -/
def afterKey (indent : Nat) : Value → List Char
  -- Entries start a new line.
  | .list (item :: items) => '\n' :: lines indent (itemEntries indent (item :: items))
  | .object (member :: members) =>
      '\n' :: lines (indent + 2) (memberEntries (indent + 2) (member :: members))
  | .null => " null\n".toList
  | .flag true => " true\n".toList
  | .flag false => " false\n".toList
  | .number n => ' ' :: numberText n ++ ['\n']
  | .text s => ' ' :: endLine (scalarText (indent + 2) s.toList)
  | .list [] => " []\n".toList
  | .object [] => " \x7b\x7d\n".toList

def itemEntries (indent : Nat) : List Value → List (List Char)
  | [] => []
  | item :: rest => ('-' :: afterMark indent item) :: itemEntries indent rest

def memberEntries (indent : Nat) : List (String × Value) → List (List Char)
  -- A long key stands behind a mark of its own.
  | [] => []
  | (name, item) :: rest =>
      let key := name.toList
      let entry :=
        if isShortKey key then scalarText (indent + 2) key ++ ':' :: afterKey indent item
        else
          "? ".toList ++ endLine (scalarText (indent + 2) key) ++ pad indent ++
            ':' :: afterMark indent item
      entry :: memberEntries indent rest
end

def print : Value → List Char
  | .list (item :: items) => lines 0 (itemEntries 0 (item :: items))
  | .object (member :: members) => lines 0 (memberEntries 0 (member :: members))
  | .text s => endLine (scalarText 2 s.toList)
  | scalar => (afterMark 0 scalar).drop 1

end SwaggerLift.Yaml
