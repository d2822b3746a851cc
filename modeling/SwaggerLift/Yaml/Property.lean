import SwaggerLift.Decimal.Nearest
import SwaggerLift.Text.Hex
import SwaggerLift.Yaml.Character
import SwaggerLift.Yaml.Token
/-!
Anchors, aliases and tags in front of nodes, and the directives that declare tag handles. Each
reader starts behind the indicator character and gives back the place after what it read.
-/

namespace SwaggerLift.Yaml

def scanName (cursor : Cursor) : Option (List Char × Cursor) :=
  -- It ends before a gap or before certain indicators.
  let name := cursor.rest.takeWhile isWordChar
  let after := cursor.skip name.length
  let ends := match after.rest with
    | [] => true
    | c :: rest => atGap (c :: rest) || ['?', ':', ',', ']', '}', '%', '@', '\x60'].contains c
  if name.isEmpty ∨ ends = false then none else some (name, after)

def isTagMark (c : Char) : Bool :=
  [';', '/', '?', ':', '@', '&', '=', '+', '$', '.', '%', '!', '~', '*', '\'', '(', ')'].contains c

/-- Characters that may also stand in a tag between angle brackets or after a directive. -/
def isOpenTagMark (c : Char) : Bool := c == ',' || c == '[' || c == ']'

def isTagChar (inBrackets : Bool) (c : Char) : Bool :=
  isWordChar c || isTagMark c || (inBrackets && isOpenTagMark c)

/-- The bytes that a row of percent escapes and other characters stands for. -/
def tagBytes : List Char → Option (List UInt8)
  | [] => some []
  | '%' :: a :: b :: rest => do
      let n ← Text.hexRow? [a, b]
      return UInt8.ofNat n :: (← tagBytes rest)
  | c :: rest => if c = '%' then none else do return UInt8.ofNat c.toNat :: (← tagBytes rest)

def followers? (first : UInt8) : Option Nat :=
  if first < 0x80 then some 0
  else if 0xC0 ≤ first ∧ first < 0xE0 then some 1
  else if 0xE0 ≤ first ∧ first < 0xF0 then some 2
  else if 0xF0 ≤ first ∧ first < 0xF8 then some 3
  else none

/-- Whether the bytes are characters in full; `waiting` more bytes belong to the one before. -/
def wholeCharacters (waiting : Nat) : List UInt8 → Bool
  | [] => waiting == 0
  | byte :: rest =>
      match waiting with
      | 0 => match followers? byte with
          | some waiting => wholeCharacters waiting rest
          | none => false
      | waiting + 1 => 0x80 ≤ byte && byte < 0xC0 && wholeCharacters waiting rest

def tagText (spelled : List Char) : Option (List Char) := do
  -- Escapes have to spell characters in full.
  let bytes ← tagBytes spelled
  if wholeCharacters 0 bytes then
    some (((String.fromUTF8? ⟨bytes.toArray⟩).getD "\ufffd").toList)
  else none

/-- The rest of a tag, which must not be empty unless something stands before it. -/
def scanTagText (inBrackets : Bool) (start : List Char) (cursor : Cursor) :
    Option (List Char × Cursor) := do
  let spelled := cursor.rest.takeWhile (isTagChar inBrackets)
  let text ← tagText spelled
  if start.isEmpty ∧ spelled.isEmpty then none
  else some (start.drop 1 ++ text, cursor.skip spelled.length)

def scanHandle (cursor : Cursor) : Option (List Char × Cursor) :=
  match cursor.rest with
  | '!' :: rest =>
      let name := rest.takeWhile isWordChar
      let after := cursor.skip (name.length + 1)
      match after.rest with
      | '!' :: _ => some ('!' :: name ++ ['!'], after.skip 1)
      | _ => some ('!' :: name, after)
  | _ => none

def isNamedHandle (handle : List Char) : Bool :=
  handle.length > 1 && handle.getLast? == some '!'

/-- A tag: between angle brackets, with a handle, or local. It ends before a gap, in flow
    context also before a comma. -/
def scanTag (flow : Bool) (cursor : Cursor) : Option (Token × Cursor) := do
  let (handle, suffix, after) ← match cursor.rest with
    | '!' :: '<' :: _ => do
        let (suffix, after) ← scanTagText true [] (cursor.skip 2)
        if after.rest.head? = some '>' then some ([], suffix, after.skip 1) else none
    | _ => do
        let (handle, after) ← scanHandle cursor
        if isNamedHandle handle then
          let (suffix, after) ← scanTagText false [] after
          some (handle, suffix, after)
        else
          let (suffix, after) ← scanTagText false handle after
          if suffix.isEmpty then some ([], ['!'], after) else some (['!'], suffix, after)
  if atGap after.rest ∨ (flow ∧ after.rest.head? = some ',') then
    some (.tag handle suffix, after)
  else none

def scanVersionNumber (cursor : Cursor) : Option (Nat × Cursor) :=
  let digits := cursor.rest.takeWhile Decimal.isDecimalDigit
  if digits.isEmpty ∨ digits.length > 9 then none
  else some (Decimal.digitsValue digits, cursor.skip digits.length)

def scanVersion (cursor : Cursor) : Option (Token × Cursor) := do
  let (major, after) ← scanVersionNumber (cursor.skipWhile isBlank)
  if after.rest.head? = some '.' then
    let (minor, after) ← scanVersionNumber (after.skip 1)
    some (.version major minor, after)
  else none

def scanTagDirective (cursor : Cursor) : Option (Token × Cursor) := do
  let (handle, after) ← scanHandle (cursor.skipWhile isBlank)
  if handle ≠ ['!'] ∧ isNamedHandle handle = false then none
  else match after.rest with
    | c :: _ =>
        if isBlank c then
          let (start, after) ← scanTagText true [] (after.skipWhile isBlank)
          if atGap after.rest then some (.tagHandle handle start, after) else none
        else none
    | [] => none

def scanDirective (cursor : Cursor) : Option (Token × Cursor) := do
  let name := cursor.rest.takeWhile isWordChar
  let after := cursor.skip name.length
  let (token, after) ←
    if !atGap after.rest then none
    else if name = ['Y', 'A', 'M', 'L'] then scanVersion after
    else if name = ['T', 'A', 'G'] then scanTagDirective after
    else none
  let after := after.skipWhile isBlank
  let after := match after.rest with
    | '#' :: _ => after.skipWhile fun c => !isBreak c
    | _ => after
  if atLineEnd after.rest then some (token, after.skipBreak) else none

end SwaggerLift.Yaml
