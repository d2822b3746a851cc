/-!
Characters of a YAML text: which may stand in it at all, which end a line, which separate.
-/

namespace SwaggerLift.Yaml

/-- Characters that a text may hold: no controls but tab, line breaks and next line, no surrogates,
    and not the last two points of the basic plane. -/
def isReadable (c : Char) : Bool :=
  c == '\t' || c == '\n' || c == '\r' || (' ' ≤ c && c ≤ '~') || c == '\x85' ||
    ('\xa0' ≤ c && c ≤ '\ufffd') || 0x10000 ≤ c.toNat

def byteOrderMark : Char := '\ufeff'

def isBlank (c : Char) : Bool := c == ' ' || c == '\t'

def isBreak (c : Char) : Bool :=
  c == '\n' || c == '\r' || c == '\x85' || c == '\u2028' || c == '\u2029'

def atGap : List Char → Bool
  | [] => true
  | c :: _ => isBlank c || isBreak c

def atLineEnd : List Char → Bool
  | [] => true
  | c :: _ => isBreak c

def isWordChar (c : Char) : Bool :=
  ('0' ≤ c && c ≤ '9') || ('A' ≤ c && c ≤ 'Z') || ('a' ≤ c && c ≤ 'z') || c == '_' || c == '-'

/-- The line breaks of ASCII and the next line character count as one line feed each; the separators
    of lines and paragraphs stay what they are. -/
def unifyBreaks : List Char → List Char
  | [] => []
  | '\r' :: '\n' :: rest => '\n' :: unifyBreaks rest
  | c :: rest => (if c = '\r' ∨ c = '\x85' then '\n' else c) :: unifyBreaks rest

/-- Whether a line starts with three hyphens or three points that stand alone. -/
def atDocumentMark : List Char → Bool
  | '-' :: '-' :: '-' :: rest => atGap rest
  | '.' :: '.' :: '.' :: rest => atGap rest
  | _ => false

structure Cursor where
  rest : List Char
  line : Nat
  column : Nat

namespace Cursor

def skip (cursor : Cursor) (count : Nat) : Cursor :=
  ⟨cursor.rest.drop count, cursor.line, cursor.column + count⟩

def skipWhile (cursor : Cursor) (p : Char → Bool) : Cursor :=
  cursor.skip (cursor.rest.takeWhile p).length

def skipBreak (cursor : Cursor) : Cursor :=
  match cursor.rest with
  | c :: rest => if isBreak c then ⟨rest, cursor.line + 1, 0⟩ else cursor
  | [] => cursor

end Cursor

end SwaggerLift.Yaml
