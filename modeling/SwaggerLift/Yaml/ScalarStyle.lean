import SwaggerLift.Yaml.Character
import SwaggerLift.Yaml.Scalar
/-!
The style in which a text is written: plain if that reads back as the same text, else between single
quotes, else between double quotes with escapes. A text with line feeds is written as a literal
block if its blanks allow it.
-/

namespace SwaggerLift.Yaml

def isPrintable (c : Char) : Bool :=
  c == '\n' || (' ' ≤ c && c ≤ '~') ||
    ('\xa0' ≤ c && c != byteOrderMark && c != '\ufffe' && c != '\uffff')

def beforeGap : List Char → Bool
  | [] => true
  | c :: _ => isBlank c || isBreak c || c.toNat == 0

/-- Whether a character of one kind stands directly before one of another. -/
def hasPair (p q : Char → Bool) : List Char → Bool
  | c :: d :: rest => (p c && q d) || hasPair p q (d :: rest)
  | _ => false

def isStartIndicator (c : Char) : Bool :=
  ['#', ',', '[', ']', '{', '}', '&', '*', '!', '|', '>', '\'', '"', '%', '@', '\x60'].contains c

def startsIndicated : List Char → Bool
  | '-' :: '-' :: '-' :: _ => true
  | '.' :: '.' :: '.' :: _ => true
  | c :: rest => isStartIndicator c || ((c == '?' || c == ':' || c == '-') && beforeGap rest)
  | [] => false

/-- Whether a plain text would end inside: a colon before a gap, or a number sign after one. -/
def hasIndicator : List Char → Bool
  | c :: d :: rest =>
      (d == ':' && beforeGap rest) || (d == '#' && beforeGap [c]) || hasIndicator (d :: rest)
  | _ => false

def isSpace (c : Char) : Bool := c == ' '

/-- No character needs an escape, and no line ends with spaces. -/
def isPresentable (s : List Char) : Bool := s.all isPrintable && !hasPair isSpace isBreak s

def plainAllowed (s : List Char) : Bool :=
  isPresentable s && !s.any isBreak && !s.head?.any isSpace && !s.getLast?.any isSpace &&
    !startsIndicated s && !hasIndicator s

def singleAllowed (s : List Char) : Bool := isPresentable s && !hasPair isBreak isSpace s

def literalAllowed (s : List Char) : Bool := isPresentable s && !s.getLast?.any isSpace

def isAmbiguous (s : List Char) : Bool :=
  match plainMeaning (String.ofList s) with
  | .text _ => isZeroLed s
  | _ => true

def styleOf (s : List Char) : Style :=
  if s.contains '\n' then if literalAllowed s then .literal else .double
  else if !isAmbiguous s && plainAllowed s then .plain
  else if singleAllowed s then .single
  else .double

end SwaggerLift.Yaml
