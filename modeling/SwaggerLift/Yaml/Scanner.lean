import SwaggerLift.Yaml.BlockScalar
import SwaggerLift.Yaml.Plain
import SwaggerLift.Yaml.Property
/-!
The tokens of a YAML text. Indentation opens and closes block collections. A node that a colon
follows on the same line turns out to be a key only then, so the place where its key token would
stand is remembered and the token is put in later.
-/

namespace SwaggerLift.Yaml

/-- A node that may turn out to be a key: how many tokens stand before it, and where it starts. A
    required key is one at the indentation of its block, where nothing but an entry can stand. -/
structure PossibleKey where
  tokensBefore : Nat
  line : Nat
  column : Nat
  required : Bool
  deriving DecidableEq

structure Scanner where
  cursor : Cursor
  /-- The tokens so far, the last first. -/
  tokens : List Token
  /-- The column of the innermost block collection, or minus one. -/
  indent : Int
  outer : List Int
  /-- The possible key of the innermost flow collection, or of the block context. -/
  key : Option PossibleKey
  outerKeys : List (Option PossibleKey)
  /-- Whether a node that starts here may be a key without an indicator. -/
  keyAllowed : Bool

namespace Scanner

def start (text : List Char) : Scanner where
  cursor := ⟨text, 0, 0⟩
  tokens := []
  indent := -1
  outer := []
  key := none
  outerKeys := []
  keyAllowed := true

def inFlow (s : Scanner) : Bool := !s.outerKeys.isEmpty

def push (s : Scanner) (token : Token) : Scanner := { s with tokens := token :: s.tokens }

def insertAfter (s : Scanner) (count : Nat) (token : Token) : Scanner :=
  let later := s.tokens.length - count
  { s with tokens := s.tokens.take later ++ token :: s.tokens.drop later }

def take (s : Scanner) (count : Nat) (token : Token) : Scanner :=
  { s with cursor := s.cursor.skip count, tokens := token :: s.tokens }

/-- Opens a block collection if the column is to the right of the innermost one. -/
def indentTo (s : Scanner) (column : Nat) (count : Nat) (token : Token) : Scanner :=
  -- Its token goes behind the first `count` tokens, where the collection starts.
  if !s.inFlow && s.indent < column then
    { s.insertAfter count token with indent := column, outer := s.indent :: s.outer }
  else s

/-- How many block collections end at a column, and what is left around them. -/
def closedBy (column : Int) : (indent : Int) → (outer : List Int) → Nat × Int × List Int
  | indent, [] => (0, indent, [])
  | indent, next :: outer =>
      if column < indent then
        let (count, indent, outer) := closedBy column next outer
        (count + 1, indent, outer)
      else (0, indent, next :: outer)

def outdentTo (s : Scanner) (column : Int) : Scanner :=
  if s.inFlow then s
  else
    let (count, indent, outer) := closedBy column s.indent s.outer
    { s with tokens := List.replicate count .blockEnd ++ s.tokens, indent, outer }

def dropKey (s : Scanner) : Option Scanner :=
  -- A required key that turns out to be none is an error.
  match s.key with
  | some key => if key.required then none else some { s with key := none }
  | none => some s

def saveKey (s : Scanner) : Option Scanner :=
  if s.keyAllowed then do
    let s ← s.dropKey
    let key : PossibleKey :=
      { tokensBefore := s.tokens.length
        line := s.cursor.line
        column := s.cursor.column
        required := !s.inFlow && s.indent == s.cursor.column }
    some { s with key := some key }
  else some s

/-- How far from its start a key may reach. -/
def keyWidth : Nat := 1024

/-- A possible key ends with its line and with its width. -/
def dropStaleKey (s : Scanner) : Option Scanner :=
  -- Those of outer collections are looked at when they become current again.
  match s.key with
  | some key =>
      if key.line < s.cursor.line ∨
        key.column + keyWidth < s.cursor.column then s.dropKey else some s
  | none => some s

def skipGap (flow : Bool) : (rest : List Char) → (line column : Nat) → (comment keyAllowed : Bool) →
    Cursor × Bool
  -- A tab counts as a blank where no key can start. In block context a new line allows keys again.
  | [], line, column, _, keyAllowed => (⟨[], line, column⟩, keyAllowed)
  | c :: rest, line, column, comment, keyAllowed =>
      if isBreak c then skipGap flow rest (line + 1) 0 false (keyAllowed || !flow)
      else if comment || c == '#' then skipGap flow rest line (column + 1) true keyAllowed
      else if c == ' ' || (c == '\t' && (flow || !keyAllowed)) ||
        (c == byteOrderMark && column == 0) then
        skipGap flow rest line (column + 1) false keyAllowed
      else (⟨c :: rest, line, column⟩, keyAllowed)

def toNextToken (s : Scanner) : Scanner :=
  let (cursor, keyAllowed) :=
    skipGap s.inFlow s.cursor.rest s.cursor.line s.cursor.column false s.keyAllowed
  { s with cursor, keyAllowed }

def endStream (s : Scanner) : Option Scanner := do
  let s ← (s.outdentTo (-1)).dropKey
  some (s.push .streamEnd)

def directive (s : Scanner) : Option Scanner := do
  let s ← (s.outdentTo (-1)).dropKey
  let (token, cursor) ← scanDirective (s.cursor.skip 1)
  some { s.push token with cursor, keyAllowed := false }

def documentMark (s : Scanner) (token : Token) : Option Scanner := do
  let s ← (s.outdentTo (-1)).dropKey
  some { s.take 3 token with keyAllowed := false }

def flowStart (s : Scanner) (token : Token) : Option Scanner := do
  let s ← s.saveKey
  some { s.take 1 token with key := none, outerKeys := s.key :: s.outerKeys, keyAllowed := true }

def flowEnd (s : Scanner) (token : Token) : Option Scanner := do
  let s ← s.dropKey
  let s := match s.outerKeys with
    | key :: outerKeys => { s with key, outerKeys }
    | [] => s
  some { s.take 1 token with keyAllowed := false }

def flowEntry (s : Scanner) : Option Scanner := do
  let s ← s.dropKey
  some { s.take 1 .flowEntry with keyAllowed := true }

/-- In block context an indicator at the start of an entry may open a collection at its column. -/
def openBlock (s : Scanner) (token : Token) : Option Scanner :=
  if s.inFlow then some s
  else if s.keyAllowed then some (s.indentTo s.cursor.column s.tokens.length token)
  else none

def blockEntry (s : Scanner) : Option Scanner := do
  let s ← (← s.openBlock .blockSequence).dropKey
  some { s.take 1 .blockEntry with keyAllowed := true }

def keyMark (s : Scanner) : Option Scanner := do
  let s ← (← s.openBlock .blockMapping).dropKey
  some { s.take 1 .key with keyAllowed := !s.inFlow }

def valueMark (s : Scanner) : Option Scanner :=
  -- A colon makes the possible key before it a key; without one it follows a key with an indicator.
  match s.key with
  | some key =>
      let s := s.insertAfter key.tokensBefore .key
      let s := s.indentTo key.column key.tokensBefore .blockMapping
      some { s.take 1 .value with key := none, keyAllowed := false }
  | none => do
      let s ← s.openBlock .blockMapping
      some { s.take 1 .value with keyAllowed := !s.inFlow }

def named (s : Scanner) (token : List Char → Token) : Option Scanner := do
  let s ← s.saveKey
  let (name, cursor) ← scanName (s.cursor.skip 1)
  some { s.push (token name) with cursor, keyAllowed := false }

def tag (s : Scanner) : Option Scanner := do
  let s ← s.saveKey
  let (token, cursor) ← scanTag s.inFlow s.cursor
  some { s.push token with cursor, keyAllowed := false }

def blockScalar (s : Scanner) (style : Style) : Option Scanner := do
  let s ← s.dropKey
  let found ← scanBlock (style == .folded) s.indent (s.cursor.skip 1)
  some { s.push (.scalar style found.text) with cursor := found.cursor, keyAllowed := true }

def quotedScalar (s : Scanner) (style : Style) : Option Scanner := do
  let s ← s.saveKey
  let scan := if style = .single then scanSingle else scanDouble
  let cursor := s.cursor.skip 1
  let found ← scan cursor.rest cursor.line cursor.column [] .none
  some { s.push (.scalar style found.text) with cursor := found.cursor, keyAllowed := false }

def plainScalar (s : Scanner) : Option Scanner := do
  let s ← s.saveKey
  let found ← scanPlain s.inFlow (s.indent + 1) s.cursor.rest s.cursor.line s.cursor.column [] .none
  some { s.push (.scalar .plain found.scanned.text) with
    cursor := found.scanned.cursor, keyAllowed := found.broken }

def isIndicator (c : Char) : Bool :=
  ['-', '?', ':', ',', '[', ']', '{', '}', '#', '&', '*', '!', '|', '>', '\'', '"', '%', '@',
    '\x60'].contains c

def startsPlain (flow : Bool) (c : Char) (rest : List Char) : Bool :=
  !(isBlank c || isBreak c || isIndicator c) ||
    (c == '-' && !(rest.head?.any isBlank)) ||
    (!flow && (c == '?' || c == ':') && !atGap rest)

def token (s : Scanner) (c : Char) (rest : List Char) : Option Scanner :=
  let flow := s.inFlow
  if s.cursor.column = 0 ∧ c = '%' then s.directive
  else if s.cursor.column = 0 ∧ atDocumentMark (c :: rest) then
    s.documentMark (if c = '-' then .documentStart else .documentEnd)
  else if c = '[' then s.flowStart .flowSequence
  else if c = '{' then s.flowStart .flowMapping
  else if c = ']' then s.flowEnd .flowSequenceEnd
  else if c = '}' then s.flowEnd .flowMappingEnd
  else if c = ',' then s.flowEntry
  else if c = '-' ∧ atGap rest then s.blockEntry
  else if c = '?' ∧ (flow ∨ atGap rest) then s.keyMark
  else if c = ':' ∧ (flow ∨ atGap rest) then s.valueMark
  else if c = '*' then s.named .link
  else if c = '&' then s.named .anchor
  else if c = '!' then s.tag
  else if c = '|' ∧ !flow then s.blockScalar .literal
  else if c = '>' ∧ !flow then s.blockScalar .folded
  else if c = '\'' then s.quotedScalar .single
  else if c = '"' then s.quotedScalar .double
  else if startsPlain flow c rest then s.plainScalar
  else none

def run : (steps : Nat) → Scanner → Option (List Token)
  | 0, _ => none
  | steps + 1, s => do
      let ready ← s.toNextToken.dropStaleKey
      let ready := ready.outdentTo ready.cursor.column
      match ready.cursor.rest with
      | [] => do
          let done ← ready.endStream
          some done.tokens.reverse
      | c :: rest => run steps (← ready.token c rest)

end Scanner

/-- The tokens of a text, if all its characters are readable and it can be cut into tokens. -/
def tokens? (text : String) : Option (List Token) :=
  -- A mark at the start tells the byte order and is no part of the text. Every token takes a
  -- character, so there are no more steps than characters and one for the end.
  let chars := match text.toList with
    | c :: rest => if c = byteOrderMark then rest else c :: rest
    | [] => []
  if chars.all isReadable then (Scanner.start (unifyBreaks chars)).run (chars.length + 1) else none

end SwaggerLift.Yaml
