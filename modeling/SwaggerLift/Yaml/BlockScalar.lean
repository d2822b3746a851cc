import SwaggerLift.Decimal.Nearest
import SwaggerLift.Yaml.Quoted
/-!
Block scalars: lines that are indented more than what contains them. A literal one keeps its line
breaks, a folded one joins lines. A header may fix the indentation and what happens to the breaks at
the end.
-/

namespace SwaggerLift.Yaml

/-- What becomes of the line breaks at the end: none is kept, the last of the text, or all. -/
inductive Chomping where
  | strip
  | clip
  | keep
  deriving DecidableEq

structure BlockHeader where
  chomping : Chomping
  /-- How far the lines are indented relative to what contains the scalar, if the header says so. -/
  increment : Option Nat

def chomping? : Char → Option Chomping
  | '+' => some .keep
  | '-' => some .strip
  | _ => none

/-- An indentation of one to nine; zero is an error. -/
def increment? (c : Char) : Option (Option Nat) :=
  if c = '0' then none
  else if Decimal.isDecimalDigit c then some (some (Decimal.digitValue c))
  else some none

/-- Reads the two indicators of a header in either order, and tells how many
    characters they take. -/
def scanIndicators : List Char → Option (BlockHeader × Nat)
  | [] => some (⟨.clip, none⟩, 0)
  | c :: rest =>
      match chomping? c with
      | some chomping => do
          match rest with
          | [] => some (⟨chomping, none⟩, 1)
          | d :: _ => match ← increment? d with
              | some n => some (⟨chomping, some n⟩, 2)
              | none => some (⟨chomping, none⟩, 1)
      | none => do
          match ← increment? c with
          | none => some (⟨.clip, none⟩, 0)
          | some n => match rest.head?.bind chomping? with
              | some chomping => some (⟨chomping, some n⟩, 2)
              | none => some (⟨.clip, some n⟩, 1)

/-- Reads a header up to and including the end of its line. -/
def scanHeader (cursor : Cursor) : Option (BlockHeader × Cursor) := do
  -- Blanks and a comment may end the line.
  let (header, width) ← scanIndicators cursor.rest
  let cursor := (cursor.skip width).skipWhile isBlank
  let cursor := match cursor.rest with
    | '#' :: _ => cursor.skipWhile fun c => !isBreak c
    | _ => cursor
  if atLineEnd cursor.rest then some (header, cursor.skipBreak) else none

/-- A block scalar that has been read in part. Texts are in reverse. -/
structure BlockText where
  before : List Char
  /-- The break that ended the last line. -/
  first : Option Char
  /-- The breaks of empty lines after it. -/
  more : List Char
  leadingBlank : Bool

namespace BlockText

def empty : BlockText := ⟨[], none, [], false⟩

def addBreak (t : BlockText) (c : Char) : BlockText := { t with more := c :: t.more }

/-- Starts a line with its first character. A folded scalar joins it to the line before by a space,
    unless one of the two starts with a blank or empty lines stand between them. -/
def startLine (folded : Bool) (t : BlockText) (c : Char) : BlockText :=
  let joined :=
    if folded ∧ t.first = some '\n' ∧ t.leadingBlank = false ∧ isBlank c = false then
      if t.more.isEmpty then [' '] else t.more
    else t.more ++ t.first.toList
  ⟨c :: joined ++ t.before, none, [], isBlank c⟩

def add (t : BlockText) (c : Char) : BlockText := { t with before := c :: t.before }

def endLine (t : BlockText) (c : Char) : BlockText := { t with first := some c }

def finish (chomping : Chomping) (t : BlockText) : List Char :=
  match chomping with
  | .strip => t.before.reverse
  | .clip => (t.first.toList ++ t.before).reverse
  | .keep => (t.more ++ t.first.toList ++ t.before).reverse

end BlockText

/-- Where reading stands: inside a line, or before the first character of one. There `widest` is the
    widest indentation seen while it is not yet known how far the lines are indented. -/
inductive BlockPlace where
  | inLine (indent : Nat)
  | before (indent : Option Nat) (widest : Nat)

/-- Reads the lines of a block scalar; they are indented by at least `least`. -/
def scanLines (folded : Bool) (chomping : Chomping) (least : Nat) :
    (rest : List Char) → (line column : Nat) → BlockPlace → BlockText → Option Scanned
  | [], line, column, _, t => some ⟨t.finish chomping, [], line, column⟩
  | c :: rest, line, column, .inLine indent, t =>
      if isBreak c then
        scanLines folded chomping least rest (line + 1) 0 (.before (some indent) 0) (t.endLine c)
      else scanLines folded chomping least rest line (column + 1) (.inLine indent) (t.add c)
  | c :: rest, line, column, .before indent widest, t =>
      let inside := match indent with
        | some indent => decide (column < indent)
        | none => true
      if inside && c == ' ' then
        scanLines folded chomping least rest line (column + 1) (.before indent widest) t
      else if inside && c == '\t' then none
      else
        let widest := max widest column
        if isBreak c then
          scanLines folded chomping least rest (line + 1) 0 (.before indent widest) (t.addBreak c)
        else
          let indent := indent.getD (max widest least)
          if column = indent then
            scanLines folded chomping least rest line (column + 1) (.inLine indent)
              (t.startLine folded c)
          else some ⟨t.finish chomping, c :: rest, line, column⟩

def scanBlock (folded : Bool) (outer : Int) (cursor : Cursor) : Option Scanned := do
  let (header, cursor) ← scanHeader cursor
  let indent := header.increment.map fun n => outer.toNat + n
  scanLines folded header.chomping (max 1 (outer + 1).toNat) cursor.rest cursor.line cursor.column
    (.before indent 0) .empty

end SwaggerLift.Yaml
