import SwaggerLift.Yaml.Quoted
/-!
Plain scalars: words without quotes. They end at a colon before a gap, at a comment after a gap, at
a document mark and, in block context, at a line that is not indented enough; in flow context also
at brackets and commas.
-/

namespace SwaggerLift.Yaml

def isFlowIndicator (c : Char) : Bool :=
  c == ',' || c == '[' || c == ']' || c == '{' || c == '}'

/-- The end of a plain scalar, and whether it was met after a line break. -/
structure PlainEnd where
  scanned : Scanned
  broken : Bool

/-- A colon directly before an indicator cannot stand inside a plain scalar in flow context. -/
def isLostColon : List Char → Bool
  | ':' :: c :: _ => isFlowIndicator c || c == '?'
  | _ => false

/-- Whether a plain scalar ends here, where no blank and no line break stands. -/
def endsPlain (flow : Bool) : List Char → Bool
  | [] => true
  | c :: rest => (c == ':' && atGap rest) || (flow && isFlowIndicator c)

def scanPlain (flow : Bool) (indent : Int) :
    (rest : List Char) → (line column : Nat) → (before : List Char) → Gap → Option PlainEnd
  | [], line, column, before, gap => some ⟨⟨before.reverse, [], line, column⟩, gap.broken⟩
  | c :: rest, line, column, before, gap =>
      if isBlank c then
        if gap.broken ∧ (column : Int) < indent ∧ c = '\t' then none
        else scanPlain flow indent rest line (column + 1) before (gap.addBlank c)
      else if isBreak c then scanPlain flow indent rest (line + 1) 0 before (gap.addBreak c)
      else
        let outdented := gap.isOpen && !flow && decide ((column : Int) < indent)
        let marked := column == 0 && atDocumentMark (c :: rest)
        let commented := gap.isOpen && c == '#'
        if outdented || marked || commented then
          some ⟨⟨before.reverse, c :: rest, line, column⟩, gap.broken⟩
        else if flow && isLostColon (c :: rest) then none
        else if endsPlain flow (c :: rest) then
          some ⟨⟨before.reverse, c :: rest, line, column⟩, gap.broken⟩
        else scanPlain flow indent rest line (column + 1) (c :: gap.text ++ before) .none

end SwaggerLift.Yaml
