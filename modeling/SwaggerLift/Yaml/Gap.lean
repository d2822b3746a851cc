import SwaggerLift.Yaml.Character
/-!
Gaps inside scalars: blanks and line breaks between two words. On one line a gap stands for its
blanks. Over a line break its blanks do not count, one line feed becomes a space, and further breaks
stay.
-/

namespace SwaggerLift.Yaml

/-- The blanks of a gap and, once a line has ended in it, its breaks; both in reverse. -/
structure Gap where
  blanks : List Char
  broken : Bool
  first : Option Char
  more : List Char
  deriving DecidableEq

namespace Gap

def none : Gap := ⟨[], false, .none, []⟩

/-- The gap after a line break that is escaped and stands for nothing. -/
def escaped : Gap := ⟨[], true, .none, []⟩

def isOpen (gap : Gap) : Bool := gap.broken || !gap.blanks.isEmpty

def addBlank (gap : Gap) (c : Char) : Gap :=
  if gap.broken then gap else { gap with blanks := c :: gap.blanks }

def addBreak (gap : Gap) (c : Char) : Gap :=
  if gap.broken then { gap with more := c :: gap.more } else ⟨[], true, some c, []⟩

def text (gap : Gap) : List Char :=
  if gap.broken then
    match gap.first with
    | some '\n' => if gap.more.isEmpty then [' '] else gap.more
    | some c => gap.more ++ [c]
    | .none => gap.more
  else gap.blanks

end Gap

end SwaggerLift.Yaml
