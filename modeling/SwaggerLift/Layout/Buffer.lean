import SwaggerLift.Layout.Mismatch
import SwaggerLift.Value.Verbatim
/-!
Buffered content: what a record that is recognised by one of its members is kept as until that
member has been seen, and what members outside the declared fields are kept as until the record
ends. Unlike in a document value, a key may be anything here and a fraction need not be finite.
-/

namespace SwaggerLift

inductive Buffer where
  | null
  | flag (b : Bool)
  | whole (n : Whole)
  | float (x : Float)
  | text (s : String)
  | list (items : List Buffer)
  | mapping (entries : List (Buffer × Buffer))
  deriving Inhabited

namespace Buffer

def found : Buffer → Found
  | .null => .null
  | .flag b => .flag b
  | .whole n => .whole n.val
  | .float x => .float x
  | .text s => .text s
  | .list _ => .list
  | .mapping _ => .mapping

/-- The buffer as a text, where `wanted` says what is wanted there. -/
def readText (wanted : Wanted) : Buffer → Except Mismatch String
  | .text s => .ok s
  | other => .error (.wrongType other.found wanted)

/-! The buffer as content to carry over. Keys have to be texts; the first key of a mapping is asked
for under another name than the later ones. -/

mutual
def readVerbatim : Buffer → Except Mismatch Verbatim
  | .null => .ok .null
  | .flag b => .ok (.flag b)
  | .whole n => .ok (.number (.whole n))
  | .float x => .ok (.float x)
  | .text s => .ok (.text s)
  | .list items => do return .list (← readItems items)
  | .mapping entries => do return .object (.ofList (← readEntries .textKey entries))

def readItems : List Buffer → Except Mismatch (List Verbatim)
  | [] => .ok []
  | item :: rest => do
      let value ← item.readVerbatim
      return value :: (← readItems rest)

def readEntries (wanted : Wanted) :
    List (Buffer × Buffer) → Except Mismatch (List (String × Verbatim))
  | [] => .ok []
  | (key, item) :: rest => do
      let name ← key.readText wanted
      let value ← item.readVerbatim
      return (name, value) :: (← readEntries .text rest)
end

end Buffer

end SwaggerLift
