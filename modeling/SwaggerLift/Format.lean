import SwaggerLift.Layout.Basic
import SwaggerLift.Path
/-!
The two text formats of documents, and which of them a file name stands for.
-/

namespace SwaggerLift

inductive Format where
  | yaml
  | json
  deriving DecidableEq, Repr

namespace Format

def name : Format → String
  | yaml => "yaml"
  | json => "json"

def naming : Naming Format where
  options := [("yaml", yaml), ("json", json)]
  nameOf := name
  find_nameOf a := by cases a <;> rfl

/-- A file with the extension `json`, in capitals or not, holds JSON; every
    other file holds YAML. -/
def ofPath (path : String) : Format :=
  match Path.extension? path with
  | some extension => if extension.map Char.toLower = ['j', 's', 'o', 'n'] then json else yaml
  | none => yaml

end Format

end SwaggerLift
