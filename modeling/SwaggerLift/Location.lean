import SwaggerLift.Layout.Basic
/-!
The locations of parameters other than the body of a request. Both versions of the format name them
alike.
-/

namespace SwaggerLift

inductive Location where
  | query
  | header
  | path
  deriving DecidableEq, Repr

namespace Location

def name : Location → String
  | query => "query"
  | header => "header"
  | path => "path"

def naming : Naming Location where
  options := [("query", query), ("header", header), ("path", path)]
  nameOf := name
  find_nameOf a := by cases a <;> rfl

end Location

end SwaggerLift
