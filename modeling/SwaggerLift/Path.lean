/-!
Paths of files, as texts with slashes: the last part, its extension, and the directory before it.
Empty parts and parts that are a single point do not count.
-/

namespace SwaggerLift.Path

def parts (path : String) : List (List Char) :=
  (split path.toList).filter fun part => !part.isEmpty && part != ['.']
where
  split : List Char → List (List Char)
    | [] => [[]]
    | c :: rest =>
        if c = '/' then [] :: split rest
        else match split rest with
          | [] => [[c]]
          | part :: parts => (c :: part) :: parts

/-- A path as it is written, then the paths above it, up to the first part. The parts are given from
    the last to the first. -/
def rowOf (lead : String) : List (List Char) → List String
  | [] => []
  | part :: above =>
      (lead ++ "/".intercalate ((part :: above).reverse.map String.ofList)) :: rowOf lead above

def row (path : String) : List String :=
  rowOf (if path.toList.head? = some '/' then "/" else "") (parts path).reverse

/-- The last part, unless it leads back to the directory above. -/
def fileName? (path : String) : Option (List Char) :=
  match (parts path).getLast? with
  | some part => if part = ['.', '.'] then none else some part
  | none => none

/-- What follows the last point of the file name. A point at its start begins no extension. -/
def extension? (path : String) : Option (List Char) := do
  let name ← fileName? path
  let after := name.reverse.takeWhile (· != '.')
  match name.reverse.drop after.length with
  | '.' :: before => if before.isEmpty then none else some after.reverse
  | _ => none

/-- A path, reversed, without slashes at its end and without parts there that are a single point. -/
def dropTrailing : List Char → List Char
  | '/' :: rest => dropTrailing rest
  | '.' :: '/' :: rest => dropTrailing ('/' :: rest)
  | rest => rest

/-- The directory that holds what a path means, as it is written; none if the
    path does not name one. -/
def parent? (path : String) : Option String :=
  let name := dropTrailing path.toList.reverse
  let above := name.dropWhile (· != '/')
  let kept := dropTrailing above
  if !kept.isEmpty then some (String.ofList kept.reverse)
  else if !above.isEmpty && !name.isEmpty then some "/"
  else none

end SwaggerLift.Path
