import SwaggerLift.Command.Files
/-!
Stores: the files and directories below a working directory, as a value. A path is followed part by
part; every part but the last has to be a directory.
-/

namespace SwaggerLift

/-- A file holds a text, or bytes that are none. -/
inductive Entry where
  | directory
  | file (text : Option String)
  deriving DecidableEq

/-- The parts on the way from the working directory, the last first. Above it the
    way goes over points. -/
abbrev Place := List (List Char)

def upward : List Char := ['.', '.']

/-- Where absolute paths start: outside of what is below the working directory. -/
def Place.root : Place := [['/']]

def Place.above : Place → Place
  -- Nothing is above the root, and the way from the working directory goes on upwards.
  | [] => [upward]
  | part :: rest =>
      if part :: rest = root then root
      else if part = upward then upward :: part :: rest
      else rest

/-- Where a part leads, whatever stands there. -/
def Place.next (place : Place) (part : List Char) : Place :=
  if part = upward then place.above else part :: place

structure Store where
  held? : Place → Option Entry

namespace Store

/-- Nothing but the working directory and those above it. -/
def empty : Store := ⟨fun place => if place.all (· == upward) then some .directory else none⟩

def set (store : Store) (place : Place) (entry : Option Entry) : Store :=
  ⟨fun other => if other = place then entry else store.held? other⟩

def nameBytes : Nat := 255

def isName (part : List Char) : Bool :=
  part == upward || (String.ofList part).utf8ByteSize ≤ nameBytes

/-- Follows parts from a place, which has to be a directory if there are any. -/
def walk (store : Store) (place : Place) : List (List Char) → Except FileProblem Place
  | [] => .ok place
  | part :: parts =>
      match store.held? place with
      | some .directory =>
          if isName part then walk store (place.next part) parts else .error .nameTooLong
      | some (.file _) => .error .notDirectory
      | none => .error .missing

def start (path : String) : Place := if path.toList.head? = some '/' then .root else []

def endsAsDirectory (path : String) : Bool :=
  match path.toList.reverse with
  | '/' :: _ | ['.'] | '.' :: '/' :: _ => true
  | _ => false

def locate (store : Store) (path : String) : Except FileProblem Place :=
  if path.isEmpty then .error .missing
  else if path.toList.any (fun c => c.toNat == 0) then .error .zeroInName
  else store.walk (start path) (Path.parts path)

def lookUp (store : Store) (path : String) : Except FileProblem (Place × Option Entry) := do
  let place ← store.locate path
  return (place, store.held? place)

def exists? (store : Store) (path : String) : Bool :=
  match store.lookUp path with
  | .ok (_, some .directory) => true
  | .ok (_, some (.file _)) => !endsAsDirectory path
  | _ => false

def read (store : Store) (path : String) : Except FileProblem String := do
  match (← store.lookUp path).2 with
  | none => .error .missing
  | some .directory => .error .isDirectory
  | some (.file text) =>
      if endsAsDirectory path then .error .notDirectory
      else match text with
        | some text => .ok text
        | none => .error .notText

def writeContent (store : Store) (path : String) (content : Option String) :
    Except FileProblem Store := do
  match ← store.lookUp path with
  | (_, some .directory) => .error .isDirectory
  | (place, some (.file _)) =>
      if endsAsDirectory path then .error .notDirectory
      else return store.set place (some (.file content))
  | (place, none) =>
      if endsAsDirectory path then .error .isDirectory
      else return store.set place (some (.file content))

def write (store : Store) (path text : String) : Except FileProblem Store :=
  store.writeContent path (some text)

def remove (store : Store) (path : String) : Except FileProblem Store := do
  match ← store.lookUp path with
  | (place, some (.file _)) =>
      if endsAsDirectory path then .error .notDirectory else return store.set place none
  | (_, some .directory) => .error .isDirectory
  | (_, none) => .error .missing

def isDirectory (store : Store) (path : String) : Bool :=
  match store.lookUp path with
  | .ok (_, some .directory) => true
  | _ => false

def makeDirectory (store : Store) (path : String) : Except FileProblem Store := do
  match ← store.lookUp path with
  | (_, some _) => .error .taken
  | (place, none) => return store.set place (some .directory)

end Store

/-- Does to the store what a step says; if the step fails, nothing. -/
def Store.update (step : Store → Except FileProblem Store) :
    StateM Store (Except FileProblem Unit) :=
  fun store => match step store with
    | .ok changed => (.ok (), changed)
    | .error problem => (.error problem, store)

instance : Files (StateM Store) where
  exists? path := fun store => (store.exists? path, store)
  isDirectory path := fun store => (store.isDirectory path, store)
  read path := fun store => (store.read path, store)
  write path text := Store.update (·.write path text)
  makeDirectory path := Store.update (·.makeDirectory path)

end SwaggerLift
