import SwaggerLift.Json.Print
import SwaggerLift.Json.Tree
import SwaggerLift.Layout.Read
/-!
JSON as a source of typed values. Lists and objects may be nested up to a fixed depth where their
content is wanted; what is passed over may be nested to any depth. A record may also be written as
the list of its fields, a name as an object with the name as its only member and null as its value.
-/

namespace SwaggerLift.Json

/-- The first thing that is wrong: the text itself, or the shape of what it says. -/
inductive Fault where
  | cut (cut : Cut)
  | mismatch (mismatch : Mismatch)

abbrev Result := Except Fault

instance : Refusing Result := ⟨fun mismatch => throw (.mismatch mismatch)⟩

def wording : Wording := ⟨"null", fun x => String.ofList (fractions.text x)⟩

def lift {α : Type} : Except Cut α → Result α
  | .ok a => .ok a
  | .error cut => .error (.cut cut)

def check : Option Cut → Result Unit
  | none => .ok ()
  | some cut => .error (.cut cut)

/-- How many levels of lists and objects may be opened one inside the other. -/
def deepest : Nat := 127

/-- A place in the tree, and how many more levels may be opened there. -/
structure Place where
  room : Nat
  tree : Tree

def Key.toTree : Key → Tree
  | .text s => .text s
  | .missing cut => .broken cut

def numberBuffer : Number → Buffer
  | .whole n => .whole n
  | .float x _ => .float x

def Tree.found : Tree → Result Found
  | .null => .ok .null
  | .flag b => .ok (.flag b)
  | .number n => do return (numberBuffer (← lift n.wanted)).found
  | .text s => do return .text (← lift s.wanted)
  | .list _ _ => .ok .list
  | .object _ _ => .ok .mapping
  | .broken cut => .error (.cut cut)

def Tree.refused {α : Type} (tree : Tree) (wanted : Wanted) : Result α := do
  refuse (.wrongType (← tree.found) wanted)

mutual
def Tree.buffer (room : Nat) : Tree → Result Buffer
  | .null => .ok .null
  | .flag b => .ok (.flag b)
  | .number n => do return numberBuffer (← lift n.wanted)
  | .text s => do return .text (← lift s.wanted)
  | .list items cut =>
      match room with
      | 0 => .error (.cut .malformed)
      | room + 1 => do
          let buffers ← itemBuffers room items
          check cut
          return .list buffers
  | .object members cut =>
      match room with
      | 0 => .error (.cut .malformed)
      | room + 1 => do
          let buffers ← memberBuffers room members
          check cut
          return .mapping buffers
  | .broken cut => .error (.cut cut)

def itemBuffers (room : Nat) : List Tree → Result (List Buffer)
  | [] => .ok []
  | item :: rest => do
      let first ← item.buffer room
      return first :: (← itemBuffers room rest)

def memberBuffers (room : Nat) : List (Key × Tree) → Result (List (Buffer × Buffer))
  | [] => .ok []
  | (key, item) :: rest => do
      let name ← lift key.wanted
      let first ← item.buffer room
      return (.text name, first) :: (← memberBuffers room rest)
end

/-! What stops the reading of a tree that is passed over. -/

mutual
def Tree.passed : Tree → Option Cut
  | .number n => n.passed
  | .text s => s.passed
  | .list items cut => (itemsPassed items).or cut
  | .object members cut => (membersPassed members).or cut
  | .broken cut => some cut
  | _ => none

def itemsPassed : List Tree → Option Cut
  | [] => none
  | item :: rest => item.passed.or (itemsPassed rest)

def membersPassed : List (Key × Tree) → Option Cut
  | [] => none
  | (key, item) :: rest => (key.passed.or item.passed).or (membersPassed rest)
end

namespace Place

def text (wanted : Wanted) (place : Place) : Result String :=
  match place.tree with
  | .text s => lift s.wanted
  | other => other.refused wanted

def inside {α : Type} (place : Place) (opened : Nat → α) : Result α :=
  -- Where there is no room left, a level counts as malformed text.
  match place.room with
  | 0 => .error (.cut .malformed)
  | room + 1 => .ok (opened room)

def openList (place : Place) (items : List Tree) (cut : Option Cut) : Result (Items Place Result) :=
  -- More items than were wanted make the text malformed.
  place.inside fun room =>
    { items := items.map (⟨room, ·⟩)
      close := fun taken => if taken < items.length then .error (.cut .malformed) else check cut }

def openObject (place : Place) (members : List (Key × Tree)) (cut : Option Cut) :
    Result (Entries Place Result) :=
  place.inside fun room =>
    { entries := members.map fun (key, tree) => (⟨room, key.toTree⟩, ⟨room, tree⟩)
      close := check cut }

def form (wanted : Wanted) (place : Place) : Result (Form Place Result) :=
  match place.tree with
  | .list items cut => do return .positional (← place.openList items cut)
  | .object members cut => do return .named (← place.openObject members cut)
  | other => other.refused wanted

/-- What a name in an object may have as its value: null and nothing else. -/
def closeName (value : Tree) (more : List (Key × Tree)) (cut : Option Cut) : Result Unit :=
  match value with
  | .null => if more.isEmpty then check cut else .error (.cut .malformed)
  | other => other.refused .empty

def variant {α : Type} (pick : String → Result α) (place : Place) : Result α :=
  match place.tree with
  | .text s => do pick (← lift s.wanted)
  | .object members cut => do
      let _ ← place.inside id
      match members with
      | (.text name, value) :: more => do
          let a ← pick (← lift name.wanted)
          closeName value more cut
          return a
      | (.missing _, value) :: _ => value.refused .variantName
      | [] => .error (.cut (cut.getD .malformed))
  | .broken cut => .error (.cut cut)
  | _ => .error (.cut .malformed)

end Place

instance : Source Place Result where
  within _ act := act
  text := Place.text
  flag place :=
    match place.tree with
    | .flag b => .ok b
    | other => other.refused .flag
  label place := do return .name (← place.text .fieldName)
  variant := Place.variant
  verbatim place := do settle (← place.tree.buffer place.room).readVerbatim
  buffer _ place := place.tree.buffer place.room
  skip place := check place.tree.passed
  present place :=
    match place.tree with
    | .null => .ok none
    | _ => .ok (some place)
  list place :=
    match place.tree with
    | .list items cut => place.openList items cut
    | other => other.refused .list
  mapping wanted place :=
    match place.tree with
    | .object members cut => place.openObject members cut
    | other => other.refused wanted
  record title := Place.form (.record title)
  union title := Place.form (.union title)

def Parsed.read {α : Type} (parsed : Parsed) (layout : Layout α) : Result α := do
  -- Nothing but blanks may follow the value.
  let a ← layout.read (Place.mk deepest parsed.tree)
  if parsed.trailing then .error (.cut .malformed) else return a

def read {α : Type} (layout : Layout α) (text : String) : Result α :=
  (Parsed.ofText text).read layout

end SwaggerLift.Json
