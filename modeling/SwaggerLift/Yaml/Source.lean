import SwaggerLift.Layout.Read
import SwaggerLift.Yaml.Composition
import SwaggerLift.Yaml.Scalar
/-!
YAML as a source of typed values. A typed text takes the text of any scalar; content that is carried
over takes the meaning of its scalars. Aliases stand for their targets, but only so many of them are
followed. Mismatches are reported with the place where they stand.
-/

namespace SwaggerLift.Yaml

inductive Trail where
  | root
  | item (trail : Trail) (index : Nat)
  | member (trail : Trail) (name : String)
  /-- The value of a key that is no scalar. -/
  | unnamed (trail : Trail)

namespace Trail

mutual
/-- The root is a point; items follow in brackets, members after a point. -/
def text : Trail → String
  | root => "."
  | item trail index => s!"{trail.text}[{index}]"
  | member trail name => trail.stem ++ name
  | unnamed trail => trail.stem ++ "?"

def stem : Trail → String
  | root => ""
  | trail => trail.text ++ "."
end

end Trail

inductive Fault where
  | malformed
  | mismatch (trail : Option Trail) (mismatch : Mismatch)
  | tooDeep
  | tooManyAliases

/-- Reading counts the aliases that it follows. -/
abbrev Reader := StateT Nat (Except Fault)

def fault {α : Type} (f : Fault) : Reader α := throw f

instance : Refusing Reader := ⟨fun mismatch => fault (.mismatch none mismatch)⟩

def Fault.locate (trail : Trail) : Fault → Fault
  | .mismatch none m => .mismatch (some trail) m
  | other => other

def located {α : Type} (trail : Trail) (act : Reader α) : Reader α := fun count =>
  match act count with
  | .ok result => .ok result
  | .error f => .error (f.locate trail)

def messageFloat (x : Float) : String :=
  if x.isNaN then "NaN"
  else if x.isInf then (if x < 0 then "-inf" else "inf")
  else String.ofList (Decimal.Spelling.text ⟨fun _ => true, false⟩ x)

def wording : Wording := ⟨"unit value", messageFloat⟩

/-- How many levels of sequences and mappings may be opened one inside the other. -/
def deepest : Nat := 128

/-- How many aliases may be followed, for each unit of the document's weight. -/
def aliasesPerWeight : Nat := 100

def follow (document : Document) (node : Node) : Reader Node :=
  match node with
  | .link number => do
      let count ← get
      set (count + 1)
      if count + 1 > document.weight * aliasesPerWeight then fault .tooManyAliases
      else match document.target? number with
        | some target => return target
        | none => fault .malformed
  | other => return other

def wholeFound (n : Int) : Found :=
  match Whole.ofInt? n with
  | some w => .whole w.val
  | none => .wide n

def tagWanted (tag : String) : Wanted :=
  if tag = boolTag then .flag else if tag = intTag then .whole
    else if tag = floatTag then .float else .null

def Meaning.refused {α : Type} (wanted : Wanted) : Meaning → Reader α
  | .null => refuse (.wrongType .null wanted)
  | .flag b => refuse (.wrongType (.flag b) wanted)
  | .whole n => refuse (.wrongType (wholeFound n) wanted)
  | .float x => refuse (.wrongType (.float x) wanted)
  | .text s => refuse (.wrongType (.text s) wanted)
  | .unfit tag s => refuse (.wrongValue s (tagWanted tag))

def Node.refused {α : Type} (wanted : Wanted) : Node → Reader α
  | .scalar tag style text => (meaning tag style text).refused wanted
  | .sequence _ _ => refuse (.wrongType .list wanted)
  | .mapping _ _ => refuse (.wrongType .mapping wanted)
  | .link _ => fault .malformed

def Node.tag : Node → Option String
  | .scalar tag _ _ | .sequence tag _ | .mapping tag _ => tag
  | .link _ => none

def Trail.under (trail : Trail) (key : Node) : Trail :=
  match key with
  | .scalar _ _ text => trail.member text
  | _ => trail.unnamed

def readText (document : Document) (trail : Trail) (wanted : Wanted) (node : Node) :
    Reader String :=
  located trail do
    match ← follow document node with
    | .scalar _ _ text => return text
    | other => other.refused wanted

def enter {α : Type} (room : Nat) (inside : Nat → Reader α) : Reader α :=
  match room with
  | 0 => fault .tooDeep
  | room + 1 => inside room

def numbered (items : List α) : List (Nat × α) := (List.range items.length).zip items

def readVerbatim (document : Document) (room : Nat) (trail : Trail) (node : Node) :
    Reader Verbatim :=
  located trail do
    let node ← follow document node
    if (localName? node.tag).isSome then refuse (.wrongType .tagged .verbatim)
    else match node with
      | .scalar tag style text =>
          match meaning tag style text with
          | .null => return .null
          | .flag b => return .flag b
          | .whole n => match Whole.ofInt? n with
              | some w => return .number (.whole w)
              | none => refuse .numberOutOfRange
          | .float x => return .float x
          | .text s => return .text s
          | .unfit tag s => refuse (.wrongValue s (tagWanted tag))
      | .sequence _ items =>
          match room with
          | 0 => fault .tooDeep
          | room + 1 => do
              let values ← (numbered items).mapM fun (index, item) =>
                readVerbatim document room (trail.item index) item
              return .list values
      | .mapping _ entries =>
          match room with
          | 0 => fault .tooDeep
          | room + 1 => do
              let members ← (numbered entries).mapM fun (index, key, value) => do
                let name ← readText document trail (if index = 0 then .textKey else .text) key
                let value ← readVerbatim document room (trail.under key) value
                return (name, value)
              return .object (.ofList members)
      | .link _ => fault .malformed
termination_by structural room

def readBuffer (document : Document) (room : Nat) (trail : Trail) (wanted : Wanted) (node : Node) :
    Reader Buffer :=
  located trail do
    let node ← follow document node
    if (localName? node.tag).isSome then refuse .taggedContent
    else match node with
      | .scalar tag style text =>
          match meaning tag style text with
          | .null => return .null
          | .flag b => return .flag b
          | .whole n => match Whole.ofInt? n with
              | some w => return .whole w
              | none => refuse (.wrongType (.wide n) wanted)
          | .float x => return .float x
          | .text s => return .text s
          | .unfit tag s => refuse (.wrongValue s (tagWanted tag))
      | .sequence _ items =>
          match room with
          | 0 => fault .tooDeep
          | room + 1 => do
              let buffers ← (numbered items).mapM fun (index, item) =>
                readBuffer document room (trail.item index) .anything item
              return .list buffers
      | .mapping _ entries =>
          match room with
          | 0 => fault .tooDeep
          | room + 1 => do
              let buffers ← entries.mapM fun (key, value) => do
                let name ← readBuffer document room trail .anything key
                let value ← readBuffer document room (trail.under key) .anything value
                return (name, value)
              return .mapping buffers
      | .link _ => fault .malformed
termination_by structural room

/-- A place in a document, and how many more levels may be opened there. -/
structure Place where
  document : Document
  room : Nat
  trail : Trail
  node : Node

namespace Place

/-- Whether nothing is written there, which a collection without entries may be. -/
def isBlankNode : Node → Bool
  | .scalar _ .plain text => text.isEmpty
  | _ => false

def itemPlaces (place : Place) (room : Nat) (items : List Node) : Items Place Reader where
  items := (numbered items).map fun (index, item) =>
    { place with room, trail := place.trail.item index, node := item }
  close _ := pure ()

def entryPlaces (place : Place) (room : Nat) (entries : List (Node × Node)) :
    Entries Place Reader where
  -- Keys are read at the place of the mapping, values under their keys.
  entries := entries.map fun (key, value) =>
    ({ place with room, node := key },
      { place with room, trail := place.trail.under key, node := value })
  close := pure ()

def list (place : Place) : Reader (Items Place Reader) := do
  match ← follow place.document place.node with
  | .sequence _ items => enter place.room fun room => return place.itemPlaces room items
  | other =>
      if isBlankNode other then return place.itemPlaces place.room [] else other.refused .list

def mapping (wanted : Wanted) (place : Place) : Reader (Entries Place Reader) := do
  match ← follow place.document place.node with
  | .mapping _ entries => enter place.room fun room => return place.entryPlaces room entries
  | other =>
      if isBlankNode other then return place.entryPlaces place.room [] else other.refused wanted

def flag (place : Place) : Reader Bool :=
  located place.trail do
    let node ← follow place.document place.node
    match node with
    | .scalar tag style text =>
        let open? := style = .plain ∨ (style = .literal ∧ tag = some boolTag)
        match if open? then flagWord? text.toList else none with
        | some b => return b
        | none => node.refused .flag
    | other => other.refused .flag

/-- Nothing may stand beside a name that is given by a tag. -/
def closeName : Node → Reader Unit
  | .scalar _ style text =>
      if style = .plain ∧ (text.isEmpty ∨ isNullWord text.toList) then pure ()
      else refuse (.wrongValue text .null)
  | other => other.refused .empty

def variant {α : Type} (pick : String → Reader α) (place : Place) : Reader α :=
  located place.trail do
    let node ← follow place.document place.node
    match localName? node.tag, node with
    | some name, _ => do
        let a ← pick name
        closeName node
        return a
    | none, .scalar _ _ text => pick text
    | none, other => other.refused .localTag

/-- The place itself, unless a plain null stands there. -/
def present (place : Place) : Reader (Option Place) := do
  let node ← follow place.document place.node
  let here := some { place with node }
  match node with
  | .scalar tag .plain text =>
      match tag with
      | some tag =>
          if tag = nullTag then
            if isNullWord text.toList then return none else refuse (.wrongValue text .null)
          else return here
      | none => if text.isEmpty || isNullWord text.toList then return none else return here
  | _ => return here

def union (title : String) (place : Place) : Reader (Form Place Reader) := do
  let node ← follow place.document place.node
  if (localName? node.tag).isSome then refuse (.wrongType .tagged (.union title))
  else match node with
    | .sequence _ items => enter place.room fun room =>
        return .positional (place.itemPlaces room items)
    | .mapping _ entries => enter place.room fun room =>
        return .named (place.entryPlaces room entries)
    | other => other.refused (.union title)

end Place

instance : Source Place Reader where
  within place act := located place.trail act
  text wanted place := readText place.document place.trail wanted place.node
  flag := Place.flag
  label place := do return .name (← readText place.document place.trail .fieldName place.node)
  variant := Place.variant
  verbatim place := readVerbatim place.document place.room place.trail place.node
  buffer wanted place := readBuffer place.document place.room place.trail wanted place.node
  skip _ := pure ()
  present := Place.present
  list := Place.list
  mapping := Place.mapping
  record title place := do return .named (← place.mapping (.record title))
  union := Place.union

def Document.read {α : Type} (document : Document) (layout : Layout α) : Except Fault α := do
  -- An empty document reads as an empty collection.
  let (a, _) ← (layout.read (Place.mk document deepest .root document.root)).run 0
  return a

def read {α : Type} (layout : Layout α) (text : String) : Except Fault α :=
  match Document.ofText? text with
  | some document => document.read layout
  | none => .error .malformed

end SwaggerLift.Yaml
