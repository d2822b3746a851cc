import SwaggerLift.Yaml.Node
import SwaggerLift.Yaml.Scanner
/-!
The node that a row of tokens spells. Tokens are taken one by one over a stack of open collections.
Where a node may be left out, the next token shows that it was; then a blank node stands there and
the token is looked at again.
-/

namespace SwaggerLift.Yaml

structure Properties where
  anchor : Option (List Char)
  tag : Option String

def Properties.none : Properties := ⟨.none, .none⟩

/-- A node that has begun: its tag, and the number of its anchor with the time at which it began. -/
structure Begun where
  anchor : Option (Nat × Nat)
  tag : Option String

def Begun.none : Begun := ⟨.none, .none⟩

/-- The key of the entry that is being read: none yet, awaited after an indicator, or read. -/
inductive EntryKey where
  | none
  | awaited
  | read (key : Node)

/-- An open collection with what it holds so far in reverse. -/
inductive Frame where
  | blockSequence (begun : Begun) (before : List Node)
  /-- A sequence whose hyphens stand at the column of the mapping around it. -/
  | hangingSequence (begun : Begun) (before : List Node)
  | blockMapping (begun : Begun) (before : List (Node × Node)) (key : EntryKey)
  | flowSequence (begun : Begun) (before : List Node)
  /-- A single entry in a flow sequence, a mapping of its own. -/
  | flowPair (key : EntryKey)
  | flowMapping (begun : Begun) (before : List (Node × Node)) (key : EntryKey)

inductive Stage where
  /-- The document has not begun; tells whether a directive stood before it. -/
  | prologue (directives : Bool)
  | node (properties : Properties)
  | following
  | flowEntry
  | ended

structure Composer where
  stage : Stage
  stack : List Frame
  /-- Whether the document began with a mark; then it may be empty. -/
  marked : Bool
  versioned : Bool
  /-- Declared tag handles with the texts that they stand for. -/
  handles : List (List Char × List Char)
  names : List (List Char × Nat)
  anchorCount : Nat
  anchored : List Anchored
  root : Node

/-- A token has been taken, or has to be looked at again. -/
inductive Outcome where
  | taken (composer : Composer)
  | pending (composer : Composer)

namespace Composer

def start : Composer := ⟨.prologue false, [], false, false, [], [], 0, [], .blank⟩

def coreTags : List Char := "tag:yaml.org,2002:".toList

def tagName? (c : Composer) (handle suffix : List Char) : Option String :=
  if handle.isEmpty then some (String.ofList suffix)
  else match c.handles.lookup handle with
    | some start => some (String.ofList (start ++ suffix))
    | none =>
        if handle = ['!'] then some (String.ofList ('!' :: suffix))
        else if handle = ['!', '!'] then some (String.ofList (coreTags ++ suffix))
        else none

def begin (c : Composer) (properties : Properties) : Composer × Begun :=
  -- A name that is used again gets a new number.
  match properties.anchor with
  | none => (c, ⟨none, properties.tag⟩)
  | some name =>
      let number := c.names.length
      let names := (name, number) :: c.names.filter fun entry => entry.1 != name
      ({ c with names, anchorCount := c.anchorCount + 1 },
        ⟨some (number, c.anchorCount), properties.tag⟩)

def place (c : Composer) (node : Node) : Composer :=
  match c.stack with
  | [] => { c with stage := .ended, root := node }
  | frame :: outer =>
      let c := { c with stage := .following }
      match frame with
      | .blockSequence begun before =>
          { c with stack := .blockSequence begun (node :: before) :: outer }
      | .hangingSequence begun before =>
          { c with stack := .hangingSequence begun (node :: before) :: outer }
      | .blockMapping begun before (.read key) =>
          { c with stack := .blockMapping begun ((key, node) :: before) .none :: outer }
      | .blockMapping begun before _ =>
          { c with stack := .blockMapping begun before (.read node) :: outer }
      | .flowSequence begun before =>
          { c with stack := .flowSequence begun (node :: before) :: outer }
      | .flowPair (.read key) =>
          let pair := Node.mapping none [(key, node)]
          match outer with
          | .flowSequence begun before :: outer =>
              { c with stack := .flowSequence begun (pair :: before) :: outer }
          | outer => { c with stack := outer }
      | .flowPair _ => { c with stack := .flowPair (.read node) :: outer }
      | .flowMapping begun before .none =>
          { c with stack := .flowMapping begun ((node, .blank) :: before) .none :: outer }
      | .flowMapping begun before .awaited =>
          { c with stack := .flowMapping begun before (.read node) :: outer }
      | .flowMapping begun before (.read key) =>
          { c with stack := .flowMapping begun ((key, node) :: before) .none :: outer }

def complete (c : Composer) (begun : Begun) (node : Node) : Composer :=
  let c := match begun.anchor with
    | some (number, time) => { c with anchored := ⟨number, time, node⟩ :: c.anchored }
    | none => c
  c.place node

def close (c : Composer) : Option Composer :=
  match c.stack with
  | .blockSequence begun before :: outer | .hangingSequence begun before :: outer
  | .flowSequence begun before :: outer =>
      some ({ c with stack := outer }.complete begun (.sequence begun.tag before.reverse))
  | .blockMapping begun before _ :: outer | .flowMapping begun before _ :: outer =>
      some ({ c with stack := outer }.complete begun (.mapping begun.tag before.reverse))
  | _ => none

def putScalar (c : Composer) (properties : Properties) (style : Style)
    (text : List Char) : Composer :=
  let (c, begun) := c.begin properties
  c.complete begun (.scalar begun.tag style (String.ofList text))

def putBlank (c : Composer) (properties : Properties) : Composer := c.putScalar properties .plain []

def openFrame (c : Composer) (properties : Properties) (frame : Begun → Frame) (stage : Stage) :
    Composer :=
  let (c, begun) := c.begin properties
  { c with stack := frame begun :: c.stack, stage }

def prologue (c : Composer) (directives : Bool) (token : Token) : Option Outcome :=
  -- The document begins with directives and a mark, with a node, or not at all.
  match token with
  | .version major minor =>
      if c.versioned = false ∧ major = 1 ∧ (minor = 1 ∨ minor = 2) then
        some (.taken { c with versioned := true, stage := .prologue true })
      else none
  | .tagHandle handle start =>
      if (c.handles.lookup handle).isSome then none
      else some (.taken { c with handles := (handle, start) :: c.handles, stage := .prologue true })
  | .documentStart => some (.taken { c with marked := true, stage := .node .none })
  | .streamEnd => if directives then none else some (.taken { c with stage := .ended })
  | _ => if directives then none else some (.pending { c with stage := .node .none })

def flowEntry (c : Composer) (token : Token) : Option Outcome :=
  -- After an opening bracket or a comma stands an entry or the closing bracket.
  match c.stack, token with
  | .flowSequence _ _ :: _, .flowSequenceEnd => c.close.map .taken
  | .flowMapping _ _ _ :: _, .flowMappingEnd => c.close.map .taken
  | .flowSequence _ _ :: _, .key =>
      some (.taken { c with stack := .flowPair .awaited :: c.stack, stage := .node .none })
  | .flowMapping begun before _ :: outer, .key =>
      some (.taken
        { c with stack := .flowMapping begun before .awaited :: outer, stage := .node .none })
  | _, _ => some (.pending { c with stage := .node .none })

/-- Whether the token shows that a node without properties was left out. -/
def showsBlank (c : Composer) (token : Token) : Bool :=
  match c.stack, token with
  | [], .version _ _ | [], .tagHandle _ _ | [], .documentStart | [], .documentEnd
  | [], .streamEnd => c.marked
  | .blockSequence _ _ :: _, .blockEntry | .blockSequence _ _ :: _, .blockEnd => true
  | .hangingSequence _ _ :: _, .blockEntry | .hangingSequence _ _ :: _, .key
  | .hangingSequence _ _ :: _, .value | .hangingSequence _ _ :: _, .blockEnd => true
  | .blockMapping _ _ _ :: _, .key | .blockMapping _ _ _ :: _, .value
  | .blockMapping _ _ _ :: _, .blockEnd => true
  | .flowPair .awaited :: _, .value => true
  | .flowPair _ :: _, .flowEntry | .flowPair _ :: _, .flowSequenceEnd => true
  | .flowMapping _ _ .awaited :: _, .value => true
  | .flowMapping _ _ .awaited :: _, .flowEntry | .flowMapping _ _ .awaited :: _,
      .flowMappingEnd => true
  | .flowMapping _ _ (.read _) :: _, .flowEntry
  | .flowMapping _ _ (.read _) :: _, .flowMappingEnd => true
  | _, _ => false

def inBlock (c : Composer) : Bool :=
  match c.stack with
  | .flowSequence _ _ :: _ | .flowPair _ :: _ | .flowMapping _ _ _ :: _ => false
  | _ => true

def inBlockMapping (c : Composer) : Bool :=
  match c.stack with
  | .blockMapping _ _ _ :: _ => true
  | _ => false

/-- A blank key of a single entry in a flow sequence swallows the token that shows it. -/
def afterBlank (c : Composer) : Outcome :=
  match c.stack with
  | .flowPair .awaited :: _ => .taken (c.putBlank .none)
  | _ => .pending (c.putBlank .none)

def noNode (c : Composer) (properties : Properties) (token : Token) : Option Outcome :=
  -- The token does not begin a node: it shows a blank one or is out of place.
  if properties.anchor.isSome || properties.tag.isSome then some (.pending (c.putBlank properties))
  else if c.showsBlank token then some c.afterBlank
  else none

def node (c : Composer) (properties : Properties) (token : Token) : Option Outcome :=
  match token with
  | .anchor name =>
      if properties.anchor.isSome then c.noNode properties token
      else some (.taken { c with stage := .node { properties with anchor := some name } })
  | .tag handle suffix => do
      if properties.tag.isSome then c.noNode properties token
      else
        let tag ← c.tagName? handle suffix
        some (.taken { c with stage := .node { properties with tag := some tag } })
  | .link name =>
      if properties.anchor.isSome || properties.tag.isSome then c.noNode properties token
      else do
        let number ← c.names.lookup name
        some (.taken (c.place (.link number)))
  | .scalar style text => some (.taken (c.putScalar properties style text))
  | .flowSequence => some (.taken (c.openFrame properties (.flowSequence · []) .flowEntry))
  | .flowMapping => some (.taken (c.openFrame properties (.flowMapping · [] .none) .flowEntry))
  | .blockSequence =>
      if c.inBlock then some (.taken (c.openFrame properties (.blockSequence · []) .following))
      else c.noNode properties token
  | .blockMapping =>
      if c.inBlock then some (.taken (c.openFrame properties (.blockMapping · [] .none) .following))
      else c.noNode properties token
  | .blockEntry =>
      if c.inBlockMapping then
        some (.pending (c.openFrame properties (.hangingSequence · []) .following))
      else c.noNode properties token
  | _ => c.noNode properties token

def endHanging (c : Composer) (token : Token) : Option Outcome :=
  -- A sequence without indentation of its own ends where no hyphen follows.
  match c.stack, token with
  | .hangingSequence _ _ :: _, .blockEntry => some (.pending c)
  | .hangingSequence _ _ :: _, _ => c.close.map .pending
  | _, _ => some (.pending c)

def endKey (c : Composer) (token : Token) : Option Outcome :=
  -- A key without a value has a blank one.
  match c.stack, token with
  | .blockMapping _ _ (.read _) :: _, .value | .flowPair (.read _) :: _, .value
  | .flowMapping _ _ (.read _) :: _, .value => some (.pending c)
  | .blockMapping _ _ (.read _) :: _, _ | .flowPair (.read _) :: _, _
  | .flowMapping _ _ (.read _) :: _, _ => some (.pending (c.place .blank))
  | _, _ => some (.pending c)

def indicator (c : Composer) (token : Token) : Option Outcome :=
  match c.stack, token with
  | .blockSequence _ _ :: _, .blockEntry | .hangingSequence _ _ :: _, .blockEntry =>
      some (.taken { c with stage := .node .none })
  | .blockSequence _ _ :: _, .blockEnd | .blockMapping _ _ .none :: _, .blockEnd
  | .flowSequence _ _ :: _, .flowSequenceEnd | .flowMapping _ _ .none :: _, .flowMappingEnd =>
      c.close.map .taken
  | .blockMapping begun before .none :: outer, .key =>
      some (.taken
        { c with stack := .blockMapping begun before .awaited :: outer, stage := .node .none })
  | .blockMapping _ _ (.read _) :: _, .value | .flowPair (.read _) :: _, .value
  | .flowMapping _ _ (.read _) :: _, .value => some (.taken { c with stage := .node .none })
  | .flowSequence _ _ :: _, .flowEntry | .flowMapping _ _ .none :: _, .flowEntry =>
      some (.taken { c with stage := .flowEntry })
  | _, _ => none

def epilogue (c : Composer) : Token → Option Outcome
  -- Nothing but document ends may follow the document.
  | .documentEnd | .streamEnd => some (.taken c)
  | _ => none

def look (c : Composer) (token : Token) : Option Outcome :=
  match c.stage with
  | .prologue directives => c.prologue directives token
  | .flowEntry => c.flowEntry token
  | .node properties => c.node properties token
  | .following => some (.pending c)
  | .ended => c.epilogue token

def Outcome.andThen (outcome : Option Outcome) (next : Composer → Option Outcome) :
    Option Outcome :=
  match outcome with
  | some (.pending c) => next c
  | other => other

/-- Between nodes: ends what the token shows to have ended, then takes it. -/
def follow (c : Composer) (token : Token) : Option Outcome :=
  match c.stage with
  | .following =>
      Outcome.andThen (c.endHanging token) fun c =>
      Outcome.andThen (c.endKey token) fun c => c.indicator token
  | .ended => c.epilogue token
  | _ => none

/-- Takes a token. It is looked at once to begin an entry, once to begin a node, and
    once as what follows. -/
def take (c : Composer) (token : Token) : Option Composer :=
  let outcome :=
    Outcome.andThen (c.look token) fun c =>
    match c.stage with
    | .node _ => Outcome.andThen (c.look token) fun c => c.follow token
    | _ => c.follow token
  match outcome with
  | some (.taken c) => some c
  | _ => none

def run (c : Composer) (tokens : List Token) : Option Composer := tokens.foldlM take c

end Composer

/-- The document that a text spells, if it is well formed and there is no other one in it. -/
def Document.ofText? (text : String) : Option Document := do
  let tokens ← tokens? text
  let done ← Composer.start.run tokens
  return ⟨done.root, done.anchored⟩

end SwaggerLift.Yaml
