import SwaggerLift.Json.Token
/-!
The tree of a JSON text. A text that is not well formed has a tree too: the place where it goes
wrong is marked, and everything before it is there, so a reader that walks the tree from left to
right meets what it would meet in the text. The tree is built token by token over a stack of what is
still open.
-/

namespace SwaggerLift.Json

inductive Key where
  | text (s : Reading String)
  | missing (cut : Cut)

namespace Key

def wanted : Key → Except Cut String
  | text s => s.wanted
  | missing cut => .error cut

def passed : Key → Option Cut
  | text s => s.passed
  | missing cut => some cut

end Key

inductive Tree where
  | null
  | flag (b : Bool)
  | number (n : Reading Number)
  | text (s : Reading String)
  /-- `cut` tells what is wrong after the last item. -/
  | list (items : List Tree) (cut : Option Cut)
  | object (members : List (Key × Tree)) (cut : Option Cut)
  | broken (cut : Cut)
  deriving Inhabited

/-- Something that is still open, with what it holds so far in reverse. -/
inductive Frame where
  | list (before : List Tree)
  | object (before : List (Key × Tree))
  /-- An object whose last member still lacks its value. -/
  | member (before : List (Key × Tree)) (key : Key)

namespace Frame

def add (tree : Tree) : Frame → Frame
  | list before => list (tree :: before)
  | object before => object before
  | member before key => object ((key, tree) :: before)

def close (cut : Option Cut) : Frame → Tree
  | list before => .list before.reverse cut
  | object before => .object before.reverse cut
  | member before key => .object ((key, .broken .ended) :: before).reverse cut

end Frame

inductive Awaited where
  /-- A value, or the end of a list that has just been opened. -/
  | item
  | value
  /-- A name, or the end of an object that has just been opened. -/
  | firstKey
  | key
  | colon (name : Reading String)
  /-- A comma, or the end of what is open. -/
  | separator

/-- Closes everything that is open around a place where the text goes wrong. -/
def abandon (cut : Cut) (tree : Tree) : List Frame → Tree
  | [] => tree
  | frame :: outer => abandon cut ((frame.add tree).close (some cut)) outer

/-- The tree if the text ends, or goes wrong, where something is awaited. -/
def Awaited.stop (cut : Cut) (stack : List Frame) : Awaited → Tree
  | .value => abandon cut (.broken cut) stack
  | .colon name =>
      match stack with
      | .object before :: outer => abandon cut (.broken cut) (.member before (.text name) :: outer)
      | _ => abandon cut (.broken cut) stack
  | .key =>
      match stack with
      | .object before :: outer =>
          abandon cut (.broken cut) (.member before (.missing cut) :: outer)
      | _ => abandon cut (.broken cut) stack
  | .item | .firstKey | .separator =>
      match stack with
      | frame :: outer => abandon cut (frame.close (some cut)) outer
      | [] => .broken cut

def Token.value : Token → Tree
  | .null => .null
  | .flag b => .flag b
  | .number n => .number n
  | .text s => .text s
  | .listOpen => .list [] (some .malformed)
  | .objectOpen => .object [] (some .malformed)
  | .broken cut => .broken cut
  | _ => .broken .malformed

inductive Move where
  /-- A value is complete inside what is still open. -/
  | complete (tree : Tree) (stack : List Frame)
  | await (next : Awaited) (stack : List Frame)
  | stop (tree : Tree)

def Token.begin (stack : List Frame) : Token → Move
  | .listOpen => .await .item (.list [] :: stack)
  | .objectOpen => .await .firstKey (.object [] :: stack)
  | .null => .complete .null stack
  | .flag b => .complete (.flag b) stack
  | .number n => .complete (.number n) stack
  | .text s => .complete (.text s) stack
  | .broken cut => .stop (abandon cut (.broken cut) stack)
  | _ => .stop (abandon .malformed (.broken .malformed) stack)

def Awaited.move (awaited : Awaited) (token : Token) (stack : List Frame) : Move :=
  match awaited, token, stack with
  | .item, .listClose, .list before :: outer => .complete (.list before.reverse none) outer
  | .item, token, stack => token.begin stack
  | .value, token, stack => token.begin stack
  | .firstKey, .objectClose, .object before :: outer =>
      .complete (.object before.reverse none) outer
  | .firstKey, .text name, stack => .await (.colon name) stack
  | .firstKey, token, .object before :: outer =>
      .stop (abandon .malformed token.value (.member before (.missing .malformed) :: outer))
  | .key, .text name, stack => .await (.colon name) stack
  | .colon name, .colon, .object before :: outer =>
      .await .value (.member before (.text name) :: outer)
  | .separator, .comma, .list before :: outer => .await .value (.list before :: outer)
  | .separator, .comma, .object before :: outer => .await .key (.object before :: outer)
  | .separator, .listClose, .list before :: outer => .complete (.list before.reverse none) outer
  | .separator, .objectClose, .object before :: outer =>
      .complete (.object before.reverse none) outer
  | awaited, _, stack => .stop (awaited.stop .malformed stack)

/-- The tree of a text, and whether more follows it. -/
structure Parsed where
  tree : Tree
  trailing : Bool

def build : List Token → Awaited → List Frame → Parsed
  | [], awaited, stack => ⟨awaited.stop .ended stack, false⟩
  | token :: rest, awaited, stack =>
      match awaited.move token stack with
      | .stop tree => ⟨tree, false⟩
      | .await next stack => build rest next stack
      | .complete tree [] => ⟨tree, !rest.isEmpty⟩
      | .complete tree (frame :: outer) => build rest .separator (frame.add tree :: outer)

def Parsed.ofText (text : String) : Parsed := build (Token.scan text.toList) .value []

end SwaggerLift.Json
