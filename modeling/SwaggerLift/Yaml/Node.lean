import SwaggerLift.Yaml.Token
/-!
Nodes of a YAML document, and the anchors that aliases refer to.
-/

namespace SwaggerLift.Yaml

inductive Node where
  | scalar (tag : Option String) (style : Style) (text : String)
  | sequence (tag : Option String) (items : List Node)
  | mapping (tag : Option String) (entries : List (Node × Node))
  /-- An alias: it stands for the node with the anchor of this number. -/
  | link (anchor : Nat)
  deriving Inhabited

namespace Node

/-- The node that stands where nothing is written. -/
def blank : Node := scalar none .plain ""

/-! Every scalar and every alias counts once, every collection once at its
start and once at its end. -/

mutual
def weight : Node → Nat
  | scalar _ _ _ => 1
  | sequence _ items => itemsWeight items + 2
  | mapping _ entries => entriesWeight entries + 2
  | link _ => 1

def itemsWeight : List Node → Nat
  | [] => 0
  | item :: rest => item.weight + itemsWeight rest

def entriesWeight : List (Node × Node) → Nat
  | [] => 0
  | (key, value) :: rest => key.weight + value.weight + entriesWeight rest
end

end Node

/-- A node with an anchor. Anchors are numbered by how many names came before, so two of them can
    share a number after a name has been used again; `begun` tells which of them began later. -/
structure Anchored where
  number : Nat
  begun : Nat
  node : Node

structure Document where
  root : Node
  anchored : List Anchored

def laterBegun (a : Option Anchored) (b : Anchored) : Option Anchored :=
  match a with
  | some a => if a.begun < b.begun then some b else some a
  | none => some b

/-- The node that an alias stands for: of those with its number the one that began last. -/
def Document.target? (document : Document) (number : Nat) : Option Node :=
  ((document.anchored.filter fun a => a.number == number).foldl laterBegun none).map Anchored.node

def Document.weight (document : Document) : Nat := document.root.weight

end SwaggerLift.Yaml
