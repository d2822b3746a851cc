import SwaggerLift.Proofs.Yaml.Print
import SwaggerLift.Yaml.Composition
/-!
The tokens of a value compose its node, on any stack of open collections and before any other
tokens. Only a list that hangs below its key is ended by the token behind it, which is looked at
again.
-/

namespace SwaggerLift.Yaml

mutual

def Node.ofValue : Value → Node
  | .list items => .sequence none (ofItems items)
  | .object members => .mapping none (ofMembers members)
  | .null => .scalar none (leaf .null).1 (String.ofList (leaf .null).2)
  | .flag b => .scalar none (leaf (.flag b)).1 (String.ofList (leaf (.flag b)).2)
  | .number n => .scalar none (leaf (.number n)).1 (String.ofList (leaf (.number n)).2)
  | .text s => .scalar none (leaf (.text s)).1 (String.ofList (leaf (.text s)).2)

def Node.ofItems : List Value → List Node
  | [] => []
  | item :: rest => .ofValue item :: ofItems rest

def Node.ofMembers : List (String × Value) → List (Node × Node)
  | [] => []
  | (name, item) :: rest =>
      (.scalar none (styleOf name.toList) name, .ofValue item) :: ofMembers rest

end

theorem Node.ofValue_leaf (value : Value) (single : isLeaf value = true) :
    Node.ofValue value = .scalar none (leaf value).1 (String.ofList (leaf value).2) := by
  cases value with
  | list _ | object _ => cases single
  | null | flag _ | number _ | text _ => rw [Node.ofValue]

theorem Node.ofItems_eq (items : List Value) : ofItems items = items.map ofValue := by
  induction items with
  | nil => rfl
  | cons value rest ih => rw [ofItems, ih, List.map_cons]

theorem Node.ofMembers_eq (members : List (String × Value)) :
    ofMembers members = members.map fun member =>
      (.scalar none (styleOf member.1.toList) member.1, ofValue member.2) := by
  induction members with
  | nil => rfl
  | cons first rest ih => rw [ofMembers, ih, List.map_cons]

namespace Composer

theorem run_cons (c : Composer) (token : Token) (rest : List Token) :
    c.run (token :: rest) = (c.take token).bind fun next => next.run rest := by
  simp [run]

section

variable (c : Composer) (stack outer : List Frame)

def awaiting : Composer := { c with stack, stage := .node .none }

def between : Composer := { c with stack, stage := .following }

def placed (node : Node) : Composer := { c with stack }.place node

def isBlock : List Frame → Bool
  | .flowSequence _ _ :: _ | .flowPair _ :: _ | .flowMapping _ _ _ :: _ => false
  | _ => true

theorem place_awaiting (node : Node) : (c.awaiting stack).place node = c.placed stack node := by
  cases stack with
  | nil => rfl
  | cons frame outer =>
      cases frame with
      | blockSequence | hangingSequence | flowSequence => rfl
      | blockMapping begun before key | flowMapping begun before key => cases key <;> rfl
      | flowPair key =>
          cases key with
          | none | awaited => rfl
          | read key =>
              cases outer with
              | nil => rfl
              | cons frame outer => cases frame <;> rfl

theorem take_scalar (style : Style) (text : List Char) :
    (c.awaiting stack).take (.scalar style text) =
      some (c.placed stack (.scalar none style (String.ofList text))) := by
  rw [← place_awaiting]
  rfl

/-- An empty collection is closed as soon as it has been opened. -/
theorem run_empty (rest : List Token) :
    (c.awaiting stack).run (.flowSequence :: .flowSequenceEnd :: rest) =
        (c.placed stack (.sequence none [])).run rest ∧
      (c.awaiting stack).run (.flowMapping :: .flowMappingEnd :: rest) =
        (c.placed stack (.mapping none [])).run rest := by
  constructor <;> rw [← place_awaiting] <;> rfl

theorem take_open (block : isBlock stack = true) :
    (c.awaiting stack).take .blockSequence = some (c.between (.blockSequence .none [] :: stack)) ∧
      (c.awaiting stack).take .blockMapping =
        some (c.between (.blockMapping .none [] .none :: stack)) := by
  cases stack with
  | nil => exact ⟨rfl, rfl⟩
  | cons frame outer =>
      cases frame with
      | blockSequence | hangingSequence | blockMapping => exact ⟨rfl, rfl⟩
      | flowSequence | flowPair | flowMapping => cases block

/-- A sequence, with hyphens at its own column or at that of the mapping around it. -/
def sequenceFrame (hanging : Bool) (before : List Node) : Frame :=
  if hanging then .hangingSequence .none before else .blockSequence .none before

theorem take_item (hanging : Bool) (before : List Node) :
    (c.between (sequenceFrame hanging before :: outer)).take .blockEntry =
      some (c.awaiting (sequenceFrame hanging before :: outer)) := by
  cases hanging <;> rfl

theorem placed_item (hanging : Bool) (before : List Node) (node : Node) :
    c.placed (sequenceFrame hanging before :: outer) node =
      c.between (sequenceFrame hanging (node :: before) :: outer) := by
  cases hanging <;> rfl

/-- A list that hangs below its key begins and ends without tokens of its own. -/
theorem take_hanging (before : List (Node × Node)) (key : Node) :
    (c.awaiting (.blockMapping .none before (.read key) :: outer)).take .blockEntry =
      (c.between (sequenceFrame true [] :: .blockMapping .none before (.read key) :: outer)).take
        .blockEntry := rfl

theorem take_hangingEnd (items : List Node) (before : List (Node × Node)) (key : Node)
    (token : Token) (ends : token = .key ∨ token = .blockEnd) :
    (c.between (sequenceFrame true items :: .blockMapping .none before (.read key) :: outer)).take
      token =
      (c.placed (.blockMapping .none before (.read key) :: outer)
        (.sequence none items.reverse)).take
        token := by
  rcases ends with rfl | rfl <;> rfl

theorem run_key (before : List (Node × Node)) (style : Style) (text : List Char)
    (rest : List Token) :
    (c.between (.blockMapping .none before .none :: outer)).run
        (.key :: .scalar style text :: .value :: rest) =
      (c.awaiting (.blockMapping .none before (.read (.scalar none style (String.ofList text))) ::
        outer)).run
        rest := rfl

theorem placed_member (before : List (Node × Node)) (key node : Node) :
    c.placed (.blockMapping .none before (.read key) :: outer) node =
      c.between (.blockMapping .none ((key, node) :: before) .none :: outer) := rfl

theorem take_sequenceEnd (before : List Node) :
    (c.between (.blockSequence .none before :: outer)).take .blockEnd =
      some (c.placed outer (.sequence none before.reverse)) := by
  rfl

theorem take_mappingEnd (before : List (Node × Node)) :
    (c.between (.blockMapping .none before .none :: outer)).take .blockEnd =
      some (c.placed outer (.mapping none before.reverse)) := by
  rfl

end

mutual

theorem run_node (value : Value) (c : Composer) (stack : List Frame) (block : isBlock stack = true)
    (rest : List Token) :
    (c.awaiting stack).run (nodeTokens false value ++ rest) =
      (c.placed stack (.ofValue value)).run rest := by
  match value with
  | .list [] => exact (run_empty c stack rest).1
  | .object [] => exact (run_empty c stack rest).2
  | .list (item :: items) =>
      have row : nodeTokens false (.list (item :: items)) ++ rest =
          .blockSequence :: ((itemRows (item :: items)).flatten ++ .blockEnd ::
            rest) := by simp [nodeTokens]
      have frame : (.blockSequence .none [] : Frame) = sequenceFrame false [] := rfl
      rw [row, run_cons, (take_open c stack block).1, Option.bind_some, frame,
        run_items (item :: items) false [] c stack, List.append_nil, run_cons, sequenceFrame,
        if_neg nofun, take_sequenceEnd, List.reverse_reverse]
      rfl
  | .object (member :: members) =>
      have row : nodeTokens false (.object (member :: members)) ++ rest =
          .blockMapping :: ((memberRows (member :: members)).flatten ++ .blockEnd :: rest) := by
        simp [nodeTokens]
      rw [row, run_cons, (take_open c stack block).2, Option.bind_some,
        run_members (member :: members) [] c stack rest, List.append_nil, run_cons, take_mappingEnd,
        List.reverse_reverse]
      rfl
  | .null | .flag _ | .number _ | .text _ =>
      rw [nodeTokens_leaf false _ rfl, Node.ofValue_leaf _ rfl, List.singleton_append,
        run_cons, take_scalar]
      rfl

theorem run_keyed (value : Value) (c : Composer) (before : List (Node × Node)) (key : Node)
    (outer : List Frame) (token : Token) (ends : token = .key ∨ token = .blockEnd)
    (rest : List Token) :
    (c.awaiting (.blockMapping .none before (.read key) :: outer)).run
      (nodeTokens true value ++ token :: rest) =
      (c.placed (.blockMapping .none before (.read key) :: outer) (.ofValue value)).run
        (token :: rest) := by
  have block : isBlock (.blockMapping .none before (.read key) :: outer) = true := rfl
  match value with
  | .list (item :: items) =>
      -- The first hyphen begins the list, and the token behind it ends the list.
      have row : nodeTokens true (.list (item :: items)) ++ token :: rest =
          .blockEntry :: (nodeTokens false item ++
            ((itemRows items).flatten ++ token :: rest)) := by
        simp [nodeTokens, itemRows]
      rw [row, run_cons, take_hanging, take_item, Option.bind_some,
        run_node item c _ rfl, placed_item, run_items items true [.ofValue item] c, run_cons,
        take_hangingEnd c outer _ before key token ends, ← run_cons]
      simp [Node.ofValue, Node.ofItems]
  | .list [] => exact run_node (.list []) c _ block (token :: rest)
  | .object [] => exact run_node (.object []) c _ block (token :: rest)
  | .object (member :: members) =>
      exact run_node (.object (member :: members)) c _ block (token :: rest)
  | .null => exact run_node .null c _ block (token :: rest)
  | .flag b => exact run_node (.flag b) c _ block (token :: rest)
  | .number n => exact run_node (.number n) c _ block (token :: rest)
  | .text s => exact run_node (.text s) c _ block (token :: rest)

theorem run_items (items : List Value) (hanging : Bool) (before : List Node) (c : Composer)
    (outer : List Frame) (rest : List Token) :
    (c.between (sequenceFrame hanging before :: outer)).run ((itemRows items).flatten ++ rest) =
      (c.between (sequenceFrame hanging ((Node.ofItems items).reverse ++ before) :: outer)).run
        rest := by
  match items with
  | [] => rfl
  | item :: items =>
      have row : (itemRows (item :: items)).flatten ++ rest =
          .blockEntry :: (nodeTokens false item ++
            ((itemRows items).flatten ++ rest)) := by simp [itemRows]
      have block :
          isBlock (sequenceFrame hanging before :: outer) = true := by cases hanging <;> rfl
      rw [row, run_cons, take_item, Option.bind_some, run_node item c _ block, placed_item,
        run_items items hanging (.ofValue item :: before) c outer rest]
      simp [Node.ofItems]

theorem run_members (members : List (String × Value)) (before : List (Node × Node)) (c : Composer)
    (outer : List Frame) (rest : List Token) :
    (c.between (.blockMapping .none before .none :: outer)).run
        ((memberRows members).flatten ++ .blockEnd :: rest) =
      (c.between (.blockMapping .none ((Node.ofMembers members).reverse ++ before)
        .none :: outer)).run (.blockEnd :: rest) := by
  match members with
  | [] => rfl
  | (name, item) :: members =>
      let key : Node := .scalar none (styleOf name.toList) (String.ofList name.toList)
      have row : (memberRows ((name, item) :: members)).flatten ++ .blockEnd :: rest =
          .key :: .scalar (styleOf name.toList) name.toList :: .value ::
            (nodeTokens (isShortKey name.toList) item ++
              ((memberRows members).flatten ++ .blockEnd :: rest)) := by
        simp [memberRows]
      -- Behind a value comes the next key or the end, so a hanging list knows where it ends.
      obtain ⟨token, more, next, ends⟩ : ∃ token more,
          (memberRows members).flatten ++ .blockEnd :: rest = token :: more ∧
            (token = .key ∨ token = .blockEnd) := by
        cases members with
        | nil => exact ⟨_, _, rfl, Or.inr rfl⟩
        | cons member members => exact ⟨_, _, rfl, Or.inl rfl⟩
      have value : (c.awaiting (.blockMapping .none before (.read key) :: outer)).run
          (nodeTokens (isShortKey name.toList) item ++
            ((memberRows members).flatten ++ .blockEnd :: rest)) =
            (c.placed (.blockMapping .none before (.read key) :: outer) (.ofValue item)).run
              ((memberRows members).flatten ++ .blockEnd :: rest) := by
        cases isShortKey name.toList with
        | false => exact run_node item c _ rfl _
        | true =>
            rw [next]
            exact run_keyed item c before key outer token ends more
      rw [row, run_key, value, placed_member, run_members members _ c outer rest]
      simp [Node.ofMembers, key]

end

end Composer

theorem run_start (value : Value) (rest : List Token) :
    Composer.start.run (nodeTokens false value ++ rest) =
      (Composer.start.awaiting []).run (nodeTokens false value ++ rest) := by
  match value with
  | .list [] | .list (_ :: _) | .object [] | .object (_ :: _) | .null | .flag _ | .number
      _ | .text _ => rfl

/-- A printed value is composed again: nothing in the document has an anchor. -/
theorem Document.ofText?_print (value : Value) :
    Document.ofText? (String.ofList (print value)) = some ⟨.ofValue value, []⟩ := by
  have composed : Composer.start.run (nodeTokens false value ++ [.streamEnd]) =
      some (Composer.start.placed [] (.ofValue value)) := by
    rw [run_start, Composer.run_node value Composer.start [] rfl]
    rfl
  rw [Document.ofText?, tokens?_print]
  simp only [Option.bind_eq_bind, Option.bind_some, composed]
  rfl

end SwaggerLift.Yaml
