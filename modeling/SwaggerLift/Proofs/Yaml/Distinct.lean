import Mathlib.Data.List.Nodup
import SwaggerLift.Proofs.Yaml.Composition
/-!
When a text repeats a name in a mapping: the text of a value does so exactly if the value does. A
name is the text of a key, in whatever style the key is written.
-/

namespace SwaggerLift.Yaml

def Node.name? : Node → Option String
  | .scalar _ _ text => some text
  | _ => none

mutual

def Node.Distinct : Node → Prop
  | .sequence _ items => AllDistinct items
  | .mapping _ entries =>
      (entries.filterMap fun entry => entry.1.name?).Nodup ∧ EntriesDistinct entries
  | _ => True

def Node.AllDistinct : List Node → Prop
  | [] => True
  | node :: rest => node.Distinct ∧ AllDistinct rest

def Node.EntriesDistinct : List (Node × Node) → Prop
  | [] => True
  | (key, node) :: rest => key.Distinct ∧ node.Distinct ∧ EntriesDistinct rest

end

theorem Node.names_ofMembers (members : List (String × Value)) :
    ((ofMembers members).filterMap fun entry => entry.1.name?) = members.map Prod.fst := by
  rw [ofMembers_eq, List.filterMap_map, ← List.filterMap_eq_map]
  rfl

mutual

theorem Node.distinct_ofValue_iff (value : Value) : (Node.ofValue value).Distinct ↔
    value.Distinct := by
  match value with
  | .null | .flag _ | .number _ | .text _ => exact Iff.rfl
  | .list items => exact Node.allDistinct_ofItems_iff items
  | .object members =>
      rw [Node.ofValue, Node.Distinct, Value.Distinct, Node.names_ofMembers,
        Node.entriesDistinct_ofMembers_iff members]

theorem Node.allDistinct_ofItems_iff (items : List Value) :
    Node.AllDistinct (Node.ofItems items) ↔ Value.AllDistinct items := by
  match items with
  | [] => exact Iff.rfl
  | value :: rest =>
      rw [Node.ofItems, Node.AllDistinct, Value.AllDistinct, Node.distinct_ofValue_iff value,
        Node.allDistinct_ofItems_iff rest]

theorem Node.entriesDistinct_ofMembers_iff (members : List (String × Value)) :
    Node.EntriesDistinct (Node.ofMembers members) ↔ Value.MembersDistinct members := by
  match members with
  | [] => exact Iff.rfl
  | (name, value) :: rest =>
      rw [Node.ofMembers, Node.EntriesDistinct, Value.MembersDistinct,
        Node.distinct_ofValue_iff value, Node.entriesDistinct_ofMembers_iff rest]
      exact iff_of_eq (true_and _)

end

/-- The text of a value composes a document, and it repeats a name exactly if the value does. -/
theorem distinct_ofText?_print_iff (value : Value) :
    ∃ document, Document.ofText? (String.ofList (print value)) = some document ∧
      (document.root.Distinct ↔ value.Distinct) :=
  ⟨_, Document.ofText?_print value, Node.distinct_ofValue_iff value⟩

end SwaggerLift.Yaml
