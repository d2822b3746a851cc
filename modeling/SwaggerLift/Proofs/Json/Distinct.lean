import Mathlib.Data.List.Nodup
import SwaggerLift.Proofs.Json.Print
/-!
When a text repeats a name in an object: the text of a value does so exactly if the value does.
-/

namespace SwaggerLift.Json

mutual

def Tree.Distinct : Tree → Prop
  | .list items _ => AllDistinct items
  | .object members _ => (members.map Prod.fst).Nodup ∧ MembersDistinct members
  | _ => True

def Tree.AllDistinct : List Tree → Prop
  | [] => True
  | tree :: rest => tree.Distinct ∧ AllDistinct rest

def Tree.MembersDistinct : List (Key × Tree) → Prop
  | [] => True
  | (_, tree) :: rest => tree.Distinct ∧ MembersDistinct rest

end

theorem Tree.nodup_keys_ofMembers_iff (number : Number → Reading Number)
    (members : List (String × Value)) :
    ((ofMembers number members).map Prod.fst).Nodup ↔ (members.map Prod.fst).Nodup := by
  have keys : (ofMembers number members).map Prod.fst =
      (members.map Prod.fst).map fun name => .text (.clean name) := by
    rw [ofMembers_eq, List.map_map, List.map_map]
    rfl
  have apart : Function.Injective fun name : String => Key.text (.clean name) := by
    intro name other same
    cases same
    rfl
  rw [keys, List.nodup_map_iff apart]

mutual

theorem Tree.distinct_ofValue_iff (number : Number → Reading Number) (value : Value) :
    (Tree.ofValue number value).Distinct ↔ value.Distinct := by
  match value with
  | .null | .flag b | .number n | .text s => exact Iff.rfl
  | .list items => exact Tree.allDistinct_ofItems_iff number items
  | .object members =>
      rw [Tree.ofValue, Tree.Distinct, Value.Distinct, Tree.nodup_keys_ofMembers_iff,
        Tree.membersDistinct_ofMembers_iff number members]

theorem Tree.allDistinct_ofItems_iff (number : Number → Reading Number) (items : List Value) :
    Tree.AllDistinct (Tree.ofItems number items) ↔ Value.AllDistinct items := by
  match items with
  | [] => exact Iff.rfl
  | value :: rest =>
      rw [Tree.ofItems, Tree.AllDistinct, Value.AllDistinct, Tree.distinct_ofValue_iff number value,
        Tree.allDistinct_ofItems_iff number rest]

theorem Tree.membersDistinct_ofMembers_iff (number : Number → Reading Number)
    (members : List (String × Value)) :
    Tree.MembersDistinct (Tree.ofMembers number members) ↔ Value.MembersDistinct members := by
  match members with
  | [] => exact Iff.rfl
  | (name, value) :: rest =>
      rw [Tree.ofMembers, Tree.MembersDistinct, Value.MembersDistinct,
        Tree.distinct_ofValue_iff number value, Tree.membersDistinct_ofMembers_iff number rest]

end

theorem distinct_ofText_pretty_iff (value : Value) :
    (Parsed.ofText (pretty value)).tree.Distinct ↔ value.Distinct := by
  rw [ofText_pretty]
  exact Tree.distinct_ofValue_iff rereadNumber value

end SwaggerLift.Json
