import SwaggerLift.Table
import SwaggerLift.Value.Basic
/-!
Content that is carried from one document to another as it is: a value in which no object repeats a
name. The constructors build such values from such values.
-/

namespace SwaggerLift

abbrev Verbatim := { value : Value // value.Distinct }

namespace Verbatim

def null : Verbatim := ⟨.null, by simp [Value.Distinct]⟩

def flag (b : Bool) : Verbatim := ⟨.flag b, by simp [Value.Distinct]⟩

def number (n : Number) : Verbatim := ⟨.number n, by simp [Value.Distinct]⟩

def text (s : String) : Verbatim := ⟨.text s, by simp [Value.Distinct]⟩

def list (items : List Verbatim) : Verbatim :=
  ⟨.list (items.map Subtype.val), by
    rw [Value.Distinct, Value.allDistinct_iff]
    intro value member
    obtain ⟨item, _, rfl⟩ := List.mem_map.mp member
    exact item.property⟩

def object (members : Table Verbatim) : Verbatim :=
  ⟨.object (members.mapValues fun _ member => member.val).entries, by
    rw [Value.Distinct, Value.membersDistinct_iff]
    refine ⟨(members.mapValues fun _ member => member.val).distinct, ?_⟩
    intro entry member
    obtain ⟨⟨name, value⟩, _, rfl⟩ := List.mem_map.mp member
    exact value.property⟩

def float (x : Float) : Verbatim :=
  -- What is not finite has no written form and becomes null.
  match Number.ofFloat? x with
  | some n => number n
  | none => null

instance : Inhabited Verbatim := ⟨null⟩

end Verbatim

end SwaggerLift
