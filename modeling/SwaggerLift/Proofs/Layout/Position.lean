import SwaggerLift.Layout.Write
/-!
Positions inside a value, and where its nulls can stand: what is written under a layout holds a null
only as or inside content that is carried over.
-/

namespace SwaggerLift

inductive Value.Step where
  | item (index : Nat)
  | member (name : String)
  deriving DecidableEq

namespace Value

def At : Value → List Value.Step → Value → Prop
  | value, [], found => value = found
  | .list items, .item index :: path, found =>
      ∃ item, items[index]? = some item ∧ item.At path found
  | .object members, .member name :: path, found =>
      ∃ value, (name, value) ∈ members ∧ value.At path found
  | _, _ :: _, _ => False

@[simp] theorem at_nil (value found : Value) : value.At [] found ↔ value = found := by
  cases value <;> simp [At]

theorem text_null_free (s : String) (path : List Value.Step) : ¬ (Value.text s).At path .null := by
  cases path <;> simp [At]

theorem flag_null_free (b : Bool) (path : List Value.Step) : ¬ (Value.flag b).At path .null := by
  cases path <;> simp [At]

@[simp] theorem at_member (members : List (String × Value)) (name : String) (path : List Value.Step)
    (found : Value) :
    (Value.object members).At (.member name :: path) found ↔
      ∃ value, (name, value) ∈ members ∧ value.At path found := Iff.rfl

@[simp] theorem at_item (items : List Value) (index : Nat) (path : List Value.Step)
    (found : Value) :
    (Value.list items).At (.item index :: path) found ↔
      ∃ item, items[index]? = some item ∧ item.At path found := Iff.rfl

theorem at_null_object (members : List (String × Value)) (path : List Value.Step)
    (null : (Value.object members).At path .null) :
    ∃ name value rest, path = .member name :: rest ∧ (name, value) ∈ members ∧
      value.At rest .null := by
  match path with
  | [] => cases null
  | .item _ :: _ => exact null.elim
  | .member name :: rest =>
      obtain ⟨value, stands, inside⟩ := null
      exact ⟨name, value, rest, rfl, stands, inside⟩

theorem at_null_list (items : List Value) (path : List Value.Step)
    (null : (Value.list items).At path .null) :
    ∃ index item rest, path = .item index :: rest ∧ items[index]? = some item ∧
      item.At rest .null := by
  match path with
  | [] => cases null
  | .member _ :: _ => exact null.elim
  | .item index :: rest =>
      obtain ⟨item, stands, inside⟩ := null
      exact ⟨index, item, rest, rfl, stands, inside⟩

end Value

mutual

def Layout.Typed {α : Type} (layout : Layout α) : Prop :=
  match layout with
  | .text | .flag | .named _ => True
  | .verbatim => False
  | .list item => item.Typed
  | .table item => item.Typed
  | .record record => record.Typed
  | .union _ _ variants _ => variants.Typed
termination_by structural layout

def Record.Typed {α : Type} (record : Record α) : Prop :=
  match record with
  | .closed _ fields _ => fields.Typed
  | .extensible _ _ _ => False
termination_by structural record

def Field.Typed {τ : Type} (field : Field τ) : Prop :=
  match field with
  | .required layout => layout.Typed
  | .optional layout => layout.Typed
  | .defaulted layout _ _ => layout.Typed
termination_by structural field

def Fields.Typed {ρ σ : Type} (fields : Fields ρ σ) : Prop :=
  match fields with
  | .nil => True
  | .cons _ field rest => field.Typed ∧ rest.Typed
termination_by structural fields

def Variants.Typed {σ : Type} (variants : Variants σ) : Prop :=
  match variants with
  | .nil => True
  | .cons _ record rest => record.Typed ∧ rest.Typed
termination_by structural variants

end

def NullFreeMembers (members : List (String × Value)) : Prop :=
  ∀ entry ∈ members, ∀ path, ¬ entry.2.At path .null

theorem NullFreeMembers.object {members : List (String × Value)} (free : NullFreeMembers members)
    (path : List Value.Step) : ¬ (Value.object members).At path .null := by
  intro null
  obtain ⟨name, value, rest, rfl, stands, inside⟩ := Value.at_null_object members path null
  exact free _ stands rest inside

-- Constructor by constructor: what is typed is written without nulls, since an absent value is left
-- out.
mutual

theorem Layout.null_free {α : Type} (layout : Layout α) (typed : layout.Typed) (a : α)
    (path : List Value.Step) : ¬ (layout.write a).At path .null := by
  match layout, a with
  | .text, a => exact Value.text_null_free a path
  | .flag, a => exact Value.flag_null_free a path
  | .named naming, a => exact Value.text_null_free (naming.nameOf a) path
  | .list item, a =>
      intro null
      obtain ⟨index, value, rest, rfl, stands, inside⟩ := Value.at_null_list _ path null
      obtain ⟨b, _, rfl⟩ := List.mem_map.mp (List.mem_of_getElem? stands)
      exact item.null_free typed b rest inside
  | .table item, a =>
      refine NullFreeMembers.object ?_ path
      intro entry stands rest inside
      obtain ⟨b, _, rfl⟩ := List.mem_map.mp stands
      exact item.null_free typed b.2 rest inside
  | .record record, a => exact NullFreeMembers.object (record.null_free typed a) path
  | .union title tag variants packing, a =>
      refine NullFreeMembers.object ?_ path
      intro entry stands rest inside
      rcases List.mem_cons.mp stands with rfl | later
      · exact Value.text_null_free _ rest inside
      · exact variants.null_free typed (packing.unpack a) entry later rest inside
termination_by structural layout

theorem Record.null_free {α : Type} (record : Record α) (typed : record.Typed) (a : α) :
    NullFreeMembers (record.members a) := by
  match record, a with
  | .closed title fields packing, a => exact fields.null_free typed (packing.unpack a)
  | .extensible title fields packing, a => exact typed.elim
termination_by structural record

theorem Field.null_free {τ : Type} (field : Field τ) (typed : field.Typed) (a : τ) (value : Value)
    (written : field.write a = some value) (path : List Value.Step) : ¬ value.At path .null := by
  match field, a with
  | .required layout, a =>
      cases written
      exact layout.null_free typed a path
  | .optional layout, some a =>
      cases written
      exact layout.null_free typed a path
  | .optional layout, none => cases written
  | .defaulted layout absent hidden, a =>
      rw [Field.write] at written
      split at written
      · cases written
      · cases written
        exact layout.null_free typed a path
termination_by structural field

theorem Fields.null_free {ρ σ : Type} (fields : Fields ρ σ) (typed : fields.Typed) (row : ρ) :
    NullFreeMembers (fields.write row) := by
  match fields, row with
  | .nil, _ => intro entry stands; cases stands
  | .cons name field rest, (a, row) =>
      intro entry stands path
      rw [Fields.write, List.mem_append] at stands
      rcases stands with here | later
      · cases written : field.write a with
        | none => rw [written] at here; cases here
        | some value =>
            rw [written] at here
            rw [List.mem_singleton.mp here]
            exact field.null_free typed.1 a value written path
      · exact rest.null_free typed.2 row entry later path
termination_by structural fields

theorem Variants.null_free {σ : Type} (variants : Variants σ) (typed : variants.Typed) (a : σ) :
    NullFreeMembers (variants.write a).2 := by
  match variants, a with
  | .cons name record rest, .inl a => exact record.null_free typed.1 a
  | .cons name record rest, .inr a => exact rest.null_free typed.2 a
termination_by structural variants

end

end SwaggerLift
