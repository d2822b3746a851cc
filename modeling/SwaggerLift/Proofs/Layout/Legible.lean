import SwaggerLift.Layout.Write
/-!
Which layouts and which values can be read back from what is written. A layout is well formed if
none of its names can be taken for another one, and if a field is only left out for the value that
its absence means. A value is legible under a layout if none of its collected members has the name
of a declared member or of a tag; it is strictly so if also nothing under an optional field is
written as null.
-/

namespace SwaggerLift

mutual

/-- Whether the written value means this value again. -/
def Layout.Legible {α : Type} (strict : Bool) (layout : Layout α) (a : α) : Prop :=
  match layout with
  | .text | .flag | .verbatim | .named _ => True
  | .list item => ∀ b ∈ a, item.Legible strict b
  | .table item => ∀ entry ∈ a.entries, item.Legible strict entry.2
  | .record record => record.Legible strict a
  | .union _ tag variants packing => variants.Legible strict tag (packing.unpack a)
termination_by structural layout

def Record.Legible {α : Type} (strict : Bool) (record : Record α) (a : α) : Prop :=
  match record with
  | .closed _ fields packing => fields.Legible strict (packing.unpack a)
  | .extensible _ fields packing =>
      fields.Legible strict (packing.unpack a).1 ∧
        ∀ key ∈ (packing.unpack a).2.keys, key ∉ fields.names
termination_by structural record

def Field.Legible {τ : Type} (strict : Bool) (field : Field τ) (a : τ) : Prop :=
  match field with
  | .required layout => layout.Legible strict a
  | .optional layout =>
      ∀ b, a = some b → (strict = true → layout.write b ≠ .null) ∧ layout.Legible strict b
  | .defaulted layout _ _ => layout.Legible strict a
termination_by structural field

def Fields.Legible {ρ σ : Type} (strict : Bool) (fields : Fields ρ σ) (row : ρ) : Prop :=
  match fields, row with
  | .nil, _ => True
  | .cons _ field rest, (a, row) => field.Legible strict a ∧ rest.Legible strict row
termination_by structural fields

def Variants.Legible {σ : Type} (strict : Bool) (variants : Variants σ) (tag : String)
    (a : σ) : Prop :=
  match variants, a with
  | .cons _ record _, .inl a => record.Legible strict a ∧ tag ∉ (record.members a).map Prod.fst
  | .cons _ _ rest, .inr a => rest.Legible strict tag a
termination_by structural variants

end

def Record.names : {α : Type} → Record α → List String
  | _, .closed _ fields _ => fields.names
  | _, .extensible _ fields _ => fields.names

mutual

def Layout.WellFormed {α : Type} (layout : Layout α) : Prop :=
  match layout with
  | .text | .flag | .verbatim | .named _ => True
  | .list item => item.WellFormed
  | .table item => item.WellFormed
  | .record record => record.WellFormed
  | .union _ tag variants _ => variants.WellFormed tag
termination_by structural layout

def Record.WellFormed {α : Type} (record : Record α) : Prop :=
  match record with
  | .closed _ fields _ => fields.WellFormed
  | .extensible _ fields _ => fields.WellFormed
termination_by structural record

/-- What is left out has to be what an absent member means, and that has to be legible. -/
def Field.WellFormed {τ : Type} (field : Field τ) : Prop :=
  match field with
  | .required layout => layout.WellFormed
  | .optional layout => layout.WellFormed
  | .defaulted layout absent hidden =>
      layout.WellFormed ∧ (∀ strict, layout.Legible strict absent) ∧
        ∀ a, hidden a = true → a = absent
termination_by structural field

def Fields.WellFormed {ρ σ : Type} (fields : Fields ρ σ) : Prop :=
  match fields with
  | .nil => True
  | .cons name field rest => name ∉ rest.names ∧ field.WellFormed ∧ rest.WellFormed
termination_by structural fields

def Variants.WellFormed {σ : Type} (variants : Variants σ) (tag : String) : Prop :=
  match variants with
  | .nil => True
  | .cons name record rest =>
      name ∉ rest.names ∧ tag ∉ record.names ∧ record.WellFormed ∧ rest.WellFormed tag
termination_by structural variants

end

/-- Fields that are left out leave no gap and change no order. -/
theorem Fields.written_sublist {ρ σ : Type} (fields : Fields ρ σ) (row : ρ) :
    ((fields.write row).map Prod.fst).Sublist fields.names := by
  match fields, row with
  | .nil, _ => exact List.Sublist.slnil
  | .cons name field rest, (a, row) =>
      rw [Fields.write, Fields.names, List.map_append]
      cases field.write a with
      | none => exact (rest.written_sublist row).cons name
      | some value => exact (rest.written_sublist row).cons_cons name
termination_by structural fields

theorem Fields.mem_names_of_written {ρ σ : Type} (fields : Fields ρ σ) (row : ρ) (name : String)
    (written : name ∈ (fields.write row).map Prod.fst) : name ∈ fields.names :=
  (fields.written_sublist row).subset written

end SwaggerLift
