import SwaggerLift.Layout.Basic
/-!
Writing: the document value of a typed value under its layout. Members stand in the order of the
fields, collected members after them, the tag of a union before them.
-/

namespace SwaggerLift

mutual

def Layout.write {α : Type} (layout : Layout α) (a : α) : Value :=
  match layout with
  | .text => .text a
  | .flag => .flag a
  | .verbatim => a.val
  | .named naming => .text (naming.nameOf a)
  | .list item => .list (a.map item.write)
  | .table item => .object (a.entries.map fun entry => (entry.1, item.write entry.2))
  | .record record => .object (record.members a)
  | .union _ tag variants packing =>
      let written := variants.write (packing.unpack a)
      .object ((tag, .text written.1) :: written.2)
termination_by structural layout

def Record.members {α : Type} (record : Record α) (a : α) : List (String × Value) :=
  match record with
  | .closed _ fields packing => fields.write (packing.unpack a)
  | .extensible _ fields packing =>
      let (row, extra) := packing.unpack a
      fields.write row ++ extra.entries.map fun entry => (entry.1, entry.2.val)
termination_by structural record

def Field.write {τ : Type} (field : Field τ) (a : τ) : Option Value :=
  match field with
  | .required layout => some (layout.write a)
  | .optional layout => a.map layout.write
  | .defaulted layout _ hidden => if hidden a then none else some (layout.write a)
termination_by structural field

def Fields.write {ρ σ : Type} (fields : Fields ρ σ) (row : ρ) : List (String × Value) :=
  match fields, row with
  | .nil, _ => []
  | .cons name field rest, (a, row) =>
      ((field.write a).map fun value => (name, value)).toList ++ rest.write row
termination_by structural fields

def Variants.write {σ : Type} (variants : Variants σ) (a : σ) : String × List (String × Value) :=
  match variants, a with
  | .cons name record _, .inl a => (name, record.members a)
  | .cons _ _ rest, .inr a => rest.write a
termination_by structural variants

end

end SwaggerLift
