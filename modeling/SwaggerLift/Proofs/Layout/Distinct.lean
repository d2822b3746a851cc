import SwaggerLift.Proofs.Layout.Legible
/-!
When what is written repeats no name in an object. Declared names differ from each other, so only
collected members can repeat one: the name of a declared member that is written beside them, or the
tag of a union.
-/

namespace SwaggerLift

mutual

def Layout.Unrepeated {α : Type} (layout : Layout α) (a : α) : Prop :=
  match layout with
  | .text | .flag | .verbatim | .named _ => True
  | .list item => ∀ b ∈ a, item.Unrepeated b
  | .table item => ∀ entry ∈ a.entries, item.Unrepeated entry.2
  | .record record => record.Unrepeated a
  | .union _ tag variants packing => variants.Unrepeated tag (packing.unpack a)
termination_by structural layout

def Record.Unrepeated {α : Type} (record : Record α) (a : α) : Prop :=
  match record with
  | .closed _ fields packing => fields.Unrepeated (packing.unpack a)
  | .extensible _ fields packing =>
      fields.Unrepeated (packing.unpack a).1 ∧
        ∀ name ∈ (fields.write (packing.unpack a).1).map Prod.fst, name ∉ (packing.unpack a).2.keys
termination_by structural record

def Field.Unrepeated {τ : Type} (field : Field τ) (a : τ) : Prop :=
  match field with
  | .required layout => layout.Unrepeated a
  | .optional layout => ∀ b, a = some b → layout.Unrepeated b
  | .defaulted layout _ hidden => hidden a = false → layout.Unrepeated a
termination_by structural field

def Fields.Unrepeated {ρ σ : Type} (fields : Fields ρ σ) (row : ρ) : Prop :=
  match fields, row with
  | .nil, _ => True
  | .cons _ field rest, (a, row) => field.Unrepeated a ∧ rest.Unrepeated row
termination_by structural fields

def Variants.Unrepeated {σ : Type} (variants : Variants σ) (tag : String) (a : σ) : Prop :=
  match variants, a with
  | .cons _ record _, .inl a => record.Unrepeated a ∧ tag ∉ (record.members a).map Prod.fst
  | .cons _ _ rest, .inr a => rest.Unrepeated tag a
termination_by structural variants

end

theorem Fields.nodup_names {ρ σ : Type} (fields : Fields ρ σ) (wellFormed : fields.WellFormed) :
    fields.names.Nodup := by
  match fields with
  | .nil => exact List.nodup_nil
  | .cons name field rest =>
      exact List.nodup_cons.mpr ⟨wellFormed.1, rest.nodup_names wellFormed.2.2⟩
termination_by structural fields

theorem Value.distinct_object_iff (members : List (String × Value)) :
    (Value.object members).Distinct ↔
      (members.map Prod.fst).Nodup ∧ ∀ member ∈ members, member.2.Distinct := by
  rw [Distinct, membersDistinct_iff]

mutual

theorem Layout.distinct_write_iff {α : Type} (layout : Layout α)
    (wellFormed : layout.WellFormed) (a : α) :
    (layout.write a).Distinct ↔ layout.Unrepeated a := by
  match layout, a with
  | .text, a | .flag, a | .named _, a => simp [Layout.write, Value.Distinct, Layout.Unrepeated]
  | .verbatim, a => exact iff_of_true a.property trivial
  | .list item, a =>
      rw [Layout.write, Value.Distinct, Value.allDistinct_iff, List.forall_mem_map]
      exact forall₂_congr fun b _ => item.distinct_write_iff wellFormed b
  | .table item, a =>
      have names :
          ((a.entries.map fun entry => (entry.1, item.write entry.2)).map Prod.fst).Nodup := by
        rw [List.map_map]
        exact a.distinct
      rw [Layout.write, Value.distinct_object_iff, and_iff_right names, List.forall_mem_map]
      exact forall₂_congr fun entry _ => item.distinct_write_iff wellFormed entry.2
  | .record record, a => exact record.distinct_members_iff wellFormed a
  | .union title tag variants packing, a =>
      exact variants.distinct_tagged_iff tag wellFormed (packing.unpack a)
termination_by structural layout

theorem Record.distinct_members_iff {α : Type} (record : Record α)
    (wellFormed : record.WellFormed) (a : α) :
    (Value.object (record.members a)).Distinct ↔ record.Unrepeated a := by
  match record, a with
  | .closed title fields packing, a =>
      have names :=
        (fields.nodup_names wellFormed).sublist (fields.written_sublist (packing.unpack a))
      rw [Record.members, Value.distinct_object_iff, and_iff_right names]
      exact fields.distinct_write_iff wellFormed (packing.unpack a)
  | .extensible title fields packing, a =>
      have names :=
        (fields.nodup_names wellFormed).sublist (fields.written_sublist (packing.unpack a).1)
      have extra :
          ((packing.unpack a).2.entries.map fun entry => (entry.1, entry.2.val)).map Prod.fst =
          (packing.unpack a).2.keys := by rw [List.map_map]; rfl
      have carried : ∀ member ∈ (packing.unpack a).2.entries.map fun entry =>
          (entry.1, entry.2.val),
          member.2.Distinct := List.forall_mem_map.mpr fun entry _ => entry.2.property
      rw [Record.members, Value.distinct_object_iff, List.map_append, extra, List.nodup_append,
        List.forall_mem_append, and_iff_left carried, fields.distinct_write_iff wellFormed]
      -- Declared names differ among themselves, and so do collected ones: only one of each can
      -- agree.
      constructor
      · rintro ⟨⟨_, _, apart⟩, inside⟩
        exact ⟨inside, fun name written collected => apart name written name collected rfl⟩
      · rintro ⟨inside, apart⟩
        refine ⟨⟨names, (packing.unpack a).2.distinct, ?_⟩, inside⟩
        rintro name written _ collected rfl
        exact apart name written collected
termination_by structural record

theorem Field.distinct_write_iff {τ : Type} (field : Field τ)
    (wellFormed : field.WellFormed) (a : τ) :
    (∀ value, field.write a = some value → value.Distinct) ↔ field.Unrepeated a := by
  match field, a with
  | .required layout, a =>
      rw [Field.Unrepeated, ← layout.distinct_write_iff wellFormed a]
      simp [Field.write]
  | .optional layout, none => exact iff_of_true nofun nofun
  | .optional layout, some b =>
      have inside := layout.distinct_write_iff wellFormed b
      simp [Field.write, Field.Unrepeated, inside]
  | .defaulted layout absent hidden, a =>
      have inside := layout.distinct_write_iff wellFormed.1 a
      by_cases out : hidden a = true <;> simp [Field.write, Field.Unrepeated, inside, out]
termination_by structural field

theorem Fields.distinct_write_iff {ρ σ : Type} (fields : Fields ρ σ)
    (wellFormed : fields.WellFormed) (row : ρ) : (∀ member ∈ fields.write row, member.2.Distinct) ↔
      fields.Unrepeated row := by
  match fields, row with
  | .nil, _ => exact iff_of_true nofun trivial
  | .cons name field rest, (a, row) =>
      rw [Fields.write, List.forall_mem_append, rest.distinct_write_iff wellFormed.2.2 row,
        Fields.Unrepeated, ← field.distinct_write_iff wellFormed.2.1 a]
      apply and_congr_left
      intro _
      cases field.write a <;> simp
termination_by structural fields

theorem Variants.distinct_tagged_iff {σ : Type} (variants : Variants σ) (tag : String)
    (wellFormed : variants.WellFormed tag) (a : σ) :
    (Value.object ((tag, .text (variants.write a).1) :: (variants.write a).2)).Distinct ↔
      variants.Unrepeated tag a := by
  match variants, a with
  | .cons name record rest, .inl a =>
      have inside := record.distinct_members_iff wellFormed.2.2.1 a
      rw [Value.distinct_object_iff] at inside
      rw [Variants.write, Value.distinct_object_iff, List.map_cons, List.nodup_cons,
        List.forall_mem_cons, Variants.Unrepeated, ← inside]
      simp only [Value.Distinct, true_and]
      rw [and_assoc, and_comm]
  | .cons name record rest, .inr a => exact rest.distinct_tagged_iff tag wellFormed.2.2.2 a
termination_by structural variants

end

end SwaggerLift
