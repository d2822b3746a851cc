import SwaggerLift.Proofs.Layout.Legible
import SwaggerLift.Proofs.Layout.Placed
/-!
Edits that a reader cannot see. In a record the order of the members means nothing, and a closed
record passes over whatever it does not declare; an extensible one keeps the order of what it
collects, and a union may have its tag anywhere. Values that differ in this way only, at every
depth, are read alike.
-/

namespace SwaggerLift

mutual

def Layout.Edited {α : Type} (layout : Layout α) (given edited : Value) : Prop :=
  match layout with
  | .text | .flag | .verbatim | .named _ => edited = given
  | .list item => edited = given ∨ ∃ items others, given = .list items ∧ edited = .list others ∧
      List.Forall₂ (fun inside other => item.Edited inside other) items others
  | .table item =>
      edited = given ∨ ∃ members others, given = .object members ∧ edited = .object others ∧
      List.Forall₂ (fun member other => other.1 = member.1 ∧ item.Edited member.2 other.2)
        members others
  | .record record =>
      edited = given ∨ ∃ members others, given = .object members ∧ edited = .object others ∧
      record.Edited members others
  | .union _ tag variants _ => edited = given ∨ ∃ members others name, given = .object members ∧
      edited = .object others ∧ Value.under tag members = [.text name] ∧
      Value.under tag others = [.text name] ∧
        variants.Edited name (Value.untagged tag members) (Value.untagged tag others)
termination_by structural layout

/-- The declared members may have been edited themselves. A closed record may have got members
    that it does not declare, and all may stand in another order; those that an extensible one
    does not declare keep theirs. -/
def Record.Edited {α : Type} (record : Record α) (members others : List (String × Value)) : Prop :=
  match record with
  | .closed _ fields _ => ∃ kept inserted,
      List.Forall₂ (fun member other => other.1 = member.1 ∧
        fields.Edited member.1 member.2 other.2) members kept ∧
        others.Perm (kept ++ inserted) ∧ ∀ member ∈ inserted, member.1 ∉ fields.names
  | .extensible _ fields _ => ∃ kept,
      List.Forall₂ (fun member other => other.1 = member.1 ∧
        fields.Edited member.1 member.2 other.2) members kept ∧
        others.Perm kept ∧ fields.undeclared others = fields.undeclared kept
termination_by structural record

def Field.Edited {τ : Type} (field : Field τ) (given edited : Value) : Prop :=
  match field with
  | .required layout => layout.Edited given edited
  | .optional layout => layout.Edited given edited
  | .defaulted layout _ _ => layout.Edited given edited
termination_by structural field

def Fields.Edited {ρ σ : Type} (fields : Fields ρ σ) (name : String)
    (given edited : Value) : Prop :=
  match fields with
  | .nil => edited = given
  | .cons declared field rest =>
      (name = declared → field.Edited given edited) ∧
        (name ≠ declared → rest.Edited name given edited)
termination_by structural fields

def Variants.Edited {σ : Type} (variants : Variants σ) (name : String)
    (members others : List (String × Value)) : Prop :=
  match variants with
  | .nil => others = members
  | .cons first record rest =>
      (first = name → record.Edited members others) ∧
        (first ≠ name → rest.Edited name members others)
termination_by structural variants

end

theorem Layout.Edited.null_iff {α : Type} {layout : Layout α} {given edited : Value}
    (changed : layout.Edited given edited) : edited = .null ↔ given = .null := by
  cases layout with
  | text | flag | verbatim | named => rw [show edited = given from changed]
  | list =>
      rcases changed with rfl | ⟨_, _, rfl, rfl, _⟩
      · rfl
      · simp
  | table | record =>
      rcases changed with rfl | ⟨_, _, rfl, rfl, _⟩
      · rfl
      · simp
  | union =>
      rcases changed with rfl | ⟨_, _, _, rfl, rfl, _⟩
      · rfl
      · simp

theorem Layout.Edited.refl {α : Type} (layout : Layout α) (value : Value) :
    layout.Edited value value := by
  cases layout with
  | text | flag | verbatim | named => rfl
  | list | table | record | union => exact .inl rfl

theorem Fields.Edited.refl {ρ σ : Type} (fields : Fields ρ σ) (name : String) (value : Value) :
    fields.Edited name value value := by
  match fields with
  | .nil => rfl
  | .cons _ (.required layout) rest | .cons _ (.optional layout) rest | .cons _
      (.defaulted layout _ _) rest =>
      exact ⟨fun _ => Layout.Edited.refl layout value, fun _ => Fields.Edited.refl rest name value⟩
termination_by structural fields

theorem Fields.Edited.eq_of_undeclared {ρ σ : Type} {fields : Fields ρ σ} {name : String}
    {given edited : Value} (changed : fields.Edited name given edited)
    (undeclared : name ∉ fields.names) : edited = given := by
  match fields with
  | .nil => exact changed
  | .cons declared field rest =>
      rw [names, List.mem_cons, not_or] at undeclared
      exact eq_of_undeclared (changed.2 undeclared.1) undeclared.2
termination_by structural fields

abbrev Fields.EditedBeside {ρ σ : Type} (fields : Fields ρ σ) :
    List (String × Value) → List (String × Value) → Prop :=
  List.Forall₂ fun member other => other.1 = member.1 ∧ fields.Edited member.1 member.2 other.2

theorem Fields.EditedBeside.refl {ρ σ : Type} (fields : Fields ρ σ)
    (members : List (String × Value)) : fields.EditedBeside members members :=
  List.forall₂_same.mpr fun member _ => ⟨rfl, Fields.Edited.refl fields member.1 member.2⟩

theorem Fields.EditedBeside.undeclared_eq {ρ σ : Type} {fields : Fields ρ σ}
    {members others : List (String × Value)} (beside : fields.EditedBeside members others) :
    fields.undeclared others = fields.undeclared members := by
  induction beside with
  | nil => rfl
  | @cons member other members others related _ ih =>
      rcases member with ⟨_, value⟩
      rcases other with ⟨name, changed⟩
      obtain ⟨rfl, related⟩ := related
      by_cases declared : name ∈ fields.names
      · simpa [Fields.undeclared, declared] using ih
      · have same : changed = value := related.eq_of_undeclared declared
        simpa [Fields.undeclared, declared, same] using ih

def Fields.EditedUnder {ρ σ : Type} (fields : Fields ρ σ)
    (members others : List (String × Value)) : Prop :=
  ∀ name ∈ fields.names, ∃ kept, (Value.under name others).Perm kept ∧
    List.Forall₂ (fields.Edited name) (Value.under name members) kept

theorem Fields.EditedBeside.under {ρ σ : Type} {fields : Fields ρ σ}
    {members kept others : List (String × Value)} (beside : fields.EditedBeside members kept)
    (inserted : List (String × Value)) (perm : others.Perm (kept ++ inserted))
    (undeclared : ∀ member ∈ inserted, member.1 ∉ fields.names) :
    fields.EditedUnder members others := by
  intro name declared
  refine ⟨Value.under name kept, ?_, Value.under_beside beside name⟩
  have nothing : Value.under name inserted = [] := by
    apply Value.under_eq_nil
    rintro member held rfl
    exact undeclared member held declared
  have moved : (Value.under name others).Perm (Value.under name (kept ++ inserted)) :=
    perm.filterMap _
  rwa [Value.under_append, nothing, List.append_nil] at moved

theorem Value.depth_untagged {members : List (String × Value)} {room : Nat} (tag : String)
    (fits : ∀ member ∈ members, member.2.depth ≤ room) :
    ∀ member ∈ untagged tag members, member.2.depth ≤ room :=
  fun member held => fits member (List.mem_of_mem_filter held)

mutual

theorem Layout.read_edited {α : Type} (layout : Layout α)
    (wellFormed : layout.WellFormed) {κ ε : Type} [Refusing (Except ε)] [LawfulRefusing (Except ε)]
    [Source κ (Except ε)] (law : Placed κ ε) (room : Nat) (given edited : Value)
    (changed : layout.Edited given edited) (fits : given.depth ≤ room)
    (fitsToo : edited.depth ≤ room) :
    ∀ a, layout.read (law.place room given) = .ok a →
      layout.read (law.place room edited) = .ok a := by
  match layout with
  | .text | .flag | .verbatim | .named _ =>
      -- Nothing inside these may be edited.
      rw [show edited = given from changed]
      exact fun _ => id
  | .list item =>
      rcases changed with rfl | ⟨items, others, rfl, rfl, each⟩
      · exact fun _ => id
      · obtain ⟨room, rfl, inside⟩ := Value.exists_room_of_list fits
        have insideToo := (Value.depth_list_le_iff others room).mp fitsToo
        intro results done
        rw [law.read_list_iff] at done ⊢
        apply forall₂_carry each done
        intro value member other stands changed a read
        exact item.read_edited wellFormed law room value other changed (inside value member)
          (insideToo other stands) a read
  | .table item =>
      rcases changed with rfl | ⟨members, others, rfl, rfl, each⟩
      · exact fun _ => id
      · obtain ⟨room, rfl, inside⟩ := Value.exists_room_of_object fits
        have insideToo := (Value.depth_object_le_iff others room).mp fitsToo
        intro table done
        rw [law.read_table_iff] at done ⊢
        obtain ⟨entries, beside, same⟩ := done
        refine ⟨entries, forall₂_carry each beside ?_, same⟩
        intro member held other stands changed entry read
        exact ⟨read.1.trans changed.1.symm,
          item.read_edited wellFormed law room member.2 other.2 changed.2
          (inside member held) (insideToo other stands) entry.2 read.2⟩
  | .record record =>
      rcases changed with rfl | ⟨members, others, rfl, rfl, changed⟩
      · exact fun _ => id
      · obtain ⟨room, rfl, inside⟩ := Value.exists_room_of_object fits
        have insideToo := (Value.depth_object_le_iff others room).mp fitsToo
        simp only [Layout.read, law.within_eq]
        exact record.read_edited wellFormed law room members others changed inside insideToo
  | .union title tag variants packing =>
      rcases changed with rfl | ⟨members, others, name, rfl, rfl, under, underToo, changed⟩
      · exact fun _ => id
      · obtain ⟨room, rfl, inside⟩ := Value.exists_room_of_object fits
        have insideToo := (Value.depth_object_le_iff others room).mp fitsToo
        intro a done
        rw [law.read_union_iff room title tag variants packing _
          ((Value.depthMembers_le_iff _ _).mpr inside)] at done
        rw [law.read_union_iff room title tag variants packing _
          ((Value.depthMembers_le_iff _ _).mpr insideToo)]
        obtain ⟨chosen, content, tagged, known, read, same⟩ := done
        cases under.symm.trans tagged
        exact ⟨name, content, underToo, known,
          variants.read_edited tag wellFormed Placed.buffered room name _ _
          changed (Value.depth_untagged tag inside) (Value.depth_untagged tag insideToo)
            content read, same⟩
termination_by structural layout

theorem Record.read_edited {α : Type} (record : Record α)
    (wellFormed : record.WellFormed) {κ ε : Type} [Refusing (Except ε)] [LawfulRefusing (Except ε)]
    [Source κ (Except ε)] (law : Placed κ ε) (room : Nat) (members others : List (String × Value))
    (changed : record.Edited members others) (fits : ∀ member ∈ members, member.2.depth ≤ room)
    (fitsToo : ∀ member ∈ others, member.2.depth ≤ room) :
    ∀ a, record.read (law.place (room + 1) (.object members)) = .ok a →
      record.read (law.place (room + 1) (.object others)) = .ok a := by
  match record with
  | .closed title fields packing =>
      obtain ⟨kept, inserted, beside, perm, undeclared⟩ := changed
      intro a done
      rw [law.read_closed_iff room title fields packing wellFormed] at done ⊢
      obtain ⟨slots, row, filled, complete, same⟩ := done
      -- A slot depends on the values under its own name, and these have kept their order.
      have under := Fields.EditedBeside.under beside inserted perm undeclared
      exact ⟨slots, row,
        fields.filled_edited wellFormed law room members others under fits fitsToo slots filled,
        complete, same⟩
  | .extensible title fields packing =>
      obtain ⟨kept, beside, perm, order⟩ := changed
      intro a done
      rw [law.read_extensible_iff room title fields packing wellFormed _
        ((Value.depthMembers_le_iff _ _).mpr fits)] at done
      rw [law.read_extensible_iff room title fields packing wellFormed _
        ((Value.depthMembers_le_iff _ _).mpr fitsToo), order,
          Fields.EditedBeside.undeclared_eq beside]
      obtain ⟨slots, row, filled, complete, same⟩ := done
      have under : fields.EditedUnder members others :=
        Fields.EditedBeside.under beside [] (by rwa [List.append_nil]) nofun
      exact ⟨slots, row,
        fields.filled_edited wellFormed law room members others under fits fitsToo slots filled,
        complete, same⟩
termination_by structural record

theorem Field.read_edited {τ : Type} (field : Field τ) (wellFormed : field.WellFormed) {κ ε : Type}
    [Refusing (Except ε)] [LawfulRefusing (Except ε)] [Source κ (Except ε)]
    (law : Placed κ ε) (room : Nat) (given edited : Value) (changed : field.Edited given edited)
    (fits : given.depth ≤ room) (fitsToo : edited.depth ≤ room) :
    ∀ a, field.read (law.place room given) = .ok a →
      field.read (law.place room edited) = .ok a := by
  match field with
  | .required layout =>
      exact layout.read_edited wellFormed law room given edited changed fits fitsToo
  | .optional layout =>
      have null_iff := Layout.Edited.null_iff changed
      intro a done
      rw [law.read_optional_iff] at done ⊢
      rw [ne_eq, null_iff]
      apply done.imp_right
      rintro ⟨filled, b, read, same⟩
      exact ⟨filled, b, layout.read_edited wellFormed law room given edited changed fits fitsToo
        b read, same⟩
  | .defaulted layout _ _ =>
      exact layout.read_edited wellFormed.1 law room given edited changed fits fitsToo
termination_by structural field

theorem Fields.filled_edited {ρ σ : Type} (fields : Fields ρ σ)
    (wellFormed : fields.WellFormed) {κ ε : Type} [Refusing (Except ε)] [LawfulRefusing (Except ε)]
    [Source κ (Except ε)] (law : Placed κ ε) (room : Nat) (members others : List (String × Value))
    (changed : fields.EditedUnder members others) (fits : ∀ member ∈ members, member.2.depth ≤ room)
    (fitsToo : ∀ member ∈ others, member.2.depth ≤ room) :
    ∀ row, fields.Filled (law.place room) members row →
      fields.Filled (law.place room) others row := by
  match fields with
  | .nil => exact fun _ _ => trivial
  | .cons name field rest =>
      rintro ⟨slot, row⟩ filled
      obtain ⟨kept, perm, beside⟩ := changed name List.mem_cons_self
      have here := filled.1.carry _ kept perm beside fun value held other stands edited a read =>
        field.read_edited wellFormed.2.1 law room value other (edited.1 rfl)
          (fits _ (Value.mem_of_mem_under _ _ _ held))
            (fitsToo _ (Value.mem_of_mem_under _ _ _ stands)) a read
      have later : rest.EditedUnder members others := by
        intro other declared
        obtain ⟨kept, perm, beside⟩ := changed other (List.mem_cons_of_mem name declared)
        refine ⟨kept, perm, beside.imp fun value changed edited => edited.2 ?_⟩
        rintro rfl
        exact wellFormed.1 declared
      exact ⟨here, rest.filled_edited wellFormed.2.2 law room members others later fits fitsToo
        row filled.2⟩
termination_by structural fields

theorem Variants.read_edited {σ : Type} (variants : Variants σ) (tag : String)
    (wellFormed : variants.WellFormed tag) {κ ε : Type} [Refusing (Except ε)]
    [LawfulRefusing (Except ε)] [Source κ (Except ε)] (law : Placed κ ε) (room : Nat)
    (name : String) (members others : List (String × Value))
    (changed : variants.Edited name members others)
    (fits : ∀ member ∈ members, member.2.depth ≤ room)
    (fitsToo : ∀ member ∈ others, member.2.depth ≤ room) :
    ∀ a, variants.read name (law.place (room + 1) (.object members)) = .ok a →
      variants.read name (law.place (room + 1) (.object others)) = .ok a := by
  match variants with
  | .nil => exact fun _ done => absurd done (refuse_ne_ok _ _)
  | .cons first record rest =>
      intro a done
      rw [Variants.read] at done ⊢
      by_cases same : first = name
      · rw [if_pos same, bind_eq_ok_iff] at done ⊢
        obtain ⟨b, read, packed⟩ := done
        exact ⟨b, record.read_edited wellFormed.2.2.1 law room members others (changed.1 same) fits
          fitsToo b read, packed⟩
      · rw [if_neg same, bind_eq_ok_iff] at done ⊢
        obtain ⟨b, read, packed⟩ := done
        exact ⟨b, rest.read_edited tag wellFormed.2.2.2 law room name members others
          (changed.2 same) fits fitsToo b
          read, packed⟩
termination_by structural variants

end

end SwaggerLift
