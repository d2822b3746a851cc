import SwaggerLift.Proofs.Layout.Faithful
import SwaggerLift.Proofs.Layout.Yields
/-!
What is written is read back, from any faithful source that has room for it: of a legible value
under a well formed layout, reading gives the value itself if its document value is nested no deeper
than there is room, and else it is refused as too deep.
-/

namespace SwaggerLift

theorem foldlM_part {m : Type → Type} [Monad m] [LawfulMonad m] {σ τ ι : Type} (put : σ → τ)
    (step : σ → ι → m σ) (whole : τ → ι → m τ) (items : List ι)
    (acts : ∀ state, ∀ i ∈ items, whole (put state) i = put <$> step state i) (start : σ) :
    items.foldlM whole (put start) = put <$> items.foldlM step start := by
  induction items generalizing start with
  | nil => exact (map_pure put start).symm
  | cons i rest ih =>
      have later : ∀ state, ∀ j ∈ rest, whole (put state) j = put <$> step state j :=
        fun state j member => acts state j (List.mem_cons_of_mem i member)
      rw [List.foldlM_cons, List.foldlM_cons, acts start i List.mem_cons_self, map_bind,
        bind_map_left]
      exact bind_congr fun state => ih later state

variable {κ : Type} {m : Type → Type} [Monad m] [Refusing m] [Source κ m]

namespace Faithful

variable (law : Faithful κ m) {α σ ι : Type}

def Members (room : Nat) : List (κ × κ) → List (String × Value) → Prop :=
  List.Forall₂ fun entry member => law.spells entry.1 member.1 ∧ law.stands room entry.2 member.2

theorem within_fit (place : κ) (room depth : Nat) (a : α) :
    Source.within place (law.fit room depth a) = law.fit room depth a := by
  rw [Limit.fit]
  split
  · exact law.within_pure place a
  · exact law.within_refused place

variable [LawfulMonad m]

theorem foldlM_aside (room : Nat) (state : σ)
    (step : σ × List (Buffer × Buffer) → ι → m (σ × List (Buffer × Buffer)))
    (R : ι → String × Value → Prop) (entries : List ι) (members : List (String × Value))
    (beside : List.Forall₂ R entries members)
    (each : ∀ entry, ∀ member ∈ members, R entry member → ∀ kept, step (state, kept) entry =
      law.fit room member.2.depth (state, kept ++ [(.text member.1, .ofValue member.2)]))
    (kept : List (Buffer × Buffer)) :
    entries.foldlM step (state, kept) =
      law.fit room (Value.depthMembers members) (state, kept ++ Buffer.ofMembers members) := by
  induction beside generalizing kept with
  | nil => rw [Buffer.ofMembers, List.append_nil]; exact (law.fit_zero room _).symm
  | @cons entry member entries members first _ ih =>
      rw [List.foldlM_cons, each entry member List.mem_cons_self first]
      apply law.fit_bind room
      rw [ih fun entry member later => each entry member (List.mem_cons_of_mem _ later)]
      rw [Buffer.ofMembers, List.append_assoc, List.singleton_append]

end Faithful

variable [LawfulMonad m]

namespace Fields

def filled {ρ σ : Type} (fields : Fields ρ σ) (row : ρ) : σ :=
  match fields, row with
  | .nil, _ => ()
  | .cons _ field rest, (a, row) => ((field.write a).map fun _ => a, rest.filled row)
termination_by structural fields

def take {ρ σ : Type} (fields : Fields ρ σ) (index : Nat) (row : σ) (entry : κ × κ) : m σ := do
  (fields.store index (← Source.label entry.1) entry.2 row).getD (pure row)

theorem complete_filled {ρ σ : Type} (fields : Fields ρ σ)
    (wellFormed : fields.WellFormed) (row : ρ) :
    fields.complete (fields.filled row) = (pure row : m ρ) := by
  match fields, row with
  | .nil, () => rfl
  | .cons name field rest, (a, row) =>
      have absent : ((field.write a).map fun _ => a).or field.absent? = some a := by
        cases field with
        | required layout => rfl
        | optional layout => cases a <;> rfl
        | defaulted layout value hidden =>
            rw [Field.write]
            by_cases out : hidden a = true
            · rw [if_pos out, wellFormed.2.1.2.2 a out]; rfl
            · rw [if_neg out]; rfl
      rw [complete, filled]
      simp only [absent, pure_bind, rest.complete_filled wellFormed.2.2 row]
termination_by structural fields

theorem take_cons_same {τ ρ σ : Type} (name : String) (field : Field τ) (rest : Fields ρ σ)
    (index : Nat) (row : σ) (entry : κ × κ)
    (label : Source.label entry.1 = (pure (.name name) : m Label)) :
    (cons name field rest).take index (none, row) entry =
      (fun a => (some a, row)) <$> field.read entry.2 := by
  simp [take, label, store, Label.picks]

theorem take_cons_other {τ ρ σ : Type} (name other : String) (different : other ≠ name)
    (field : Field τ) (rest : Fields ρ σ) (index : Nat) (slot : Option τ) (row : σ) (entry : κ × κ)
    (label : Source.label entry.1 = (pure (.name other) : m Label)) :
    (cons name field rest).take index (slot, row) entry =
      (fun row => (slot, row)) <$> rest.take (index + 1) row entry := by
  simp only [take, label, pure_bind, store, Label.picks, beq_iff_eq, different, if_false]
  cases rest.store (index + 1) (.name other) entry.2 row <;> simp

theorem store_of_mem {ρ σ : Type} (fields : Fields ρ σ) (index : Nat) (row : σ) (entry : κ × κ)
    (name : String) (label : Source.label entry.1 = (pure (.name name) : m Label))
    (declared : name ∈ fields.names) :
    fields.store index (.name name) entry.2 row = some (fields.take index row entry) := by
  cases taken : fields.store index (.name name) entry.2 row with
  | none => exact absurd declared ((fields.store_eq_none_iff index name entry.2 row).mp taken)
  | some stored => simp [take, label, taken]

theorem foldlM_declared {ρ σ τ : Type} (fields : Fields ρ σ) (law : Faithful κ m) (room index : Nat)
    (row : ρ) (entries : List (κ × κ)) (stand : law.Members room entries (fields.write row))
    (put : σ → τ) (whole : τ → κ × κ → m τ)
    (acts : ∀ row entry name, Source.label entry.1 = (pure (.name name) : m Label) →
      name ∈ fields.names →
      whole (put row) entry = put <$> fields.take index row entry) :
    entries.foldlM whole (put fields.blank) =
      put <$> entries.foldlM (fields.take index) fields.blank := by
  refine foldlM_part put _ whole entries (fun state entry held => ?_) fields.blank
  obtain ⟨member, written, spelled, _⟩ := exists_of_forall₂ stand entry held
  have declared :=
    fields.mem_names_of_written row member.1 (List.mem_map.mpr ⟨member, written, rfl⟩)
  exact acts state entry member.1 (law.key_label _ _ spelled) declared

end Fields

theorem Variants.mem_names_of_written {σ : Type} (variants : Variants σ) (a : σ) :
    (variants.write a).1 ∈ variants.names := by
  match variants, a with
  | .cons name record rest, .inl a => exact List.mem_cons_self
  | .cons name record rest, .inr a => exact List.mem_cons_of_mem name (rest.mem_names_of_written a)
termination_by structural variants

theorem Variants.tag_not_written {σ : Type} (variants : Variants σ) (tag : String)
    (strict : Bool) (a : σ) (legible : variants.Legible strict tag a) :
    tag ∉ (variants.write a).2.map Prod.fst := by
  match variants, a with
  | .cons name record rest, .inl a => exact legible.2
  | .cons name record rest, .inr a => exact rest.tag_not_written tag strict a legible
termination_by structural variants

/-- The written members of a union, with the tag taken out of them. -/
theorem Faithful.readTagged_eq (law : Faithful κ m) (room : Nat) (place : κ)
    (tag title name : String) (members : List (String × Value)) (readTag : κ → m String)
    (stands : law.stands room place (.object ((tag, .text name) :: members)))
    (reads : ∀ room place, law.stands room place (.text name) → readTag place = pure name)
    (apart : tag ∉ members.map Prod.fst) :
    readTagged tag readTag title place =
      law.fit room (Value.depthMembers members + 1) (name, .ofValue (.object members)) := by
  rw [readTagged]
  apply law.enters_bind room _ _ _ _ _ (law.union_eq room place _ title stands)
  intro inner form held
  obtain ⟨opened, rfl, beside, closes⟩ := held
  obtain ⟨first, rest, ⟨spelled, tagged⟩, others, split⟩ := List.forall₂_cons_right_iff.mp beside
  have aside := fun step => law.foldlM_aside inner (some name) step _ rest members others
  -- The tag is written first, so nothing has been put aside when it is found.
  dsimp only
  rw [split, List.foldlM_cons, law.key_buffer first.1 tag _ spelled, pure_bind]
  simp only [if_true, reads inner first.2 tagged, pure_bind]
  rw [aside _ ?_ []]
  · apply law.fit_bind_pure inner
    rw [closes, pure_bind]
    rfl
  · rintro entry member held ⟨spelled, stands⟩ kept
    have different : member.1 ≠ tag := fun same => apart (List.mem_map.mpr ⟨member, held, same⟩)
    rw [law.key_buffer entry.1 member.1 _ spelled, pure_bind]
    simp only [if_neg different]
    rw [law.buffer_eq inner entry.2 member.2 _ stands]
    exact law.fit_bind_pure inner _ _ _ _ rfl

/-! Constructor by constructor. The room is that of the place; the depth is that of the written
value, which for a record without fields is already one. -/

mutual

theorem Layout.read_written {α : Type} (layout : Layout α) (wellFormed : layout.WellFormed)
    {κ : Type} {m : Type → Type} [Monad m] [LawfulMonad m] [Refusing m] [Source κ m]
    (law : Faithful κ m) (room : Nat) (place : κ) (a : α) (legible : layout.Legible true a)
    (stands : law.stands room place (layout.write a)) :
    layout.read place = law.fit room (layout.write a).depth a := by
  match layout, a with
  | .text, a =>
      rw [Layout.read, law.text_eq room place a _ stands]; exact (law.fit_zero room a).symm
  | .flag, a => rw [Layout.read, law.flag_eq room place a stands]; exact (law.fit_zero room a).symm
  | .verbatim, a => exact law.verbatim_eq room place a stands
  | .named naming, a =>
      rw [Layout.read, law.variant_eq room place (naming.nameOf a) _ a stands, law.within_pure]
      · exact (law.fit_zero room a).symm
      · simp only [naming.find_nameOf]
  | .list item, a =>
      rw [Layout.read, law.enters_bind room _ _ _ _ a (law.list_eq room place _ stands),
        law.within_fit]
      · rfl
      · rintro inner opened ⟨beside, closes⟩
        have each :
            List.Forall₂ (fun place b => item.read place = law.fit inner (item.write b).depth b)
            opened.items a := forall₂_of_map item.write _ _ beside fun place b member stands =>
          item.read_written wellFormed law inner place b (legible b member) stands
        rw [law.mapM_fit inner _ _ _ _ each, Value.depthItems_map]
        apply law.fit_bind_pure inner
        rw [List.length_map] at closes
        rw [closes, pure_bind]
  | .table item, a =>
      rw [Layout.read, law.enters_bind room _ _ _ _ a (law.mapping_eq room place _ _ stands),
        law.within_fit]
      · rfl
      · rintro inner opened ⟨beside, closes⟩
        have each : List.Forall₂ (fun entry result =>
            (do return (← Source.text .text entry.1, ← item.read entry.2)) =
              law.fit inner (item.write result.2).depth result) opened.entries a.entries := by
          apply forall₂_of_map _ _ _ beside
          intro entry result member stands
          have value :=
            item.read_written wellFormed law inner entry.2 result.2 (legible result member) stands.2
          rw [law.key_text _ _ stands.1, pure_bind, value]
          exact law.fit_bind_pure inner _ _ _ _ rfl
        rw [law.mapM_fit inner _ _ _ _ each, Value.depthMembers_map]
        apply law.fit_bind_pure inner
        rw [closes, Table.ofList_entries, pure_bind]
  | .record record, a =>
      rw [Layout.read, record.read_written wellFormed law room place a legible stands,
        law.within_fit]
      rfl
  | .union title tag variants packing, a =>
      rw [Layout.read]
      -- The tag stands in front, and no other member has its name.
      have apart := variants.tag_not_written tag true (packing.unpack a) legible
      have known := variants.mem_names_of_written (packing.unpack a)
      have content := variants.read_written tag wellFormed (packing.unpack a) legible
      rw [law.readTagged_eq room place tag title _ _ _ stands ?_ apart, law.within_fit]
      · apply law.fit_bind_pure room
        simp only [content, settle, pure_bind, packing.pack_unpack]
      · intro room place stands
        rw [law.text_eq room place _ _ stands, pure_bind, if_pos known, law.within_pure]
termination_by structural layout

theorem Record.read_written {α : Type} (record : Record α) (wellFormed : record.WellFormed)
    {κ : Type} {m : Type → Type} [Monad m] [LawfulMonad m] [Refusing m] [Source κ m]
    (law : Faithful κ m) (room : Nat) (place : κ) (a : α) (legible : record.Legible true a)
    (stands : law.stands room place (.object (record.members a))) :
    record.read place = law.fit room (Value.depthMembers (record.members a) + 1) a := by
  match record, a with
  | .closed title fields packing, a =>
      rw [Record.read]
      apply law.enters_bind room _ _ _ _ a (law.record_eq room place _ title stands)
      intro inner form held
      obtain ⟨opened, rfl, beside, closes⟩ := held
      have loop :=
        fields.foldlM_take wellFormed law inner 0 (packing.unpack a) legible opened.entries beside
      have same := fun whole => fields.foldlM_declared law inner 0 _ opened.entries beside id whole
      -- The loop passes over members that no field takes, but every written member is declared.
      dsimp only
      refine (congrArg (· >>= _) (same _ ?_)).trans ?_
      · intro row entry name label declared
        have taken := fields.store_of_mem 0 row entry name label declared
        simp only [label, pure_bind, id_eq, taken, id_map]
      · rw [loop, id_map]
        apply law.fit_bind_pure inner
        rw [closes, fields.complete_filled wellFormed]
        simp only [pure_bind, packing.pack_unpack]
  | .extensible title fields packing, a =>
      rw [Record.read]
      apply law.enters_bind room _ _ _ _ a (law.mapping_eq room place _ _ stands)
      intro inner opened held
      obtain ⟨beside, closes⟩ := held
      -- The declared members come first, all others after them.
      have declared := List.forall₂_take_append _ _ _ beside
      have collected := List.forall₂_drop_append _ _ _ beside
      have loop := fields.foldlM_take wellFormed law inner 0 _ legible.1 _ declared
      have same := fields.foldlM_declared law inner 0 _ _ declared fun row =>
        (row, ([] : List (Buffer × Buffer)))
      have aside := fun step =>
        law.foldlM_aside inner (fields.filled (packing.unpack a).1) step _ _ _ collected
      rw [← List.take_append_drop (fields.write (packing.unpack a).1).length opened.entries,
        List.foldlM_append, bind_assoc]
      refine (congrArg (· >>= _) (same _ ?_)).trans ?_
      · intro row entry name label declared
        have taken := fields.store_of_mem 0 row entry name label declared
        simp only [label, pure_bind, taken, bind_pure_comp]
      · rw [loop, law.fit_map, Record.members, Value.depthMembers_append]
        apply law.fit_bind inner
        rw [aside _ ?_ []]
        · apply law.fit_bind_pure inner
          simp only [closes, pure_bind, fields.complete_filled wellFormed, List.nil_append,
            collectedTable_ofMembers, settle, packing.pack_unpack]
        · rintro entry member held ⟨spelled, stands⟩ kept
          have absent : member.1 ∉ fields.names := by
            obtain ⟨extra, inside, rfl⟩ := List.mem_map.mp held
            exact legible.2 extra.1 (List.mem_map.mpr ⟨extra, inside, rfl⟩)
          have left :=
            (fields.store_eq_none_iff 0 member.1 entry.2 (fields.filled (packing.unpack a).1)).mpr
              absent
          simp only [law.key_label _ _ spelled, pure_bind, left]
          rw [law.buffer_eq inner entry.2 member.2 _ stands]
          exact law.fit_bind_pure inner _ _ _ _ rfl
termination_by structural record

theorem Field.read_written {τ : Type} (field : Field τ) (wellFormed : field.WellFormed)
    {κ : Type} {m : Type → Type} [Monad m] [LawfulMonad m] [Refusing m] [Source κ m]
    (law : Faithful κ m) (room : Nat) (place : κ) (a : τ) (legible : field.Legible true a)
    (value : Value) (written : field.write a = some value) (stands : law.stands room place value) :
    field.read place = law.fit room value.depth a := by
  match field, a with
  | .required layout, a =>
      cases written
      exact layout.read_written wellFormed law room place a legible stands
  | .optional layout, some b =>
      cases written
      obtain ⟨found, present, stands⟩ := law.present_eq room place _ stands ((legible b rfl).1 rfl)
      rw [Field.read, present, pure_bind]
      have value := layout.read_written wellFormed law room found b (legible b rfl).2 stands
      simp only [value, law.fit_map, bind_pure_comp]
  | .optional layout, none => cases written
  | .defaulted layout absent hidden, a =>
      rw [Field.write] at written
      split at written
      · cases written
      · cases written
        exact layout.read_written wellFormed.1 law room place a legible stands
termination_by structural field

theorem Fields.foldlM_take {ρ σ : Type} (fields : Fields ρ σ) (wellFormed : fields.WellFormed)
    {κ : Type} {m : Type → Type} [Monad m] [LawfulMonad m] [Refusing m] [Source κ m]
    (law : Faithful κ m) (room index : Nat) (row : ρ) (legible : fields.Legible true row)
    (entries : List (κ × κ)) (stand : law.Members room entries (fields.write row)) :
    entries.foldlM (fields.take index) fields.blank =
      law.fit room (Value.depthMembers (fields.write row)) (fields.filled row) := by
  match fields, row with
  | .nil, _ =>
      cases stand
      exact (law.fit_zero room ()).symm
  | .cons name field rest, (a, row) =>
      have later : ∀ slot entries, law.Members room entries (rest.write row) →
          entries.foldlM ((Fields.cons name field rest).take index) (slot, rest.blank) =
            law.fit room (Value.depthMembers (rest.write row)) (slot, rest.filled row) := by
        intro slot entries stand
        rw [rest.foldlM_declared law room (index + 1) row entries stand fun row => (slot, row)]
        · rw [rest.foldlM_take wellFormed.2.2 law room (index + 1) row legible.2 entries stand,
            law.fit_map]
        · intro row entry other label declared
          have different : other ≠ name := fun same => wellFormed.1 (same ▸ declared)
          exact Fields.take_cons_other name other different field rest index slot row entry label
      cases written : field.write a with
      | none =>
          -- A member that is left out leaves its slot empty; completing the row fills it.
          simp only [Fields.write, Fields.filled, Fields.blank, written] at stand ⊢
          exact later none entries stand
      | some value =>
          simp only [Fields.write, Fields.filled, Fields.blank, written] at stand ⊢
          obtain ⟨first, others, ⟨spelled, stands⟩, beside, rfl⟩ :=
            List.forall₂_cons_right_iff.mp stand
          have here :=
            field.read_written wellFormed.2.1 law room first.2 a legible.1 value written stands
          have label := law.key_label _ _ spelled
          rw [List.foldlM_cons, Fields.take_cons_same name field rest index _ first label,
            here, law.fit_map]
          exact law.fit_bind room _ _ _ _ _ (later (some a) others beside)
termination_by structural fields

theorem Variants.read_written {σ : Type} (variants : Variants σ) (tag : String)
    (wellFormed : variants.WellFormed tag) (a : σ) (legible : variants.Legible true tag a) :
    variants.read (variants.write a).1 (Buffer.ofValue (.object (variants.write a).2)) =
      (.ok a : Except Mismatch σ) := by
  match variants, a with
  | .cons name record rest, .inl a =>
      have content := record.read_written wellFormed.2.2.1 Faithful.buffered _
        (Buffer.ofValue (.object (record.members a))) a legible.1 ⟨rfl, Nat.le_refl _⟩
      simp only [Limit.fit, Value.depth, Nat.le_refl, if_true] at content
      simp only [Variants.write, Variants.read, if_true, content]
      rfl
  | .cons name record rest, .inr a =>
      have known := rest.mem_names_of_written a
      have different : name ≠ (rest.write a).1 := fun same => wellFormed.1 (same ▸ known)
      have content := rest.read_written tag wellFormed.2.2.2 a legible
      simp only [Variants.write, Variants.read, if_neg different, content]
      rfl
termination_by structural variants

end

end SwaggerLift
