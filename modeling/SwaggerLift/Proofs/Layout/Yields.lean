import SwaggerLift.Proofs.Layout.Legible
import SwaggerLift.Proofs.Layout.Row
import SwaggerLift.Proofs.Table
/-!
What is read is legible, whatever the text and its format: a reader takes a member with a declared
name into its field, so none is left over under such a name.
-/

namespace SwaggerLift

/-- A place that is given to a computation leaves alone what it hands on. -/
class LawfulSource (κ : Type) (m : outParam (Type → Type)) [Monad m] [Refusing m] [Source κ m] :
    Prop extends LawfulRefusing m where
  yields_within : ∀ {α : Type} {P : α → Prop} (place : κ) (x : m α),
    Yields x P → Yields (Source.within place x) P

open LawfulSource

instance : LawfulSource Buffer (Except Mismatch) where
  refuse_bind _ _ := rfl
  yields_within _ _ holds := holds

theorem Field.legible_absent {τ : Type} (strict : Bool) (field : Field τ)
    (wellFormed : field.WellFormed) (a : τ) (absent : field.absent? = some a) :
    field.Legible strict a := by
  cases field with
  | required layout => cases absent
  | optional layout =>
      cases absent
      intro b same
      cases same
  | defaulted layout value hidden =>
      cases absent
      exact wellFormed.2.1 strict

theorem Fields.legible_of_each {ρ σ : Type} (strict : Bool) (fields : Fields ρ σ) (row : ρ)
    (each : fields.Each (Field.Legible strict) row) : fields.Legible strict row := by
  match fields, row with
  | .nil, _ => trivial
  | .cons _ _ rest, (_, row) => exact ⟨each.1, rest.legible_of_each strict row each.2⟩
termination_by structural fields

theorem yields_untagged {κ : Type} {m : Type → Type} [Monad m] [LawfulMonad m] [Refusing m]
    [LawfulRefusing m] [Source κ m] {τ : Type} (tag : String) (readTag : κ → m τ) (title : String)
    (place : κ) :
    Yields (readTagged tag readTag title place) fun found =>
      ∀ kept, found.2 = .mapping kept → .text tag ∉ kept.map Prod.fst := by
  apply yields_readTagged tag readTag title place fun content =>
    ∀ kept, content = .mapping kept → .text tag ∉ kept.map Prod.fst
  apply yields_of_forall
  intro form
  refine ⟨fun _ => True, fun _ => True, form.within_true,
    fun _ _ _ => yields_of_forall _ fun _ => trivial, ?_⟩
  rintro _ (@⟨_, apart, _⟩ | _) kept ⟨⟩
  exact apart

theorem Buffer.yields_readText (wanted : Wanted) (b : Buffer) :
    Yields (b.readText wanted) fun s => b = .text s := by
  rw [yields_ok_iff]
  cases b <;> simp [Buffer.readText]

/-- Each collected member stands among the buffered ones. Only texts can be names there. -/
theorem yields_collectedTable (collected : List (Buffer × Buffer)) :
    Yields (collectedTable collected) fun table => ∀ entry ∈ table.entries,
      ∃ b, (.text entry.1, b) ∈ collected ∧ b.readVerbatim = .ok entry.2 := by
  rw [collectedTable]
  have each : ∀ entry ∈ collected,
      Yields (do return (← entry.1.readText .text, ← entry.2.readVerbatim) : Except Mismatch _)
        fun member => ∃ b, (.text member.1, b) ∈ collected ∧ b.readVerbatim = .ok member.2 := by
    rintro ⟨key, b⟩ held
    apply yields_bind _ _ (key.yields_readText .text)
    rintro name rfl
    apply yields_bind _ _ ((yields_ok_iff _).mpr fun value done => done)
    intro value done
    exact yields_pure _ ⟨b, held, done⟩
  apply yields_bind _ _ (yields_mapM _ _ each)
  intro members stand
  apply yields_pure
  intro entry member
  exact stand entry (Table.mem_ofList members entry member)

theorem yields_collectedKeys (collected : List (Buffer × Buffer)) :
    Yields (collectedTable collected) fun table =>
      ∀ key ∈ table.keys, .text key ∈ collected.map Prod.fst := by
  apply yields_imp _ (yields_collectedTable collected)
  intro table stand key member
  obtain ⟨entry, held, rfl⟩ := List.mem_map.mp member
  obtain ⟨b, kept, _⟩ := stand entry held
  exact List.mem_map.mpr ⟨_, kept, rfl⟩

theorem Buffer.yields_mapping (wanted : Wanted) (content : Buffer) :
    Yields (Source.mapping wanted content) fun opened => content = .mapping opened.entries := by
  rw [yields_ok_iff]
  intro opened done
  cases content with
  | mapping entries => cases done; rfl
  | _ => cases done

theorem Buffer.yields_label (key : Buffer) :
    Yields (Source.label key) fun label => ∀ name, label = .name name → key = .text name := by
  rw [yields_ok_iff]
  intro label done name same
  subst same
  cases key with
  | text s => cases done; rfl
  | whole n => simp [Source.label, Buffer.readLabel] at done; split at done <;> cases done
  | _ => cases done

theorem Record.yields_names {α : Type} (record : Record α) (content : Buffer) :
    Yields (record.read content) fun a => ∀ name ∈ (record.members a).map Prod.fst,
      name ∈ record.names ∨ ∃ kept, content = .mapping kept ∧ .text name ∈ kept.map Prod.fst := by
  cases record with
  | closed title fields packing =>
      apply yields_of_forall
      intro a name written
      rw [Record.members] at written
      exact Or.inl (fields.mem_names_of_written (packing.unpack a) name written)
  | extensible title fields packing =>
      rw [Record.read]
      apply yields_bind _ _ (content.yields_mapping _)
      intro opened whole
      -- What has been collected so far stood among the members of the buffer.
      refine yields_loop (fun state => ∀ name, .text name ∈ state.2.map Prod.fst →
        .text name ∈ opened.entries.map Prod.fst) _ _ _ _ (by simp) ?keeps ?next
      case keeps =>
        rintro ⟨row, collected⟩ held entry member
        apply yields_bind _ _ entry.1.yields_label
        intro label same
        cases label with
        | name name =>
            dsimp only
            split
            · exact yields_then _ _ fun row => yields_pure _ held
            · apply yields_then
              intro b
              apply yields_pure
              refine forall_text_append _ collected _ b held ?_
              rintro other here
              cases here
              rw [← same name rfl]
              exact List.mem_map.mpr ⟨entry, member, rfl⟩
        | position n =>
            apply yields_then
            intro b
            apply yields_pure
            refine forall_text_append _ collected _ b held ?_
            rintro name ⟨⟩
      case next =>
        intro state held
        apply yields_then
        intro _
        apply yields_then
        intro row
        apply yields_bind _ _ (yields_settle _ (yields_collectedKeys state.2))
        intro table texts
        apply yields_pure
        intro name written
        rw [Record.members, packing.unpack_pack, List.map_append, List.mem_append] at written
        rcases written with declared | collected
        -- What has been written is declared or was collected.
        · exact Or.inl (fields.mem_names_of_written row name declared)
        · rw [List.map_map] at collected
          exact Or.inr ⟨opened.entries, whole, held name (texts name collected)⟩

mutual

theorem Layout.yields_read {α : Type} (layout : Layout α) (wellFormed : layout.WellFormed)
    {κ : Type} {m : Type → Type} [Monad m] [LawfulMonad m] [Refusing m] [Source κ m]
    [LawfulSource κ m] (place : κ) : Yields (layout.read place) (layout.Legible false) := by
  match layout with
  | .text | .flag | .verbatim | .named _ => exact yields_of_forall _ fun _ => trivial
  | .list item =>
      apply yields_within
      apply yields_then
      intro opened
      apply yields_bind _ _ (yields_mapM _ _ fun place _ => item.yields_read wellFormed place)
      intro items legible
      exact yields_then _ _ fun _ => yields_pure items legible
  | .table item =>
      apply yields_within
      apply yields_then
      intro opened
      have each : ∀ entry ∈ opened.entries,
          Yields (do return (← Source.text .text entry.1, ← item.read entry.2) : m _)
            fun entry => item.Legible false entry.2 := fun entry _ =>
        yields_then _ _ fun key => yields_bind _ _ (item.yields_read wellFormed entry.2)
          fun a legible => yields_pure (key, a) legible
      apply yields_bind _ _ (yields_mapM _ _ each)
      intro entries legible
      apply yields_then
      intro _
      apply yields_pure
      intro entry member
      exact legible entry (Table.mem_ofList entries entry member)
  | .record record => exact yields_within _ _ (record.yields_read wellFormed place)
  | .union title tag variants packing =>
      apply yields_bind _ _ (yields_within _ _ (yields_untagged tag _ title place))
      intro found apart
      have legible := variants.yields_read tag wellFormed found.1 found.2 apart
      apply yields_bind _ _ (yields_settle _ legible)
      intro a legible
      apply yields_pure
      rw [Layout.Legible, packing.unpack_pack]
      exact legible
termination_by structural layout

theorem Record.yields_read {α : Type} (record : Record α) (wellFormed : record.WellFormed)
    {κ : Type} {m : Type → Type} [Monad m] [LawfulMonad m] [Refusing m] [Source κ m]
    [LawfulSource κ m] (place : κ) : Yields (record.read place) (record.Legible false) := by
  match record with
  | .closed title fields packing =>
      apply Record.yields_closed
      apply yields_of_forall
      intro form
      refine ⟨Field.Legible false, fun _ => True, form.within_true,
        fields.take_legible wellFormed, ?_⟩
      intro row each
      rw [Record.Legible, packing.unpack_pack]
      exact fields.legible_of_each false row each
  | .extensible title fields packing =>
      apply Record.yields_extensible
      apply yields_of_forall
      intro opened
      refine ⟨Field.Legible false, fun _ => True, fun _ => True, fun _ _ => trivial,
        fields.take_legible wellFormed, fun _ _ => yields_of_forall _ fun _ => trivial, ?_⟩
      intro row collected each apart _
      apply yields_imp _ (yields_collectedKeys collected)
      intro table texts
      rw [Record.Legible, packing.unpack_pack]
      exact ⟨fields.legible_of_each false row each, fun key stands => apart key (texts key stands)⟩
termination_by structural record

theorem Field.yields_read {τ : Type} (field : Field τ) (wellFormed : field.WellFormed)
    {κ : Type} {m : Type → Type} [Monad m] [LawfulMonad m] [Refusing m] [Source κ m]
    [LawfulSource κ m] (place : κ) : Yields (field.read place) (field.Legible false) := by
  match field with
  | .required layout => exact layout.yields_read wellFormed place
  | .optional layout =>
      apply yields_then
      intro found
      cases found with
      | none =>
          apply yields_pure
          intro b same
          cases same
      | some place =>
          apply yields_bind _ _ (layout.yields_read wellFormed place)
          intro a legible
          apply yields_pure
          intro b same
          cases same
          exact ⟨Bool.noConfusion, legible⟩
  | .defaulted layout _ _ => exact layout.yields_read wellFormed.1 place
termination_by structural field

theorem Fields.take_legible {ρ σ : Type} (fields : Fields ρ σ) (wellFormed : fields.WellFormed)
    {κ : Type} {m : Type → Type} [Monad m] [LawfulMonad m] [Refusing m] [Source κ m]
    [LawfulSource κ m] : fields.Take (Field.Legible false) fun _ : κ => True := by
  match fields with
  | .nil => trivial
  | .cons name field rest =>
      refine ⟨⟨field.legible_absent false wellFormed.2.1, ?_⟩, rest.take_legible wellFormed.2.2⟩
      intro place _
      exact field.yields_read wellFormed.2.1 place
termination_by structural fields

/-- The record of a union is read from a buffer in which its tag is missing. -/
theorem Variants.yields_read {σ : Type} (variants : Variants σ) (tag : String)
    (wellFormed : variants.WellFormed tag) (name : String) (content : Buffer)
    (apart : ∀ kept, content = .mapping kept → .text tag ∉ kept.map Prod.fst) :
    Yields (variants.read name content) (variants.Legible false tag) := by
  match variants with
  | .nil => exact yields_refuse _ _
  | .cons first record rest =>
      rw [Variants.read]
      split
      · have legible := (yields_ok_iff _).mp (record.yields_read wellFormed.2.2.1 content)
        have names := (yields_ok_iff _).mp (record.yields_names content)
        have both : Yields (record.read content) fun a =>
            record.Legible false a ∧ tag ∉ (record.members a).map Prod.fst := by
          rw [yields_ok_iff]
          intro a done
          refine ⟨legible a done, ?_⟩
          intro written
          rcases names a done tag written with declared | ⟨kept, whole, stands⟩
          · exact wellFormed.2.1 declared
          · exact apart kept whole stands
        exact yields_bind _ _ both fun a holds => yields_pure _ holds
      · have later := rest.yields_read tag wellFormed.2.2.2 name content apart
        exact yields_bind _ _ later fun a legible => yields_pure _ legible
termination_by structural variants

end

end SwaggerLift
