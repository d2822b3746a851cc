import SwaggerLift.Layout.Read
import SwaggerLift.Proofs.Yields
/-!
Rows of fields that are filled member by member: what each field makes sure of for the value that it
takes, the whole row has in each of its places, and so it is with the record that is packed from it.
What no field takes is collected, and what a union keeps until its tag is known has lost the tag.
-/

namespace SwaggerLift

/-- Nothing comes after what is refused. -/
class LawfulRefusing (m : Type → Type) [Monad m] [Refusing m] : Prop where
  refuse_bind : ∀ {α β : Type} (mismatch : Mismatch) (f : α → m β),
    (refuse mismatch : m α) >>= f = refuse mismatch

open LawfulRefusing

section Refusing

variable {m : Type → Type} [Monad m] [LawfulMonad m] [Refusing m] [LawfulRefusing m]

theorem yields_refuse {α : Type} (mismatch : Mismatch) (P : α → Prop) :
    Yields (refuse mismatch : m α) P :=
  ⟨refuse mismatch, by rw [← bind_pure_comp, refuse_bind]⟩

theorem yields_settle {α : Type} {P : α → Prop} (x : Except Mismatch α) (holds : Yields x P) :
    Yields (settle x : m α) P := by
  cases x with
  | error mismatch => exact yields_refuse mismatch P
  | ok a => exact yields_pure a ((yields_ok_iff _).mp holds a rfl)

end Refusing

theorem Field.absent?_of_beyondEnd? {τ : Type} (field : Field τ) (a : τ)
    (ends : field.beyondEnd? = some a) : field.absent? = some a := by
  cases field with
  | required layout => cases ends
  | optional layout => cases ends
  | defaulted layout value hidden => exact ends

section

variable {κ : Type} {m : Type → Type}

def Items.Within (inside : κ → Prop) (opened : Items κ m) : Prop :=
  ∀ place ∈ opened.items, inside place

def Entries.Within (inside : κ → Prop) (opened : Entries κ m) : Prop :=
  ∀ entry ∈ opened.entries, inside entry.2

def Form.Within (inside : κ → Prop) : Form κ m → Prop
  | .named opened => opened.Within inside
  | .positional opened => opened.Within inside

theorem Form.within_true (form : Form κ m) : form.Within fun _ => True := by
  cases form with
  | named opened => exact fun _ _ => trivial
  | positional opened => exact fun _ _ => trivial

end

theorem mem_keys_append (kept : List (Buffer × Buffer)) (name key value : Buffer) :
    name ∈ (kept ++ [(key, value)]).map Prod.fst ↔ name ∈ kept.map Prod.fst ∨ name = key := by
  rw [List.map_append, List.mem_append, List.map_singleton, List.mem_singleton]

theorem forall_text_append (P : String → Prop) (kept : List (Buffer × Buffer)) (key value : Buffer)
    (before : ∀ name, .text name ∈ kept.map Prod.fst → P name)
    (here : ∀ name, key = .text name → P name) :
    ∀ name, .text name ∈ (kept ++ [(key, value)]).map Prod.fst → P name := by
  intro name stands
  rcases (mem_keys_append kept (.text name) key value).mp stands with earlier | same
  · exact before name earlier
  · exact here name same.symm

theorem forall_kept_append (K : Buffer → Prop) (kept : List (Buffer × Buffer)) (key value : Buffer)
    (before : ∀ entry ∈ kept, K entry.2) (here : K value) :
    ∀ entry ∈ kept ++ [(key, value)], K entry.2 :=
  List.forall_mem_append.mpr ⟨before, List.forall_mem_singleton.mpr here⟩

theorem Fields.store_eq_none_iff {κ : Type} {m : Type → Type} [Monad m] [Refusing m]
    [Source κ m] {ρ σ : Type} (fields : Fields ρ σ) (index : Nat) (name : String)
    (place : κ) (row : σ) :
    fields.store index (.name name) place row = none ↔ name ∉ fields.names := by
  match fields, row with
  | .nil, _ => simp [Fields.store, Fields.names]
  | .cons first field rest, (slot, row) =>
      by_cases same : name = first
      · simp [Fields.store, Label.picks, Fields.names, same]
      · have later := rest.store_eq_none_iff (index + 1) name place row
        simp [Fields.store, Label.picks, Fields.names, same, later]
termination_by structural fields

variable {κ : Type} {m : Type → Type} (P : {τ : Type} → Field τ → τ → Prop) (inside : κ → Prop)

def Fields.Each {ρ σ : Type} (fields : Fields ρ σ) (row : ρ) : Prop :=
  match fields, row with
  | .nil, _ => True
  | .cons _ field rest, (a, row) => P field a ∧ rest.Each row
termination_by structural fields

def Fields.EachSoFar {ρ σ : Type} (fields : Fields ρ σ) (row : σ) : Prop :=
  match fields, row with
  | .nil, _ => True
  | .cons _ field rest, (slot, row) => (∀ a, slot = some a → P field a) ∧ rest.EachSoFar row
termination_by structural fields

theorem Fields.eachSoFar_blank {ρ σ : Type} (fields : Fields ρ σ) :
    fields.EachSoFar P fields.blank := by
  match fields with
  | .nil => trivial
  | .cons _ _ rest =>
      refine ⟨?_, rest.eachSoFar_blank⟩
      intro a same
      cases same
termination_by structural fields

section Reading

variable [Monad m] [LawfulMonad m] [Refusing m] [Source κ m]

/-- The field takes only values with the property: from such places, and where
    its member is absent. -/
structure Field.Takes {τ : Type} (field : Field τ) : Prop where
  absent : ∀ a, field.absent? = some a → P field a
  read : ∀ place, inside place → Yields (field.read place) (P field)

def Fields.Take {ρ σ : Type} (fields : Fields ρ σ) : Prop :=
  match fields with
  | .nil => True
  | .cons _ field rest => field.Takes P inside ∧ rest.Take
termination_by structural fields

variable {P inside} [LawfulRefusing m]

theorem Fields.yields_complete {ρ σ : Type} (fields : Fields ρ σ)
    (takes : fields.Take P inside) (row : σ) (sofar : fields.EachSoFar P row) :
    Yields (fields.complete row : m ρ) (fields.Each P) := by
  match fields, row with
  | .nil, _ => exact yields_pure () trivial
  | .cons name field rest, (slot, row) =>
      have next : ∀ a, P field a →
          Yields (do return (a, ← rest.complete row) : m _) ((cons name field rest).Each P) := by
        intro a here
        apply yields_bind _ _ (rest.yields_complete takes.2 row sofar.2)
        intro row later
        exact yields_pure _ ⟨here, later⟩
      rw [Fields.complete]
      cases found : slot.or field.absent? with
      | none => exact yields_bind _ _ (yields_refuse _ _) next
      | some a =>
          have here : P field a := by
            rcases Option.or_eq_some_iff.mp found with taken | ⟨_, absent⟩
            · exact sofar.1 a taken
            · exact takes.1.absent a absent
          exact yields_bind _ _ (yields_pure a here) next
termination_by structural fields

theorem Fields.yields_beyondEnd {ρ σ : Type} (fields : Fields ρ σ) (takes : fields.Take P inside)
    (title : String) (arity index : Nat) :
    Yields (fields.beyondEnd title arity index : m ρ) (fields.Each P) := by
  match fields with
  | .nil => exact yields_pure () trivial
  | .cons name field rest =>
      have next : ∀ a, P field a →
          Yields (do return (a, ← rest.beyondEnd title arity (index + 1)) : m _)
            ((cons name field rest).Each P) := by
        intro a here
        apply yields_bind _ _ (rest.yields_beyondEnd takes.2 title arity (index + 1))
        intro row later
        exact yields_pure _ ⟨here, later⟩
      rw [Fields.beyondEnd]
      cases ends : field.beyondEnd? with
      | none => exact yields_bind _ _ (yields_refuse _ _) next
      | some a =>
          have here := takes.1.absent a (field.absent?_of_beyondEnd? a ends)
          exact yields_bind _ _ (yields_pure a here) next
termination_by structural fields

theorem Fields.yields_store {ρ σ : Type} (fields : Fields ρ σ) (takes : fields.Take P inside)
    (index : Nat) (label : Label) (place : κ) (stands : inside place) (row : σ)
    (sofar : fields.EachSoFar P row) :
    ∀ stored, fields.store index label place row = some stored →
      Yields stored (fields.EachSoFar P) := by
  match fields, row with
  | .nil, _ =>
      intro stored taken
      cases taken
  | .cons name field rest, (slot, row) =>
      intro stored taken
      simp only [Fields.store] at taken
      split at taken
      · cases taken
        cases slot with
        | some _ => exact yields_refuse _ _
        | none =>
            apply yields_bind _ _ (takes.1.read place stands)
            intro a holds
            apply yields_pure
            exact ⟨fun b same => by cases same; exact holds, sofar.2⟩
      · obtain ⟨inner, found, rfl⟩ := Option.map_eq_some_iff.mp taken
        have later :=
          rest.yields_store takes.2 (index + 1) label place stands row sofar.2 inner found
        exact yields_bind _ _ later fun row holds => yields_pure _ ⟨sofar.1, holds⟩
termination_by structural fields

theorem Fields.yields_readRow {ρ σ : Type} (fields : Fields ρ σ) (takes : fields.Take P inside)
    (title : String) (arity index : Nat) (close : Nat → m Unit) (items : List κ)
    (stand : ∀ place ∈ items, inside place) :
    Yields (fields.readRow title arity index close items) fun found => fields.Each P found.1 := by
  match fields with
  | .nil => exact yields_pure _ trivial
  | .cons name field rest =>
      cases items with
      | nil =>
          apply yields_then
          intro _
          apply yields_bind _ _ (Fields.yields_beyondEnd _ takes title arity index)
          intro row each
          exact yields_pure _ each
      | cons place places =>
          obtain ⟨here, later⟩ := List.forall_mem_cons.mp stand
          apply yields_bind _ _ (takes.1.read place here)
          intro a holds
          apply yields_bind _ _
            (rest.yields_readRow takes.2 title arity (index + 1) close places later)
          intro found each
          exact yields_pure _ ⟨holds, each⟩
termination_by structural fields

theorem Record.yields_closed {α ρ σ : Type} (title : String) (fields : Fields ρ σ)
    (packing : Packing ρ α) (place : κ) (Q : α → Prop)
    (opens : Yields (Source.record title place) fun form : Form κ m =>
      ∃ (P : {τ : Type} → Field τ → τ → Prop) (inside : κ → Prop), form.Within inside ∧
        fields.Take P inside ∧
        ∀ row, fields.Each P row → Q (packing.pack row)) :
    Yields ((Record.closed title fields packing).read place) Q := by
  apply yields_bind _ _ opens
  rintro form ⟨P, inside, within, takes, packed⟩
  cases form with
  | named opened =>
      refine yields_loop (fields.EachSoFar P) _ _ _ _ (fields.eachSoFar_blank P) ?keeps ?next
      case keeps =>
        intro row sofar entry member
        apply yields_then
        intro label
        split
        · next stored taken =>
            exact fields.yields_store takes 0 label entry.2 (within entry member) row
              sofar stored taken
        · exact yields_then _ _ fun _ => yields_pure row sofar
      case next =>
        intro row sofar
        apply yields_then
        intro _
        apply yields_bind _ _ (fields.yields_complete takes row sofar)
        intro row each
        exact yields_pure _ (packed row each)
  | positional opened =>
      have read := fields.yields_readRow takes title fields.arity 0 opened.close opened.items within
      apply yields_bind _ _ read
      intro found each
      apply yields_then
      intro _
      exact yields_pure _ (packed found.1 each)

/-- A member is only collected if no field takes it, so no collected one has a declared name. -/
theorem Record.yields_extensible {α ρ σ : Type} (title : String) (fields : Fields ρ σ)
    (packing : Packing (ρ × Table Verbatim) α) (place : κ) (Q : α → Prop)
    (opens : Yields (Source.mapping (.record title) place) fun opened : Entries κ m =>
      ∃ (P : {τ : Type} → Field τ → τ → Prop) (inside : κ → Prop) (K : Buffer → Prop),
        opened.Within inside ∧
        fields.Take P inside ∧ (∀ place, inside place → Yields (Source.buffer .anything place) K) ∧
        ∀ row collected, fields.Each P row →
          (∀ name, .text name ∈ collected.map Prod.fst → name ∉ fields.names) →
            (∀ entry ∈ collected, K entry.2) →
            Yields (collectedTable collected) fun table => Q (packing.pack (row, table))) :
    Yields ((Record.extensible title fields packing).read place) Q := by
  apply yields_bind _ _ opens
  rintro opened ⟨P, inside, K, within, takes, buffers, packed⟩
  -- What has been collected so far has no declared name, and its buffers are as the places were.
  refine yields_loop (fun state => fields.EachSoFar P state.1 ∧
    (∀ name, .text name ∈ state.2.map Prod.fst → name ∉ fields.names) ∧
    ∀ entry ∈ state.2, K entry.2)
    _ _ _ _ ⟨fields.eachSoFar_blank P, by simp⟩ ?keeps ?next
  case keeps =>
    rintro ⟨row, collected⟩ ⟨sofar, apart, held⟩ entry member
    have stands := within entry member
    apply yields_then
    intro label
    cases label with
    | name name =>
        dsimp only
        split
        · next stored taken =>
            have next :=
              fields.yields_store takes 0 (.name name) entry.2 stands row sofar stored taken
            exact yields_bind _ _ next fun row sofar => yields_pure _ ⟨sofar, apart, held⟩
        · next left =>
            apply yields_bind _ _ (buffers entry.2 stands)
            intro b here
            have both := forall_kept_append K collected (.text name) b held here
            refine yields_pure _ ⟨sofar, forall_text_append _ collected _ b apart ?_, both⟩
            rintro other same
            cases same
            exact (fields.store_eq_none_iff 0 name entry.2 row).mp left
    | position n =>
        apply yields_bind _ _ (buffers entry.2 stands)
        intro b here
        have both := forall_kept_append K collected (.whole n) b held here
        refine yields_pure _ ⟨sofar, forall_text_append _ collected _ b apart ?_, both⟩
        rintro name ⟨⟩
  case next =>
    rintro ⟨row, collected⟩ ⟨sofar, apart, held⟩
    apply yields_then
    intro _
    apply yields_bind _ _ (fields.yields_complete takes row sofar)
    intro row each
    apply yields_bind _ _ (yields_settle _ (packed row collected each apart held))
    intro table holds
    exact yields_pure _ holds

/-- What a union can leave behind once its tag is taken out. -/
inductive Buffer.Kept (tag : String) (K : Buffer → Prop) : Buffer → Prop
  | members {kept : List (Buffer × Buffer)} (apart : .text tag ∉ kept.map Prod.fst)
      (held : ∀ entry ∈ kept, K entry.2) : Kept tag K (.mapping kept)
  | items {kept : List Buffer} (held : ∀ b ∈ kept, K b) : Kept tag K (.list kept)

theorem yields_readTagged {τ : Type} (tag : String) (readTag : κ → m τ) (title : String) (place : κ)
    (Q : Buffer → Prop)
    (opens : Yields (Source.union title place) fun form : Form κ m =>
      ∃ (inside : κ → Prop) (K : Buffer → Prop), form.Within inside ∧
        (∀ wanted place, inside place → Yields (Source.buffer wanted place) K) ∧
        ∀ content : Buffer, content.Kept tag K → Q content) :
    Yields (readTagged tag readTag title place) fun found => Q found.2 := by
  rw [readTagged]
  apply yields_bind _ _ opens
  rintro form ⟨inside, K, within, buffers, kept⟩
  cases form with
  | named opened =>
      -- What has been put aside so far does not have the name of the tag.
      refine yields_loop (fun state => .text tag ∉ state.2.map Prod.fst ∧
        ∀ entry ∈ state.2, K entry.2)
        _ _ _ _ (by simp) ?keeps ?next
      case keeps =>
        rintro ⟨found, kept⟩ ⟨apart, held⟩ entry member
        have next : ∀ key, key ≠ .text tag → Yields
            (do return (found, kept ++ [(key, ← Source.buffer .anything entry.2)]) :
              m _) fun state =>
              .text tag ∉ state.2.map Prod.fst ∧ ∀ entry ∈ state.2, K entry.2 := by
          intro key other
          apply yields_bind _ _ (buffers .anything entry.2 (within entry member))
          intro b here
          refine yields_pure _ ⟨?_, forall_kept_append K kept key b held here⟩
          rw [mem_keys_append, not_or]
          exact ⟨apart, fun same => other same.symm⟩
        apply yields_then
        intro key
        split
        · split
          · cases found with
            | some _ => exact yields_refuse _ _
            | none => exact yields_then _ _ fun a => yields_pure _ ⟨apart, held⟩
          · next different => exact next _ fun same => different (by cases same; rfl)
        · next other => exact next _ (other tag)
      case next =>
        rintro ⟨found, members⟩ ⟨apart, held⟩
        apply yields_then
        intro _
        cases found with
        | some found => exact yields_pure _ (kept _ (.members apart held))
        | none => exact yields_refuse _ _
  | positional opened =>
      obtain ⟨items, close⟩ := opened
      cases items with
      | nil => exact yields_then _ _ fun _ => yields_refuse _ _
      | cons first rest =>
          obtain ⟨_, later⟩ := List.forall_mem_cons.mp within
          apply yields_then
          intro found
          apply yields_bind _ _ (yields_mapM _ _ fun place member =>
            buffers .anything place (later place member))
          intro items held
          apply yields_then
          intro _
          exact yields_pure _ (kept _ (.items held))

end Reading

end SwaggerLift
