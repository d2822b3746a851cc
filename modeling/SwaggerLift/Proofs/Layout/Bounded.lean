import SwaggerLift.Proofs.Layout.Yields
import SwaggerLift.Proofs.Value
/-!
What is read, once it is written again: it is nested no deeper than the place from which it was read
has room, and nothing under an optional field is written as null, since null is read as nothing
there. So it can be read back where it was read, if only no collected member has a declared name.
-/

namespace SwaggerLift

mutual

/-- Whether a value that stands for an absent member is a scalar, if it is written at all. -/
def Layout.FlatDefaults {α : Type} (layout : Layout α) : Prop :=
  match layout with
  | .text | .flag | .verbatim | .named _ => True
  | .list item => item.FlatDefaults
  | .table item => item.FlatDefaults
  | .record record => record.FlatDefaults
  | .union _ _ variants _ => variants.FlatDefaults
termination_by structural layout

def Record.FlatDefaults {α : Type} (record : Record α) : Prop :=
  match record with
  | .closed _ fields _ => fields.FlatDefaults
  | .extensible _ fields _ => fields.FlatDefaults
termination_by structural record

def Field.FlatDefaults {τ : Type} (field : Field τ) : Prop :=
  match field with
  | .required layout => layout.FlatDefaults
  | .optional layout => layout.FlatDefaults
  | .defaulted layout absent hidden =>
      layout.FlatDefaults ∧ (hidden absent = false → (layout.write absent).depth = 0)
termination_by structural field

def Fields.FlatDefaults {ρ σ : Type} (fields : Fields ρ σ) : Prop :=
  match fields with
  | .nil => True
  | .cons _ field rest => field.FlatDefaults ∧ rest.FlatDefaults
termination_by structural fields

def Variants.FlatDefaults {σ : Type} (variants : Variants σ) : Prop :=
  match variants with
  | .nil => True
  | .cons _ record rest => record.FlatDefaults ∧ rest.FlatDefaults
termination_by structural variants

end

def Buffer.Within : Nat → Buffer → Prop
  | _, .float x => x.isFinite = true
  | 0, .list _ => False
  | 0, .mapping _ => False
  | n + 1, .list items => ∀ item ∈ items, item.Within n
  | n + 1, .mapping entries => ∀ entry ∈ entries, entry.2.Within n
  | _, _ => True

/-- The laws of a source in which each place has room for a number of levels. -/
structure Bounded (κ : Type) (m : Type → Type) [Monad m] [Refusing m] [Source κ m] where
  room : Nat → κ → Prop
  filled : κ → Prop
  yields_verbatim : ∀ n place, room n place → Yields (Source.verbatim place) fun a =>
    a.val.depth ≤ n ∧ (filled place → a.val ≠ .null)
  yields_buffer : ∀ n place wanted, room n place →
    Yields (Source.buffer wanted place) (Buffer.Within n)
  yields_present : ∀ n place, room n place → Yields (Source.present place) fun found =>
    ∀ inside, found = some inside → room n inside ∧ filled inside
  yields_list : ∀ n place, room n place → Yields (Source.list place) fun opened =>
    ∃ inner, n = inner + 1 ∧ opened.Within (room inner)
  yields_mapping : ∀ n place wanted, room n place →
    Yields (Source.mapping wanted place) fun opened =>
    ∃ inner, n = inner + 1 ∧ opened.Within (room inner)
  yields_record : ∀ n place title, room n place → Yields (Source.record title place) fun form =>
    ∃ inner, n = inner + 1 ∧ form.Within (room inner)
  yields_union : ∀ n place title, room n place → Yields (Source.union title place) fun form =>
    ∃ inner, n = inner + 1 ∧ form.Within (room inner)

theorem Value.depth_tagged (tag text : String) (members : List (String × Value)) :
    (Value.object ((tag, .text text) :: members)).depth = (Value.object members).depth := by
  rw [depth, depth, depthMembers]
  exact congrArg (· + 1) (Nat.zero_max _)

theorem Buffer.inner_of_list (items : List Buffer) (n : Nat)
    (within : (Buffer.list items).Within n) :
    ∃ inner, n = inner + 1 ∧ ∀ item ∈ items, item.Within inner := by
  cases n with
  | zero => exact within.elim
  | succ inner => exact ⟨inner, rfl, within⟩

theorem Buffer.inner_of_mapping (entries : List (Buffer × Buffer)) (n : Nat)
    (within : (Buffer.mapping entries).Within n) :
    ∃ inner, n = inner + 1 ∧ ∀ entry ∈ entries, entry.2.Within inner := by
  cases n with
  | zero => exact within.elim
  | succ inner => exact ⟨inner, rfl, within⟩

mutual

theorem Buffer.yields_readVerbatim (b : Buffer) (n : Nat) (within : b.Within n) :
    Yields b.readVerbatim fun a => a.val.depth ≤ n ∧ (b ≠ .null → a.val ≠ .null) := by
  match b with
  | .null => exact yields_pure _ ⟨Nat.zero_le n, fun other => absurd rfl other⟩
  | .flag b => exact yields_pure _ ⟨Nat.zero_le n, fun _ => nofun⟩
  | .whole k => exact yields_pure _ ⟨Nat.zero_le n, fun _ => nofun⟩
  | .text s => exact yields_pure _ ⟨Nat.zero_le n, fun _ => nofun⟩
  | .float x =>
      have finite : x.isFinite = true := by cases n <;> exact within
      have carried : Verbatim.float x = .number (.float x finite) := by
        rw [Verbatim.float, Number.ofFloat?, dif_pos finite]
      rw [readVerbatim, carried]
      exact yields_pure _ ⟨Nat.zero_le n, fun _ => nofun⟩
  | .list items =>
      obtain ⟨n, rfl, within⟩ := inner_of_list items n within
      apply yields_bind _ _ (Buffer.yields_readItems items n within)
      intro values each
      refine yields_pure _ ⟨?_, fun _ => nofun⟩
      exact (Value.depth_list_le_iff _ n).mpr (List.forall_mem_map.mpr each)
  | .mapping entries =>
      obtain ⟨n, rfl, within⟩ := inner_of_mapping entries n within
      apply yields_bind _ _ (Buffer.yields_readEntries entries .textKey n within)
      intro members each
      refine yields_pure _ ⟨?_, fun _ => nofun⟩
      refine (Value.depth_object_le_iff _ n).mpr (List.forall_mem_map.mpr fun member held => ?_)
      exact each member (Table.mem_ofList members member held)

theorem Buffer.yields_readItems (items : List Buffer) (n : Nat)
    (within : ∀ item ∈ items, item.Within n) :
    Yields (readItems items) fun values => ∀ a ∈ values, a.val.depth ≤ n := by
  match items with
  | [] => exact yields_pure _ nofun
  | item :: rest =>
      obtain ⟨here, later⟩ := List.forall_mem_cons.mp within
      apply yields_bind _ _ (Buffer.yields_readVerbatim item n here)
      intro value fits
      apply yields_bind _ _ (Buffer.yields_readItems rest n later)
      intro values each
      exact yields_pure _ (List.forall_mem_cons.mpr ⟨fits.1, each⟩)

theorem Buffer.yields_readEntries (entries : List (Buffer × Buffer)) (wanted : Wanted) (n : Nat)
    (within : ∀ entry ∈ entries, entry.2.Within n) :
    Yields (readEntries wanted entries) fun members =>
      ∀ member ∈ members, member.2.val.depth ≤ n := by
  match entries with
  | [] => exact yields_pure _ nofun
  | (key, item) :: rest =>
      obtain ⟨here, later⟩ := List.forall_mem_cons.mp within
      apply yields_then
      intro name
      apply yields_bind _ _ (Buffer.yields_readVerbatim item n here)
      intro value fits
      apply yields_bind _ _ (Buffer.yields_readEntries rest .text n later)
      intro members each
      exact yields_pure _ (List.forall_mem_cons.mpr ⟨fits.1, each⟩)

end

/-- Members that are collected are nested no deeper than their buffers. -/
theorem yields_collectedDepth (collected : List (Buffer × Buffer)) (n : Nat)
    (within : ∀ entry ∈ collected, entry.2.Within n) :
    Yields (collectedTable collected) fun table =>
      ∀ entry ∈ table.entries, entry.2.val.depth ≤ n := by
  apply yields_imp _ (yields_collectedTable collected)
  intro table stand entry member
  obtain ⟨b, held, done⟩ := stand entry member
  have fits := (yields_ok_iff _).mp (b.yields_readVerbatim n (within _ held))
  exact (fits entry.2 done).1

theorem Buffer.yields_readForm (b : Buffer) (n : Nat) (wanted : Wanted) (within : b.Within n) :
    Yields (b.readForm wanted) fun form => ∃ inner, n = inner + 1 ∧
      form.Within (Buffer.Within inner) := by
  rw [yields_ok_iff]
  intro form done
  cases b with
  | list items => cases done; exact inner_of_list items n within
  | mapping entries => cases done; exact inner_of_mapping entries n within
  | _ => cases done

def Bounded.buffered : Bounded Buffer (Except Mismatch) where
  room := Buffer.Within
  filled b := b ≠ .null
  yields_verbatim n b within := b.yields_readVerbatim n within
  yields_buffer n b wanted within := yields_pure b within
  yields_present n b within := by
    cases b with
    | null => exact yields_pure _ nofun
    | _ =>
        refine yields_pure _ ?_
        rintro _ ⟨⟩
        exact ⟨within, nofun⟩
  yields_list n b within := by
    rw [yields_ok_iff]
    intro opened done
    cases b with
    | list items => cases done; exact Buffer.inner_of_list items n within
    | _ => cases done
  yields_mapping n b wanted within := by
    rw [yields_ok_iff]
    intro opened done
    cases b with
    | mapping entries => cases done; exact Buffer.inner_of_mapping entries n within
    | _ => cases done
  yields_record n b title within := b.yields_readForm n _ within
  yields_union n b title within := b.yields_readForm n _ within

/-- What is written fits into the room, and it is legible in the strict sense if
    it is legible at all. -/
structure Settled (depth room : Nat) (legible : Bool → Prop) : Prop where
  fits : depth ≤ room
  strict : legible false → legible true

def Layout.Settled {α : Type} (n : Nat) (layout : Layout α) (a : α) : Prop :=
  SwaggerLift.Settled (layout.write a).depth n (layout.Legible · a)

def Record.Settled {α : Type} (n : Nat) (record : Record α) (a : α) : Prop :=
  SwaggerLift.Settled (Value.object (record.members a)).depth n (record.Legible · a)

def Field.Settled (n : Nat) {τ : Type} (field : Field τ) (a : τ) : Prop :=
  SwaggerLift.Settled ((field.write a).elim 0 Value.depth) n (field.Legible · a)

def Fields.Settled {ρ σ : Type} (n : Nat) (fields : Fields ρ σ) (row : ρ) : Prop :=
  SwaggerLift.Settled (Value.depthMembers (fields.write row)) n (fields.Legible · row)

def Variants.Settled {σ : Type} (n : Nat) (variants : Variants σ) (tag : String) (a : σ) : Prop :=
  SwaggerLift.Settled (Value.object (variants.write a).2).depth n (variants.Legible · tag a)

theorem Field.settled_absent {τ : Type} (n : Nat) (field : Field τ) (wellFormed : field.WellFormed)
    (flat : field.FlatDefaults) (a : τ) (absent : field.absent? = some a) : field.Settled n a := by
  refine ⟨?_, fun _ => field.legible_absent true wellFormed a absent⟩
  cases field with
  | required layout => cases absent
  | optional layout => cases absent; exact Nat.zero_le n
  | defaulted layout value hidden =>
      cases absent
      rw [Field.write]
      cases out : hidden a with
      | true => exact Nat.zero_le n
      | false => exact Nat.le_trans (Nat.le_of_eq (flat.2 out)) (Nat.zero_le n)

theorem Fields.settled_of_each {ρ σ : Type} (n : Nat) (fields : Fields ρ σ) (row : ρ)
    (each : fields.Each (Field.Settled n) row) : fields.Settled n row := by
  match fields, row with
  | .nil, _ => exact ⟨Nat.zero_le n, id⟩
  | .cons name field rest, (a, row) =>
      obtain ⟨here, later⟩ := each
      have behind := rest.settled_of_each n row later
      refine ⟨?_, fun legible => ⟨here.strict legible.1, behind.strict legible.2⟩⟩
      rw [write, Value.depthMembers_append, Nat.max_le]
      refine ⟨?_, behind.fits⟩
      have fits := here.fits
      cases written : field.write a with
      | none => exact Nat.zero_le n
      | some value =>
          rw [written] at fits
          exact (Value.depthMembers_le_iff _ n).mpr (List.forall_mem_singleton.mpr fits)
termination_by structural fields

/-- The buffer that is kept until the tag is known has no more levels than there is room. -/
theorem Bounded.yields_readTagged {κ : Type} {m : Type → Type} [Monad m] [LawfulMonad m]
    [Refusing m] [Source κ m] [LawfulRefusing m] (law : Bounded κ m) {τ : Type} (tag : String)
    (readTag : κ → m τ) (title : String) (place : κ) (n : Nat) (room : law.room n place) :
    Yields (readTagged tag readTag title place) fun found => found.2.Within n := by
  apply SwaggerLift.yields_readTagged
  apply yields_imp _ (law.yields_union n place title room)
  rintro form ⟨n, rfl, within⟩
  refine ⟨law.room n, Buffer.Within n, within, fun wanted place room =>
    law.yields_buffer n place wanted room, ?_⟩
  rintro _ (@⟨_, _, held⟩ | held)
  · exact held
  · exact held

-- Constructor by constructor. The room is that of the place, and it is the place that knows whether
-- there is more than null.
mutual

theorem Layout.yields_settled {α : Type} (layout : Layout α) (wellFormed : layout.WellFormed)
    (flat : layout.FlatDefaults) {κ : Type} {m : Type → Type} [Monad m] [LawfulMonad m]
    [Refusing m] [Source κ m] [LawfulSource κ m] (law : Bounded κ m) (n : Nat) (place : κ)
    (room : law.room n place) :
    Yields (layout.read place) fun a => layout.Settled n a ∧
      (law.filled place → layout.write a ≠ .null) := by
  match layout with
  | .text | .flag | .named _ => exact yields_of_forall _ fun _ =>
      ⟨⟨Nat.zero_le n, id⟩, fun _ => nofun⟩
  | .verbatim =>
      apply yields_imp _ (law.yields_verbatim n place room)
      rintro a ⟨fits, filled⟩
      exact ⟨⟨fits, id⟩, filled⟩
  | .list item =>
      apply LawfulSource.yields_within
      apply yields_bind _ _ (law.yields_list n place room)
      rintro opened ⟨n, rfl, within⟩
      have each : ∀ place ∈ opened.items, Yields (item.read place) (item.Settled n) := by
        intro place member
        have both := item.yields_settled wellFormed flat law n place (within place member)
        exact yields_imp _ both fun a settled => settled.1
      apply yields_bind _ _ (yields_mapM _ _ each)
      intro items settled
      apply yields_then
      intro _
      refine yields_pure items ⟨⟨?_, fun legible b member => ?_⟩, fun _ => nofun⟩
      · rw [Layout.write, Value.depth_list_le_iff, List.forall_mem_map]
        exact fun b member => (settled b member).fits
      · exact (settled b member).strict (legible b member)
  | .table item =>
      apply LawfulSource.yields_within
      apply yields_bind _ _ (law.yields_mapping n place _ room)
      rintro opened ⟨n, rfl, within⟩
      have each : ∀ entry ∈ opened.entries,
          Yields (do return (← Source.text .text entry.1, ← item.read entry.2) : m _)
            fun entry => item.Settled n entry.2 := by
        intro entry member
        apply yields_then
        intro key
        apply yields_bind _ _
          (item.yields_settled wellFormed flat law n entry.2 (within entry member))
        intro a settled
        exact yields_pure _ settled.1
      apply yields_bind _ _ (yields_mapM _ _ each)
      intro entries settled
      apply yields_then
      intro _
      have stand := fun entry member => settled entry (Table.mem_ofList entries entry member)
      refine yields_pure _ ⟨⟨?_, fun legible entry member => ?_⟩, fun _ => nofun⟩
      · rw [Layout.write, Value.depth_object_le_iff, List.forall_mem_map]
        exact fun entry member => (stand entry member).fits
      · exact (stand entry member).strict (legible entry member)
  | .record record =>
      apply LawfulSource.yields_within
      apply yields_imp _ (record.yields_settled wellFormed flat law n place room)
      intro a settled
      exact ⟨settled, fun _ => nofun⟩
  | .union title tag variants packing =>
      apply yields_bind _ _ (LawfulSource.yields_within _ _ (law.yields_readTagged _ _ _ _ n room))
      -- The record is read from the buffer that was kept, so its room is what the buffer left.
      intro found within
      have settled := variants.yields_settled tag wellFormed flat n found.1 found.2 within
      apply yields_bind _ _ (yields_settle _ settled)
      intro a settled
      refine yields_pure _ ⟨?_, fun _ => nofun⟩
      rw [Layout.Settled, Layout.write]
      simp only [Layout.Legible, packing.unpack_pack]
      rw [Value.depth_tagged]
      exact ⟨settled.fits, settled.strict⟩
termination_by structural layout

theorem Record.yields_settled {α : Type} (record : Record α) (wellFormed : record.WellFormed)
    (flat : record.FlatDefaults) {κ : Type} {m : Type → Type} [Monad m] [LawfulMonad m]
    [Refusing m] [Source κ m] [LawfulSource κ m] (law : Bounded κ m) (n : Nat) (place : κ)
    (room : law.room n place) : Yields (record.read place) (record.Settled n) := by
  match record with
  | .closed title fields packing =>
      apply Record.yields_closed
      apply yields_imp _ (law.yields_record n place title room)
      rintro form ⟨n, rfl, within⟩
      refine ⟨Field.Settled n, law.room n, within, fields.take_settled wellFormed flat law n, ?_⟩
      intro row each
      have whole := fields.settled_of_each n row each
      rw [Record.Settled, Record.members, packing.unpack_pack]
      refine ⟨Nat.succ_le_succ whole.fits, ?_⟩
      simp only [Record.Legible, packing.unpack_pack]
      exact whole.strict
  | .extensible title fields packing =>
      apply Record.yields_extensible
      apply yields_imp _ (law.yields_mapping n place _ room)
      rintro opened ⟨n, rfl, within⟩
      refine ⟨Field.Settled n, law.room n, Buffer.Within n, within,
        fields.take_settled wellFormed flat law n,
        fun place stands => law.yields_buffer n place .anything stands, ?_⟩
      intro row collected each _ held
      apply yields_imp _ (yields_collectedDepth collected n held)
      intro table fits
      have whole := fields.settled_of_each n row each
      have inside := (Value.depthMembers_le_iff _ n).mp whole.fits
      rw [Record.Settled, Record.members, packing.unpack_pack]
      refine ⟨?_, ?_⟩
      · rw [Value.depth_object_le_iff, List.forall_mem_append, List.forall_mem_map]
        exact ⟨inside, fits⟩
      · simp only [Record.Legible, packing.unpack_pack]
        exact fun legible => ⟨whole.strict legible.1, legible.2⟩
termination_by structural record

theorem Field.yields_settled {τ : Type} (field : Field τ) (wellFormed : field.WellFormed)
    (flat : field.FlatDefaults) {κ : Type} {m : Type → Type} [Monad m] [LawfulMonad m]
    [Refusing m] [Source κ m] [LawfulSource κ m] (law : Bounded κ m) (n : Nat) (place : κ)
    (room : law.room n place) : Yields (field.read place) (field.Settled n) := by
  match field with
  | .required layout =>
      apply yields_imp _ (layout.yields_settled wellFormed flat law n place room)
      intro a settled
      exact ⟨settled.1.fits, settled.1.strict⟩
  | .optional layout =>
      apply yields_bind _ _ (law.yields_present n place room)
      intro found stands
      cases found with
      | none =>
          refine yields_pure _ ⟨Nat.zero_le n, fun _ => nofun⟩
      | some inside =>
          obtain ⟨room, filled⟩ := stands inside rfl
          apply yields_bind _ _ (layout.yields_settled wellFormed flat law n inside room)
          rintro a ⟨settled, notNull⟩
          apply yields_pure
          refine ⟨settled.fits, fun legible b same => ?_⟩
          cases same
          exact ⟨fun _ => notNull filled, settled.strict (legible a rfl).2⟩
  | .defaulted layout absent hidden =>
      apply yields_imp _ (layout.yields_settled wellFormed.1 flat.1 law n place room)
      intro a settled
      refine ⟨?_, settled.1.strict⟩
      rw [Field.write]
      split
      · exact Nat.zero_le n
      · exact settled.1.fits
termination_by structural field

theorem Fields.take_settled {ρ σ : Type} (fields : Fields ρ σ) (wellFormed : fields.WellFormed)
    (flat : fields.FlatDefaults) {κ : Type} {m : Type → Type} [Monad m] [LawfulMonad m]
    [Refusing m] [Source κ m] [LawfulSource κ m] (law : Bounded κ m) (n : Nat) :
    fields.Take (Field.Settled n) (law.room n) := by
  match fields with
  | .nil => trivial
  | .cons name field rest =>
      refine ⟨⟨field.settled_absent n wellFormed.2.1 flat.1, fun place room => ?_⟩, ?_⟩
      · exact field.yields_settled wellFormed.2.1 flat.1 law n place room
      · exact rest.take_settled wellFormed.2.2 flat.2 law n
termination_by structural fields

theorem Variants.yields_settled {σ : Type} (variants : Variants σ) (tag : String)
    (wellFormed : variants.WellFormed tag) (flat : variants.FlatDefaults) (n : Nat) (name : String)
    (content : Buffer) (within : content.Within n) :
    Yields (variants.read name content) (variants.Settled n tag) := by
  match variants with
  | .nil => exact yields_refuse _ _
  | .cons first record rest =>
      rw [Variants.read]
      split
      · apply yields_bind _ _
          (record.yields_settled wellFormed.2.2.1 flat.1 .buffered n content within)
        intro a settled
        exact yields_pure _ ⟨settled.fits, fun legible => ⟨settled.strict legible.1, legible.2⟩⟩
      · apply yields_bind _ _
          (rest.yields_settled tag wellFormed.2.2.2 flat.2 n name content within)
        intro a settled
        exact yields_pure _ ⟨settled.fits, settled.strict⟩
termination_by structural variants

end

end SwaggerLift
