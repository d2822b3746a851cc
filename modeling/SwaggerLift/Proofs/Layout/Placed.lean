import SwaggerLift.Proofs.Layout.Buffer
import SwaggerLift.Proofs.Layout.Filled
import SwaggerLift.Proofs.Value
/-!
Sources whose places are those of document values. What is read at the place of a value is told by
the value alone: item by item, member by member, and for a record by what stands under each declared
name.
-/

namespace SwaggerLift

def Entries.ofMembers {κ : Type} {m : Type → Type} [Monad m] (name : String → κ) (place : Value → κ)
    (members : List (String × Value)) : Entries κ m :=
  ⟨members.map fun member => (name member.1, place member.2), pure ()⟩

@[simp] theorem Entries.close_ofMembers {κ : Type} {m : Type → Type} [Monad m] (name : String → κ)
    (place : Value → κ) (members : List (String × Value)) :
    (Entries.ofMembers name place members : Entries κ m).close = pure () := rfl

/-- The laws of a source in which values stand, with room for so many levels. -/
structure Placed (κ ε : Type) [Refusing (Except ε)] [Source κ (Except ε)] where
  place : Nat → Value → κ
  name : Nat → String → κ
  within_eq : ∀ {α : Type} (p : κ) (x : Except ε α), Source.within p x = x
  text_iff : ∀ room value wanted s, Source.text wanted (place room value) = .ok s ↔ value = .text s
  skip_eq : ∀ room value, Source.skip (place room value) = .ok ()
  buffer_eq : ∀ room value wanted, value.depth ≤ room →
    Source.buffer wanted (place room value) = .ok (Buffer.ofValue value)
  present_null : ∀ room, Source.present (place room .null) = .ok none
  present_eq : ∀ room value, value ≠ .null →
    Source.present (place room value) = .ok (some (place room value))
  list_eq : ∀ room items, ∃ close, Source.list (place (room + 1) (.list items)) =
    .ok ⟨items.map (place room), close⟩ ∧ close items.length = .ok ()
  mapping_eq : ∀ room members wanted, Source.mapping wanted (place (room + 1) (.object members)) =
    .ok (.ofMembers (name room) (place room) members)
  record_eq : ∀ room members title, Source.record title (place (room + 1) (.object members)) =
    .ok (.named (.ofMembers (name room) (place room) members))
  union_eq : ∀ room members title, Source.union title (place (room + 1) (.object members)) =
    .ok (.named (.ofMembers (name room) (place room) members))
  key_label : ∀ room s, Source.label (name room s) = .ok (.name s)
  key_text : ∀ room s, Source.text .text (name room s) = .ok s
  key_buffer : ∀ room s wanted, Source.buffer wanted (name room s) = .ok (.text s)

def Fields.undeclared {ρ σ : Type} (fields : Fields ρ σ) (members : List (String × Value)) :
    List (String × Value) :=
  members.filter fun member => member.1 ∉ fields.names

def Value.untagged (tag : String) (members : List (String × Value)) : List (String × Value) :=
  members.filter fun member => member.1 ≠ tag

theorem settle_eq_ok_iff {ε α : Type} [Refusing (Except ε)] [LawfulRefusing (Except ε)]
    (x : Except Mismatch α) (a : α) : (settle x : Except ε α) = .ok a ↔ x = .ok a := by
  cases x with
  | error mismatch => simp [settle, refuse_ne_ok]
  | ok b => simp [settle, pure, Except.pure]

def setAside {ε σ : Type} (aside : String × Value → Bool) (step : σ → String × Value → Except ε σ)
    (state : σ × List (Buffer × Buffer)) (member : String × Value) :
    Except ε (σ × List (Buffer × Buffer)) := do
  let next ← step state.1 member
  return (next, if aside member then state.2 ++ [(.text member.1, .ofValue member.2)] else state.2)

theorem foldlM_setAside_iff {ε σ : Type} (aside : String × Value → Bool)
    (step : σ → String × Value → Except ε σ) (members : List (String × Value)) (start found : σ)
    (kept collected : List (Buffer × Buffer)) :
    members.foldlM (setAside aside step) (start, kept) = .ok (found, collected) ↔
      members.foldlM step start = .ok found ∧
        collected = kept ++ Buffer.ofMembers (members.filter aside) := by
  induction members generalizing start kept with
  | nil => simp [Buffer.ofMembers, pure, Except.pure, eq_comm]
  | cons member rest ih =>
      have behind : Buffer.ofMembers ((member :: rest).filter aside) =
          (if aside member then [(.text member.1, .ofValue member.2)] else []) ++
            Buffer.ofMembers (rest.filter aside) := by
        cases kind : aside member <;> simp [kind, Buffer.ofMembers]
      have next : (if aside member then kept ++ [(.text member.1, .ofValue member.2)] else kept) =
          kept ++ if aside member then [(.text member.1, .ofValue member.2)] else [] := by
        cases aside member <;> simp
      simp only [List.foldlM_cons, setAside, bind_eq_ok_iff, pure_eq_ok_iff, next, behind]
      constructor
      · rintro ⟨_, ⟨middle, first, rfl⟩, later⟩
        obtain ⟨done, same⟩ := (ih middle _).mp later
        exact ⟨⟨middle, first, done⟩, by rw [same, List.append_assoc]⟩
      · rintro ⟨⟨middle, first, done⟩, same⟩
        exact ⟨_, ⟨middle, first, rfl⟩, (ih middle _).mpr ⟨done, by rw [same, List.append_assoc]⟩⟩

namespace Placed

variable {κ ε : Type} [Refusing (Except ε)] [Source κ (Except ε)] (law : Placed κ ε) (room : Nat)

theorem read_list_iff {α : Type} (item : Layout α) (items : List Value) (results : List α) :
    (Layout.list item).read (law.place (room + 1) (.list items)) = .ok results ↔
      List.Forall₂ (fun value a => item.read (law.place room value) = .ok a) items results := by
  obtain ⟨close, opened, closes⟩ := law.list_eq room items
  have each (results : List α) :
      (items.map (law.place room)).mapM (fun place => item.read place) = .ok results ↔
      List.Forall₂ (fun value a => item.read (law.place room value) = .ok a) items results := by
    rw [mapM_eq_ok_iff, List.forall₂_map_left_iff]
  rw [Layout.read, law.within_eq, opened]
  simp only [bind_eq_ok_iff, pure_eq_ok_iff, Except.ok.injEq, exists_eq_left', each]
  constructor
  · rintro ⟨_, beside, _, _, rfl⟩
    exact beside
  · intro beside
    exact ⟨results, beside, (), beside.length_eq ▸ closes, rfl⟩

theorem read_table_iff {α : Type} (item : Layout α) (members : List (String × Value))
    (table : Table α) :
    (Layout.table item).read (law.place (room + 1) (.object members)) = .ok table ↔
      ∃ entries, List.Forall₂ (fun member entry => entry.1 = member.1 ∧
        item.read (law.place room member.2) = .ok entry.2) members entries ∧
          table = .ofList entries := by
  have entry_iff (member : String × Value) (entry : String × α) :
      (∃ name, Source.text .text (law.name room member.1) = .ok name ∧
        ∃ a, item.read (law.place room member.2) = .ok a ∧ entry = (name, a)) ↔
      entry.1 = member.1 ∧ item.read (law.place room member.2) = .ok entry.2 := by
    rcases entry with ⟨name, a⟩
    simp only [law.key_text, Except.ok.injEq, exists_eq_left', Prod.mk.injEq]
    constructor
    · rintro ⟨_, done, rfl, rfl⟩
      exact ⟨rfl, done⟩
    · rintro ⟨rfl, done⟩
      exact ⟨a, done, rfl, rfl⟩
  rw [Layout.read, law.within_eq, law.mapping_eq]
  simp only [bind_eq_ok_iff, pure_eq_ok_iff, Except.ok.injEq, exists_eq_left', Entries.ofMembers,
    mapM_eq_ok_iff, List.forall₂_map_left_iff, entry_iff, exists_const, true_and]

theorem read_optional_iff {α : Type} (layout : Layout α) (value : Value) (a : Option α) :
    (Field.optional layout).read (law.place room value) = .ok a ↔
      (value = .null ∧ a = none) ∨
        (value ≠ .null ∧ ∃ b, layout.read (law.place room value) = .ok b ∧ a = some b) := by
  rw [Field.read]
  by_cases null : value = .null
  · subst null
    rw [law.present_null, ok_bind]
    simp [pure, Except.pure, eq_comm]
  · rw [law.present_eq room value null, ok_bind]
    simp only [bind_eq_ok_iff, pure_eq_ok_iff, null, false_and, false_or, ne_eq,
      not_false_eq_true, true_and]

section Records

theorem foldlM_ofMembers {σ : Type} (step : σ → κ × κ → Except ε σ)
    (take : σ → String × Value → Except ε σ) (start : σ) (members : List (String × Value))
    (each : ∀ state, ∀ member ∈ members,
      step state (law.name room member.1, law.place room member.2) = take state member) :
    (Entries.ofMembers (m := Except ε) (law.name room) (law.place room) members).entries.foldlM
      step start = members.foldlM take start := by
  rw [Entries.ofMembers, List.foldlM_map]
  induction members generalizing start with
  | nil => rfl
  | cons member rest ih =>
      rw [List.foldlM_cons, List.foldlM_cons, each start member List.mem_cons_self]
      exact bind_congr fun state => ih state fun state member later =>
        each state member (List.mem_cons_of_mem _ later)

variable [LawfulRefusing (Except ε)]

theorem read_closed_iff {ρ σ α : Type} (title : String) (fields : Fields ρ σ)
    (packing : Packing ρ α) (wellFormed : fields.WellFormed)
    (members : List (String × Value)) (a : α) :
    (Record.closed title fields packing).read (law.place (room + 1) (.object members)) = .ok a ↔
      ∃ slots row, fields.Filled (law.place room) members slots ∧
        fields.complete slots = (.ok row : Except ε ρ) ∧ a = packing.pack row := by
  rw [Record.read, law.record_eq, bind_eq_ok_iff]
  simp only [Except.ok.injEq, exists_eq_left']
  rw [law.foldlM_ofMembers room _ (fields.enter (law.place room) 0) fields.blank members]
  · simp only [bind_eq_ok_iff, pure_eq_ok_iff, Fields.foldlM_enter_iff _ fields wellFormed,
      Entries.close_ofMembers, exists_const, exists_and_left, true_and]
  · intro row member _
    rw [law.key_label, Fields.enter]
    dsimp only
    rw [ok_bind]
    cases fields.store 0 (.name member.1) (law.place room member.2) row with
    | some stored => rfl
    | none =>
        simp only [law.skip_eq, ok_bind]
        rfl

theorem read_extensible_iff {ρ σ α : Type} (title : String) (fields : Fields ρ σ)
    (packing : Packing (ρ × Table Verbatim) α) (wellFormed : fields.WellFormed)
    (members : List (String × Value)) (fits : Value.depthMembers members ≤ room) (a : α) :
    (Record.extensible title fields packing).read (law.place (room + 1) (.object members)) = .ok a ↔
      ∃ slots row, fields.Filled (law.place room) members slots ∧
        fields.complete slots = (.ok row : Except ε ρ) ∧
        a = packing.pack (row, .ofList (Verbatim.ofMembers (fields.undeclared members))) := by
  rw [Record.read, law.mapping_eq, bind_eq_ok_iff]
  simp only [Except.ok.injEq, exists_eq_left']
  rw [law.foldlM_ofMembers room _
    (setAside (fun member => member.1 ∉ fields.names) (fields.enter (law.place room) 0))
      (fields.blank, []) members]
  · simp only [bind_eq_ok_iff, pure_eq_ok_iff, Prod.exists, foldlM_setAside_iff,
      Fields.foldlM_enter_iff _ fields wellFormed, Entries.close_ofMembers]
    constructor
    · rintro ⟨slots, _, ⟨filled, rfl⟩, _, _, row, complete, table, settled, rfl⟩
      rw [List.nil_append, collectedTable_eq] at settled
      cases settled
      exact ⟨slots, row, filled, complete, rfl⟩
    · rintro ⟨slots, row, filled, complete, rfl⟩
      refine ⟨slots, _, ⟨filled, rfl⟩, (), trivial, row, complete, _, ?_, rfl⟩
      rw [List.nil_append, collectedTable_eq]
      rfl
  -- One turn of the loop: the member is stored if a field declares it, and set aside if none does.
  · rintro ⟨row, collected⟩ member held
    rw [law.key_label, setAside, Fields.enter]
    dsimp only
    rw [ok_bind]
    dsimp only
    cases taken : fields.store 0 (.name member.1) (law.place room member.2) row with
    | some stored =>
        have declared : member.1 ∈ fields.names := by
          by_contra missing
          rw [(fields.store_eq_none_iff 0 member.1 _ row).mpr missing] at taken
          cases taken
        simp [declared]
    | none =>
        have missing := (fields.store_eq_none_iff 0 member.1 (law.place room member.2) row).mp taken
        have deep := (Value.depthMembers_le_iff members room).mp fits member held
        simp only [Option.getD_none, law.buffer_eq _ _ _ deep, ok_bind, missing,
          not_false_eq_true, decide_true, if_true]

/-- The tag stands there once; beside it everything is put aside. -/
theorem readTagged_iff {τ : Type} (tag title : String) (readTag : κ → Except ε τ)
    (members : List (String × Value)) (fits : Value.depthMembers members ≤ room) (found : τ)
    (content : Buffer) :
    readTagged tag readTag title (law.place (room + 1) (.object members)) = .ok (found, content) ↔
      (∃ value, Value.under tag members = [value] ∧ readTag (law.place room value) = .ok found) ∧
        content = .ofValue (.object (Value.untagged tag members)) := by
  rw [readTagged, law.union_eq, bind_eq_ok_iff]
  simp only [Except.ok.injEq, exists_eq_left']
  rw [law.foldlM_ofMembers room _ (setAside (fun member => member.1 ≠ tag)
    (fillSlot tag fun value => readTag (law.place room value))) (none, []) members]
  · simp only [bind_eq_ok_iff, Prod.exists, foldlM_setAside_iff, foldlM_fillSlot_iff,
      Entries.close_ofMembers]
    constructor
    · rintro ⟨slot, kept, ⟨filled, rfl⟩, _, _, last⟩
      cases slot with
      | none => exact absurd last (refuse_ne_ok _ _)
      | some other =>
          cases last
          exact ⟨(filled_some_iff _ _ _).mp filled, rfl⟩
    · rintro ⟨found, rfl⟩
      exact ⟨_, _, ⟨(filled_some_iff _ _ _).mpr found, rfl⟩, (), rfl, rfl⟩
  · rintro ⟨slot, kept⟩ member held
    simp only [law.key_buffer, setAside, ok_bind, fillSlot]
    by_cases same : member.1 = tag
    · cases slot with
      | none => simp [same]
      | some _ => simp only [if_pos same, LawfulRefusing.refuse_bind]
    · have deep := (Value.depthMembers_le_iff members room).mp fits member held
      simp [law.buffer_eq _ _ _ deep, same]

theorem read_union_iff {σ α : Type} (title tag : String) (variants : Variants σ)
    (packing : Packing σ α) (members : List (String × Value))
    (fits : Value.depthMembers members ≤ room) (a : α) :
    (Layout.union title tag variants packing).read (law.place (room + 1) (.object members)) =
      .ok a ↔
      ∃ name content, Value.under tag members = [.text name] ∧ name ∈ variants.names ∧
        variants.read name (Buffer.ofValue (.object (Value.untagged tag members))) =
          (.ok content : Except Mismatch σ) ∧ a = packing.pack content := by
  have tags (value : Value) (name : String) :
      (Source.within (law.place room value) do
        let name ← Source.text .variantName (law.place room value)
        if name ∈ variants.names then return name
          else refuse (.unknownVariant name variants.names) :
        Except ε String) = .ok name ↔ value = .text name ∧ name ∈ variants.names := by
    simp only [law.within_eq, bind_eq_ok_iff, law.text_iff]
    constructor
    · rintro ⟨other, rfl, chosen⟩
      split at chosen
      · cases chosen
        exact ⟨rfl, ‹_›⟩
      · exact absurd chosen (refuse_ne_ok _ _)
    · rintro ⟨rfl, known⟩
      exact ⟨name, rfl, if_pos known⟩
  rw [Layout.read, bind_eq_ok_iff]
  simp only [law.within_eq (law.place (room + 1) _), Prod.exists,
    law.readTagged_iff _ _ _ _ _ fits, tags, bind_eq_ok_iff, pure_eq_ok_iff, settle_eq_ok_iff]
  constructor
  · rintro ⟨name, _, ⟨⟨_, under, rfl, known⟩, rfl⟩, content, read, rfl⟩
    exact ⟨name, content, under, known, read, rfl⟩
  · rintro ⟨name, content, under, known, read, rfl⟩
    exact ⟨name, _, ⟨⟨_, under, rfl, known⟩, rfl⟩, content, read, rfl⟩

end Records

def buffered : Placed Buffer Mismatch where
  place _ := Buffer.ofValue
  name _ := Buffer.text
  within_eq _ _ := rfl
  text_iff room value wanted s := by
    cases value with
    | text t => simp [Source.text, Buffer.ofValue, Buffer.readText]
    | number n => cases n <;> simp [Source.text, Buffer.ofValue, Number.toBuffer, Buffer.readText]
    | _ => simp [Source.text, Buffer.ofValue, Buffer.readText]
  skip_eq _ _ := rfl
  buffer_eq _ _ _ _ := rfl
  present_null _ := rfl
  present_eq room value filled := by
    cases value with
    | null => exact absurd rfl filled
    | number n => cases n <;> rfl
    | _ => rfl
  list_eq room items := by
    refine ⟨(Buffer.opened (Buffer.ofItems items)).close, ?_, ?_⟩
    · rw [← Buffer.ofItems_eq]
      rfl
    · simp [Buffer.opened, Buffer.ofItems_eq]
  mapping_eq room members wanted := by
    rw [Entries.ofMembers, ← Buffer.ofMembers_eq]
    rfl
  record_eq room members title := by
    rw [Entries.ofMembers, ← Buffer.ofMembers_eq]
    rfl
  union_eq room members title := by
    rw [Entries.ofMembers, ← Buffer.ofMembers_eq]
    rfl
  key_label _ _ := rfl
  key_text _ _ := rfl
  key_buffer _ _ _ := rfl

end Placed

end SwaggerLift
