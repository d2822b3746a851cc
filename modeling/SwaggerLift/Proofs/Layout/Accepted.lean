import SwaggerLift.Proofs.Layout.Placed
/-!
What a record takes from the members of an object, field by field. A field takes the value that
stands alone under its name, or what its absence means if there is none; two values are one too
many. An extensible record collects what it does not declare: each name once, with the value that
comes last.
-/

namespace SwaggerLift

namespace Value

def IsText (value : Value) : Prop := ∃ s, value = .text s

def IsFlag (value : Value) : Prop := ∃ b, value = .flag b

def NullOr (P : Value → Prop) (value : Value) : Prop := value = .null ∨ P value

def Is {α : Type} (of : α → Value) (value : Value) (a : α) : Prop := value = of a

def Once (P : Value → Prop) (values : List Value) : Prop := ∃ value, values = [value] ∧ P value

def AtMostOnce (P : Value → Prop) (values : List Value) : Prop := values = [] ∨ Once P values

/-- What the values tell of something optional: nothing if there is none or a null, else
    what the only one tells. -/
def Optionally {α : Type} (Tells : Value → α → Prop) (values : List Value) : Option α → Prop
  | none => AtMostOnce (· = .null) values
  | some a => Once (fun value => value ≠ .null ∧ Tells value a) values

theorem exists_optionally_iff {α : Type} (Tells : Value → α → Prop) (values : List Value) :
    (∃ a, Optionally Tells values a) ↔
      AtMostOnce (NullOr fun value => ∃ a, Tells value a) values := by
  rw [Option.exists]
  constructor
  · rintro ((none | ⟨value, alone, null⟩) | ⟨a, value, alone, _, tells⟩)
    · exact Or.inl none
    · exact Or.inr ⟨value, alone, Or.inl null⟩
    · exact Or.inr ⟨value, alone, Or.inr ⟨a, tells⟩⟩
  · rintro (none | ⟨value, alone, tells⟩)
    · exact Or.inl (Or.inl none)
    · by_cases null : value = .null
      · exact Or.inl (Or.inr ⟨value, alone, null⟩)
      · obtain ⟨a, tells⟩ := tells.resolve_left null
        exact Or.inr ⟨a, value, alone, null, tells⟩

theorem optionally_congr {α : Type} (Tells Says : Value → α → Prop) (values : List Value)
    (same : ∀ value ∈ values, ∀ a, Tells value a ↔ Says value a) (a : Option α) :
    Optionally Tells values a ↔ Optionally Says values a := by
  cases a with
  | none => rfl
  | some a =>
      refine exists_congr fun value => and_congr_right fun alone => and_congr_right fun _ =>
        same value ?_ a
      rw [alone]
      exact List.mem_singleton_self value

theorem under_untagged (tag name : String) (other : name ≠ tag) (members : List (String × Value)) :
    under name (untagged tag members) = under name members := by
  rw [under, untagged, List.filterMap_filter, under]
  congr 1
  funext member
  by_cases same : member.1 = name
  · simp [same, other]
  · simp [same]

end Value

structure Table.Collects (t : Table Verbatim) (members : List (String × Value)) : Prop where
  keys : t.keys = (members.map Prod.fst).eraseDups
  values : ∀ name, t.find? name = (Value.under name members).getLast?.map Verbatim.ofValue

theorem Table.find?_insertAll_ofMembers (t : Table Verbatim) (members : List (String × Value))
    (name : String) :
    (t.insertAll (Verbatim.ofMembers members)).find? name =
      ((Value.under name members).getLast?.map Verbatim.ofValue).or (t.find? name) := by
  induction members generalizing t with
  | nil => rfl
  | cons member rest ih =>
      rcases member with ⟨other, value⟩
      have step : t.insertAll (Verbatim.ofMembers ((other, value) :: rest)) =
          (t.insert other (.ofValue value)).insertAll (Verbatim.ofMembers rest) := rfl
      rw [step, ih, find?_insert]
      by_cases same : name = other
      · subst same
        rw [Value.under_cons_same, List.getLast?_cons, if_pos rfl]
        cases (Value.under name rest).getLast? <;> rfl
      · rw [Value.under_cons_other name other (Ne.symm same), if_neg same]

theorem Table.collects_iff (t : Table Verbatim) (members : List (String × Value)) :
    t.Collects members ↔ t = .ofList (Verbatim.ofMembers members) := by
  have names : (Verbatim.ofMembers members).map Prod.fst = members.map Prod.fst := by
    rw [Verbatim.ofMembers_eq, List.map_map]
    rfl
  have keys :
      (Table.ofList (Verbatim.ofMembers members)).keys = (members.map Prod.fst).eraseDups := by
    rw [keys_ofList, names]
  have values (name : String) : (Table.ofList (Verbatim.ofMembers members)).find? name =
      (Value.under name members).getLast?.map Verbatim.ofValue := by
    rw [ofList, find?_insertAll_ofMembers, find?_empty, Option.or_none]
  constructor
  · intro collects
    exact eq_of_find? (collects.keys.trans keys.symm) fun name =>
      (collects.values name).trans (values name).symm
  · rintro rfl
    exact ⟨keys, values⟩

section Fields

variable {κ ε : Type} [Refusing (Except ε)] [Source κ (Except ε)] (place : Value → κ)

def Field.Accepts {τ : Type} (field : Field τ) (values : List Value) (a : τ) : Prop :=
  (values = [] ∧ field.absent? = some a) ∨
    Value.Once (fun value => field.read (place value) = .ok a) values

def Fields.Accept {ρ σ : Type} (fields : Fields ρ σ) (members : List (String × Value))
    (row : ρ) : Prop :=
  match fields, row with
  | .nil, _ => True
  | .cons name field rest, (a, row) =>
      field.Accepts place (Value.under name members) a ∧ rest.Accept members row
termination_by structural fields

theorem Field.accepts_iff {τ : Type} (field : Field τ) (values : List Value) (a : τ) :
    (∃ slot, Filled (fun value => field.read (place value)) values slot ∧
      slot.or field.absent? = some a) ↔
      field.Accepts place values a := by
  match values with
  | [] => simp [Filled, Accepts, Value.Once]
  | [value] => simp [Filled, Accepts, Value.Once]
  | _ :: _ :: _ => simp [Filled, Accepts, Value.Once]

theorem Field.accepts_required_iff {α : Type} (layout : Layout α) (values : List Value) (a : α) :
    (Field.required layout).Accepts place values a ↔
      Value.Once (fun value => layout.read (place value) = .ok a) values := by
  simp [Accepts, absent?, Field.read]

theorem Field.accepts_defaulted_iff {α : Type} (layout : Layout α) (absent : α) (hidden : α → Bool)
    (values : List Value) (a : α) :
    (Field.defaulted layout absent hidden).Accepts place values a ↔
      (values = [] ∧ a = absent) ∨
        Value.Once (fun value => layout.read (place value) = .ok a) values := by
  simp [Accepts, absent?, Field.read, eq_comm (a := absent)]

variable [LawfulRefusing (Except ε)]

theorem Fields.complete_cons_iff {τ ρ σ : Type} (name : String) (field : Field τ)
    (rest : Fields ρ σ) (slot : Option τ) (slots : σ) (a : τ) (row : ρ) :
    (cons name field rest).complete (slot, slots) = (.ok (a, row) : Except ε (τ × ρ)) ↔
      slot.or field.absent? = some a ∧ rest.complete slots = (.ok row : Except ε ρ) := by
  rw [complete]
  cases slot.or field.absent? with
  | none => simp [LawfulRefusing.refuse_bind, refuse_ne_ok]
  | some b =>
      simp only [pure_bind, bind_eq_ok_iff, pure_eq_ok_iff, Prod.mk.injEq, Option.some.injEq]
      constructor
      · rintro ⟨_, complete, rfl, rfl⟩
        exact ⟨rfl, complete⟩
      · rintro ⟨rfl, complete⟩
        exact ⟨row, complete, rfl, rfl⟩

theorem Fields.accept_iff {ρ σ : Type} (fields : Fields ρ σ)
    (members : List (String × Value)) (row : ρ) :
    (∃ slots, fields.Filled place members slots ∧ fields.complete slots = (.ok row : Except ε ρ)) ↔
      fields.Accept place members row := by
  match fields, row with
  | .nil, () => exact iff_of_true ⟨(), trivial, rfl⟩ trivial
  | .cons name field rest, (a, row) =>
      rw [Accept, ← field.accepts_iff, ← rest.accept_iff members row]
      constructor
      · rintro ⟨⟨slot, slots⟩, ⟨here, later⟩, complete⟩
        obtain ⟨taken, complete⟩ := (complete_cons_iff ..).mp complete
        exact ⟨⟨slot, here, taken⟩, slots, later, complete⟩
      · rintro ⟨⟨slot, here, taken⟩, slots, later, complete⟩
        exact ⟨(slot, slots), ⟨here, later⟩, (complete_cons_iff ..).mpr ⟨taken, complete⟩⟩
termination_by structural fields

end Fields

namespace Placed

variable {κ ε : Type} [Refusing (Except ε)] [Source κ (Except ε)] (law : Placed κ ε) (room : Nat)

theorem accepts_optional_iff {α : Type} (layout : Layout α) (values : List Value) (a : Option α) :
    (Field.optional layout).Accepts (law.place room) values a ↔
      Value.Optionally (fun value b => layout.read (law.place room value) = .ok b) values a := by
  simp only [Field.Accepts, Field.absent?, Option.some.injEq, law.read_optional_iff]
  cases a with
  | none => simp [Value.Optionally, Value.AtMostOnce, Value.Once]
  | some b => simp [Value.Optionally, Value.Once]

variable [LawfulRefusing (Except ε)]

theorem read_closed_iff_accept {ρ σ α : Type} (title : String) (fields : Fields ρ σ)
    (packing : Packing ρ α) (wellFormed : fields.WellFormed)
    (members : List (String × Value)) (a : α) :
    (Record.closed title fields packing).read (law.place (room + 1) (.object members)) = .ok a ↔
      fields.Accept (law.place room) members (packing.unpack a) := by
  rw [law.read_closed_iff room title fields packing wellFormed, ← fields.accept_iff]
  constructor
  · rintro ⟨slots, row, filled, complete, rfl⟩
    exact ⟨slots, filled, by rw [packing.unpack_pack, complete]⟩
  · rintro ⟨slots, filled, complete⟩
    exact ⟨slots, _, filled, complete, (packing.pack_unpack a).symm⟩

theorem read_extensible_iff_accept {ρ σ α : Type} (title : String) (fields : Fields ρ σ)
    (packing : Packing (ρ × Table Verbatim) α) (wellFormed : fields.WellFormed)
    (members : List (String × Value)) (fits : Value.depthMembers members ≤ room) (a : α) :
    (Record.extensible title fields packing).read (law.place (room + 1) (.object members)) = .ok a ↔
      fields.Accept (law.place room) members (packing.unpack a).1 ∧
        (packing.unpack a).2.Collects (fields.undeclared members) := by
  rw [law.read_extensible_iff room title fields packing wellFormed members fits,
    ← fields.accept_iff, Table.collects_iff]
  constructor
  · rintro ⟨slots, row, filled, complete, rfl⟩
    rw [packing.unpack_pack]
    exact ⟨⟨slots, filled, complete⟩, rfl⟩
  · rintro ⟨⟨slots, filled, complete⟩, collected⟩
    refine ⟨slots, _, filled, complete, ?_⟩
    rw [← collected, packing.pack_unpack]

theorem read_union_iff_variant {σ α : Type} (title tag : String) (variants : Variants σ)
    (packing : Packing σ α) (members : List (String × Value))
    (fits : Value.depthMembers members ≤ room) (a : α) :
    (Layout.union title tag variants packing).read (law.place (room + 1) (.object members)) =
      .ok a ↔
      ∃ name ∈ variants.names, Value.under tag members = [.text name] ∧
        variants.read name (Buffer.ofValue (.object (Value.untagged tag members))) =
          (.ok (packing.unpack a) : Except Mismatch σ) := by
  rw [law.read_union_iff room title tag variants packing members fits]
  constructor
  · rintro ⟨name, content, tagged, known, read, rfl⟩
    exact ⟨name, known, tagged, by rw [packing.unpack_pack, read]⟩
  · rintro ⟨name, known, tagged, read⟩
    exact ⟨name, _, tagged, known, read, (packing.pack_unpack a).symm⟩

end Placed

theorem Variants.read_cons_iff {α σ : Type} (first name : String) (record : Record α)
    (rest : Variants σ) (b : Buffer) (content : α ⊕ σ) :
    (cons first record rest).read name b = (.ok content : Except Mismatch (α ⊕ σ)) ↔
      (first = name ∧ ∃ a, record.read b = .ok a ∧ content = .inl a) ∨
        (first ≠ name ∧ ∃ a, rest.read name b = .ok a ∧ content = .inr a) := by
  rw [Variants.read]
  split
  · next same => simp only [bind_eq_ok_iff, pure_eq_ok_iff, same, ne_eq, not_true_eq_false,
      true_and, false_and, or_false]
  · next other => simp only [bind_eq_ok_iff, pure_eq_ok_iff, other, ne_eq, not_false_eq_true,
      true_and, false_and, false_or]

namespace Buffer

theorem accepts_optional_iff {α : Type} (layout : Layout α) (Tells : Value → α → Prop)
    (values : List Value)
    (told : ∀ value ∈ values, ∀ a, layout.read (ofValue value) = .ok a ↔ Tells value a)
    (a : Option α) :
    (Field.optional layout).Accepts ofValue values a ↔ Value.Optionally Tells values a :=
  (Placed.buffered.accepts_optional_iff 0 layout values a).trans
    (Value.optionally_congr _ Tells values told a)

theorem read_text_iff (value : Value) (s : String) : Layout.text.read (ofValue value) = .ok s ↔
    value = .text s :=
  Placed.buffered.text_iff 0 value .text s

theorem read_flag_iff (value : Value) (b : Bool) : Layout.flag.read (ofValue value) = .ok b ↔
    value = .flag b := by
  cases value with
  | number n => cases n <;> simp [Layout.read, Source.flag, ofValue, Number.toBuffer]
  | _ => simp [Layout.read, Source.flag, ofValue]

theorem read_verbatim_iff (value : Value) (a : Verbatim) :
    Layout.verbatim.read (ofValue value) = .ok a ↔ a = .ofValue value := by
  rw [Layout.read, show Source.verbatim (ofValue value) = .ok _ from readVerbatim_ofValue value,
    Except.ok.injEq, eq_comm]

theorem read_record_iff {ρ σ α : Type} (title : String) (fields : Fields ρ σ)
    (packing : Packing ρ α) (wellFormed : fields.WellFormed) (value : Value)
    (unlisted : ∀ items, value ≠ .list items) (a : α) :
    (Layout.record (.closed title fields packing)).read (ofValue value) = .ok a ↔
      ∃ members, value = .object members ∧ fields.Accept ofValue members (packing.unpack a) := by
  cases value with
  | object members =>
      simp only [Value.object.injEq, exists_eq_left']
      exact Placed.buffered.read_closed_iff_accept 0 title fields packing wellFormed members a
  | list items => exact absurd rfl (unlisted items)
  | number n =>
      cases n <;> simp [Layout.read, Record.read, Source.within, Source.record, readForm, ofValue,
        Number.toBuffer, bind_eq_ok_iff]
  | _ =>
      simp [Layout.read, Record.read, Source.within, Source.record, readForm, ofValue,
        bind_eq_ok_iff]

end Buffer

end SwaggerLift
