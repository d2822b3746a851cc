import SwaggerLift.Proofs.Follows
import SwaggerLift.Proofs.Layout.Yields
/-!
Two sources that hold the same document value. If the second one answers whatever the first one
answers, then what is read from the first one is read from the second one as well. Nothing is asked
where the first one refuses, so the second one may accept more. Only a record that is written as the
list of its fields has to be left out, since not every source takes it for a record.
-/

namespace SwaggerLift

def Value.items : Value → List Value
  | .list items => items
  | _ => []

def Value.members : Value → List (String × Value)
  | .object members => members
  | _ => []

mutual

/-- Whether no record that is read from the value itself is written as a list in it, and no name as
    an object. What a union holds is not looked at, since it is read from a buffer. -/
def Layout.Labelled {α : Type} (layout : Layout α) (value : Value) : Prop :=
  match layout with
  | .text | .flag | .verbatim | .union _ _ _ _ => True
  | .named _ => ∀ members, value ≠ .object members
  | .list item => ∀ inside ∈ value.items, item.Labelled inside
  | .table item => ∀ member ∈ value.members, item.Labelled member.2
  | .record record => record.Labelled value
termination_by structural layout

def Record.Labelled {α : Type} (record : Record α) (value : Value) : Prop :=
  match record with
  | .closed _ fields _ =>
      (∀ items, value ≠ .list items) ∧ ∀ member ∈ value.members, fields.Labelled member.1 member.2
  | .extensible _ fields _ => ∀ member ∈ value.members, fields.Labelled member.1 member.2
termination_by structural record

def Field.Labelled {τ : Type} (field : Field τ) (value : Value) : Prop :=
  match field with
  | .required layout => layout.Labelled value
  | .optional layout => layout.Labelled value
  | .defaulted layout _ _ => layout.Labelled value
termination_by structural field

def Fields.Labelled {ρ σ : Type} (fields : Fields ρ σ) (name : String) (value : Value) : Prop :=
  match fields with
  | .nil => True
  | .cons declared field rest =>
      (name = declared → field.Labelled value) ∧ (name ≠ declared → rest.Labelled name value)
termination_by structural fields

end

section

variable {κ κ' ε : Type} {m : Type → Type} [Monad m]

structure Items.Alike (alike : Value → κ → κ' → Prop) (items : List Value)
    (opened : Items κ (Except ε)) (other : Items κ' m) : Prop where
  beside : List.Forall₂ (fun p q => ∃ item ∈ items, alike item p q) opened.items other.items
  close : ∀ taken, Follows Eq (opened.close taken) (other.close taken)

structure Entries.Alike (alike : Value → κ → κ' → Prop) (names : String → κ → κ' → Prop)
    (members : List (String × Value)) (opened : Entries κ (Except ε))
    (other : Entries κ' m) : Prop where
  beside :
    List.Forall₂ (fun p q => ∃ member ∈ members, names member.1 p.1 q.1 ∧ alike member.2 p.2 q.2)
    opened.entries other.entries
  close : Follows Eq opened.close other.close

inductive Form.Alike (alike : Value → κ → κ' → Prop) (names : String → κ → κ' → Prop) :
    Value → Form κ (Except ε) → Form κ' m → Prop
  | named {members : List (String × Value)} {opened : Entries κ (Except ε)} {other : Entries κ' m}
      (beside : opened.Alike alike names members other) :
      Alike alike names (.object members) (.named opened) (.named other)
  | positional {items : List Value} {opened : Items κ (Except ε)} {other : Items κ' m}
      (beside : opened.Alike alike items other) :
      Alike alike names (.list items) (.positional opened) (.positional other)

end

/-- The laws of two sources of which the second one follows the first one, at places
    where one value stands. -/
structure Agreement (κ κ' ε : Type) (m : Type → Type) [Refusing (Except ε)]
    [Source κ (Except ε)] [Monad m] [Refusing m] [Source κ' m] where
  alike : Value → κ → κ' → Prop
  names : String → κ → κ' → Prop
  within : ∀ {α : Type} (p : κ) (q : κ') (x : Except ε α) (y : m α), Follows Eq x y →
    Follows Eq (Source.within p x) (Source.within q y)
  text : ∀ value p q wanted, alike value p q →
    Follows Eq (Source.text wanted p) (Source.text wanted q)
  flag : ∀ value p q, alike value p q → Follows Eq (Source.flag p) (Source.flag q)
  variant : ∀ {α : Type} value p q (pick : String → Except ε α) (choose : String → m α),
    alike value p q →
    (∀ members, value ≠ .object members) → (∀ name, Follows Eq (pick name) (choose name)) →
    Follows Eq (Source.variant pick p) (Source.variant choose q)
  verbatim : ∀ value p q, alike value p q → Follows Eq (Source.verbatim p) (Source.verbatim q)
  buffer : ∀ value p q wanted, alike value p q →
    Follows Eq (Source.buffer wanted p) (Source.buffer wanted q)
  skip : ∀ value p q, alike value p q → Follows Eq (Source.skip p) (Source.skip q)
  present : ∀ value p q, alike value p q →
    Follows (Option.Rel (alike value)) (Source.present p) (Source.present q)
  list : ∀ value p q, alike value p q → Follows
    (fun opened other => ∃ items, value = .list items ∧ opened.Alike alike items other)
      (Source.list p) (Source.list q)
  mapping : ∀ value p q wanted, alike value p q → Follows
    (fun opened other => ∃ members, value = .object members ∧
      opened.Alike alike names members other)
    (Source.mapping wanted p) (Source.mapping wanted q)
  record : ∀ value p q title, alike value p q → (∀ items, value ≠ .list items) →
    Follows (Form.Alike alike names value) (Source.record title p) (Source.record title q)
  union : ∀ value p q title, alike value p q →
    Follows (Form.Alike alike names value) (Source.union title p) (Source.union title q)
  key_label : ∀ name p q, names name p q →
    Source.label p = (pure (.name name) : Except ε _) ∧ Source.label q = pure (.name name)
  key_text : ∀ name p q, names name p q →
    Source.text .text p = (pure name : Except ε _) ∧ Source.text .text q = pure name
  key_buffer : ∀ name p q wanted, names name p q →
    Source.buffer wanted p = (pure (.text name) : Except ε _) ∧
      Source.buffer wanted q = pure (.text name)

section

variable {ε : Type} {m : Type → Type} [Refusing (Except ε)] [LawfulRefusing (Except ε)] [Monad m]

theorem follows_refuse {α β : Type} (R : α → β → Prop) (mismatch : Mismatch) (y : m β) :
    Follows R (refuse mismatch : Except ε α) y := by
  intro a done
  have reached : ∀ b : Bool, (refuse mismatch : Except ε Bool) = .ok b := by
    intro b
    rw [← LawfulRefusing.refuse_bind mismatch fun _ : α => (.ok b : Except ε Bool), done]
    rfl
  cases (reached true).symm.trans (reached false)

variable [Refusing m]

theorem follows_settle {α : Type} (x : Except Mismatch α) :
    Follows Eq (settle x : Except ε α) (settle x : m α) := by
  cases x with
  | error mismatch => exact follows_refuse _ mismatch _
  | ok a => exact follows_pure _ a a rfl

variable [LawfulMonad m]

theorem Fields.follows_complete {ρ σ : Type} (fields : Fields ρ σ) (row : σ) :
    Follows Eq (fields.complete row : Except ε ρ) (fields.complete row : m ρ) := by
  match fields, row with
  | .nil, _ => exact follows_pure _ () () rfl
  | @Fields.cons τ _ _ name field rest, (slot, row) =>
      have next : ∀ a b : τ, a = b → Follows Eq (do return (a, ← rest.complete row) : Except ε _)
          (do return (b, ← rest.complete row) : m _) := by
        rintro a _ rfl
        exact follows_map _ _ _ (rest.follows_complete row)
      rw [complete, complete]
      cases slot.or field.absent? with
      | none => exact follows_bind _ _ _ _ (follows_refuse Eq _ _) next
      | some a => exact follows_bind _ _ _ _ (follows_pure Eq a a rfl) next
termination_by structural fields

variable {κ κ' : Type} [Source κ (Except ε)] [Source κ' m] (law : Agreement κ κ' ε m)

/-- Both sources put the same aside until they have found the tag. -/
theorem Agreement.follows_readTagged {τ : Type} (value : Value) (p : κ) (q : κ')
    (alike : law.alike value p q) (tag title : String) (readTag : κ → Except ε τ)
    (readOther : κ' → m τ)
    (tags : ∀ value p q, law.alike value p q → Follows Eq (readTag p) (readOther q)) :
    Follows Eq (readTagged tag readTag title p) (readTagged tag readOther title q) := by
  rw [readTagged, readTagged]
  apply follows_bind _ _ _ _ (law.union value p q title alike)
  rintro _ _ (@⟨members, opened, other, beside⟩ | @⟨items, opened, other, beside⟩)
  · refine follows_bind _ _ _ _ (follows_foldlM _ _ _ _ beside.beside ?steps _ _ rfl) ?after
    case steps =>
      rintro p q ⟨member, _, named, alike⟩ state _ rfl
      obtain ⟨here, there⟩ := law.key_buffer _ _ _ (.tagOrAnything tag) named
      simp only [here, there, pure_bind]
      by_cases same : member.1 = tag
      · simp only [if_pos same]
        cases state.1 with
        | some _ => exact follows_refuse _ _ _
        | none =>
            exact follows_map _ _ _ (tags _ _ _ alike)
      · simp only [if_neg same]
        exact follows_map _ _ _ (law.buffer _ _ _ .anything alike)
    case after =>
      rintro state _ rfl
      apply follows_bind _ _ _ _ beside.close
      rintro _ _ rfl
      cases state.1 with
      | some found => exact follows_pure _ _ _ rfl
      | none => exact follows_refuse _ _ _
  · obtain ⟨items, close⟩ := opened
    -- As a list: the tag comes first, and what follows it is put aside as it is.
    obtain ⟨others, closes⟩ := other
    obtain ⟨stand, closing⟩ := beside
    cases stand with
    | nil =>
        apply follows_bind _ _ _ _ (closing 0)
        rintro _ _ rfl
        exact follows_refuse _ _ _
    | @cons p q places others first rest =>
        obtain ⟨item, _, alike⟩ := first
        have buffers : Follows Eq (places.mapM (Source.buffer .anything))
            (others.mapM (Source.buffer .anything)) := by
          apply follows_mapM_same
          apply rest.imp
          rintro p q ⟨item, _, alike⟩
          exact law.buffer item p q .anything alike
        apply follows_bind _ _ _ _ (tags item p q alike)
        rintro found _ rfl
        apply follows_bind _ _ _ _ buffers
        rintro kept _ rfl
        rw [List.length_cons, List.length_cons, rest.length_eq]
        exact follows_map _ _ _ (closing _)

end

mutual

theorem Layout.follows_read {α : Type} (layout : Layout α) {κ κ' ε : Type} {m : Type → Type}
    [Refusing (Except ε)] [LawfulRefusing (Except ε)] [Source κ (Except ε)] [Monad m]
    [LawfulMonad m] [Refusing m] [Source κ' m] (law : Agreement κ κ' ε m) (value : Value)
    (labelled : layout.Labelled value) (p : κ) (q : κ') (alike : law.alike value p q) :
    Follows Eq (layout.read p) (layout.read q) := by
  match layout with
  | .text => exact law.text value p q .text alike
  | .flag => exact law.flag value p q alike
  | .verbatim => exact law.verbatim value p q alike
  | .named naming =>
      apply law.within
      apply law.variant value p q _ _ alike labelled
      intro name
      cases naming.options.lookup name with
      | none => exact follows_refuse _ _ _
      | some a => exact follows_pure _ a a rfl
  | .list item =>
      apply law.within
      apply follows_bind _ _ _ _ (law.list value p q alike)
      rintro opened other ⟨items, rfl, beside, close⟩
      have each : Follows Eq (opened.items.mapM fun place => item.read place)
          (other.items.mapM fun place => item.read place) := by
        apply follows_mapM_same
        apply beside.imp
        rintro p q ⟨inside, member, alike⟩
        exact item.follows_read law inside (labelled inside member) p q alike
      apply follows_bind _ _ _ _ each
      rintro results _ rfl
      exact follows_map _ _ _ (close _)
  | .table item =>
      apply law.within
      apply follows_bind _ _ _ _ (law.mapping value p q _ alike)
      rintro opened other ⟨members, rfl, beside, close⟩
      have each : Follows Eq
          (opened.entries.mapM fun entry => do return (← Source.text .text entry.1,
            ← item.read entry.2))
          (other.entries.mapM fun entry => do return (← Source.text .text entry.1,
            ← item.read entry.2)) := by
        apply follows_mapM_same
        apply beside.imp
        rintro p q ⟨member, held, named, alike⟩
        obtain ⟨here, there⟩ := law.key_text _ _ _ named
        rw [here, there, pure_bind, pure_bind]
        exact follows_map _ _ _ (item.follows_read law _ (labelled member held) p.2 q.2 alike)
      apply follows_bind _ _ _ _ each
      rintro results _ rfl
      exact follows_map _ _ _ close
  | .record record => exact law.within p q _ _ (record.follows_read law value labelled p q alike)
  | .union title tag variants packing =>
      -- The tag is read from the sources; the record then comes from one buffer for both.
      have tags : ∀ value p q, law.alike value p q → Follows Eq
          (Source.within p do
            let name ← Source.text .variantName p
            if name ∈ variants.names then return name
              else refuse (.unknownVariant name variants.names))
          (Source.within q do
            let name ← Source.text .variantName q
            if name ∈ variants.names then return name
              else refuse (.unknownVariant name variants.names)) := by
        intro value p q alike
        apply law.within
        apply follows_bind _ _ _ _ (law.text value p q _ alike)
        rintro name _ rfl
        by_cases known : name ∈ variants.names
        · rw [if_pos known, if_pos known]
          exact follows_pure _ _ _ rfl
        · rw [if_neg known]
          exact follows_refuse _ _ _
      apply follows_bind _ _ _ _
        (law.within p q _ _ (law.follows_readTagged value p q alike tag title _ _ tags))
      rintro found _ rfl
      exact follows_map _ _ _ (follows_settle _)
termination_by structural layout

theorem Record.follows_read {α : Type} (record : Record α) {κ κ' ε : Type} {m : Type → Type}
    [Refusing (Except ε)] [LawfulRefusing (Except ε)] [Source κ (Except ε)] [Monad m]
    [LawfulMonad m] [Refusing m] [Source κ' m] (law : Agreement κ κ' ε m) (value : Value)
    (labelled : record.Labelled value) (p : κ) (q : κ') (alike : law.alike value p q) :
    Follows Eq (record.read p) (record.read q) := by
  match record with
  | .closed title fields packing =>
      apply follows_bind _ _ _ _ (law.record value p q title alike labelled.1)
      rintro _ _ (@⟨members, opened, other, beside⟩ | @⟨items, opened, other, beside⟩)
      · refine follows_bind _ _ _ _ (follows_foldlM _ _ _ _ beside.beside ?steps _ _ rfl) ?after
        case steps =>
          rintro p q ⟨member, held, named, alike⟩ row _ rfl
          obtain ⟨here, there⟩ := law.key_label _ _ _ named
          rw [here, there, pure_bind, pure_bind]
          have stored :=
            fields.follows_store law member.1 member.2 (labelled.2 member held) 0 p.2 q.2 alike row
          rcases (optionRel_iff _ _ _).mp stored with
            ⟨none, missing⟩ | ⟨x, y, taken, found, follows⟩
          · rw [none, missing]
            exact follows_map _ _ _ (law.skip _ _ _ alike)
          · rw [taken, found]
            exact follows
        case after =>
          rintro row _ rfl
          apply follows_bind _ _ _ _ beside.close
          rintro _ _ rfl
          exact follows_map _ _ _ (fields.follows_complete row)
      · exact absurd rfl (labelled.1 items)
  | .extensible title fields packing =>
      apply follows_bind _ _ _ _ (law.mapping value p q _ alike)
      rintro opened other ⟨members, rfl, beside, close⟩
      refine follows_bind _ _ _ _ (follows_foldlM _ _ _ _ beside ?steps _ _ rfl) ?after
      case steps =>
        rintro p q ⟨member, held, named, alike⟩ ⟨row, collected⟩ _ rfl
        obtain ⟨here, there⟩ := law.key_label _ _ _ named
        simp only [here, there, pure_bind]
        have stored := fields.follows_store law member.1 member.2 (labelled member held) 0 p.2 q.2
          alike row
        rcases (optionRel_iff _ _ _).mp stored with ⟨none, missing⟩ | ⟨x, y, taken, found, follows⟩
        · simp only [none, missing]
          exact follows_map _ _ _ (law.buffer _ _ _ .anything alike)
        · simp only [taken, found]
          exact follows_map _ _ _ follows
      case after =>
        rintro ⟨row, collected⟩ _ rfl
        apply follows_bind _ _ _ _ close
        rintro _ _ rfl
        apply follows_bind _ _ _ _ (fields.follows_complete row)
        rintro row _ rfl
        exact follows_map _ _ _ (follows_settle _)
termination_by structural record

theorem Field.follows_read {τ : Type} (field : Field τ) {κ κ' ε : Type} {m : Type → Type}
    [Refusing (Except ε)] [LawfulRefusing (Except ε)] [Source κ (Except ε)] [Monad m]
    [LawfulMonad m] [Refusing m] [Source κ' m] (law : Agreement κ κ' ε m) (value : Value)
    (labelled : field.Labelled value) (p : κ) (q : κ') (alike : law.alike value p q) :
    Follows Eq (field.read p) (field.read q) := by
  match field with
  | .required layout => exact layout.follows_read law value labelled p q alike
  | .optional layout =>
      apply follows_bind _ _ _ _ (law.present value p q alike)
      intro found other related
      cases related with
      | none => exact follows_pure _ _ _ rfl
      | some alike =>
          exact follows_map _ _ _ (layout.follows_read law value labelled _ _ alike)
  | .defaulted layout _ _ => exact layout.follows_read law value labelled p q alike
termination_by structural field

theorem Fields.follows_store {ρ σ : Type} (fields : Fields ρ σ) {κ κ' ε : Type} {m : Type → Type}
    [Refusing (Except ε)] [LawfulRefusing (Except ε)] [Source κ (Except ε)] [Monad m]
    [LawfulMonad m] [Refusing m] [Source κ' m] (law : Agreement κ κ' ε m) (name : String)
    (value : Value) (labelled : fields.Labelled name value) (index : Nat) (p : κ) (q : κ')
    (alike : law.alike value p q) (row : σ) :
    Option.Rel (Follows Eq) (fields.store index (.name name) p row)
      (fields.store index (.name name) q row) := by
  match fields, row with
  | .nil, _ => exact Option.Rel.none
  | .cons declared field rest, (slot, row) =>
      by_cases same : name = declared
      · simp only [Fields.store, Label.picks, same, BEq.rfl, if_true]
        refine Option.Rel.some ?_
        cases slot with
        | some _ => exact follows_refuse _ _ _
        | none =>
            exact follows_map _ _ _ (field.follows_read law value (labelled.1 same) p q alike)
      · have later := rest.follows_store law name value (labelled.2 same) (index + 1) p q alike row
        simp only [Fields.store, Label.picks, beq_iff_eq, same, if_false]
        apply optionRel_map _ _ _ _ _ _ later
        intro x y follows
        exact follows_map _ _ _ follows
termination_by structural fields

end

end SwaggerLift
