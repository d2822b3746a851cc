import SwaggerLift.Proofs.Layout.Agreement
/-!
What the loop over the members of a record makes of a row. It comes to its end exactly if every
declared name stands there at most once and its value can be read; then the slots hold what was
read, whatever the order of the members and whatever stands between them.
-/

namespace SwaggerLift

section

variable {ε σ τ ι : Type}

theorem foldlM_both (f : σ → ι → Except ε σ) (g : τ → ι → Except ε τ)
    (whole : σ × τ → ι → Except ε (σ × τ))
    (parts : ∀ s t i, whole (s, t) i = do return (← f s i, ← g t i)) (items : List ι)
    (s s' : σ) (t t' : τ) :
    items.foldlM whole (s, t) = .ok (s', t') ↔
      items.foldlM f s = .ok s' ∧ items.foldlM g t = .ok t' := by
  induction items generalizing s t with
  | nil => simp [pure, Except.pure]
  | cons item rest ih =>
      simp only [List.foldlM_cons, parts, bind_eq_ok_iff, pure_eq_ok_iff]
      constructor
      · rintro ⟨_, ⟨a, first, b, second, rfl⟩, later⟩
        obtain ⟨left, right⟩ := (ih a b).mp later
        exact ⟨⟨a, first, left⟩, b, second, right⟩
      · rintro ⟨⟨a, first, left⟩, b, second, right⟩
        exact ⟨(a, b), ⟨a, first, b, second, rfl⟩, (ih a b).mpr ⟨left, right⟩⟩

end

def Value.under (name : String) (members : List (String × Value)) : List Value :=
  members.filterMap fun member => if member.1 = name then some member.2 else none

theorem Value.under_cons_same (name : String) (value : Value) (members : List (String × Value)) :
    under name ((name, value) :: members) = value :: under name members := by
  simp [under]

theorem Value.under_cons_other (name other : String) (different : other ≠ name) (value : Value)
    (members : List (String × Value)) :
    under name ((other, value) :: members) = under name members := by
  simp [under, different]

theorem Value.under_append (name : String) (members others : List (String × Value)) :
    under name (members ++ others) = under name members ++ under name others :=
  List.filterMap_append ..

theorem Value.under_eq_nil (name : String) (members : List (String × Value))
    (other : ∀ member ∈ members, member.1 ≠ name) : under name members = [] := by
  rw [under, List.filterMap_eq_nil_iff]
  intro member held
  exact if_neg (other member held)

theorem Value.mem_of_mem_under (name : String) (members : List (String × Value)) (value : Value)
    (held : value ∈ under name members) : (name, value) ∈ members := by
  obtain ⟨⟨other, inside⟩, member, same⟩ := List.mem_filterMap.mp held
  split at same
  · cases same
    cases ‹other = name›
    exact member
  · cases same

theorem Value.under_beside {R : String → Value → Value → Prop}
    {members others : List (String × Value)}
    (beside : List.Forall₂ (fun member other => other.1 = member.1 ∧ R member.1 member.2 other.2)
      members others) (name : String) :
      List.Forall₂ (R name) (under name members) (under name others) := by
  induction beside with
  | nil => exact List.Forall₂.nil
  | @cons member other members others related _ ih =>
      rcases member with ⟨_, value⟩
      rcases other with ⟨declared, changed⟩
      obtain ⟨rfl, related⟩ := related
      by_cases same : declared = name
      · subst same
        rw [under_cons_same, under_cons_same]
        exact List.Forall₂.cons related ih
      · rwa [under_cons_other _ _ same, under_cons_other _ _ same]

section

variable {ε τ : Type}

/-- What a slot holds once all values for it have been seen: at most one, as it was read. -/
def Filled (read : Value → Except ε τ) (values : List Value) (slot : Option τ) : Prop :=
  match values with
  | [] => slot = none
  | [value] => ∃ a, read value = .ok a ∧ slot = some a
  | _ => False

/-- The slot holds the same if its values are read alike, in whatever order they stand. -/
theorem Filled.carry {read : Value → Except ε τ} {values others : List Value} {slot : Option τ}
    (filled : Filled read values slot) (R : Value → Value → Prop) (kept : List Value)
    (perm : others.Perm kept) (beside : List.Forall₂ R values kept)
    (each : ∀ value ∈ values, ∀ other ∈ others, R value other → ∀ a, read value = .ok a →
      read other = .ok a) :
    Filled read others slot := by
  match values, beside, filled with
  | [], .nil, filled =>
      rw [perm.eq_nil]
      exact filled
  | [value], .cons (b := other) related .nil, ⟨a, done, same⟩ =>
      rw [List.perm_singleton] at perm
      subst perm
      exact ⟨a, each value List.mem_cons_self other List.mem_cons_self related a done, same⟩

theorem filled_some_iff (read : Value → Except ε τ) (values : List Value) (a : τ) :
    Filled read values (some a) ↔ ∃ value, values = [value] ∧ read value = .ok a := by
  match values with
  | [] => simp [Filled]
  | [value] => simp [Filled]
  | _ :: _ :: _ => simp [Filled]

variable [Refusing (Except ε)]

def fillSlot (name : String) (read : Value → Except ε τ) (slot : Option τ)
    (member : String × Value) : Except ε (Option τ) :=
  if member.1 = name then
    match slot with
    | some _ => refuse (.duplicateField name)
    | none => do return some (← read member.2)
  else .ok slot

variable [LawfulRefusing (Except ε)]

theorem refuse_ne_ok {α : Type} (mismatch : Mismatch) (a : α) :
    (refuse mismatch : Except ε α) ≠ .ok a := by
  intro done
  obtain ⟨_, _, other⟩ := follows_refuse (fun _ _ => False) mismatch (pure a : Except ε α) a done
  exact other

theorem foldlM_fillSlot_some (name : String) (read : Value → Except ε τ)
    (members : List (String × Value)) (a : τ) (slot : Option τ) :
    members.foldlM (fillSlot name read) (some a) = .ok slot ↔
      Value.under name members = [] ∧ slot = some a := by
  induction members with
  | nil => simp [Value.under, pure, Except.pure, eq_comm]
  | cons member rest ih =>
      rcases member with ⟨other, value⟩
      rw [List.foldlM_cons, bind_eq_ok_iff]
      by_cases same : other = name
      · subst same
        simp [fillSlot, refuse_ne_ok, Value.under_cons_same]
      · rw [Value.under_cons_other name other same, ← ih]
        simp [fillSlot, same]

theorem foldlM_fillSlot_iff (name : String) (read : Value → Except ε τ)
    (members : List (String × Value)) (slot : Option τ) :
    members.foldlM (fillSlot name read) none = .ok slot ↔
      Filled read (Value.under name members) slot := by
  induction members with
  | nil => simp [Value.under, Filled, pure, Except.pure, eq_comm]
  | cons member rest ih =>
      rcases member with ⟨other, value⟩
      rw [List.foldlM_cons, bind_eq_ok_iff]
      by_cases same : other = name
      · subst same
        rw [Value.under_cons_same]
        simp only [fillSlot, if_true, bind_eq_ok_iff, pure_eq_ok_iff]
        constructor
        · rintro ⟨_, ⟨a, done, rfl⟩, later⟩
          obtain ⟨nothing, rfl⟩ := (foldlM_fillSlot_some other read rest a slot).mp later
          rw [nothing]
          exact ⟨a, done, rfl⟩
        · intro filled
          cases later : Value.under other rest with
          | cons second others => rw [later] at filled; exact filled.elim
          | nil =>
              rw [later] at filled
              obtain ⟨a, done, rfl⟩ := filled
              exact ⟨some a, ⟨a, done, rfl⟩,
                (foldlM_fillSlot_some other read rest a _).mpr ⟨later, rfl⟩⟩
      · rw [Value.under_cons_other name other same, ← ih]
        simp [fillSlot, same]

end

section

variable {κ ε : Type} [Refusing (Except ε)] [Source κ (Except ε)] (place : Value → κ)

def Fields.enter {ρ σ : Type} (fields : Fields ρ σ) (index : Nat) (row : σ)
    (member : String × Value) : Except ε σ :=
  (fields.store index (.name member.1) (place member.2) row).getD (.ok row)

def Fields.Filled {ρ σ : Type} (fields : Fields ρ σ) (members : List (String × Value))
    (row : σ) : Prop :=
  match fields, row with
  | .nil, _ => True
  | .cons name field rest, (slot, row) =>
      SwaggerLift.Filled (fun value => field.read (place value)) (Value.under name members) slot ∧
        rest.Filled members row
termination_by structural fields

variable [LawfulRefusing (Except ε)]

theorem Fields.enter_cons {τ ρ σ : Type} (name : String) (field : Field τ) (rest : Fields ρ σ)
    (apart : name ∉ rest.names) (index : Nat) (slot : Option τ) (row : σ)
    (member : String × Value) :
    (cons name field rest).enter place index (slot, row) member = do
      return (← fillSlot name (fun value => field.read (place value)) slot member,
        ← rest.enter place (index + 1) row member) := by
  rcases member with ⟨other, value⟩
  by_cases same : other = name
  · subst same
    have passed : rest.enter place (index + 1) row (other, value) = .ok row := by
      rw [enter, (rest.store_eq_none_iff (index + 1) other (place value) row).mpr apart]
      rfl
    rw [passed]
    simp only [enter, store, Label.picks, beq_self_eq_true, if_true, Option.getD_some, fillSlot]
    cases slot with
    | none =>
        simp only [bind_assoc, pure_bind]
        rfl
    | some a => rw [LawfulRefusing.refuse_bind]
  · simp only [enter, store, Label.picks, beq_false_of_ne same, Bool.false_eq_true, if_false,
      fillSlot, if_neg same]
    cases rest.store (index + 1) (.name other) (place value) row <;> rfl

theorem Fields.foldlM_enter_iff {ρ σ : Type} (fields : Fields ρ σ) (wellFormed : fields.WellFormed)
    (index : Nat) (members : List (String × Value)) (row : σ) :
    members.foldlM (fields.enter place index) fields.blank = .ok row ↔
      fields.Filled place members row := by
  match fields, row with
  | .nil, () =>
      have passed : members.foldlM (Fields.nil.enter place index) () = .ok () := by
        induction members with
        | nil => rfl
        | cons member rest ih => exact ih
      exact ⟨fun _ => trivial, fun _ => passed⟩
  | .cons name field rest, (slot, row) =>
      have later := rest.foldlM_enter_iff wellFormed.2.2 (index + 1) members row
      have both :=
        foldlM_both _ _ _ (rest.enter_cons place name field wellFormed.1 index) members none slot
          rest.blank row
      rw [blank, both, foldlM_fillSlot_iff, later, Filled]
termination_by structural fields

end

end SwaggerLift
