import Mathlib.Data.List.Forall2
/-!
Steps that may fail, and lists that stand beside each other, item by item: a list whose steps all
succeed stands beside the list of their results.
-/

namespace SwaggerLift

variable {α β ε : Type}

theorem bind_eq_ok_iff (x : Except ε α) (f : α → Except ε β) (b : β) :
    x >>= f = .ok b ↔ ∃ a, x = .ok a ∧ f a = .ok b := by
  cases x <;> simp [bind, Except.bind]

theorem ok_bind (a : α) (f : α → Except ε β) : Except.ok a >>= f = f a := rfl

theorem pure_eq_ok_iff (a b : α) : (pure a : Except ε α) = .ok b ↔ b = a := by
  simp [pure, Except.pure, eq_comm]

theorem exists_error_iff (x : Except ε α) : (∃ e, x = .error e) ↔ ¬ ∃ a, x = .ok a := by
  cases x <;> simp

theorem mapError_eq_ok_iff {φ : Type} (f : ε → φ) (x : Except ε α) (a : α) :
    x.mapError f = .ok a ↔ x = .ok a := by
  cases x <;> simp [Except.mapError]

theorem optionRel_iff (R : α → β → Prop) (x : Option α) (y : Option β) :
    Option.Rel R x y ↔ (x = none ∧ y = none) ∨ ∃ a b, x = some a ∧ y = some b ∧ R a b := by
  constructor
  · intro related
    cases related with
    | none => exact Or.inl ⟨rfl, rfl⟩
    | some related => exact Or.inr ⟨_, _, rfl, rfl, related⟩
  · rintro (⟨rfl, rfl⟩ | ⟨a, b, rfl, rfl, related⟩)
    · exact Option.Rel.none
    · exact Option.Rel.some related

theorem optionRel_refl (R : α → α → Prop) (each : ∀ a, R a a) (x : Option α) :
    Option.Rel R x x := by
  cases x with
  | none => exact Option.Rel.none
  | some a => exact Option.Rel.some (each a)

theorem optionRel_symm (R : α → β → Prop) (S : β → α → Prop) (swap : ∀ a b, R a b → S b a)
    (x : Option α) (y : Option β) (related : Option.Rel R x y) : Option.Rel S y x := by
  cases related with
  | none => exact Option.Rel.none
  | some related => exact Option.Rel.some (swap _ _ related)

theorem optionRel_map {γ δ : Type} (R : α → β → Prop) (S : γ → δ → Prop) (f : α → γ) (g : β → δ)
    (x : Option α) (y : Option β) (related : Option.Rel R x y)
    (each : ∀ a b, R a b → S (f a) (g b)) : Option.Rel S (x.map f) (y.map g) := by
  cases related with
  | none => exact Option.Rel.none
  | some related => exact Option.Rel.some (each _ _ related)

theorem exists_of_forall₂ {R : α → β → Prop} {as : List α} {bs : List β}
    (beside : List.Forall₂ R as bs) (a : α) (member : a ∈ as) : ∃ b ∈ bs, R a b := by
  induction beside with
  | nil => simp at member
  | cons related _ ih =>
      rcases List.mem_cons.mp member with rfl | later
      · exact ⟨_, List.mem_cons_self, related⟩
      · obtain ⟨b, stands, relates⟩ := ih later
        exact ⟨b, List.mem_cons_of_mem _ stands, relates⟩

theorem forall₂_of_each {R : α → β → Prop} (as : List α) (each : ∀ a ∈ as, ∃ b, R a b) :
    ∃ bs, List.Forall₂ R as bs := by
  induction as with
  | nil => exact ⟨[], List.Forall₂.nil⟩
  | cons a rest ih =>
      obtain ⟨here, later⟩ := List.forall_mem_cons.mp each
      obtain ⟨b, related⟩ := here
      obtain ⟨bs, beside⟩ := ih later
      exact ⟨b :: bs, List.Forall₂.cons related beside⟩

theorem exists_left_of_forall₂ {R : α → β → Prop} {as : List α} {bs : List β}
    (beside : List.Forall₂ R as bs) (b : β) (member : b ∈ bs) : ∃ a ∈ as, R a b :=
  exists_of_forall₂ beside.flip b member

theorem forall₂_trans {γ : Type} {R : α → β → Prop} {S : β → γ → Prop} {as : List α} {bs : List β}
    {cs : List γ} (first : List.Forall₂ R as bs) (second : List.Forall₂ S bs cs) :
    List.Forall₂ (fun a c => ∃ b, R a b ∧ S b c) as cs := by
  induction first generalizing cs with
  | nil => cases second; exact List.Forall₂.nil
  | cons related _ ih =>
      obtain _ | ⟨next, later⟩ := second
      exact List.Forall₂.cons ⟨_, related, next⟩ (ih later)

theorem forall₂_with_mem {R : α → β → Prop} {as : List α} {bs : List β}
    (beside : List.Forall₂ R as bs) : List.Forall₂ (fun a b => b ∈ bs ∧ R a b) as bs := by
  induction beside with
  | nil => exact List.Forall₂.nil
  | cons related _ ih =>
      refine List.Forall₂.cons ⟨List.mem_cons_self, related⟩ (ih.imp ?_)
      rintro a b ⟨member, related⟩
      exact ⟨List.mem_cons_of_mem _ member, related⟩

theorem map_eq_of_forall₂ {γ : Type} {R : α → β → Prop} {as : List α} {bs : List β}
    (f : α → γ) (g : β → γ) (beside : List.Forall₂ R as bs) (same : ∀ a b, R a b → f a = g b) :
    as.map f = bs.map g := by
  rw [← List.forall₂_eq_eq_eq, List.forall₂_map_left_iff, List.forall₂_map_right_iff]
  exact beside.imp same

theorem pairwise_of_forall₂ {R : α → β → Prop} {P : α → α → Prop} {Q : β → β → Prop} {as : List α}
    {bs : List β} (beside : List.Forall₂ R as bs) (apart : as.Pairwise P)
    (each : ∀ a b a' b', R a b → R a' b' → P a a' → Q b b') : bs.Pairwise Q := by
  induction beside with
  | nil => exact List.Pairwise.nil
  | cons related rest ih =>
      obtain ⟨behind, later⟩ := List.pairwise_cons.mp apart
      refine List.pairwise_cons.mpr ⟨fun b member => ?_, ih later⟩
      obtain ⟨a, stands, relates⟩ := exists_left_of_forall₂ rest b member
      exact each _ _ a b related relates (behind a stands)

theorem forall₂_of_map {ι : Type} {R : ι → β → Prop} {S : ι → α → Prop} (f : α → β) (items : List ι)
    (as : List α) (beside : List.Forall₂ R items (as.map f))
    (each : ∀ i, ∀ a ∈ as, R i (f a) → S i a) : List.Forall₂ S items as := by
  rw [List.forall₂_map_right_iff] at beside
  induction beside with
  | nil => exact List.Forall₂.nil
  | cons related _ ih =>
      have first := each _ _ List.mem_cons_self related
      have later := ih fun i a member => each i a (List.mem_cons_of_mem _ member)
      exact List.Forall₂.cons first later

/-- What is related to the items of a list is so related to those that have taken their places. -/
theorem forall₂_carry {γ : Type} {E : α → β → Prop} {R : α → γ → Prop} {S : β → γ → Prop}
    {as : List α} {bs : List β} {cs : List γ} (changed : List.Forall₂ E as bs)
    (related : List.Forall₂ R as cs) (each : ∀ a ∈ as, ∀ b ∈ bs, E a b → ∀ c, R a c → S b c) :
    List.Forall₂ S bs cs := by
  induction changed generalizing cs with
  | nil => cases related; exact List.Forall₂.nil
  | cons here _ ih =>
      obtain _ | ⟨first, rest⟩ := related
      refine List.Forall₂.cons
        (each _ List.mem_cons_self _ List.mem_cons_self here _ first) (ih rest ?_)
      intro a stands b beside
      exact each a (List.mem_cons_of_mem _ stands) b (List.mem_cons_of_mem _ beside)

theorem mapM_eq_ok_iff (f : α → Except ε β) (items : List α) (results : List β) :
    items.mapM f = .ok results ↔ List.Forall₂ (fun a b => f a = .ok b) items results := by
  induction items generalizing results with
  | nil => cases results <;> simp [pure, Except.pure]
  | cons item rest ih =>
      simp only [List.mapM_cons, bind_eq_ok_iff, pure_eq_ok_iff, ih, List.forall₂_cons_left_iff,
        exists_and_left]

end SwaggerLift
