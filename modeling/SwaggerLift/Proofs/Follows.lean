import SwaggerLift.Proofs.Table
/-!
Computations of which one succeeds whenever another one does, with a result that is related to the
result of the other. Nothing is said where the first one fails, so the two may fail for different
reasons, and the second one may run in another monad.
-/

namespace SwaggerLift

variable {ε : Type} {m : Type → Type} {α β γ δ : Type}

/-- Whenever the first computation succeeds, so does the second one, with a related result. -/
def Follows [Pure m] (R : α → β → Prop) (x : Except ε α) (y : m β) : Prop :=
  ∀ a, x = .ok a → ∃ b, y = pure b ∧ R a b

theorem follows_error [Pure m] (R : α → β → Prop) (e : ε) (y : m β) :
    Follows R (.error e) y := nofun

theorem follows_pure [Pure m] (R : α → β → Prop) (a : α) (b : β) (related : R a b) :
    Follows R (pure a : Except ε α) (pure b : m β) := by
  intro c same
  cases same
  exact ⟨b, rfl, related⟩

theorem follows_same (x : Except ε α) : Follows Eq x x := fun a done => ⟨a, done, rfl⟩

variable [Monad m] [LawfulMonad m] {R : α → β → Prop} {S : γ → δ → Prop}

theorem follows_bind (x : Except ε α) (y : m β) (f : α → Except ε γ) (g : β → m δ)
    (first : Follows R x y) (next : ∀ a b, R a b → Follows S (f a) (g b)) :
    Follows S (x >>= f) (y >>= g) := by
  intro c done
  obtain ⟨a, here, done⟩ := (bind_eq_ok_iff x f c).mp done
  obtain ⟨b, same, related⟩ := first a here
  obtain ⟨d, later, result⟩ := next a b related c done
  refine ⟨d, ?_, result⟩
  rw [same, pure_bind, later]

theorem follows_map (x : Except ε α) (y : m α) (f : α → γ) (first : Follows Eq x y) :
    Follows Eq (do return f (← x)) (do return f (← y)) := by
  apply follows_bind _ _ _ _ first
  rintro a _ rfl
  exact follows_pure Eq _ _ rfl

theorem follows_mapM (f : α → Except ε γ) (g : β → m δ) (items : List α) (others : List β)
    (beside : List.Forall₂ (fun a b => Follows S (f a) (g b)) items others) :
    Follows (List.Forall₂ S) (items.mapM f) (others.mapM g) := by
  induction beside with
  | nil => exact follows_pure _ [] [] List.Forall₂.nil
  | cons first _ ih =>
      rw [List.mapM_cons, List.mapM_cons]
      apply follows_bind _ _ _ _ first
      intro c d related
      apply follows_bind _ _ _ _ ih
      intro cs ds rest
      exact follows_pure _ _ _ (List.Forall₂.cons related rest)

theorem follows_mapM_same (f : α → Except ε γ) (g : β → m γ) (items : List α) (others : List β)
    (beside : List.Forall₂ (fun a b => Follows Eq (f a) (g b)) items others) :
    Follows Eq (items.mapM f) (others.mapM g) := by
  have related := follows_mapM f g items others beside
  rwa [List.forall₂_eq_eq_eq] at related

theorem follows_foldlM (f : γ → α → Except ε γ) (g : δ → β → m δ) (items : List α) (others : List β)
    (beside : List.Forall₂ R items others)
    (steps : ∀ a b, R a b → ∀ s t, S s t → Follows S (f s a) (g t b)) (s : γ) (t : δ)
    (start : S s t) : Follows S (items.foldlM f s) (others.foldlM g t) := by
  induction beside generalizing s t with
  | nil => exact follows_pure S s t start
  | cons first _ ih =>
      rw [List.foldlM_cons, List.foldlM_cons]
      apply follows_bind _ _ _ _ (steps _ _ first s t start)
      intro s t related
      exact ih s t related

theorem Table.follows_traverse (f : String → α → Except ε γ) (g : String → β → Except ε γ)
    (t : Table α) (u : Table β)
    (beside : t.Beside (fun key a b => Follows Eq (f key a) (g key b)) u) :
    Follows Eq (t.traverse f) (u.traverse g) := by
  have entries : Follows Eq
      (t.entries.mapM fun entry => do return (entry.1, ← f entry.1 entry.2))
      (u.entries.mapM fun entry => do return (entry.1, ← g entry.1 entry.2)) := by
    apply follows_mapM_same
    apply beside.imp
    rintro ⟨key, a⟩ ⟨_, b⟩ ⟨rfl, follows⟩
    exact follows_map _ _ _ follows
  exact follows_map _ _ _ entries

end SwaggerLift
