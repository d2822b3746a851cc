import Mathlib.Tactic.Choose
/-!
What a computation can hand on, in any monad: `Yields x P` says that `x` can be had with proofs of
`P` beside its values. Of a computation that may fail this says nothing if it fails.
-/

namespace SwaggerLift

variable {m : Type → Type} {α β σ ε : Type} {P : α → Prop} {Q : β → Prop}

def Yields [Functor m] (x : m α) (P : α → Prop) : Prop := ∃ y : m (Subtype P), Subtype.val <$> y = x

theorem yields_ok_iff (x : Except ε α) : Yields x P ↔ ∀ a, x = .ok a → P a := by
  constructor
  · rintro ⟨y, rfl⟩ a result
    cases y with
    | error e => cases result
    | ok b => cases result; exact b.property
  · intro holds
    cases x with
    | error e => exact ⟨.error e, rfl⟩
    | ok a => exact ⟨.ok ⟨a, holds a rfl⟩, rfl⟩

variable [Monad m] [LawfulMonad m]

theorem yields_pure (a : α) (holds : P a) : Yields (pure a : m α) P :=
  ⟨pure ⟨a, holds⟩, map_pure _ _⟩

theorem yields_bind (x : m α) (f : α → m β) (first : Yields x P)
    (next : ∀ a, P a → Yields (f a) Q) : Yields (x >>= f) Q := by
  obtain ⟨y, rfl⟩ := first
  choose g same using fun a : Subtype P => next a.val a.property
  refine ⟨y >>= g, ?_⟩
  simp only [map_bind, bind_map_left, same]

theorem yields_of_forall (x : m α) (holds : ∀ a, P a) : Yields x P :=
  ⟨(fun a => ⟨a, holds a⟩) <$> x, by simp⟩

theorem yields_imp {Q : α → Prop} (x : m α) (holds : Yields x P) (weaken : ∀ a, P a → Q a) :
    Yields x Q := by
  have same := yields_bind x pure holds fun a here => yields_pure a (weaken a here)
  rwa [bind_pure] at same

theorem yields_then (x : m α) (f : α → m β) (next : ∀ a, Yields (f a) Q) : Yields (x >>= f) Q :=
  yields_bind x f (yields_of_forall x fun _ => trivial) fun a _ => next a

theorem yields_foldlM (S : σ → Prop) (items : List α) (step : σ → α → m σ) (start : σ)
    (holds : S start) (keeps : ∀ state, S state → ∀ a ∈ items, Yields (step state a) S) :
    Yields (items.foldlM step start) S := by
  induction items generalizing start with
  | nil => exact yields_pure start holds
  | cons a rest ih =>
      rw [List.foldlM_cons]
      apply yields_bind _ _ (keeps start holds a List.mem_cons_self)
      intro state holds
      exact ih state holds fun state holds b later =>
        keeps state holds b (List.mem_cons_of_mem a later)

/-- What comes after a loop may rely on what its steps keep. -/
theorem yields_loop (S : σ → Prop) (items : List α) (step : σ → α → m σ) (start : σ) (f : σ → m β)
    (holds : S start) (keeps : ∀ state, S state → ∀ a ∈ items, Yields (step state a) S)
    (next : ∀ state, S state → Yields (f state) Q) : Yields (items.foldlM step start >>= f) Q :=
  yields_bind _ f (yields_foldlM S items step start holds keeps) next

theorem yields_mapM (items : List α) (f : α → m β) (each : ∀ a ∈ items, Yields (f a) Q) :
    Yields (items.mapM f) fun results => ∀ b ∈ results, Q b := by
  induction items with
  | nil => exact yields_pure [] (by simp)
  | cons a rest ih =>
      rw [List.mapM_cons]
      apply yields_bind _ _ (each a List.mem_cons_self)
      intro b holds
      apply yields_bind _ _ (ih fun c later => each c (List.mem_cons_of_mem a later))
      intro results all
      exact yields_pure _ (List.forall_mem_cons.mpr ⟨holds, all⟩)

end SwaggerLift
