import SwaggerLift.Proofs.Layout.Buffer
import SwaggerLift.Proofs.Layout.Legible
import SwaggerLift.Proofs.Value
/-!
What a source has to answer at a place where a written value stands, so that the value is read back.
A source may have room for so many levels of lists and mappings only; a value that is nested deeper
is refused in one and the same way, wherever it goes too deep.
-/

namespace SwaggerLift

variable {κ : Type} {m : Type → Type} [Monad m]

structure Limit (m : Type → Type) [Monad m] where
  refused : {α : Type} → m α
  refused_bind : ∀ {α β : Type} (f : α → m β), refused >>= f = refused

namespace Limit

variable (limit : Limit m) {α β ι : Type}

def fit (room depth : Nat) (a : α) : m α := if depth ≤ room then pure a else limit.refused

def Enters (room : Nat) (act : m α) (sound : Nat → α → Prop) : Prop :=
  (room = 0 ∧ act = limit.refused) ∨ ∃ inner a, room = inner + 1 ∧ act = pure a ∧ sound inner a

theorem fit_zero (room : Nat) (a : α) : limit.fit room 0 a = pure a := if_pos (Nat.zero_le room)

theorem fit_succ (room depth : Nat) (a : α) :
    limit.fit (room + 1) (depth + 1) a = limit.fit room depth a := by
  simp only [fit, Nat.add_le_add_iff_right]

theorem fit_without_room (depth : Nat) (a : α) : limit.fit 0 (depth + 1) a = limit.refused :=
  if_neg (Nat.not_succ_le_zero depth)

variable [LawfulMonad m]

theorem fit_bind (room depth later : Nat) (a : α) (f : α → m β) (b : β)
    (next : f a = limit.fit room later b) :
    limit.fit room depth a >>= f = limit.fit room (max depth later) b := by
  by_cases fits : depth ≤ room
  · rw [fit, if_pos fits, pure_bind, next, fit, fit]
    simp only [Nat.max_le, fits, true_and]
  · rw [fit, if_neg fits, limit.refused_bind, fit, if_neg]
    exact fun both => fits (Nat.le_trans (Nat.le_max_left depth later) both)

theorem fit_bind_pure (room depth : Nat) (a : α) (f : α → m β) (b : β) (next : f a = pure b) :
    limit.fit room depth a >>= f = limit.fit room depth b := by
  have last := limit.fit_bind room depth 0 a f b (by rw [next, limit.fit_zero])
  rwa [Nat.max_zero] at last

theorem fit_map (room depth : Nat) (a : α) (f : α → β) :
    f <$> limit.fit room depth a = limit.fit room depth (f a) := by
  rw [← bind_pure_comp]
  exact limit.fit_bind_pure room depth a _ (f a) rfl

theorem enters_bind (room depth : Nat) (act : m α) (sound : Nat → α → Prop) (f : α → m β) (b : β)
    (enters : limit.Enters room act sound)
    (inside : ∀ inner a, sound inner a → f a = limit.fit inner depth b) :
    act >>= f = limit.fit room (depth + 1) b := by
  rcases enters with ⟨rfl, rfl⟩ | ⟨inner, a, rfl, rfl, holds⟩
  · rw [limit.refused_bind, limit.fit_without_room]
  · rw [pure_bind, inside inner a holds, limit.fit_succ]

theorem Enters.map {room : Nat} {act : m α} {sound : Nat → α → Prop} {wrapped : Nat → β → Prop}
    (enters : limit.Enters room act sound) (f : α → β)
    (wraps : ∀ inner a, sound inner a → wrapped inner (f a)) :
    limit.Enters room (f <$> act) wrapped := by
  rcases enters with ⟨rfl, rfl⟩ | ⟨inner, a, rfl, rfl, holds⟩
  · exact Or.inl ⟨rfl, by rw [← bind_pure_comp, limit.refused_bind]⟩
  · exact Or.inr ⟨inner, f a, rfl, map_pure f a, wraps inner a holds⟩

theorem mapM_fit_map (room : Nat) (f : ι → m β) (size : α → Nat) (g : α → β) (items : List ι)
    (values : List α) (each :
      List.Forall₂ (fun i a => f i = limit.fit room (size a) (g a)) items values) :
    items.mapM f = limit.fit room (values.foldr (fun a n => max (size a) n) 0) (values.map g) := by
  induction each with
  | nil => exact (limit.fit_zero room []).symm
  | @cons i a items values first _ ih =>
      rw [List.mapM_cons, first, ih]
      apply limit.fit_bind room (size a) _ (g a) _ (g a :: values.map g)
      exact limit.fit_bind_pure room _ _ _ _ rfl

theorem mapM_fit (room : Nat) (f : ι → m α) (size : α → Nat) (items : List ι) (results : List α)
    (each : List.Forall₂ (fun i a => f i = limit.fit room (size a) a) items results) :
    items.mapM f = limit.fit room (results.foldr (fun a n => max (size a) n) 0) results := by
  rw [limit.mapM_fit_map room f size id items results each, List.map_id]

end Limit

/-- The places of these members, to be left as soon as all of them have been seen. -/
def Entries.Hold (stands : κ → Value → Prop) (spells : κ → String → Prop)
    (members : List (String × Value)) (opened : Entries κ m) : Prop :=
  List.Forall₂ (fun entry member => spells entry.1 member.1 ∧ stands entry.2 member.2)
    opened.entries
    members ∧ opened.close = pure ()

/-- The laws of a source in which written values stand. -/
structure Faithful (κ : Type) (m : Type → Type) [Monad m] [Refusing m] [Source κ m] extends
    Limit m where
  stands : Nat → κ → Value → Prop
  spells : κ → String → Prop
  within_pure : ∀ {α : Type} (place : κ) (a : α), Source.within place (pure a : m α) = pure a
  within_refused : ∀ {α : Type} (place : κ), Source.within place (refused : m α) = refused
  text_eq : ∀ room place s wanted, stands room place (.text s) → Source.text wanted place = pure s
  flag_eq : ∀ room place b, stands room place (.flag b) → Source.flag place = pure b
  variant_eq : ∀ {α : Type} room place s (pick : String → m α) a,
    stands room place (.text s) → pick s = pure a → Source.variant pick place = pure a
  verbatim_eq : ∀ room place (a : Verbatim), stands room place a.val →
    Source.verbatim place = toLimit.fit room a.val.depth a
  buffer_eq : ∀ room place value wanted, stands room place value →
    Source.buffer wanted place = toLimit.fit room value.depth (Buffer.ofValue value)
  present_eq : ∀ room place value, stands room place value → value ≠ .null →
    ∃ found, Source.present place = pure (some found) ∧ stands room found value
  list_eq : ∀ room place items, stands room place (.list items) →
    toLimit.Enters room (Source.list place) fun inner opened =>
      List.Forall₂ (stands inner) opened.items items ∧ opened.close items.length = pure ()
  mapping_eq : ∀ room place members wanted, stands room place (.object members) →
    toLimit.Enters room (Source.mapping wanted place) fun inner opened =>
      opened.Hold (stands inner) spells members
  record_eq : ∀ room place members title, stands room place (.object members) →
    toLimit.Enters room (Source.record title place) fun inner form =>
      ∃ opened, form = .named opened ∧ opened.Hold (stands inner) spells members
  union_eq : ∀ room place members title, stands room place (.object members) →
    toLimit.Enters room (Source.union title place) fun inner form =>
      ∃ opened, form = .named opened ∧ opened.Hold (stands inner) spells members
  key_label : ∀ place name, spells place name → Source.label place = pure (.name name)
  key_text : ∀ place name, spells place name → Source.text .text place = pure name
  key_buffer : ∀ place name wanted, spells place name →
    Source.buffer wanted place = pure (Buffer.text name)

-- Buffers as a source. Buffered values may be nested to any depth, so there is always room for
-- them.
/-- Nothing is ever too deep here, so it plays no part how that would be refused. -/
def Buffer.limit : Limit (Except Mismatch) := ⟨refuse .taggedContent, fun _ => rfl⟩

def Buffer.Stands (room : Nat) (b : Buffer) (value : Value) : Prop :=
  b = .ofValue value ∧ value.depth ≤ room

def Buffer.Spells (b : Buffer) (name : String) : Prop := b = .text name

theorem Buffer.enters {α : Type} (room depth : Nat) (a : α) (sound : Nat → α → Prop)
    (fits : depth + 1 ≤ room) (holds : ∀ inner, depth ≤ inner → sound inner a) :
    Buffer.limit.Enters room (.ok a) sound := by
  cases room with
  | zero => exact absurd fits (Nat.not_succ_le_zero depth)
  | succ inner => exact Or.inr ⟨inner, a, rfl, rfl, holds inner (Nat.le_of_succ_le_succ fits)⟩

theorem Buffer.opened_hold (room : Nat) (items : List Value)
    (fits : Value.depthItems items ≤ room) :
    List.Forall₂ (Stands room) (Buffer.opened (ofItems items)).items items ∧
      (Buffer.opened (ofItems items)).close items.length = .ok () := by
  constructor
  · change List.Forall₂ _ (ofItems items) items
    rw [ofItems_eq, List.forall₂_map_left_iff, List.forall₂_same]
    intro value member
    exact ⟨rfl, (Value.depthItems_le_iff items room).mp fits value member⟩
  · simp [Buffer.opened, ofItems_eq]

theorem Buffer.entered_hold (room : Nat) (members : List (String × Value))
    (fits : Value.depthMembers members ≤ room) :
    (Buffer.entered (ofMembers members)).Hold (Stands room) Spells members := by
  constructor
  · change List.Forall₂ _ (ofMembers members) members
    rw [ofMembers_eq, List.forall₂_map_left_iff, List.forall₂_same]
    intro member held
    exact ⟨rfl, rfl, (Value.depthMembers_le_iff members room).mp fits member held⟩
  · rfl

def Faithful.buffered : Faithful Buffer (Except Mismatch) where
  toLimit := Buffer.limit
  stands := Buffer.Stands
  spells := Buffer.Spells
  within_pure _ _ := rfl
  within_refused _ := rfl
  text_eq := by rintro room _ s wanted ⟨rfl, _⟩; rfl
  flag_eq := by rintro room _ b ⟨rfl, _⟩; rfl
  variant_eq := by rintro α room _ s pick a ⟨rfl, _⟩ picked; exact picked
  verbatim_eq := by
    rintro room _ a ⟨rfl, fits⟩
    rw [Limit.fit, if_pos fits]
    exact (Buffer.readVerbatim_ofValue a.val).trans (congrArg Except.ok a.ofValue_val)
  buffer_eq := by
    rintro room _ value wanted ⟨rfl, fits⟩
    rw [Limit.fit, if_pos fits]
    rfl
  present_eq := by
    rintro room _ value ⟨rfl, fits⟩ notNull
    refine ⟨.ofValue value, ?_, rfl, fits⟩
    cases value with
    | null => exact absurd rfl notNull
    | number n => cases n <;> rfl
    | _ => rfl
  list_eq := by
    rintro room _ items ⟨rfl, fits⟩
    apply Buffer.enters room _ _ _ fits
    intro inner fits
    exact Buffer.opened_hold inner items fits
  mapping_eq := by
    rintro room _ members wanted ⟨rfl, fits⟩
    apply Buffer.enters room _ _ _ fits
    intro inner fits
    exact Buffer.entered_hold inner members fits
  record_eq := by
    rintro room _ members title ⟨rfl, fits⟩
    apply Buffer.enters room _ _ _ fits
    intro inner fits
    exact ⟨_, rfl, Buffer.entered_hold inner members fits⟩
  union_eq := by
    rintro room _ members title ⟨rfl, fits⟩
    apply Buffer.enters room _ _ _ fits
    intro inner fits
    exact ⟨_, rfl, Buffer.entered_hold inner members fits⟩
  key_label := by rintro _ name rfl; rfl
  key_text := by rintro _ name rfl; rfl
  key_buffer := by rintro _ name wanted rfl; rfl

end SwaggerLift
