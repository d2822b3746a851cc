import SwaggerLift.Convert.Omit
/-!
What is left out, and what stays as it is. For texts, lists and tables alike a value stays exactly
if it is not empty.
-/

namespace SwaggerLift

section Emptiness

variable {α : Type} [Emptiness α]

theorem unlessEmpty_eq_none_iff (a : α) : unlessEmpty a = none ↔ Emptiness.isEmpty a = true := by
  simp [unlessEmpty]

theorem unlessEmpty_eq_some_iff (a b : α) :
    unlessEmpty a = some b ↔ a = b ∧ ¬ Emptiness.isEmpty b = true := by
  rw [unlessEmpty]
  constructor
  · intro kept
    split at kept
    · cases kept
    · cases kept
      exact ⟨rfl, ‹_›⟩
  · rintro ⟨rfl, filled⟩
    rw [if_neg filled]

theorem omitEmpty_eq_some_iff (a : Option α) (b : α) :
    omitEmpty a = some b ↔ a = some b ∧ ¬ Emptiness.isEmpty b = true := by
  cases a with
  | none => simp [omitEmpty]
  | some a => simp [omitEmpty, unlessEmpty_eq_some_iff]

end Emptiness

theorem isEmpty_text_iff (text : String) : Emptiness.isEmpty text = true ↔ text = "" :=
  String.isEmpty_iff

theorem omitEmpty_ne_empty (text : Option String) : omitEmpty text ≠ some "" := by
  intro kept
  exact ((omitEmpty_eq_some_iff text "").mp kept).2 rfl

theorem omitEmpty_text (text : Option String) : omitEmpty text =
    if text = some "" then none else text := by
  ext kept
  rw [omitEmpty_eq_some_iff, isEmpty_text_iff]
  split
  · next blank => simp [blank, eq_comm]
  · next filled =>
      refine and_iff_left_of_imp fun given => ?_
      rintro rfl
      exact filled given

theorem omitEmpty_eq_none_iff (text : Option String) : omitEmpty text = none ↔
    text.getD "" = "" := by
  rw [omitEmpty_text]
  cases text <;> simp

section Lists

variable {α β : Type}

theorem isEmpty_list_iff (items : List α) : Emptiness.isEmpty items = true ↔ items = [] :=
  List.isEmpty_iff

theorem getD_unlessEmpty (items : List α) : (unlessEmpty items).getD [] = items := by
  cases items <;> rfl

theorem unlessEmpty_inj (items others : List α) : unlessEmpty items = unlessEmpty others ↔
    items = others := by
  constructor
  · intro same
    rw [← getD_unlessEmpty items, same, getD_unlessEmpty]
  · rintro rfl
    rfl

theorem unlessEmpty_map (f : α → β) (items : List α) :
    unlessEmpty (items.map f) = (unlessEmpty items).map (List.map f) := by
  cases items <;> rfl

end Lists

theorem unlessEmpty_of_find? {α : Type} (t : Table α) (key : String) (value : α)
    (found : t.find? key = some value) : unlessEmpty t = some t := by
  refine (unlessEmpty_eq_some_iff t t).mpr ⟨rfl, fun empty => ?_⟩
  have none : t.entries = [] := List.isEmpty_iff.mp empty
  rw [Table.find?, none] at found
  cases found

end SwaggerLift
