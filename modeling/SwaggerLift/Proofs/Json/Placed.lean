import SwaggerLift.Proofs.Json.Part
import SwaggerLift.Proofs.Json.Print
import SwaggerLift.Proofs.Layout.Edited
/-!
What a JSON text means as a whole value, and that values which differ only where a layout does not
look are read alike from the texts that mean them, however these are spelled.
-/

namespace SwaggerLift.Json

mutual

theorem Tree.passed_ofValue (value : Value) : (Tree.ofValue .clean value).passed = none := by
  match value with
  | .null | .flag _ | .number _ | .text _ => rfl
  | .list items => rw [Tree.ofValue, Tree.passed, itemsPassed_ofItems items, Option.none_or]
  | .object members =>
      rw [Tree.ofValue, Tree.passed, membersPassed_ofMembers members, Option.none_or]

theorem itemsPassed_ofItems (items : List Value) :
    itemsPassed (Tree.ofItems .clean items) = none := by
  match items with
  | [] => rfl
  | value :: rest =>
      rw [Tree.ofItems, itemsPassed, Tree.passed_ofValue value, itemsPassed_ofItems rest,
        Option.none_or]

theorem membersPassed_ofMembers (members : List (String × Value)) :
    membersPassed (Tree.ofMembers .clean members) = none := by
  match members with
  | [] => rfl
  | (name, value) :: rest =>
      rw [Tree.ofMembers, membersPassed, Tree.passed_ofValue value, membersPassed_ofMembers rest]
      rfl

end

theorem Place.openObject_ofMembers (room : Nat) (tree : Tree) (members : List (String × Value)) :
    Place.openObject ⟨room + 1, tree⟩ (Tree.ofMembers .clean members) none =
      .ok (.ofMembers (fun s => ⟨room, .text (.clean s)⟩) (fun value =>
        ⟨room, .ofValue .clean value⟩) members) := by
  rw [Tree.ofMembers_eq, Entries.ofMembers]
  simp only [Place.openObject, Place.inside, List.map_map]
  rfl

theorem Place.form_ofValue (room : Nat) (members : List (String × Value)) (wanted : Wanted) :
    Place.form wanted ⟨room + 1, .ofValue .clean (.object members)⟩ = .ok (.named
      (.ofMembers (fun s => ⟨room, .text (.clean s)⟩) (fun value => ⟨room, .ofValue .clean value⟩)
        members)) := by
  rw [Tree.ofValue, Place.form]
  dsimp only
  rw [Place.openObject_ofMembers]
  rfl

/-- The trees of values. What is nested more deeply than there is room for cannot
    be opened or buffered. -/
def placed : Placed Place Fault where
  place room value := ⟨room, .ofValue .clean value⟩
  name room s := ⟨room, .text (.clean s)⟩
  within_eq _ _ := rfl
  text_iff room value wanted s := by
    cases value with
    | text t => simp [Source.text, Tree.ofValue, Place.text, Reading.clean, lift]
    | _ => simp [Source.text, Tree.ofValue, Place.text, Tree.refused_ne_ok]
  skip_eq room value := congrArg check (Tree.passed_ofValue value)
  buffer_eq room value wanted fits := by
    refine (Tree.buffer_ofValue value room).trans ?_
    rw [Limit.fit, if_pos fits]
    rfl
  present_null _ := rfl
  present_eq room value filled := by
    cases value with
    | null => exact absurd rfl filled
    | _ => rfl
  list_eq room items := by
    refine ⟨fun taken =>
      if taken < items.length then .error (.cut .malformed) else check none, ?_, ?_⟩
    · simp only [Source.list, Tree.ofValue, Tree.ofItems_eq, Place.openList, Place.inside,
        List.map_map, List.length_map]
      rfl
    · exact if_neg (Nat.lt_irrefl _)
  mapping_eq room members wanted := Place.openObject_ofMembers room _ members
  record_eq room members title := Place.form_ofValue room members _
  union_eq room members title := Place.form_ofValue room members _
  key_label _ _ := rfl
  key_text _ _ := rfl
  key_buffer _ _ _ := rfl

/-- The text is well formed and means this value, and nothing but blanks stands behind it. -/
def Means (text : String) (value : Value) : Prop :=
  Parsed.ofText text = ⟨.ofValue .clean value, false⟩

theorem means_compact (value : Value) (whole : value.floatFree = true) :
    Means (compact value) value := by
  rw [Means, ofText_compact, Tree.ofValue_of_floatFree value whole]

theorem Means.read_eq {text : String} {value : Value} (means : Means text value) {α : Type}
    (layout : Layout α) : read layout text = layout.read (placed.place deepest value) := by
  rw [read, means, Parsed.read]
  simp only [Bool.false_eq_true, if_false, bind_pure]
  rfl

/-- Whatever text means the value and whatever text means the edited one, the
    same is read from both. -/
theorem read_edited {α : Type} (layout : Layout α) (wellFormed : layout.WellFormed)
    (given edited : Value) (changed : layout.Edited given edited) (fits : given.depth ≤ deepest)
    (fitsToo : edited.depth ≤ deepest) (text other : String) (means : Means text given)
    (meansToo : Means other edited) (a : α) (done : read layout text = .ok a) :
    read layout other = .ok a := by
  rw [means.read_eq] at done
  rw [meansToo.read_eq]
  exact layout.read_edited wellFormed placed deepest given edited changed fits fitsToo a done

end SwaggerLift.Json
