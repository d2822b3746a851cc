import SwaggerLift.Value.Basic
/-!
Values without fractions, and the depth of values: that of a list or an object is bounded by a
number exactly if that of each of its parts is, up to the level that it adds itself.
-/

namespace SwaggerLift.Value

mutual

def floatFree : Value → Bool
  | .number (.float _ _) => false
  | .list items => itemsFloatFree items
  | .object members => membersFloatFree members
  | _ => true

def itemsFloatFree : List Value → Bool
  | [] => true
  | value :: rest => value.floatFree && itemsFloatFree rest

def membersFloatFree : List (String × Value) → Bool
  | [] => true
  | (_, value) :: rest => value.floatFree && membersFloatFree rest

end

theorem itemsFloatFree_iff (items : List Value) :
    itemsFloatFree items = true ↔ ∀ value ∈ items, value.floatFree = true := by
  induction items with
  | nil => simp [itemsFloatFree]
  | cons value rest ih => rw [itemsFloatFree, Bool.and_eq_true, ih, List.forall_mem_cons]

theorem membersFloatFree_iff (members : List (String × Value)) :
    membersFloatFree members = true ↔ ∀ member ∈ members, member.2.floatFree = true := by
  induction members with
  | nil => simp [membersFloatFree]
  | cons first rest ih =>
      rcases first with ⟨name, value⟩
      rw [membersFloatFree, Bool.and_eq_true, ih, List.forall_mem_cons]

theorem depthItems_le_iff (items : List Value) (n : Nat) :
    depthItems items ≤ n ↔ ∀ value ∈ items, value.depth ≤ n := by
  induction items with
  | nil => simp [depthItems]
  | cons value rest ih => rw [depthItems, Nat.max_le, ih, List.forall_mem_cons]

theorem depthMembers_le_iff (members : List (String × Value)) (n : Nat) :
    depthMembers members ≤ n ↔ ∀ member ∈ members, member.2.depth ≤ n := by
  induction members with
  | nil => simp [depthMembers]
  | cons first rest ih =>
      rcases first with ⟨name, value⟩
      rw [depthMembers, Nat.max_le, ih, List.forall_mem_cons]

theorem depth_object_le_iff (members : List (String × Value)) (n : Nat) :
    (object members).depth ≤ n + 1 ↔ ∀ member ∈ members, member.2.depth ≤ n := by
  rw [depth, Nat.add_le_add_iff_right, depthMembers_le_iff]

theorem depth_list_le_iff (items : List Value) (n : Nat) :
    (list items).depth ≤ n + 1 ↔ ∀ item ∈ items, item.depth ≤ n := by
  rw [depth, Nat.add_le_add_iff_right, depthItems_le_iff]

theorem exists_room_of_object {members : List (String × Value)} {n : Nat}
    (fits : (object members).depth ≤ n) :
    ∃ inner, n = inner + 1 ∧ ∀ member ∈ members, member.2.depth ≤ inner := by
  cases n with
  | zero => cases fits
  | succ inner => exact ⟨inner, rfl, (depth_object_le_iff members inner).mp fits⟩

theorem exists_room_of_list {items : List Value} {n : Nat} (fits : (list items).depth ≤ n) :
    ∃ inner, n = inner + 1 ∧ ∀ item ∈ items, item.depth ≤ inner := by
  cases n with
  | zero => cases fits
  | succ inner => exact ⟨inner, rfl, (depth_list_le_iff items inner).mp fits⟩

theorem depthItems_eq (items : List Value) :
    depthItems items = items.foldr (fun value n => max value.depth n) 0 := by
  induction items with
  | nil => rfl
  | cons value rest ih => rw [depthItems, ih, List.foldr_cons]

theorem depthMembers_eq (members : List (String × Value)) :
    depthMembers members = members.foldr (fun member n => max member.2.depth n) 0 := by
  induction members with
  | nil => rfl
  | cons first rest ih => rw [depthMembers, ih, List.foldr_cons]

theorem depthItems_map {α : Type} (f : α → Value) (items : List α) :
    depthItems (items.map f) = items.foldr (fun a n => max (f a).depth n) 0 := by
  rw [depthItems_eq, List.foldr_map]

theorem depthMembers_map {α : Type} (f : α → String × Value) (items : List α) :
    depthMembers (items.map f) = items.foldr (fun a n => max (f a).2.depth n) 0 := by
  rw [depthMembers_eq, List.foldr_map]

theorem depthMembers_append (first second : List (String × Value)) :
    depthMembers (first ++ second) = max (depthMembers first) (depthMembers second) := by
  induction first with
  | nil => simp [depthMembers]
  | cons member rest ih =>
      rcases member with ⟨name, value⟩
      rw [List.cons_append, depthMembers, depthMembers, ih, Nat.max_assoc]

end SwaggerLift.Value
