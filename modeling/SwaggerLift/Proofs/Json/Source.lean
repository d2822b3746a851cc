import SwaggerLift.Json.Source
import SwaggerLift.Proofs.Layout.RoundTrip
/-!
The tree of a document value, and what JSON answers where such a tree stands: it is a faithful
source with room for as many levels as a place has. What needs more levels counts as malformed text.
-/

namespace SwaggerLift.Json

mutual

/-- The tree of a well formed text that says this value, where its numbers are read like this. -/
def Tree.ofValue (number : Number → Reading Number) : Value → Tree
  | .null => .null
  | .flag b => .flag b
  | .number n => .number (number n)
  | .text s => .text (.clean s)
  | .list items => .list (ofItems number items) none
  | .object members => .object (ofMembers number members) none

def Tree.ofItems (number : Number → Reading Number) : List Value → List Tree
  | [] => []
  | value :: rest => ofValue number value :: ofItems number rest

def Tree.ofMembers (number : Number → Reading Number) : List (String × Value) → List (Key × Tree)
  | [] => []
  | (name, value) :: rest => (.text (.clean name), ofValue number value) :: ofMembers number rest

end

theorem Tree.ofItems_eq (number : Number → Reading Number) (items : List Value) :
    ofItems number items = items.map (ofValue number) := by
  induction items with
  | nil => rfl
  | cons value rest ih => rw [ofItems, ih, List.map_cons]

theorem Tree.ofMembers_eq (number : Number → Reading Number) (members : List (String × Value)) :
    ofMembers number members =
      members.map fun member => (.text (.clean member.1), ofValue number member.2) := by
  induction members with
  | nil => rfl
  | cons first rest ih => rw [ofMembers, ih, List.map_cons]

instance : LawfulSource Place Result where
  refuse_bind _ _ := rfl
  yields_within _ _ holds := holds

def limit : Limit Result := ⟨.error (.cut .malformed), fun _ => rfl⟩

mutual

theorem Tree.buffer_ofValue (value : Value) (room : Nat) :
    (Tree.ofValue .clean value).buffer room =
      limit.fit room value.depth (Buffer.ofValue value) := by
  match value with
  | .null | .flag b | .text s => rfl
  | .number n => cases n <;> rfl
  | .list items =>
      cases room with
      | zero => rfl
      | succ room =>
          rw [Tree.ofValue, Tree.buffer, itemBuffers_ofItems items room]
          rw [Value.depth, limit.fit_succ]
          exact limit.fit_bind_pure room _ _ _ _ rfl
  | .object members =>
      cases room with
      | zero => rfl
      | succ room =>
          rw [Tree.ofValue, Tree.buffer, memberBuffers_ofMembers members room]
          rw [Value.depth, limit.fit_succ]
          exact limit.fit_bind_pure room _ _ _ _ rfl

theorem itemBuffers_ofItems (items : List Value) (room : Nat) :
    itemBuffers room (Tree.ofItems .clean items) =
      limit.fit room (Value.depthItems items) (Buffer.ofItems items) := by
  match items with
  | [] => rfl
  | value :: rest =>
      rw [Tree.ofItems, itemBuffers, Tree.buffer_ofValue value room, itemBuffers_ofItems rest room]
      exact limit.fit_bind room _ _ _ _ _ (limit.fit_bind_pure room _ _ _ _ rfl)

theorem memberBuffers_ofMembers (members : List (String × Value)) (room : Nat) :
    memberBuffers room (Tree.ofMembers .clean members) =
      limit.fit room (Value.depthMembers members) (Buffer.ofMembers members) := by
  match members with
  | [] => rfl
  | (name, value) :: rest =>
      rw [Tree.ofMembers, memberBuffers, Tree.buffer_ofValue value room,
        memberBuffers_ofMembers rest room]
      exact limit.fit_bind room _ _ _ _ _ (limit.fit_bind_pure room _ _ _ _ rfl)

end

theorem Place.verbatim_ofValue (room : Nat) (value : Value) :
    Source.verbatim (Place.mk room (.ofValue .clean value)) =
      limit.fit room value.depth (Verbatim.ofValue value) := by
  change (do settle (← (Tree.ofValue .clean value).buffer room).readVerbatim) = _
  rw [Tree.buffer_ofValue]
  apply limit.fit_bind_pure room
  rw [Buffer.readVerbatim_ofValue]
  rfl

theorem Place.openList_enters (room : Nat) (tree : Tree) (items : List Value) :
    limit.Enters room (Place.openList ⟨room, tree⟩ (Tree.ofItems .clean items) none)
      fun inner opened =>
      List.Forall₂ (fun place value => place = ⟨inner, .ofValue .clean value⟩) opened.items items ∧
        opened.close items.length = pure () := by
  cases room with
  | zero => exact Or.inl ⟨rfl, rfl⟩
  | succ room =>
      refine Or.inr ⟨room, _, rfl, rfl, ?_, ?_⟩
      · rw [Tree.ofItems_eq]
        simp [List.forall₂_map_left_iff, List.forall₂_same]
      · simp [Tree.ofItems_eq]
        rfl

theorem Place.openObject_enters (room : Nat) (tree : Tree) (members : List (String × Value)) :
    limit.Enters room (Place.openObject ⟨room, tree⟩ (Tree.ofMembers .clean members) none)
      fun inner opened =>
      opened.Hold (fun place value => place = ⟨inner, .ofValue .clean value⟩)
        (fun place name => place.tree = .text (.clean name)) members := by
  cases room with
  | zero => exact Or.inl ⟨rfl, rfl⟩
  | succ room =>
      refine Or.inr ⟨room, _, rfl, rfl, ?_, rfl⟩
      rw [Tree.ofMembers_eq]
      simp [List.forall₂_map_left_iff, List.forall₂_same, Key.toTree]

def faithful : Faithful Place Result where
  toLimit := limit
  stands room place value := place = ⟨room, .ofValue .clean value⟩
  spells place name := place.tree = .text (.clean name)
  within_pure _ _ := rfl
  within_refused _ := rfl
  text_eq := by rintro room _ s wanted rfl; rfl
  flag_eq := by rintro room _ b rfl; rfl
  variant_eq := by rintro α room _ s pick a rfl picked; exact picked
  verbatim_eq := by
    rintro room _ a rfl
    rw [Place.verbatim_ofValue, Verbatim.ofValue_val]
  buffer_eq := by rintro room _ value wanted rfl; exact Tree.buffer_ofValue value room
  present_eq := by
    rintro room _ value rfl notNull
    refine ⟨_, ?_, rfl⟩
    cases value with
    | null => exact absurd rfl notNull
    | _ => rfl
  list_eq := by rintro room _ items rfl; exact Place.openList_enters room _ items
  mapping_eq := by rintro room _ members wanted rfl; exact Place.openObject_enters room _ members
  record_eq := by
    rintro room _ members title rfl
    exact (Place.openObject_enters room _ members).map limit Form.named fun inner opened hold =>
      ⟨opened, rfl, hold⟩
  union_eq := by
    rintro room _ members title rfl
    exact (Place.openObject_enters room _ members).map limit Form.named fun inner opened hold =>
      ⟨opened, rfl, hold⟩
  key_label := by rintro ⟨room, _⟩ name rfl; rfl
  key_text := by rintro ⟨room, _⟩ name rfl; rfl
  key_buffer := by rintro ⟨room, _⟩ name wanted rfl; rfl

end SwaggerLift.Json
