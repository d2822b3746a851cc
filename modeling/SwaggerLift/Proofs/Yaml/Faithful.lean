import SwaggerLift.Proofs.Layout.RoundTrip
import SwaggerLift.Proofs.Yaml.Composition
import SwaggerLift.Yaml.Source
/-!
What YAML answers where the node of a value stands: it is a faithful source with room for as many
levels as a place has. There are no tags and no aliases in such a node, so what an alias stands for
plays no part, and no alias is counted.
-/

namespace SwaggerLift.Yaml

def limit : Limit Reader := ⟨fault .tooDeep, fun _ => rfl⟩

theorem located_fit {α : Type} (trail : Trail) (room depth : Nat) (a : α) :
    located trail (limit.fit room depth a) = limit.fit room depth a := by
  rw [Limit.fit]
  split <;> rfl

theorem numbered_snd {α : Type} (items : List α) : (numbered items).map Prod.snd = items :=
  List.map_snd_zip (by simp)

theorem forall₂_numbered {α β : Type} {R : α → β → Prop} {items : List α} {values : List β}
    (beside : List.Forall₂ R items values) :
    List.Forall₂ (fun entry value => R entry.2 value) (numbered items) values := by
  rw [← List.forall₂_map_left_iff (f := Prod.snd), numbered_snd]
  exact beside

section

variable (document : Document)

theorem follow_ofValue (value : Value) :
    follow document (.ofValue value) = pure (.ofValue value) := by
  cases value <;> rw [Node.ofValue] <;> rfl

theorem Node.ofValue_text (s : String) : ofValue (.text s) = .scalar none (styleOf s.toList) s := by
  rw [ofValue, leaf, String.ofList_toList]

theorem localName?_ofValue (value : Value) : localName? (Node.ofValue value).tag = none := by
  cases value <;> rw [Node.ofValue] <;> rfl

theorem enter_fit {α : Type} (room depth : Nat) (inside : Nat → Reader α) (a : α)
    (inner : ∀ inner, inside inner = limit.fit inner depth a) :
    enter room inside = limit.fit room (depth + 1) a := by
  cases room with
  | zero => rw [limit.fit_without_room]; rfl
  | succ room => rw [limit.fit_succ]; exact inner room

variable (room : Nat) (trail : Trail) (wanted : Wanted)

theorem readText_scalar (style : Style) (text : String) :
    readText document trail wanted (.scalar none style text) = pure text := rfl

theorem readBuffer_leaf (value : Value) (single : isLeaf value = true)
    (whole : value.floatFree = true) :
    readBuffer document room trail wanted (.ofValue value) = pure (Buffer.ofValue value) := by
  have means := meaning_leaf value single whole
  rw [readBuffer, follow_ofValue, pure_bind, localName?_ofValue, Option.isSome_none,
    if_neg Bool.false_ne_true, Node.ofValue_leaf value single]
  simp only [means]
  match value with
  | .null | .flag _ | .text _ => rfl
  | .number (.whole w) => simp only [meant, Whole.ofInt?_val]; rfl

theorem readBuffer_name (name : String) :
    readBuffer document room trail wanted (.scalar none (styleOf name.toList) name) =
      pure (Buffer.text name) := by
  rw [readBuffer]
  simp only [follow, pure_bind, meaning_styleOf]
  rfl

theorem readBuffer_sequence (items : List Node) :
    readBuffer document room trail wanted (.sequence none items) =
      located trail (enter room fun room => do
      let buffers ← (numbered items).mapM fun (index, item) =>
        readBuffer document room (trail.item index) .anything item
      return .list buffers) := by
  cases room <;> (rw [readBuffer]; rfl)

theorem readBuffer_mapping (entries : List (Node × Node)) :
    readBuffer document room trail wanted (.mapping none entries) =
      located trail (enter room fun room => do
      let buffers ← entries.mapM fun (key, value) => do
        let name ← readBuffer document room trail .anything key
        let value ← readBuffer document room (trail.under key) .anything value
        return (name, value)
      return .mapping buffers) := by
  cases room <;> (rw [readBuffer]; rfl)

theorem readVerbatim_leaf (value : Value) (single : isLeaf value = true)
    (whole : value.floatFree = true) :
    readVerbatim document room trail (.ofValue value) = pure (.ofValue value) := by
  have means := meaning_leaf value single whole
  rw [readVerbatim, follow_ofValue, pure_bind, localName?_ofValue, Option.isSome_none,
    if_neg Bool.false_ne_true, Node.ofValue_leaf value single]
  simp only [means]
  match value with
  | .null | .flag _ | .text _ => rfl
  | .number (.whole w) => simp only [meant, Whole.ofInt?_val]; rfl

theorem readVerbatim_sequence (items : List Node) :
    readVerbatim document room trail (.sequence none items) =
      located trail (enter room fun room => do
      let values ← (numbered items).mapM fun (index, item) =>
        readVerbatim document room (trail.item index) item
      return .list values) := by
  cases room <;> (rw [readVerbatim]; rfl)

theorem readVerbatim_mapping (entries : List (Node × Node)) :
    readVerbatim document room trail (.mapping none entries) =
      located trail (enter room fun room => do
      let members ← (numbered entries).mapM fun (index, key, value) => do
        let name ← readText document trail (if index = 0 then .textKey else .text) key
        let value ← readVerbatim document room (trail.under key) value
        return (name, value)
      return .object (.ofList members)) := by
  cases room <;> (rw [readVerbatim]; rfl)

end

mutual

theorem readBuffer_ofValue (document : Document) (value : Value) (whole : value.floatFree = true)
    (room : Nat) (trail : Trail) (wanted : Wanted) :
    readBuffer document room trail wanted (.ofValue value) =
      limit.fit room value.depth (Buffer.ofValue value) := by
  match value with
  | .null | .flag _ | .number _ | .text _ =>
      exact readBuffer_leaf document room trail wanted _ rfl whole
  | .list items =>
      rw [Node.ofValue, readBuffer_sequence, Value.depth, ← located_fit trail, Buffer.ofValue]
      refine congrArg (located trail) (enter_fit room _ _ _ fun inner => ?_)
      have each := forall₂_numbered (readBuffer_ofItems document items whole)
      rw [limit.mapM_fit_map inner _ Value.depth Buffer.ofValue _ items
        (each.imp fun _ _ same => same _ _), ← Value.depthItems_eq, ← Buffer.ofItems_eq]
      exact limit.fit_bind_pure inner _ _ _ _ rfl
  | .object members =>
      rw [Node.ofValue, readBuffer_mapping, Value.depth, ← located_fit trail, Buffer.ofValue]
      refine congrArg (located trail) (enter_fit room _ _ _ fun inner => ?_)
      have each := readBuffer_ofMembers document members whole inner trail
      rw [limit.mapM_fit_map inner _ (fun member => member.2.depth) _ _ members each,
        ← Value.depthMembers_eq, ← Buffer.ofMembers_eq]
      exact limit.fit_bind_pure inner _ _ _ _ rfl

theorem readBuffer_ofItems (document : Document) (items : List Value)
    (whole : Value.itemsFloatFree items = true) :
    List.Forall₂ (fun node value => ∀ room trail, readBuffer document room trail .anything node =
      limit.fit room value.depth (Buffer.ofValue value)) (Node.ofItems items) items := by
  match items with
  | [] => exact .nil
  | item :: rest =>
      obtain ⟨first, later⟩ := Bool.and_eq_true_iff.mp whole
      exact .cons (fun room trail => readBuffer_ofValue document item first room trail .anything)
        (readBuffer_ofItems document rest later)

theorem readBuffer_ofMembers (document : Document) (members : List (String × Value))
    (whole : Value.membersFloatFree members = true) (room : Nat) (trail : Trail) :
    List.Forall₂ (fun (entry : Node × Node) (member : String × Value) =>
      (do
        let name ← readBuffer document room trail .anything entry.1
        let value ← readBuffer document room (trail.under entry.1) .anything entry.2
        return (name, value)) =
          limit.fit room member.2.depth (Buffer.text member.1, Buffer.ofValue member.2))
      (Node.ofMembers members) members := by
  match members with
  | [] => exact .nil
  | (name, value) :: rest =>
      obtain ⟨first, later⟩ := Bool.and_eq_true_iff.mp whole
      refine .cons ?_ (readBuffer_ofMembers document rest later room trail)
      rw [readBuffer_name, pure_bind, readBuffer_ofValue document value first]
      exact limit.fit_bind_pure room _ _ _ _ rfl

end

mutual

theorem readVerbatim_ofValue (document : Document) (value : Value) (whole : value.floatFree = true)
    (room : Nat) (trail : Trail) :
    readVerbatim document room trail (.ofValue value) =
      limit.fit room value.depth (Verbatim.ofValue value) := by
  match value with
  | .null | .flag _ | .number _ | .text _ => exact readVerbatim_leaf document room trail _ rfl whole
  | .list items =>
      rw [Node.ofValue, readVerbatim_sequence, Value.depth, ← located_fit trail, Verbatim.ofValue]
      refine congrArg (located trail) (enter_fit room _ _ _ fun inner => ?_)
      have each := forall₂_numbered (readVerbatim_ofItems document items whole)
      rw [limit.mapM_fit_map inner _ Value.depth Verbatim.ofValue _ items
        (each.imp fun _ _ same => same _ _), ← Value.depthItems_eq, ← Verbatim.ofItems_eq]
      exact limit.fit_bind_pure inner _ _ _ _ rfl
  | .object members =>
      rw [Node.ofValue, readVerbatim_mapping, Value.depth, ← located_fit trail, Verbatim.ofValue]
      refine congrArg (located trail) (enter_fit room _ _ _ fun inner => ?_)
      have each := forall₂_numbered (readVerbatim_ofMembers document members whole trail)
      rw [limit.mapM_fit_map inner _ (fun member => member.2.depth) _ _ members
        (each.imp fun _ _ same => same _ _), ← Value.depthMembers_eq, ← Verbatim.ofMembers_eq]
      exact limit.fit_bind_pure inner _ _ _ _ rfl

theorem readVerbatim_ofItems (document : Document) (items : List Value)
    (whole : Value.itemsFloatFree items = true) :
    List.Forall₂ (fun node value => ∀ room trail, readVerbatim document room trail node =
      limit.fit room value.depth (Verbatim.ofValue value)) (Node.ofItems items) items := by
  match items with
  | [] => exact .nil
  | item :: rest =>
      obtain ⟨first, later⟩ := Bool.and_eq_true_iff.mp whole
      exact .cons (fun room trail => readVerbatim_ofValue document item first room trail)
        (readVerbatim_ofItems document rest later)

theorem readVerbatim_ofMembers (document : Document) (members : List (String × Value))
    (whole : Value.membersFloatFree members = true) (trail : Trail) :
    List.Forall₂ (fun (entry : Node × Node) (member : String × Value) => ∀ room wanted,
      (do
        let name ← readText document trail wanted entry.1
        let value ← readVerbatim document room (trail.under entry.1) entry.2
        return (name, value)) = limit.fit room member.2.depth (member.1, Verbatim.ofValue member.2))
      (Node.ofMembers members) members := by
  match members with
  | [] => exact .nil
  | (name, value) :: rest =>
      obtain ⟨first, later⟩ := Bool.and_eq_true_iff.mp whole
      refine .cons (fun room wanted => ?_) (readVerbatim_ofMembers document rest later trail)
      rw [readText_scalar, pure_bind, readVerbatim_ofValue document value first]
      exact limit.fit_bind_pure room _ _ _ _ rfl

end

structure Place.Holds (room : Nat) (place : Place) (value : Value) : Prop where
  room_eq : place.room = room
  node_eq : place.node = .ofValue value
  whole : value.floatFree = true

def Place.Names (place : Place) (name : String) : Prop :=
  place.node = .scalar none (styleOf name.toList) name

theorem Place.holds_items (place : Place) (room : Nat) (items : List Value)
    (whole : Value.itemsFloatFree items = true) :
    List.Forall₂ (Place.Holds room) (place.itemPlaces room (Node.ofItems items)).items items := by
  rw [itemPlaces, List.forall₂_map_left_iff, Node.ofItems_eq]
  have nodes : List.Forall₂ (fun node value => node = Node.ofValue value ∧ value.floatFree = true)
      (items.map Node.ofValue) items := by
    rw [List.forall₂_map_left_iff, List.forall₂_same]
    exact fun item member => ⟨rfl, (Value.itemsFloatFree_iff items).mp whole item member⟩
  exact (forall₂_numbered nodes).imp fun _ _ stands => ⟨rfl, stands.1, stands.2⟩

theorem Place.holds_members (place : Place) (room : Nat) (members : List (String × Value))
    (whole : Value.membersFloatFree members = true) :
    (place.entryPlaces room (Node.ofMembers members)).Hold (Place.Holds room) Place.Names
      members := by
  refine ⟨?_, rfl⟩
  rw [entryPlaces, List.forall₂_map_left_iff, Node.ofMembers_eq, List.forall₂_map_left_iff,
    List.forall₂_same]
  exact fun member held =>
    ⟨rfl, rfl, rfl, (Value.membersFloatFree_iff members).mp whole member held⟩

theorem enters {α : Type} (room : Nat) (inside : Nat → α) (sound : Nat → α → Prop)
    (inner : ∀ inner, sound inner (inside inner)) :
    limit.Enters room (enter room fun room => return inside room) sound := by
  cases room with
  | zero => exact Or.inl ⟨rfl, rfl⟩
  | succ room => exact Or.inr ⟨room, inside room, rfl, rfl, inner room⟩

theorem Place.enters_list (place : Place) (items : List Value)
    (whole : Value.itemsFloatFree items = true) :
    limit.Enters place.room (enter place.room fun room =>
      return place.itemPlaces room (Node.ofItems items))
      fun inner opened =>
        List.Forall₂ (Place.Holds inner) opened.items items ∧ opened.close items.length = pure () :=
  enters place.room _ _ fun inner => ⟨place.holds_items inner items whole, rfl⟩

theorem Place.enters_mapping (place : Place) (members : List (String × Value))
    (whole : Value.membersFloatFree members = true) :
    limit.Enters place.room
      (enter place.room fun room => return place.entryPlaces room (Node.ofMembers members))
      fun inner opened => opened.Hold (Place.Holds inner) Place.Names members :=
  enters place.room _ _ fun inner => place.holds_members inner members whole

theorem plainMeaning_absent (text : String)
    (absent : (text.isEmpty || isNullWord text.toList) = true) : plainMeaning text = .null := by
  have same : text.toList.isEmpty = text.isEmpty := by
    rw [Bool.eq_iff_iff]
    simp
  simp only [plainMeaning, same, absent, if_true]

theorem Place.present_ofValue (place : Place) (value : Value) (node : place.node = .ofValue value)
    (whole : value.floatFree = true) (notNull : value ≠ .null) :
    place.present = pure (some place) := by
  obtain ⟨document, room, trail, _⟩ := place
  subst node
  rw [present, follow_ofValue, pure_bind]
  cases single : isLeaf value with
  | false =>
      cases value with
      | list _ | object _ => rw [Node.ofValue]
      | null | flag _ | number _ | text _ => cases single
  | true =>
      have means := meaning_leaf value single whole
      have something : meant value ≠ .null := by
        match value with
        | .flag _ | .number (.whole _) | .text _ => nofun
      rw [Node.ofValue_leaf value single]
      cases style : (leaf value).1 with
      | plain =>
          rw [style] at means
          have present : ¬(_ || _) = true := fun absent =>
            something (means.symm.trans (plainMeaning_absent _ absent))
          exact if_neg present
      | _ => rfl

def faithful : Faithful Place Reader where
  toLimit := limit
  stands := Place.Holds
  spells := Place.Names
  within_pure _ _ := rfl
  within_refused _ := rfl
  text_eq := by
    rintro _ ⟨document, room, trail, _⟩ s wanted ⟨rfl, rfl, -⟩
    rw [Node.ofValue_text]
    rfl
  flag_eq := by
    rintro _ ⟨document, room, trail, _⟩ b ⟨rfl, rfl, -⟩
    cases b <;> rfl
  variant_eq := by
    rintro α _ ⟨document, room, trail, _⟩ s pick a ⟨rfl, rfl, -⟩ picked
    rw [Node.ofValue_text]
    exact congrArg (located trail) picked
  verbatim_eq := by
    rintro _ ⟨document, room, trail, _⟩ a ⟨rfl, rfl, whole⟩
    exact (readVerbatim_ofValue document a.val whole room trail).trans (congrArg _ a.ofValue_val)
  buffer_eq := by
    rintro _ ⟨document, room, trail, _⟩ value wanted ⟨rfl, rfl, whole⟩
    exact readBuffer_ofValue document value whole room trail wanted
  present_eq := by
    intro room place value holds notNull
    exact ⟨place, place.present_ofValue value holds.node_eq holds.whole notNull, holds⟩
  list_eq := by
    rintro _ ⟨document, room, trail, _⟩ items ⟨rfl, rfl, whole⟩
    exact Place.enters_list _ items whole
  mapping_eq := by
    rintro _ ⟨document, room, trail, _⟩ members wanted ⟨rfl, rfl, whole⟩
    exact Place.enters_mapping _ members whole
  record_eq := by
    rintro _ ⟨document, room, trail, _⟩ members title ⟨rfl, rfl, whole⟩
    exact (Place.enters_mapping _ members whole).map limit Form.named fun inner opened hold =>
      ⟨opened, rfl, hold⟩
  union_eq := by
    rintro _ ⟨document, room, trail, _⟩ members title ⟨rfl, rfl, whole⟩
    exact enters room _ _ fun inner => ⟨_, rfl, Place.holds_members _ inner members whole⟩
  key_label := by rintro ⟨document, room, trail, _⟩ name rfl; rfl
  key_text := by rintro ⟨document, room, trail, _⟩ name rfl; rfl
  key_buffer := by
    rintro ⟨document, room, trail, _⟩ name wanted rfl
    exact readBuffer_name document room trail wanted name

theorem read_written {α : Type} (layout : Layout α) (wellFormed : layout.WellFormed) (a : α)
    (legible : layout.Legible true a) (whole : (layout.write a).floatFree = true) :
    read layout (String.ofList (print (layout.write a))) =
      if (layout.write a).depth ≤ deepest then .ok a else .error .tooDeep := by
  let place : Place := ⟨⟨.ofValue (layout.write a), []⟩, deepest, .root, .ofValue (layout.write a)⟩
  have written : layout.read place = limit.fit deepest (layout.write a).depth a :=
    layout.read_written wellFormed faithful deepest place a legible ⟨rfl, rfl, whole⟩
  rw [read, Document.ofText?_print]
  change ((layout.read place).run 0 >>= fun found => pure found.1) = _
  rw [written, Limit.fit]
  split <;> rfl

end SwaggerLift.Yaml
