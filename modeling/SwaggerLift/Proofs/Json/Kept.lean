import Mathlib.Data.List.Nodup
import SwaggerLift.Proofs.Json.Exact
import SwaggerLift.Proofs.Json.Part
import SwaggerLift.Proofs.Json.Print
/-!
What of a text is kept when the content that has been read from it is written again: all but the
spelling. Members stand in the same order under the same names, if no object repeats a name.
-/

namespace SwaggerLift.Json

/-- The number that one numeral is read as is written as the other. -/
structure Numeral.Carried (given written : Numeral) : Prop where
  rewritten : ∃ n, given.number = .ok n ∧ written = writtenNumeral n
  exact : given.FitsWord → written.value = given.value

theorem Numeral.carried (numeral : Numeral) (n : Number) (read : numeral.number = .ok n) :
    numeral.Carried (writtenNumeral n) :=
  ⟨⟨n, read, rfl⟩, fun fits => numeral.value_writtenNumeral fits n read⟩

def Reading.SameText (given written : Reading String) : Prop :=
  ∃ s, given.wanted = .ok s ∧ written.wanted = .ok s

namespace Literal

mutual

def Distinct : Literal → Prop
  | list items => AllDistinct items
  | object members => (members.map fun member => member.1.wanted).Nodup ∧ MembersDistinct members
  | _ => True

def AllDistinct : List Literal → Prop
  | [] => True
  | item :: rest => item.Distinct ∧ AllDistinct rest

def MembersDistinct : List (Reading String × Literal) → Prop
  | [] => True
  | (_, item) :: rest => item.Distinct ∧ MembersDistinct rest

end

mutual

/-- Both say the same, except that the numerals of one only agree with those of the other. -/
def Kept (agree : Numeral → Numeral → Prop) : Literal → Literal → Prop
  | null, null => True
  | flag b, flag c => b = c
  | numeral m, numeral n => agree m n
  | text s, text t => s.SameText t
  | list items, list others => ItemsKept agree items others
  | object members, object others => MembersKept agree members others
  | _, _ => False

def ItemsKept (agree : Numeral → Numeral → Prop) : List Literal → List Literal → Prop
  | [], [] => True
  | item :: rest, other :: others => item.Kept agree other ∧ ItemsKept agree rest others
  | _, _ => False

def MembersKept (agree : Numeral → Numeral → Prop) :
    List (Reading String × Literal) → List (Reading String × Literal) → Prop
  | [], [] => True
  | (name, item) :: rest, (other, carried) :: others =>
      name.SameText other ∧ item.Kept agree carried ∧ MembersKept agree rest others
  | _, _ => False

end

theorem MembersKept.names {agree : Numeral → Numeral → Prop}
    {members others : List (Reading String × Literal)} (kept : MembersKept agree members others) :
    members.map (fun member => member.1.wanted) = others.map fun member => member.1.wanted := by
  induction members generalizing others with
  | nil =>
      cases others with
      | nil => rfl
      | cons => exact kept.elim
  | cons member rest ih =>
      cases others with
      | nil => exact kept.elim
      | cons other others =>
          obtain ⟨⟨name, given, written⟩, _, later⟩ := kept
          rw [List.map_cons, List.map_cons, ih later, given, written]

theorem ofMembers_eq (members : List (String × Value)) :
    ofMembers members = members.map fun member => (.clean member.1, ofValue member.2) := by
  induction members with
  | nil => rfl
  | cons first rest ih => rw [ofMembers, ih, List.map_cons]

mutual

theorem kept_ofValue (s : Literal) (room : Nat) (buffer : Buffer) (content : Verbatim)
    (distinct : s.Distinct) (buffered : s.tree.buffer room = .ok buffer)
    (read : buffer.readVerbatim = .ok content) : s.Kept Numeral.Carried (.ofValue content.val) := by
  match s with
  | null => cases buffered; cases read; trivial
  | flag b => cases buffered; cases read; rfl
  | numeral n =>
      obtain ⟨m, wanted, same⟩ := (bind_eq_ok_iff _ _ _).mp buffered
      cases same
      rw [show numberBuffer m = m.toBuffer by cases m <;> rfl, m.readVerbatim_toBuffer] at read
      cases read
      exact n.carried m ((lift_eq_ok_iff _ _).mp wanted)
  | text s =>
      obtain ⟨t, wanted, same⟩ := (bind_eq_ok_iff _ _ _).mp buffered
      cases same
      cases read
      exact ⟨t, (lift_eq_ok_iff _ _).mp wanted, rfl⟩
  | list items =>
      cases room with
      | zero => cases buffered
      | succ room =>
          obtain ⟨buffers, inside, same⟩ := (bind_eq_ok_iff _ _ _).mp buffered
          cases same
          obtain ⟨contents, each, same⟩ := (bind_eq_ok_iff _ _ _).mp read
          cases same
          exact itemsKept_ofItems items room buffers contents distinct inside each
  | object members =>
      cases room with
      | zero => cases buffered
      | succ room =>
          obtain ⟨buffers, inside, same⟩ := (bind_eq_ok_iff _ _ _).mp buffered
          cases same
          obtain ⟨entries, each, same⟩ := (bind_eq_ok_iff _ _ _).mp read
          cases same
          have kept :=
            membersKept_ofMembers members room buffers .textKey entries distinct.2 inside each
          -- No name is repeated, so the table of the members holds all of them.
          have apart : (entries.map Prod.fst).Nodup := by
            have names := distinct.1
            rw [kept.names, ofMembers_eq, List.map_map, List.map_map] at names
            apply List.Nodup.of_map (Except.ok : String → Except Cut String)
            rwa [List.map_map]
          rw [Verbatim.val_object_ofList entries apart]
          exact kept

theorem itemsKept_ofItems (items : List Literal) (room : Nat) (buffers : List Buffer)
    (contents : List Verbatim) (distinct : AllDistinct items)
    (buffered : itemBuffers room (itemTrees items) = .ok buffers)
    (read : Buffer.readItems buffers = .ok contents) :
    ItemsKept Numeral.Carried items (ofItems (contents.map Subtype.val)) := by
  match items with
  | [] => cases buffered; cases read; trivial
  | item :: rest =>
      obtain ⟨first, here, buffered⟩ := (bind_eq_ok_iff _ _ _).mp buffered
      obtain ⟨more, later, same⟩ := (bind_eq_ok_iff _ _ _).mp buffered
      cases same
      obtain ⟨content, readFirst, read⟩ := (bind_eq_ok_iff _ _ _).mp read
      obtain ⟨others, readMore, same⟩ := (bind_eq_ok_iff _ _ _).mp read
      cases same
      exact ⟨kept_ofValue item room first content distinct.1 here readFirst,
        itemsKept_ofItems rest room more others distinct.2 later readMore⟩

theorem membersKept_ofMembers (members : List (Reading String × Literal)) (room : Nat)
    (buffers : List (Buffer × Buffer)) (wanted : Wanted) (entries : List (String × Verbatim))
    (distinct : MembersDistinct members)
    (buffered : memberBuffers room (memberTrees members) = .ok buffers)
    (read : Buffer.readEntries wanted buffers = .ok entries) :
    MembersKept Numeral.Carried members
      (ofMembers (entries.map fun entry => (entry.1, entry.2.val))) := by
  match members with
  | [] => cases buffered; cases read; trivial
  | (name, item) :: rest =>
      obtain ⟨key, named, buffered⟩ := (bind_eq_ok_iff _ _ _).mp buffered
      obtain ⟨first, here, buffered⟩ := (bind_eq_ok_iff _ _ _).mp buffered
      obtain ⟨more, later, same⟩ := (bind_eq_ok_iff _ _ _).mp buffered
      cases same
      obtain ⟨_, same, read⟩ := (bind_eq_ok_iff _ _ _).mp read
      cases same
      obtain ⟨content, readFirst, read⟩ := (bind_eq_ok_iff _ _ _).mp read
      obtain ⟨others, readMore, same⟩ := (bind_eq_ok_iff _ _ _).mp read
      cases same
      exact ⟨⟨key, (lift_eq_ok_iff _ _).mp named, rfl⟩,
        kept_ofValue item room first content distinct.1 here readFirst,
        membersKept_ofMembers rest room more .text others distinct.2 later readMore⟩

end

/-- Content that has been read from a text is kept when it is written. -/
theorem kept_of_read (s : Literal) (room : Nat) (content : Verbatim) (distinct : s.Distinct)
    (done : Layout.verbatim.read (Place.mk room s.tree) = (.ok content : Result Verbatim)) :
    s.Kept Numeral.Carried (.ofValue content.val) := by
  obtain ⟨buffer, buffered, settled⟩ := (bind_eq_ok_iff _ _ _).mp done
  refine s.kept_ofValue room buffer content distinct buffered ?_
  cases read : buffer.readVerbatim with
  | ok found => rw [read] at settled; cases settled; rfl
  | error mismatch => rw [read] at settled; cases settled

end Literal

end SwaggerLift.Json
