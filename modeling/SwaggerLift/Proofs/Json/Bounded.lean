import SwaggerLift.Proofs.Format.Read
import SwaggerLift.Proofs.Json.Print
import SwaggerLift.Proofs.Layout.Bounded
/-!
JSON texts have a normal form: what has been read from any text, in whatever way it was spelt there,
is read again from the text that is written for it. No place has more levels below it than may be
opened there, so the written text is not too deep, and where null stands for a value, none is read.
-/

namespace SwaggerLift.Json

mutual

theorem Tree.yields_buffer (tree : Tree) (room : Nat) :
    Yields (tree.buffer room) fun b => b.Within room ∧ (tree ≠ .null → b ≠ .null) := by
  match tree with
  | .null => exact yields_pure _ ⟨by cases room <;> trivial, fun other => absurd rfl other⟩
  | .flag b => exact yields_pure _ ⟨by cases room <;> trivial, fun _ => nofun⟩
  | .number n =>
      apply yields_then
      intro n
      apply yields_pure
      cases n with
      | whole n => exact ⟨by cases room <;> trivial, fun _ => nofun⟩
      | float x finite => exact ⟨by cases room <;> exact finite, fun _ => nofun⟩
  | .text s =>
      apply yields_then
      intro s
      exact yields_pure _ ⟨by cases room <;> trivial, fun _ => nofun⟩
  | .list items cut =>
      cases room with
      | zero => exact (yields_ok_iff _).mpr nofun
      | succ room =>
          rw [Tree.buffer]
          apply yields_bind _ _ (yields_itemBuffers items room)
          intro buffers within
          apply yields_then
          intro _
          exact yields_pure _ ⟨within, fun _ => nofun⟩
  | .object members cut =>
      cases room with
      | zero => exact (yields_ok_iff _).mpr nofun
      | succ room =>
          rw [Tree.buffer]
          apply yields_bind _ _ (yields_memberBuffers members room)
          intro buffers within
          apply yields_then
          intro _
          exact yields_pure _ ⟨within, fun _ => nofun⟩
  | .broken cut => exact (yields_ok_iff _).mpr nofun

theorem yields_itemBuffers (items : List Tree) (room : Nat) :
    Yields (itemBuffers room items) fun buffers => ∀ b ∈ buffers, b.Within room := by
  match items with
  | [] => exact yields_pure _ nofun
  | item :: rest =>
      rw [itemBuffers]
      apply yields_bind _ _ (Tree.yields_buffer item room)
      intro first here
      apply yields_bind _ _ (yields_itemBuffers rest room)
      intro buffers later
      exact yields_pure _ (List.forall_mem_cons.mpr ⟨here.1, later⟩)

theorem yields_memberBuffers (members : List (Key × Tree)) (room : Nat) :
    Yields (memberBuffers room members) fun buffers => ∀ entry ∈ buffers, entry.2.Within room := by
  match members with
  | [] => exact yields_pure _ nofun
  | (key, item) :: rest =>
      rw [memberBuffers]
      apply yields_then
      intro name
      apply yields_bind _ _ (Tree.yields_buffer item room)
      intro first here
      apply yields_bind _ _ (yields_memberBuffers rest room)
      intro buffers later
      exact yields_pure _ (List.forall_mem_cons.mpr ⟨here.1, later⟩)

end

theorem Place.yields_openList (place : Place) (items : List Tree) (cut : Option Cut) :
    Yields (place.openList items cut) fun opened =>
      ∃ inner, place.room = inner + 1 ∧ opened.Within fun inside => inside.room = inner := by
  rw [yields_ok_iff]
  obtain ⟨room, tree⟩ := place
  intro opened done
  cases room with
  | zero => cases done
  | succ room =>
      cases done
      exact ⟨room, rfl, List.forall_mem_map.mpr fun _ _ => rfl⟩

theorem Place.yields_openObject (place : Place) (members : List (Key × Tree)) (cut : Option Cut) :
    Yields (place.openObject members cut) fun opened =>
      ∃ inner, place.room = inner + 1 ∧ opened.Within fun inside => inside.room = inner := by
  rw [yields_ok_iff]
  obtain ⟨room, tree⟩ := place
  intro opened done
  cases room with
  | zero => cases done
  | succ room =>
      cases done
      exact ⟨room, rfl, List.forall_mem_map.mpr fun _ _ => rfl⟩

theorem Tree.yields_refused {α : Type} {P : α → Prop} (tree : Tree) (wanted : Wanted) :
    Yields (tree.refused wanted : Result α) P :=
  yields_then _ _ fun _ => yields_refuse _ _

theorem Place.yields_form (wanted : Wanted) (place : Place) :
    Yields (place.form wanted) fun form =>
      ∃ inner, place.room = inner + 1 ∧ form.Within fun inside => inside.room = inner := by
  obtain ⟨room, tree⟩ := place
  cases tree with
  | list items cut =>
      exact yields_bind _ _ (Place.yields_openList ⟨room, _⟩ items cut) fun opened within =>
        yields_pure _ within
  | object members cut =>
      exact yields_bind _ _ (Place.yields_openObject ⟨room, _⟩ members cut) fun opened within =>
        yields_pure _ within
  | _ => exact Tree.yields_refused _ wanted

def bounded : Bounded Place Result where
  room n place := place.room = n
  filled place := place.tree ≠ .null
  yields_verbatim := by
    rintro _ place rfl
    apply yields_bind _ _ (place.tree.yields_buffer place.room)
    rintro b ⟨within, filled⟩
    apply yields_settle
    apply yields_imp _ (b.yields_readVerbatim _ within)
    rintro a ⟨fits, notNull⟩
    exact ⟨fits, fun more => notNull (filled more)⟩
  yields_buffer := by
    rintro _ place wanted rfl
    exact yields_imp _ (place.tree.yields_buffer place.room) fun b within => within.1
  yields_present := by
    rintro _ ⟨room, tree⟩ rfl
    cases tree with
    | null => exact yields_pure _ nofun
    | _ =>
        refine yields_pure _ ?_
        rintro _ ⟨⟩
        exact ⟨rfl, nofun⟩
  yields_list := by
    rintro _ ⟨room, tree⟩ rfl
    cases tree with
    | list items cut => exact Place.yields_openList ⟨room, _⟩ items cut
    | _ => exact Tree.yields_refused _ _
  yields_mapping := by
    rintro _ ⟨room, tree⟩ wanted rfl
    cases tree with
    | object members cut => exact Place.yields_openObject ⟨room, _⟩ members cut
    | _ => exact Tree.yields_refused _ _
  yields_record := by
    rintro _ place title rfl
    exact place.yields_form _
  yields_union := by
    rintro _ place title rfl
    exact place.yields_form _

/-- What has been read from a text fits into a text, and nothing in it is null
    that could be absent. -/
theorem settled_of_read {α : Type} (layout : Layout α) (wellFormed : layout.WellFormed)
    (flat : layout.FlatDefaults) (text : String) (a : α) (done : read layout text = .ok a) :
    layout.Settled deepest a := by
  have yields := layout.yields_settled wellFormed flat bounded deepest
    (Place.mk deepest (Parsed.ofText text).tree) rfl
  obtain ⟨found, here, same⟩ := (bind_eq_ok_iff _ _ _).mp done
  split at same
  · cases same
  · cases same
    exact ((yields_ok_iff _).mp yields a here).1

/-- What has been read from a text is read again from the text that is written for it. -/
theorem read_compact_of_read {α : Type} (layout : Layout α) (wellFormed : layout.WellFormed)
    (flat : layout.FlatDefaults) (text : String) (a : α) (done : read layout text = .ok a)
    (whole : (layout.write a).floatFree = true) :
    read layout (compact (layout.write a)) = .ok a := by
  have settled := settled_of_read layout wellFormed flat text a done
  have legible := settled.strict (legible_of_read layout wellFormed text a done)
  rw [(read_written layout wellFormed a legible whole).2, Limit.fit, if_pos settled.fits]
  rfl

end SwaggerLift.Json
