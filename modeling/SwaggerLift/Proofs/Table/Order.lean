import Mathlib.Data.List.Nodup
import SwaggerLift.Proofs.Follows
/-!
Tables that differ in the order of their entries. Two tables are so related exactly if look-up finds
the same keys in both, with related values, so a traversal, which takes the entries in their order,
succeeds for both or for none as long as it gives the same value the same result.
-/

namespace SwaggerLift

namespace Table

variable {α β γ δ ε : Type} {R : α → β → Prop} {S : γ → δ → Prop}

/-- The entries of one table, in some order, stand beside those of the other: equal
    keys, related values. -/
def Reordered (R : α → β → Prop) (t : Table α) (u : Table β) : Prop :=
  ∃ entries, t.entries.Perm entries ∧
    List.Forall₂ (fun a b => a.1 = b.1 ∧ R a.2 b.2) entries u.entries

theorem find?_perm (t u : Table α) (perm : t.entries.Perm u.entries) (key : String) :
    t.find? key = u.find? key := by
  ext value
  rw [find?_eq_some_iff, find?_eq_some_iff, perm.mem_iff]

theorem Beside.find?_eq_none {R : String → α → β → Prop} {t : Table α} {u : Table β}
    (beside : t.Beside R u) (key : String) (missing : t.find? key = none) : u.find? key = none := by
  cases found : u.find? key with
  | none => rfl
  | some b =>
      have stands := (u.find?_eq_some_iff key b).mp found
      obtain ⟨⟨_, a⟩, member, rfl, _⟩ := exists_left_of_forall₂ beside (key, b) stands
      rw [(t.find?_eq_some_iff _ a).mpr member] at missing
      cases missing

theorem Beside.find?_rel {R : String → α → β → Prop} {t : Table α} {u : Table β}
    (beside : t.Beside R u) (key : String) : Option.Rel (R key) (t.find? key) (u.find? key) := by
  cases found : t.find? key with
  | none =>
      rw [beside.find?_eq_none key found]
      exact Option.Rel.none
  | some a =>
      obtain ⟨b, same, related⟩ := beside.find? key a found
      rw [same]
      exact Option.Rel.some related

theorem reordered_iff (t : Table α) (u : Table β) :
    t.Reordered R u ↔ ∀ key, Option.Rel R (t.find? key) (u.find? key) := by
  constructor
  · rintro ⟨entries, perm, beside⟩ key
    have distinct : (entries.map Prod.fst).Nodup := (perm.map Prod.fst).nodup_iff.mp t.distinct
    have between : Beside (fun _ => R) ⟨entries, distinct⟩ u := beside
    rw [find?_perm t ⟨entries, distinct⟩ perm key]
    exact between.find?_rel key
  · intro related
    -- The values that one table has under the keys of the other, in the order of the other.
    have each : ∀ b ∈ u.entries, ∃ a : String × α, a.1 = b.1 ∧ a ∈ t.entries ∧ R a.2 b.2 := by
      rintro ⟨key, b⟩ member
      have under := related key
      rw [(u.find?_eq_some_iff key b).mpr member, optionRel_iff] at under
      obtain ⟨_, missing⟩ | ⟨a, _, found, same, value⟩ := under
      · cases missing
      · cases same
        exact ⟨(key, a), rfl, (t.find?_eq_some_iff key a).mp found, value⟩
    obtain ⟨entries, beside⟩ := forall₂_of_each u.entries each
    refine ⟨entries, ?_, beside.flip.imp fun a b stands => ⟨stands.1, stands.2.2⟩⟩
    have keys : entries.map Prod.fst = u.keys :=
      (map_eq_of_forall₂ Prod.fst Prod.fst beside fun _ _ stands => stands.1.symm).symm
    have distinct : (entries.map Prod.fst).Nodup := keys ▸ u.distinct
    -- Both hold every key once, so they are the same up to order if they have the same members.
    rw [List.perm_ext_iff_of_nodup (List.Nodup.of_map _ t.distinct) (List.Nodup.of_map _ distinct)]
    rintro ⟨key, a⟩
    constructor
    · intro member
      have under := related key
      rw [(t.find?_eq_some_iff key a).mpr member, optionRel_iff] at under
      obtain ⟨missing, _⟩ | ⟨_, b, _, found, _⟩ := under
      · cases missing
      · obtain ⟨⟨_, other⟩, stands, rfl, held, _⟩ :=
          exists_of_forall₂ beside (key, b) ((u.find?_eq_some_iff key b).mp found)
        rw [← find?_eq_some_iff] at member held
        rw [member] at held
        cases held
        exact stands
    · intro stands
      obtain ⟨_, _, _, held, _⟩ := exists_left_of_forall₂ beside (key, a) stands
      exact held

theorem reordered_eq_iff (t u : Table α) : t.Reordered Eq u ↔ t.entries.Perm u.entries := by
  have same : (fun a b : String × α => a.1 = b.1 ∧ a.2 = b.2) = Eq := by
    funext a b
    rw [Prod.ext_iff]
  simp only [Reordered, same, List.forall₂_eq_eq_eq, exists_eq_right]

theorem Reordered.isEmpty_eq {t : Table α} {u : Table β} (reordered : t.Reordered R u) :
    t.isEmpty = u.isEmpty := by
  obtain ⟨entries, perm, beside⟩ := reordered
  have length : t.entries.length = u.entries.length := perm.length_eq.trans beside.length_eq
  rw [isEmpty, isEmpty, Bool.eq_iff_iff, List.isEmpty_iff_length_eq_zero,
    List.isEmpty_iff_length_eq_zero, length]

theorem Reordered.symm {t : Table α} {u : Table β} {S : β → α → Prop} (swap : ∀ a b, R a b → S b a)
    (reordered : t.Reordered R u) : u.Reordered S t := by
  rw [reordered_iff] at *
  intro key
  exact optionRel_symm R S swap _ _ (reordered key)

theorem traverse_of_each (step : String → α → Except ε β) (t : Table α)
    (each : ∀ key a, t.find? key = some a → ∃ b, step key a = .ok b) :
    ∃ u, t.traverse step = .ok u := by
  have entries : ∀ entry ∈ t.entries, ∃ result,
      (do return (entry.1, ← step entry.1 entry.2) : Except ε (String × β)) = .ok result := by
    rintro ⟨key, a⟩ member
    obtain ⟨b, done⟩ := each key a ((t.find?_eq_some_iff key a).mpr member)
    exact ⟨(key, b), (bind_eq_ok_iff _ _ _).mpr ⟨b, done, rfl⟩⟩
  obtain ⟨results, beside⟩ := forall₂_of_each t.entries entries
  exact ⟨ofList results,
    (bind_eq_ok_iff _ _ _).mpr ⟨results, (mapM_eq_ok_iff _ _ _).mpr beside, rfl⟩⟩

/-- The order of the entries plays no part in whether a traversal succeeds, only in
    the order of its result. -/
theorem Reordered.follows_traverse {t : Table α} {u : Table β} (reordered : t.Reordered R u)
    (f : String → α → Except ε γ) (g : String → β → Except ε δ)
    (each : ∀ key a b, R a b → Follows S (f key a) (g key b)) :
    Follows (Reordered S) (t.traverse f) (u.traverse g) := by
  intro results done
  have results_beside := traverse_eq_ok f t results done
  rw [reordered_iff] at reordered
  have others_done : ∀ key b, u.find? key = some b → ∃ d, g key b = .ok d := by
    intro key b found
    have under := reordered key
    rw [found, optionRel_iff] at under
    obtain ⟨_, missing⟩ | ⟨a, _, stands, same, related⟩ := under
    · cases missing
    · cases same
      obtain ⟨c, _, made⟩ := results_beside.find? key a stands
      obtain ⟨d, later, _⟩ := each key a b related c made
      exact ⟨d, later⟩
  obtain ⟨others, others_traversed⟩ := traverse_of_each g u others_done
  have others_beside := traverse_eq_ok g u others others_traversed
  refine ⟨others, others_traversed, (reordered_iff _ _).mpr fun key => ?_⟩
  rcases (optionRel_iff _ _ _).mp (reordered key) with
    ⟨missing, absent⟩ | ⟨a, b, stands, found, related⟩
  · rw [results_beside.find?_eq_none key missing, others_beside.find?_eq_none key absent]
    exact Option.Rel.none
  · obtain ⟨c, held, made⟩ := results_beside.find? key a stands
    obtain ⟨d, kept, later⟩ := others_beside.find? key b found
    obtain ⟨_, same, result⟩ := each key a b related c made
    rw [later] at same
    cases same
    rw [held, kept]
    exact Option.Rel.some result

end Table

end SwaggerLift
