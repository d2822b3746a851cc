import SwaggerLift.Proofs.Layout.Yields
import SwaggerLift.Yaml.Source
/-!
What YAML has in common with the other sources: a place that is given to a mismatch changes nothing
about what is read, and the aliases that are counted on the way neither.
-/

namespace SwaggerLift.Yaml

theorem yields_located {α : Type} {P : α → Prop} (trail : Trail) (act : Reader α)
    (holds : Yields act P) : Yields (located trail act) P := by
  obtain ⟨proved, rfl⟩ := holds
  refine ⟨located trail proved, funext fun count => ?_⟩
  change StateT.map Subtype.val (located trail proved) count =
    located trail (StateT.map Subtype.val proved) count
  simp only [StateT.map, located]
  cases proved count <;> rfl

instance : LawfulSource Place Reader where
  refuse_bind _ _ := rfl
  yields_within place act holds := yields_located place.trail act holds

theorem holds_of_run {α : Type} {P : α → Prop} (act : Reader α) (yields : Yields act P)
    (count after : Nat) (a : α) (result : act.run count = .ok (a, after)) : P a := by
  obtain ⟨proved, rfl⟩ := yields
  change StateT.map Subtype.val proved count = .ok (a, after) at result
  simp only [StateT.map] at result
  cases found : proved count with
  | error f => rw [found] at result; cases result
  | ok pair =>
      rw [found] at result
      cases result
      exact pair.1.property

end SwaggerLift.Yaml
