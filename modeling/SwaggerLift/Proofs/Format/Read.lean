import SwaggerLift.Format.Read
import SwaggerLift.Proofs.Json.Source
import SwaggerLift.Proofs.Yaml.Source
/-!
What is read from a text is legible, in either format.
-/

namespace SwaggerLift

theorem Yaml.legible_of_read {α : Type} (layout : Layout α) (wellFormed : layout.WellFormed)
    (text : String) (a : α) (done : Yaml.read layout text = .ok a) : layout.Legible false a := by
  rw [Yaml.read] at done
  split at done
  · next document _ =>
      have yields := layout.yields_read wellFormed (Place.mk document deepest .root document.root)
      obtain ⟨found, run, same⟩ := (bind_eq_ok_iff _ _ _).mp done
      cases same
      exact holds_of_run _ yields 0 found.2 found.1 run
  · cases done

theorem Json.legible_of_read {α : Type} (layout : Layout α) (wellFormed : layout.WellFormed)
    (text : String) (a : α) (done : Json.read layout text = .ok a) : layout.Legible false a := by
  have yields := layout.yields_read wellFormed (Place.mk deepest (Parsed.ofText text).tree)
  obtain ⟨found, read, same⟩ := (bind_eq_ok_iff _ _ _).mp done
  split at same
  · cases same
  · cases same
    exact (yields_ok_iff _).mp yields a read

theorem Format.legible_of_read {α : Type} (format : Format) (layout : Layout α)
    (wellFormed : layout.WellFormed) (text : String) (a : α)
    (done : format.read layout text = .ok a) : layout.Legible false a := by
  cases format with
  | yaml => exact Yaml.legible_of_read layout wellFormed text a ((mapError_eq_ok_iff _ _ _).mp done)
  | json => exact Json.legible_of_read layout wellFormed text a ((mapError_eq_ok_iff _ _ _).mp done)

end SwaggerLift
