import SwaggerLift.Proofs.Convert.Natural
import SwaggerLift.Proofs.Convert.Success
/-!
How the parameters of an operation part. Each of them goes to one side: bodies into the request
body, all others into the parameters of the result, in their order. The two sides do not look at
each other's parameters, and of a parameter that stays one nothing is lost but its default.
-/

namespace SwaggerLift

open Swagger

def plain? : Parameter → Option (Location × PlainParameter)
  | .plain location parameter => some (location, parameter)
  | .body _ => none

theorem filter_plain (parameters : List Parameter) :
    (parameters.filter fun parameter => !parameter.isBody) =
      (parameters.filterMap plain?).map fun plain => .plain plain.1 plain.2 := by
  rw [← List.filterMap_eq_filter, List.map_filterMap]
  congr 1
  funext parameter
  cases parameter <;> rfl

theorem filter_body (parameters : List Parameter) :
    parameters.filter Parameter.isBody = (parameters.filterMap body?).map .body := by
  rw [← List.filterMap_eq_filter, List.map_filterMap]
  congr 1
  funext parameter
  cases parameter <;> rfl

theorem filterMap_convertParameter? (parameters : List Parameter) :
    parameters.filterMap convertParameter? =
      (parameters.filterMap plain?).map fun plain => convertPlain plain.1 plain.2 := by
  rw [List.map_filterMap]
  congr 1
  funext parameter
  cases parameter <;> rfl

theorem length_sides (parameters : List Parameter) :
    (parameters.filterMap convertParameter?).length + (parameters.filterMap body?).length =
      parameters.length := by
  have plain := congrArg List.length (filter_plain parameters)
  have bodies := congrArg List.length (filter_body parameters)
  rw [List.length_map] at plain bodies
  rw [filterMap_convertParameter?, List.length_map, ← plain, ← bodies, Nat.add_comm]
  exact (List.length_eq_length_filter_add Parameter.isBody).symm

/-- The result shows all of a parameter but its default. -/
structure Swagger.PlainParameter.Carried (location : Location) (parameter : PlainParameter)
    (target : OpenApi.Parameter) : Prop where
  location : target.location = location
  name : target.name = parameter.name
  description : target.description = parameter.description
  required : target.required = parameter.required
  type : target.schema.map OpenApi.ParameterSchema.type = parameter.type
  extra : target.extra = parameter.extra

theorem carried_iff (location : Location) (parameter : PlainParameter)
    (target : OpenApi.Parameter) :
    parameter.Carried location target ↔ convertPlain location parameter = target := by
  constructor
  · rintro ⟨rfl, name, description, required, type, extra⟩
    rcases target with ⟨_, location, _, _, schema, _⟩
    rw [convertPlain, ← name, ← description, ← required, ← type, ← extra]
    cases schema <;> rfl
  · rintro rfl
    refine ⟨rfl, rfl, rfl, rfl, ?type, rfl⟩
    rcases parameter with ⟨_, _, _, type, _, _⟩
    cases type <;> rfl

/-- Only parameters that differ in nothing but their defaults have one result. -/
theorem convertPlain_eq_iff (location place : Location) (parameter other : PlainParameter) :
    convertPlain location parameter = convertPlain place other ↔
      location = place ∧ parameter.withoutDefault = other.withoutDefault := by
  constructor
  · intro same
    have carried := (carried_iff place other _).mpr same.symm
    have own := (carried_iff location parameter _).mpr rfl
    refine ⟨own.location.symm.trans carried.location, ?_⟩
    rw [PlainParameter.withoutDefault, PlainParameter.withoutDefault, ← own.name, ← own.description,
      ← own.required, ← own.type, ← own.extra, carried.name, carried.description, carried.required,
      carried.type, carried.extra]
  · rintro ⟨rfl, same⟩
    have shown : ∀ parameter, convertPlain location parameter =
        convertPlain location parameter.withoutDefault := fun _ => rfl
    rw [shown, same, ← shown]

theorem convertParameters_eq_none_iff (parameters : List Parameter) :
    convertParameters parameters = none ↔ ∀ parameter ∈ parameters, parameter.isBody = true := by
  rw [convertParameters, unlessEmpty_eq_none_iff, isEmpty_list_iff, List.filterMap_eq_nil_iff]
  refine forall₂_congr fun parameter _ => ?_
  cases parameter <;> simp [convertParameter?, Parameter.isBody]

theorem convertParameters_eq_some_iff (parameters : List Parameter)
    (targets : List OpenApi.Parameter) :
    convertParameters parameters = some targets ↔ targets ≠ [] ∧
      List.Forall₂ (fun parameter target => ∃ location plain, parameter = .plain location plain ∧
          plain.Carried location target)
        (parameters.filter fun parameter => !parameter.isBody) targets := by
  rw [convertParameters, unlessEmpty_eq_some_iff, isEmpty_list_iff, and_comm]
  refine and_congr_right fun _ => ?_
  rw [filterMap_convertParameter?, filter_plain, List.forall₂_map_left_iff, ← List.forall₂_eq_eq_eq,
    List.forall₂_map_left_iff]
  have each : ∀ (plain : Location × PlainParameter) target,
      (∃ location parameter, Parameter.plain plain.1 plain.2 = .plain location parameter ∧
        parameter.Carried location target) ↔ convertPlain plain.1 plain.2 = target := by
    rintro ⟨location, parameter⟩ target
    rw [← carried_iff]
    constructor
    · rintro ⟨_, _, ⟨rfl, rfl⟩, carried⟩
      exact carried
    · intro carried
      exact ⟨location, parameter, rfl, carried⟩
  simp only [each]

theorem convertParameters_eq_iff (parameters others : List Parameter) :
    convertParameters parameters = convertParameters others ↔
      (parameters.filter fun parameter => !parameter.isBody).map
        (Parameter.mapPlain PlainParameter.withoutDefault) =
        (others.filter fun parameter => !parameter.isBody).map
          (Parameter.mapPlain PlainParameter.withoutDefault) := by
  have each : ∀ one other : Location × PlainParameter,
      convertPlain one.1 one.2 = convertPlain other.1 other.2 ↔
        Parameter.mapPlain PlainParameter.withoutDefault (.plain one.1 one.2) =
          Parameter.mapPlain PlainParameter.withoutDefault (.plain other.1 other.2) := by
    intro one other
    rw [convertPlain_eq_iff, Parameter.mapPlain, Parameter.mapPlain, Parameter.plain.injEq]
  rw [convertParameters, convertParameters, unlessEmpty_inj, filterMap_convertParameter?,
    filterMap_convertParameter?, filter_plain, filter_plain]
  simp only [← List.forall₂_eq_eq_eq, List.forall₂_map_left_iff, List.forall₂_map_right_iff, each]

theorem length_of_convertRequestBody (parameters : List Parameter)
    (request : Option OpenApi.RequestBody) (done : convertRequestBody parameters = .ok request) :
    (parameters.filterMap body?).length = if request.isSome then 1 else 0 := by
  rcases (convertRequestBody_eq_ok_iff _ _).mp done with
    ⟨none, rfl⟩ | ⟨body, converted, one, _, rfl⟩
  · rw [none]
    rfl
  · rw [one]
    rfl

/-- Parameters are parted without loss. Those that are no bodies stay parameters and lose their
    defaults only; of bodies there can be one, and where they stand makes no difference. -/
theorem parameters_parted (parameters others : List Parameter) :
    (convertParameters parameters = none ↔ ∀ parameter ∈ parameters, parameter.isBody = true) ∧
    (∀ targets, convertParameters parameters = some targets ↔ targets ≠ [] ∧
      List.Forall₂ (fun parameter target => ∃ location plain, parameter = .plain location plain ∧
          plain.Carried location target)
        (parameters.filter fun parameter => !parameter.isBody) targets) ∧
    (∀ request, convertRequestBody parameters = .ok request →
      (parameters.filter Parameter.isBody).length ≤ 1 ∧
        ((convertParameters parameters).getD []).length + (if request.isSome then 1 else 0) =
          parameters.length) ∧
    (convertParameters parameters = convertParameters others ↔
      (parameters.filter fun parameter => !parameter.isBody).map
        (Parameter.mapPlain PlainParameter.withoutDefault) =
        (others.filter fun parameter => !parameter.isBody).map
          (Parameter.mapPlain PlainParameter.withoutDefault)) ∧
    (parameters.filter Parameter.isBody = others.filter Parameter.isBody →
      convertRequestBody parameters = convertRequestBody others) := by
  refine ⟨convertParameters_eq_none_iff parameters,
    convertParameters_eq_some_iff parameters, ?count,
    convertParameters_eq_iff parameters others, ?bodies⟩
  case count =>
    intro request done
    have bodies := length_of_convertRequestBody parameters request done
    constructor
    · rw [filter_body, List.length_map, bodies]
      split <;> decide
    · rw [convertParameters, getD_unlessEmpty, ← bodies, length_sides]
  case bodies =>
    intro same
    rw [filter_body, filter_body] at same
    have bodies := List.map_injective_iff.mpr (fun _ _ => Parameter.body.inj) same
    rw [convertRequestBody, convertRequestBody, bodies]

end SwaggerLift
