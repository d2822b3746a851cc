import SwaggerLift.Proofs.Convert.Check
import SwaggerLift.Proofs.Convert.Omit
import SwaggerLift.Proofs.Convert.Success
/-!
Responses and what they become: the same statuses, under each of them one schema for all content
types. The content types decide only where that schema stands; whether there is one, and what is
wrong if there is none, the responses decide alone.
-/

namespace SwaggerLift

/-- Content types that are named again change nothing. -/
theorem entries_fanOut (produces : List String) (schema : OpenApi.Schema) :
    (fanOut produces schema).entries = produces.eraseDups.map fun type => (type, ⟨schema⟩) :=
  Table.entries_ofList_constant _ produces

theorem mem_keys_fanOut (produces : List String) (schema : OpenApi.Schema) (type : String) :
    type ∈ (fanOut produces schema).keys ↔ type ∈ produces := by
  rw [Table.keys, entries_fanOut, List.map_map]
  simp

theorem schema_of_mem_fanOut (produces : List String) (schema : OpenApi.Schema)
    (content : OpenApi.Content) (member : content ∈ (fanOut produces schema).values) :
    content.schema = schema := by
  rw [Table.values, entries_fanOut, List.map_map] at member
  obtain ⟨type, _, rfl⟩ := List.mem_map.mp member
  rfl

/-- What a schema refers to: its own reference, be it empty, and that of its
    items only without one. -/
def Swagger.Schema.RefersTo (schema : Schema) (reference : String) : Prop :=
  schema.reference = some reference ∨
    schema.reference = none ∧ ∃ items, schema.items = some items ∧ items.reference = some reference

theorem Swagger.Schema.target_eq_some_iff (schema : Schema) (reference : String) :
    schema.target = some reference ↔ schema.RefersTo reference := by
  rw [target, Option.or_eq_some_iff, Option.bind_eq_some_iff, RefersTo]

structure FannedOut (produces : List String) (response : Swagger.Response)
    (answer : OpenApi.Response) : Prop where
  description : answer.description = response.description
  /-- One schema under each content type, in the order in which they are named first. -/
  content : ∃ schema reference target, response.schema = some schema ∧ schema.RefersTo reference ∧
    schemaReference reference = .ok target ∧
    answer.content.entries = produces.eraseDups.map fun type =>
      (type, ⟨{ type := if schema.type = some "" then none else schema.type, reference := target }⟩)

theorem fannedOut_iff (produces : List String) (status : String) (response : Swagger.Response)
    (answer : OpenApi.Response) :
    (do let schema ← responseSchema status response
        return (⟨response.description, fanOut produces schema⟩ : OpenApi.Response)) = .ok answer ↔
      FannedOut produces response answer := by
  simp only [bind_eq_ok_iff, pure_eq_ok_iff, responseSchema_eq_ok_iff]
  constructor
  · rintro ⟨_, ⟨reference, name, found, named, rfl⟩, rfl⟩
    obtain ⟨schema, given, refers⟩ := Option.bind_eq_some_iff.mp found
    refine ⟨rfl, schema, reference, schemasPath ++ name, given,
      (schema.target_eq_some_iff _).mp refers, ?_, ?_⟩
    · exact (schemaReference_eq_ok_iff _ _).mpr ⟨name, named, rfl⟩
    · rw [given, Option.bind_some, omitEmpty_text]
      exact entries_fanOut produces _
  · rintro ⟨same, schema, reference, target, given, refers, made, content⟩
    obtain ⟨name, named, rfl⟩ := (schemaReference_eq_ok_iff _ _).mp made
    have found : response.schema.bind Swagger.Schema.target = some reference := by
      rw [given]
      exact (schema.target_eq_some_iff _).mpr refers
    refine ⟨_, ⟨reference, name, found, named, rfl⟩, ?_⟩
    rcases answer with ⟨description, held⟩
    cases same
    congr 1
    ext1
    rw [given, Option.bind_some, omitEmpty_text, entries_fanOut]
    exact content

/-- An empty reference hides that of the items, and it has no name. -/
theorem FannedOut.reference_ne_empty {produces : List String} {response : Swagger.Response}
    {answer : OpenApi.Response} (fanned : FannedOut produces response answer)
    (schema : Swagger.Schema) (given : response.schema = some schema) :
    schema.reference ≠ some "" := by
  intro blank
  obtain ⟨_, reference, target, same, refers, made, _⟩ := fanned.content
  rw [given] at same
  cases same
  rcases refers with own | ⟨missing, _⟩
  · rw [blank] at own
    cases own
    cases made
  · rw [blank] at missing
    cases missing

theorem convertResponses_eq_ok_iff (responses : Table Swagger.Response) (produces : List String)
    (converted : Table OpenApi.Response) :
    convertResponses responses produces = .ok converted ↔
      responses.Beside (fun _ => FannedOut produces) converted := by
  simp only [convertResponses, Table.traverse_eq_ok_iff, fannedOut_iff]

theorem failure?_convertResponses_alike (responses : Table Swagger.Response)
    (produces other : List String) :
    failure? (convertResponses responses produces) =
      failure? (convertResponses responses other) := by
  rw [failure?_convertResponses, failure?_convertResponses]

/-- The statuses stay, with their descriptions, and each has one schema under all content
    types. Other content types make no difference to success and to errors; an empty
    reference is one that fails. -/
theorem convertResponses_fannedOut (responses : Table Swagger.Response) (produces : List String) :
    (∀ converted, convertResponses responses produces = .ok converted ↔
      responses.Beside (fun _ => FannedOut produces) converted) ∧
    (∀ other error, convertResponses responses produces = .error error ↔
      convertResponses responses other = .error error) ∧
    (∀ other, (∃ converted, convertResponses responses produces = .ok converted) ↔
      ∃ converted, convertResponses responses other = .ok converted) ∧
    ∀ status response schema, responses.find? status = some response →
      response.schema = some schema →
      schema.reference = some "" → ∃ error, convertResponses responses produces = .error error := by
  refine ⟨convertResponses_eq_ok_iff responses produces, ?errors, ?success, ?empty⟩
  case errors =>
    intro other error
    rw [← failure?_eq_some_iff, failure?_convertResponses_alike responses produces other,
      failure?_eq_some_iff]
  case success =>
    intro other
    rw [← failure?_eq_none_iff, failure?_convertResponses_alike responses produces other,
      failure?_eq_none_iff]
  case empty =>
    intro status response schema stands given blank
    cases done : convertResponses responses produces with
    | error error => exact ⟨error, rfl⟩
    | ok converted =>
        have beside := (convertResponses_eq_ok_iff responses produces converted).mp done
        obtain ⟨answer, _, fanned⟩ := beside.find? status response stands
        exact absurd blank (fanned.reference_ne_empty schema given)

example : convertResponses (.ofList [("200", ⟨"ok", some ⟨some "object", none, none⟩⟩)]) [] =
    .error (.unreferencedResponse "200") := rfl

end SwaggerLift
