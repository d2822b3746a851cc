import SwaggerLift.Proofs.Convert.Logged
import SwaggerLift.Proofs.Convert.Name
import SwaggerLift.Proofs.Table
/-!
What a successful conversion consists of. Each part of the source has been converted, and the result
holds the converted parts, entry by entry under the same keys.
-/

namespace SwaggerLift

theorem schemaReference_eq_ok_iff (reference target : String) :
    schemaReference reference = .ok target ↔
      ∃ name, schemaName reference = .ok name ∧ target = schemasPath ++ name := by
  simp only [schemaReference, bind_eq_ok_iff, pure_eq_ok_iff]

theorem responseSchema_eq_ok_iff (status : String) (response : Swagger.Response)
    (schema : OpenApi.Schema) :
    responseSchema status response = .ok schema ↔
      ∃ reference name, response.schema.bind Swagger.Schema.target = some reference ∧
        schemaName reference = .ok name ∧
        schema = ⟨omitEmpty (response.schema.bind Swagger.Schema.type), schemasPath ++ name⟩ := by
  rw [responseSchema]
  cases response.schema.bind Swagger.Schema.target with
  | none => simp
  | some reference =>
      simp only [bind_eq_ok_iff, pure_eq_ok_iff, schemaReference_eq_ok_iff]
      constructor
      · rintro ⟨_, ⟨name, named, rfl⟩, rfl⟩
        exact ⟨reference, name, rfl, named, rfl⟩
      · rintro ⟨_, name, ⟨rfl⟩, named, rfl⟩
        exact ⟨_, ⟨name, named, rfl⟩, rfl⟩

theorem convertResponses_eq_ok (responses : Table Swagger.Response) (produces : List String)
    (converted : Table OpenApi.Response)
    (done : convertResponses responses produces = .ok converted) :
    responses.Beside (fun status response target =>
      ∃ schema, responseSchema status response = .ok schema ∧
      target = ⟨response.description, fanOut produces schema⟩) converted := by
  apply (Table.traverse_eq_ok _ _ _ done).imp
  intro a b related
  refine ⟨related.1, ?_⟩
  obtain ⟨schema, found, same⟩ := (bind_eq_ok_iff _ _ _).mp related.2
  exact ⟨schema, found, (pure_eq_ok_iff _ _).mp same⟩

theorem convertBody_eq_ok_iff (body : Swagger.BodyParameter) (target : OpenApi.RequestBody) :
    convertBody body = .ok target ↔
      ∃ reference name, body.schema.bind Swagger.Schema.reference = some reference ∧
        schemaName reference = .ok name ∧
        target = ⟨body.description, body.required,
          .ofList [(bodyContentType, ⟨⟨none, schemasPath ++ name⟩⟩)]⟩ := by
  rw [convertBody]
  cases body.schema.bind Swagger.Schema.reference with
  | none => simp
  | some reference =>
      simp only [bind_eq_ok_iff, pure_eq_ok_iff, schemaReference_eq_ok_iff]
      constructor
      · rintro ⟨_, ⟨name, named, rfl⟩, rfl⟩
        exact ⟨reference, name, rfl, named, rfl⟩
      · rintro ⟨_, name, ⟨rfl⟩, named, rfl⟩
        exact ⟨_, ⟨name, named, rfl⟩, rfl⟩

theorem convertRequestBody_eq_ok_iff (parameters : List Swagger.Parameter)
    (target : Option OpenApi.RequestBody) :
    convertRequestBody parameters = .ok target ↔
      (parameters.filterMap body? = [] ∧ target = none) ∨
        ∃ body converted, parameters.filterMap body? = [body] ∧ convertBody body = .ok converted ∧
          target = some converted := by
  rw [convertRequestBody]
  cases parameters.filterMap body? with
  | nil => simp [eq_comm]
  | cons body rest =>
      cases rest with
      | nil =>
          have only : (do return some (← convertBody body)) = Except.ok target ↔
              ∃ converted, convertBody body = .ok converted ∧ target = some converted := by
            simp only [bind_eq_ok_iff, pure_eq_ok_iff]
          simpa using only
      | cons second rest => simp

theorem convertOperation_eq_ok_iff (operation : Swagger.Operation) (target : OpenApi.Operation) :
    convertOperation operation = .ok target ↔
      ∃ responses body, convertResponses operation.responses operation.produces = .ok responses ∧
        convertRequestBody operation.parameters = .ok body ∧
        target = { description := omitEmpty operation.description
                   operationId := omitEmpty operation.operationId
                   responses := unlessEmpty responses
                   summary := omitEmpty operation.summary
                   tags := unlessEmpty operation.tags
                   parameters := convertParameters operation.parameters
                   requestBody := body } := by
  simp only [convertOperation, bind_eq_ok_iff, pure_eq_ok_iff, exists_and_left]

theorem convertPaths_eq_ok (paths : Table Swagger.PathItem) (converted : Table OpenApi.PathItem)
    (done : (convertPaths paths).result = .ok converted) :
    paths.Beside (fun _ item target => item.Beside
      (fun _ operation target => convertOperation operation = .ok target) target) converted := by
  rw [result_convertPaths] at done
  exact (Table.traverse_eq_ok _ _ _ done).imp fun _ _ related =>
    ⟨related.1, Table.traverse_eq_ok _ _ _ related.2⟩

theorem requireField_eq_ok_iff {α : Type} (name : String) (a : Option α) (b : α) :
    (requireField name a).result = .ok b ↔ a = some b := by
  cases a <;> simp [result_requireField]

theorem convert_eq_ok_iff (source : Swagger.Document) (target : OpenApi.Document) :
    (convert source).result = .ok target ↔
      ∃ info paths definitions converted schemas, source.info = some info ∧
        source.paths = some paths ∧
        source.definitions = some definitions ∧ (convertPaths paths).result = .ok converted ∧
        (convertDefinitions definitions).result = .ok schemas ∧
        target = ⟨OpenApi.version, info, converted, ⟨schemas⟩⟩ := by
  simp only [result_convert, bind_eq_ok_iff, pure_eq_ok_iff, requireField_eq_ok_iff,
    exists_and_left]

end SwaggerLift
