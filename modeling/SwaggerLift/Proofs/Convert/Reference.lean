import SwaggerLift.Proofs.Convert.Definition
import SwaggerLift.Proofs.Convert.Response
/-!
References of a converted document. Responses, request bodies and definitions are named apart from
each other; that their names agree is what keeps a reference pointing to its definition.
-/

namespace SwaggerLift

def Swagger.Document.operation? (document : Swagger.Document) (path method : String) :
    Option Swagger.Operation :=
  document.paths.bind fun paths => (paths.find? path).bind fun item => item.find? method

def OpenApi.Document.operation? (document : OpenApi.Document) (path method : String) :
    Option OpenApi.Operation :=
  (document.paths.find? path).bind fun item => item.find? method

theorem operation?_of_convert (source : Swagger.Document) (target : OpenApi.Document)
    (done : (convert source).result = .ok target) (path method : String)
    (operation : Swagger.Operation) (stands : source.operation? path method = some operation) :
    ∃ converted, target.operation? path method = some converted ∧
      convertOperation operation = .ok converted := by
  obtain ⟨info, paths, definitions, targets, schemas, _, given, _, mapped, _, rfl⟩ :=
    (convert_eq_ok_iff source target).mp done
  rw [Swagger.Document.operation?, given, Option.bind_some, Option.bind_eq_some_iff] at stands
  obtain ⟨item, atPath, atMethod⟩ := stands
  obtain ⟨targetItem, foundItem, beside⟩ :=
    (convertPaths_eq_ok paths targets mapped).find? path item atPath
  obtain ⟨converted, found, same⟩ := beside.find? method operation atMethod
  refine ⟨converted, ?_, same⟩
  simp only [OpenApi.Document.operation?, foundItem, Option.bind_some, found]

theorem response_refers (operation : Swagger.Operation) (converted : OpenApi.Operation)
    (done : convertOperation operation = .ok converted) (status : String)
    (response : Swagger.Response) (stands : operation.responses.find? status = some response)
    (reference name : String) (refers : response.schema.bind Swagger.Schema.target = some reference)
    (named : schemaName reference = .ok name) :
    ∃ responses answer, converted.responses = some responses ∧
      responses.find? status = some answer ∧
      (∀ type, type ∈ answer.content.keys ↔ type ∈ operation.produces) ∧
      ∀ content ∈ answer.content.values, content.schema.reference = schemasPath ++ name := by
  obtain ⟨responses, body, mapped, _, rfl⟩ :=
    (convertOperation_eq_ok_iff operation converted).mp done
  obtain ⟨answer, found, schema, schemaFound, rfl⟩ :=
    (convertResponses_eq_ok _ _ _ mapped).find? status response stands
  obtain ⟨other, otherName, same, sameName, rfl⟩ := (responseSchema_eq_ok_iff _ _ _).mp schemaFound
  rw [refers] at same
  cases same
  rw [named] at sameName
  cases sameName
  refine ⟨responses, _, unlessEmpty_of_find? responses status _ found, found, ?_, ?_⟩
  · intro type
    exact mem_keys_fanOut operation.produces _ type
  · intro content member
    rw [schema_of_mem_fanOut _ _ content member]

theorem request_refers (operation : Swagger.Operation) (converted : OpenApi.Operation)
    (done : convertOperation operation = .ok converted) (parameter : Swagger.BodyParameter)
    (stands : .body parameter ∈ operation.parameters) (reference name : String)
    (refers : parameter.schema.bind Swagger.Schema.reference = some reference)
    (named : schemaName reference = .ok name) :
    ∃ request, converted.requestBody = some request ∧
      request.content.entries = [(bodyContentType, ⟨⟨none, schemasPath ++ name⟩⟩)] := by
  obtain ⟨responses, body, _, mapped, rfl⟩ :=
    (convertOperation_eq_ok_iff operation converted).mp done
  have member : parameter ∈ operation.parameters.filterMap body? :=
    List.mem_filterMap.mpr ⟨.body parameter, stands, rfl⟩
  rcases (convertRequestBody_eq_ok_iff _ _).mp mapped with
    ⟨none, _⟩ | ⟨only, request, one, made, rfl⟩
  · rw [none] at member
    cases member
  · rw [one, List.mem_singleton] at member
    subst member
    obtain ⟨other, otherName, same, sameName, rfl⟩ := (convertBody_eq_ok_iff _ _).mp made
    rw [refers] at same
    cases same
    rw [named] at sameName
    cases sameName
    exact ⟨_, rfl, Table.entries_ofList _ (by simp)⟩

/-- Where the references to the definition under a key lead once the document has been converted. -/
structure ReferencesKept (source : Swagger.Document) (target : OpenApi.Document)
    (definitions : Table Verbatim) (key : String) (body : Verbatim) (name : String) : Prop where
  named : schemaName key = .ok name
  last : ∃ other found, LastNamed name other found definitions.entries ∧
    target.components.schemas.find? name = some found
  /-- Unless a later definition has the same name, that is the definition itself. -/
  own : (∀ before after, definitions.entries = before ++ (key, body) :: after →
    Unnamed name after) →
    target.components.schemas.find? name = some body
  responses : ∀ path method operation status response,
    source.operation? path method = some operation →
    operation.responses.find? status = some response →
    response.schema.bind Swagger.Schema.target = some (definitionsPath ++ key) →
    ∃ converted responses answer, target.operation? path method = some converted ∧
      converted.responses = some responses ∧ responses.find? status = some answer ∧
      (∀ type, type ∈ answer.content.keys ↔ type ∈ operation.produces) ∧
      ∀ content ∈ answer.content.values, content.schema.reference = schemasPath ++ name
  requests : ∀ path method operation parameter,
    source.operation? path method = some operation → .body parameter ∈ operation.parameters →
    parameter.schema.bind Swagger.Schema.reference = some (definitionsPath ++ key) →
    ∃ converted request, target.operation? path method = some converted ∧
      converted.requestBody = some request ∧
      request.content.entries = [(bodyContentType, ⟨⟨none, schemasPath ++ name⟩⟩)]

/-- Whatever refers to a definition refers to its schema after the conversion. -/
theorem references_kept (source : Swagger.Document) (target : OpenApi.Document)
    (done : (convert source).result = .ok target) (definitions : Table Verbatim)
    (given : source.definitions = some definitions) (key : String) (body : Verbatim)
    (defined : definitions.find? key = some body) :
    ∃ name, ReferencesKept source target definitions key body name := by
  obtain ⟨_, _, others, _, schemas, _, _, same, _, renamed, shape⟩ :=
    (convert_eq_ok_iff source target).mp done
  rw [given] at same
  cases same
  have kept : target.components.schemas = schemas := by rw [shape]
  have member := (definitions.find?_eq_some_iff key body).mp defined
  obtain ⟨name, named⟩ := named_of_convertDefinitions definitions schemas renamed key
    (definitions.mem_keys_of_find? key body defined)
  -- References and keys are resolved apart, but what stands before the key plays no part in a name.
  have viaPath : schemaName (definitionsPath ++ key) = .ok name :=
    (schemaName_definition key name).mpr named
  refine ⟨name, named, ?last, ?own, ?responses, ?requests⟩
  case last =>
    have someNamed : ¬ Unnamed name definitions.entries := fun none => none _ member named
    obtain ⟨found, other, stands⟩ := exists_lastNamed name definitions.entries someNamed
    refine ⟨other, found, stands, ?_⟩
    rw [kept]
    exact (find?_convertDefinitions definitions schemas renamed name found).mpr ⟨other, stands⟩
  case own =>
    intro alone
    obtain ⟨before, after, split⟩ := List.append_of_mem member
    rw [kept]
    exact (find?_convertDefinitions definitions schemas renamed name body).mpr
      ⟨key, before, after, split, named, alone before after split⟩
  case responses =>
    intro path method operation status response stands atStatus refers
    obtain ⟨converted, found, made⟩ :=
      operation?_of_convert source target done path method operation stands
    obtain ⟨responses, answer, some, answered, keys, values⟩ :=
      response_refers operation converted made status response atStatus _ name refers viaPath
    exact ⟨converted, responses, answer, found, some, answered, keys, values⟩
  case requests =>
    intro path method operation parameter stands among refers
    obtain ⟨converted, found, made⟩ :=
      operation?_of_convert source target done path method operation stands
    obtain ⟨request, some, content⟩ :=
      request_refers operation converted made parameter among _ name refers viaPath
    exact ⟨converted, request, found, some, content⟩

def collidingDefinitions : Table Verbatim :=
  .ofList [("v1.0/pets.ßcat", .text "first"), ("dog", .text "dog"), ("SScat", .text "second")]

def collidingSource : Swagger.Document where
  version := some "2.0"
  info := some .null
  paths := some <| .ofList [("/pets", .ofList [("post",
    { description := none, operationId := none, summary := none, tags := []
      produces := ["application/json", "text/xml", "application/json"]
      responses := .ofList
        [("200", ⟨"ok", some ⟨some "array", none, some ⟨some "#/definitions/v1.0/pets.ßcat"⟩⟩⟩)]
      parameters :=
        [.body ⟨"body", none, true, some ⟨none, some "#/definitions/v1.0/pets.ßcat", none⟩⟩] })])]
  definitions := some collidingDefinitions

theorem references_kept_colliding :
    ∃ target, (convert collidingSource).result = .ok target ∧
      collidingDefinitions.find? "v1.0/pets.ßcat" = some (.text "first") ∧
      target.components.schemas.find? "SScat" = some (.text "second") ∧
      ∃ name, ReferencesKept collidingSource target collidingDefinitions "v1.0/pets.ßcat"
        (.text "first") name :=
  ⟨_, rfl, rfl, rfl, references_kept collidingSource _ rfl collidingDefinitions rfl _ _ rfl⟩

end SwaggerLift
