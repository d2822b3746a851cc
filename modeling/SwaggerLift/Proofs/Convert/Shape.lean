import SwaggerLift.Proofs.Convert.Reference
import SwaggerLift.Proofs.OpenApi.Position
/-!
What every converted document looks like when it is written: where nulls can stand, what names look
like, what answers and request bodies show, and that paths and methods stand as in the source.
-/

namespace SwaggerLift

open OpenApi (operationPath)

theorem operation_of_convert (source : Swagger.Document) (target : OpenApi.Document)
    (done : (convert source).result = .ok target) (path method : String)
    (converted : OpenApi.Operation) (operates : target.Operates path method converted) :
    ∃ operation, convertOperation operation = .ok converted := by
  obtain ⟨item, atPath, atMethod⟩ := operates
  obtain ⟨info, paths, definitions, targets, schemas, _, _, _, mapped, _, rfl⟩ :=
    (convert_eq_ok_iff source target).mp done
  obtain ⟨_, _, _, inner⟩ :=
    exists_of_forall₂ (convertPaths_eq_ok paths targets mapped).flip _ atPath
  obtain ⟨operation, _, _, made⟩ := exists_of_forall₂ inner.flip _ atMethod
  exact ⟨operation.2, made⟩

def writtenSchema (type : Option String) (reference : String) : Value :=
  .object ((type.map fun type => ("type", .text type)).toList ++ [("$ref", .text reference)])

def writtenContent (types : List String) (schema : Value) : Value :=
  .object (types.map fun type => (type, .object [("schema", schema)]))

theorem write_contentLayout (content : Table OpenApi.Content) (schema : OpenApi.Schema)
    (alike : ∀ entry ∈ content.entries, entry.2.schema = schema) :
    OpenApi.contentLayout.write content =
      writtenContent content.keys (writtenSchema schema.type schema.reference) := by
  change Value.object (content.entries.map _) = Value.object ((content.entries.map Prod.fst).map _)
  rw [List.map_map]
  refine congrArg Value.object (List.map_congr_left fun entry stands => ?_)
  obtain ⟨type, reference⟩ := schema
  have same := alike entry stands
  rcases entry with ⟨name, ⟨⟨_, _⟩⟩⟩
  cases same
  cases type <;> rfl

theorem answer_of_convertOperation (operation : Swagger.Operation) (converted : OpenApi.Operation)
    (done : convertOperation operation = .ok converted) (responses : Table OpenApi.Response)
    (given : converted.responses = some responses) (status : String) (answer : OpenApi.Response)
    (stands : (status, answer) ∈ responses.entries) :
    ∃ type name, WellNamed name ∧ type ≠ some "" ∧
      OpenApi.contentLayout.write answer.content =
        writtenContent answer.content.keys (writtenSchema type (schemasPath ++ name)) := by
  obtain ⟨made, body, mapped, _, rfl⟩ := (convertOperation_eq_ok_iff operation converted).mp done
  obtain ⟨rfl, _⟩ := (unlessEmpty_eq_some_iff made responses).mp given
  obtain ⟨response, _, _, schema, found, shape⟩ :=
    exists_of_forall₂ (convertResponses_eq_ok _ _ _ mapped).flip _ stands
  obtain ⟨reference, name, _, named, rfl⟩ := (responseSchema_eq_ok_iff _ _ _).mp found
  refine ⟨omitEmpty (response.2.schema.bind Swagger.Schema.type), name,
    wellNamed_of_schemaName reference name named, omitEmpty_ne_empty _, ?_⟩
  refine write_contentLayout answer.content ⟨_, schemasPath ++ name⟩ ?_
  intro entry held
  cases shape
  exact schema_of_mem_fanOut _ _ entry.2 (List.mem_map.mpr ⟨entry, held, rfl⟩)

theorem members_requestBody (description : Option String) (required : Bool) (reference : String) :
    OpenApi.RequestBody.record.members
        ⟨description, required, .ofList [(bodyContentType, ⟨⟨none, reference⟩⟩)]⟩ =
      ((description.map fun text => ("description", Value.text text)).toList ++
        [("required", .flag required)]) ++
        [("content", writtenContent [bodyContentType] (writtenSchema none reference))] := by
  cases description <;> rfl

theorem body_of_convertOperation (operation : Swagger.Operation) (converted : OpenApi.Operation)
    (done : convertOperation operation = .ok converted) (body : OpenApi.RequestBody)
    (given : converted.requestBody = some body) :
    ∃ before name, WellNamed name ∧ "content" ∉ before.map Prod.fst ∧
      OpenApi.RequestBody.record.members body = before ++
        [("content", writtenContent [bodyContentType]
          (writtenSchema none (schemasPath ++ name)))] := by
  obtain ⟨_, made, _, mapped, rfl⟩ := (convertOperation_eq_ok_iff operation converted).mp done
  rcases (convertRequestBody_eq_ok_iff _ _).mp mapped with
    ⟨_, rfl⟩ | ⟨only, request, _, converts, rfl⟩
  · cases given
  · cases given
    obtain ⟨reference, name, _, named, rfl⟩ := (convertBody_eq_ok_iff only _).mp converts
    refine ⟨_, name, wellNamed_of_schemaName reference name named, ?_, members_requestBody _ _ _⟩
    cases only.description <;> simp

structure Shape (source : Swagger.Document) (target : OpenApi.Document) (tree : Value) : Prop where
  /-- A null stands only as or inside content that is carried over. -/
  nulls : ∀ position, tree.At position .null → ∃ start rest carried, position = start ++ rest ∧
    target.Carries start carried ∧ carried.val.At rest .null
  schemas : ∀ name body, tree.At [.member "components", .member "schemas", .member name] body →
    WellNamed name
  /-- All content types under a status show one schema, whose type is not empty if there is one. -/
  answers : ∀ path method status content,
    tree.At (operationPath path method ++ [.member "responses", .member status, .member "content"])
      content →
    ∃ types type name, WellNamed name ∧ type ≠ some "" ∧
      content = writtenContent types (writtenSchema type (schemasPath ++ name))
  bodies : ∀ path method body, tree.At (operationPath path method ++ [.member "requestBody"]) body →
    ∃ before name, WellNamed name ∧ "content" ∉ before.map Prod.fst ∧
      body = .object (before ++
        [("content", writtenContent ["application/json"]
          (writtenSchema none (schemasPath ++ name)))])
  whole : ∃ info paths items components, source.info = some info ∧ source.paths = some paths ∧
    tree = .object [("openapi", .text "3.0.3"), ("info", info.val), ("paths", .object items),
      ("components", components)] ∧
    List.Forall₂ (fun entry item => item.1 = entry.1 ∧
      ∃ operations, item.2 = .object operations ∧
      operations.map Prod.fst = entry.2.keys) paths.entries items

theorem convert_shape (source : Swagger.Document) (target : OpenApi.Document)
    (done : (convert source).result = .ok target) :
    Shape source target (OpenApi.Document.layout.write target) := by
  refine ⟨target.null_carried, ?schemas, ?answers, ?bodies, ?whole⟩
  case schemas =>
    intro name body stands
    obtain ⟨_, _, definitions, _, schemas, _, _, _, _, renamed, rfl⟩ :=
      (convert_eq_ok_iff source target).mp done
    rw [OpenApi.Document.write_eq] at stands
    have member : (name, body) ∈ schemas.entries.map fun schema => (schema.1, schema.2.val) := by
      simpa using stands
    -- The schema stands under its name because some key of a definition leads there.
    obtain ⟨schema, held, same⟩ := List.mem_map.mp member
    cases same
    have found := (schemas.find?_eq_some_iff schema.1 schema.2).mpr held
    obtain ⟨key, _, _, _, named, _⟩ :=
      (find?_convertDefinitions definitions schemas renamed _ _).mp found
    exact wellNamed_of_schemaName key schema.1 named
  case answers =>
    intro path method status content stands
    obtain ⟨operation, operates, inside⟩ :=
      (target.at_operation_iff path method _ content).mp stands
    obtain ⟨origin, made⟩ := operation_of_convert source target done path method operation operates
    obtain ⟨value, written, inside⟩ := inside
    obtain ⟨responses, given, rfl⟩ := (operation.mem_responses_iff value).mp written
    obtain ⟨answer, atStatus, inside⟩ := inside
    obtain ⟨entry, held, same⟩ := List.mem_map.mp atStatus
    cases same
    obtain ⟨value, shown, rfl⟩ := inside
    have same : value = OpenApi.contentLayout.write entry.2.content := by
      simpa [OpenApi.Response.record, Layout.write, Record.members, Fields.mem_write_cons,
        Fields.write, Field.write, eq_comm] using shown
    obtain ⟨type, name, named, filled, content⟩ :=
      answer_of_convertOperation origin operation made responses given entry.1 entry.2 held
    exact ⟨_, type, name, named, filled, same.trans content⟩
  case bodies =>
    intro path method body stands
    obtain ⟨operation, operates, inside⟩ := (target.at_operation_iff path method _ body).mp stands
    obtain ⟨origin, made⟩ := operation_of_convert source target done path method operation operates
    obtain ⟨value, written, rfl⟩ := inside
    obtain ⟨body, given, rfl⟩ := (operation.mem_requestBody_iff value).mp written
    obtain ⟨before, name, named, apart, members⟩ :=
      body_of_convertOperation origin operation made body given
    exact ⟨before, name, named, apart, congrArg Value.object members⟩
  case whole =>
    obtain ⟨info, paths, _, targets, _, given, some, _, mapped, _, rfl⟩ :=
      (convert_eq_ok_iff source target).mp done
    refine ⟨info, paths, OpenApi.writtenPaths targets, _, given, some, rfl, ?_⟩
    rw [OpenApi.writtenPaths, List.forall₂_map_right_iff]
    apply (convertPaths_eq_ok paths targets mapped).imp
    rintro entry item ⟨same, inner⟩
    refine ⟨same.symm, _, rfl, ?_⟩
    rw [List.map_map, ← inner.keys]
    rfl

theorem convert_shape_colliding :
    ∃ target, (convert collidingSource).result = .ok target ∧
      target.components.schemas.keys = ["SScat", "Dog"] ∧
      Shape collidingSource target (OpenApi.Document.layout.write target) :=
  ⟨_, rfl, rfl, convert_shape collidingSource _ rfl⟩

end SwaggerLift
