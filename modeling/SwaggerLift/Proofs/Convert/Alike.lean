import SwaggerLift.Proofs.Convert.Follows
import SwaggerLift.Proofs.Convert.Name
import SwaggerLift.Proofs.Convert.Parameter
import SwaggerLift.Proofs.Convert.Response
/-!
What the result of a conversion may depend on. Of a reference and of the key of a definition only
the last part counts, of the schema of a body only its own reference, of the items of another schema
nothing if the schema itself refers to something; an empty text counts as none, and a content type
counts once. Documents that differ in nothing else are alike, and what one of them is converted to
the other is converted to as well.
-/

namespace SwaggerLift

def SameLeaf (one other : String) : Prop := lastPart one.toList = lastPart other.toList

def SameText (one other : Option String) : Prop := one.getD "" = other.getD ""

namespace Swagger

/-- Schemas of responses. The items count only where the schema has no reference of its own. -/
structure Schema.Alike (one other : Schema) : Prop where
  type : SameText one.type other.type
  reference : Option.Rel SameLeaf one.reference other.reference
  items : one.reference = none →
    Option.Rel (fun a b => Option.Rel SameLeaf a.reference b.reference) one.items other.items

structure Response.Alike (one other : Response) : Prop where
  description : one.description = other.description
  schema : Option.Rel Schema.Alike one.schema other.schema

structure BodyParameter.Alike (one other : BodyParameter) : Prop where
  description : one.description = other.description
  required : one.required = other.required
  schema :
    Option.Rel (fun a b => Option.Rel SameLeaf a.reference b.reference) one.schema other.schema

inductive Parameter.Alike : Parameter → Parameter → Prop
  | plain {location : Location} {one other : PlainParameter}
      (same : one.withoutDefault = other.withoutDefault) :
      Alike (plain location one) (plain location other)
  | body {one other : BodyParameter} (alike : one.Alike other) : Alike (body one) (body other)

structure Operation.Alike (one other : Operation) : Prop where
  description : SameText one.description other.description
  operationId : SameText one.operationId other.operationId
  summary : SameText one.summary other.summary
  tags : one.tags = other.tags
  produces : one.produces.eraseDups = other.produces.eraseDups
  responses : one.responses.Beside (fun _ => Response.Alike) other.responses
  parameters : List.Forall₂ Parameter.Alike one.parameters other.parameters

/-- Documents that differ only in what a conversion does not look at. -/
structure Document.Alike (one other : Document) : Prop where
  info : one.info = other.info
  paths : Option.Rel (fun paths others => paths.Beside (fun _ item other =>
    item.Beside (fun _ => Operation.Alike) other) others) one.paths other.paths
  definitions : Option.Rel (fun definitions others => List.Forall₂ (fun definition other =>
    SameLeaf definition.1 other.1 ∧ definition.2 = other.2) definitions.entries others.entries)
      one.definitions other.definitions

end Swagger

open Swagger

theorem follows_schemaName (one other : String) (same : SameLeaf one other) :
    Follows Eq (schemaName one) (schemaName other) := by
  intro name named
  exact ⟨name, (schemaName_congr one other name same).mp named, rfl⟩

theorem follows_schemaReference (one other : String) (same : SameLeaf one other) :
    Follows Eq (schemaReference one) (schemaReference other) := by
  exact follows_map _ _ _ (follows_schemaName one other same)

theorem omitEmpty_getD (text : Option String) :
    omitEmpty (some (text.getD "")) = omitEmpty text := by
  cases text <;> rfl

theorem omitEmpty_congr (one other : Option String) (same : SameText one other) :
    omitEmpty one = omitEmpty other := by
  rw [← omitEmpty_getD one, same, omitEmpty_getD other]

theorem Swagger.Schema.Alike.target {one other : Schema} (alike : one.Alike other) :
    Option.Rel SameLeaf one.target other.target := by
  rw [Schema.target, Schema.target]
  rcases (optionRel_iff _ _ _).mp alike.reference with ⟨none, missing⟩ | ⟨a, b, own, found, same⟩
  · rw [none, missing, Option.none_or, Option.none_or]
    rcases (optionRel_iff _ _ _).mp (alike.items none) with
      ⟨none, missing⟩ | ⟨a, b, own, found, same⟩
    · rw [none, missing]
      exact Option.Rel.none
    · rw [own, found]
      exact same
  · rw [own, found]
    exact Option.Rel.some same

theorem follows_responseSchema (status : String) (one other : Response) (alike : one.Alike other) :
    Follows Eq (responseSchema status one) (responseSchema status other) := by
  rw [responseSchema, responseSchema]
  rcases (optionRel_iff _ _ _).mp alike.schema with
    ⟨none, missing⟩ | ⟨schema, found, own, other, alike⟩
  · rw [none]
    exact follows_error _ _ _
  · rw [own, other, Option.bind_some, Option.bind_some, Option.bind_some, Option.bind_some,
      omitEmpty_congr _ _ alike.type]
    rcases (optionRel_iff _ _ _).mp alike.target with
      ⟨none, _⟩ | ⟨reference, same, own, other, leaf⟩
    · rw [none]
      exact follows_error _ _ _
    · rw [own, other]
      exact follows_map _ _ _ (follows_schemaReference reference same leaf)

theorem follows_convertResponses (responses others : Table Response) (produces types : List String)
    (alike : responses.Beside (fun _ => Response.Alike) others)
    (same : produces.eraseDups = types.eraseDups) :
    Follows Eq (convertResponses responses produces) (convertResponses others types) := by
  have content : ∀ schema, fanOut produces schema = fanOut types schema := by
    intro schema
    ext1
    rw [entries_fanOut, entries_fanOut, same]
  apply Table.follows_traverse
  apply alike.imp
  rintro ⟨status, one⟩ ⟨_, other⟩ ⟨rfl, alike⟩
  refine ⟨rfl, ?_⟩
  apply follows_bind _ _ _ _ (follows_responseSchema status one other alike)
  rintro schema _ rfl
  rw [alike.description, content]
  exact follows_same _

theorem follows_convertBody (one other : BodyParameter) (alike : one.Alike other) :
    Follows Eq (convertBody one) (convertBody other) := by
  rw [convertBody, convertBody]
  rcases (optionRel_iff _ _ _).mp alike.schema with
    ⟨none, _⟩ | ⟨schema, found, own, given, references⟩
  · rw [none]
    exact follows_error _ _ _
  · rw [own, given, Option.bind_some, Option.bind_some]
    rcases (optionRel_iff _ _ _).mp references with ⟨none, _⟩ | ⟨reference, same, own, given, leaf⟩
    · rw [none]
      exact follows_error _ _ _
    · rw [own, given]
      apply follows_bind _ _ _ _ (follows_schemaReference reference same leaf)
      rintro reference _ rfl
      rw [alike.description, alike.required]
      exact follows_same _

theorem bodies_alike (parameters others : List Parameter)
    (alike : List.Forall₂ Parameter.Alike parameters others) :
    List.Forall₂ BodyParameter.Alike (parameters.filterMap body?) (others.filterMap body?) := by
  induction alike with
  | nil => exact List.Forall₂.nil
  | cons first _ ih =>
      cases first with
      | plain same => exact ih
      | body alike => exact List.Forall₂.cons alike ih

theorem follows_convertRequestBody (parameters others : List Parameter)
    (alike : List.Forall₂ Parameter.Alike parameters others) :
    Follows Eq (convertRequestBody parameters) (convertRequestBody others) := by
  have bodies := bodies_alike parameters others alike
  rw [convertRequestBody, convertRequestBody]
  generalize parameters.filterMap body? = one at bodies
  generalize others.filterMap body? = other at bodies
  cases bodies with
  | nil => exact follows_same _
  | cons first rest =>
      cases rest with
      | nil =>
          exact follows_map _ _ _ (follows_convertBody _ _ first)
      | cons second rest => exact follows_error _ _ _

theorem convertParameter?_alike (one other : Parameter) (alike : one.Alike other) :
    convertParameter? one = convertParameter? other := by
  cases alike with
  | body alike => rfl
  | @plain location one other same =>
      exact congrArg some ((convertPlain_eq_iff location location one other).mpr ⟨rfl, same⟩)

theorem convertParameters_alike (parameters others : List Parameter)
    (alike : List.Forall₂ Parameter.Alike parameters others) :
    convertParameters parameters = convertParameters others := by
  rw [convertParameters, convertParameters]
  congr 1
  induction alike with
  | nil => rfl
  | cons first _ ih =>
      rw [List.filterMap_cons, List.filterMap_cons, convertParameter?_alike _ _ first, ih]

theorem follows_convertOperation (one other : Operation) (alike : one.Alike other) :
    Follows Eq (convertOperation one) (convertOperation other) := by
  rw [convertOperation, convertOperation]
  apply follows_bind _ _ _ _ (follows_convertResponses _ _ _ _ alike.responses alike.produces)
  rintro responses _ rfl
  apply follows_bind _ _ _ _ (follows_convertRequestBody _ _ alike.parameters)
  rintro body _ rfl
  rw [omitEmpty_congr _ _ alike.description, omitEmpty_congr _ _ alike.operationId,
    omitEmpty_congr _ _ alike.summary, alike.tags, convertParameters_alike _ _ alike.parameters]
  exact follows_same _

theorem follows_convertPaths (paths others : Table PathItem)
    (alike : paths.Beside (fun _ item other =>
      item.Beside (fun _ => Operation.Alike) other) others) :
    Follows Eq (convertPaths paths).result (convertPaths others).result := by
  rw [result_convertPaths, result_convertPaths]
  apply Table.follows_traverse
  apply alike.imp
  rintro path other ⟨same, methods⟩
  refine ⟨same, ?_⟩
  apply Table.follows_traverse
  apply methods.imp
  rintro method other ⟨same, operation⟩
  exact ⟨same, follows_convertOperation method.2 other.2 operation⟩

theorem follows_convertDefinitions {α : Type} (definitions others : Table α)
    (alike : List.Forall₂ (fun definition other => SameLeaf definition.1 other.1 ∧
      definition.2 = other.2)
      definitions.entries others.entries) :
    Follows Eq (convertDefinitions definitions).result (convertDefinitions others).result := by
  rw [result_convertDefinitions, result_convertDefinitions]
  refine follows_foldlM _ _ _ _ alike ?_ Table.empty Table.empty rfl
  rintro ⟨key, body⟩ ⟨other, _⟩ ⟨leaf, rfl⟩ schemas _ rfl
  exact follows_map _ _ _ (follows_schemaName key other leaf)

/-- Whatever a document is converted to, a document that is alike is converted to it as well. -/
theorem convert_of_alike (source other : Document) (alike : source.Alike other)
    (target : OpenApi.Document) (done : (convert source).result = .ok target) :
    (convert other).result = .ok target := by
  have follows := follows_convert source other alike.info alike.paths alike.definitions
    follows_convertPaths follows_convertDefinitions
  obtain ⟨⟨_, _, _, ⟨_⟩⟩, result, rfl, rfl, rfl, rfl⟩ := follows target done
  exact result

-- Two documents that differ in all that does not count.
def tersePets : Document where
  version := none
  info := some .null
  paths := some <| .ofList [("/pets", .ofList [("post",
    { description := none, operationId := some "addPet", summary := some "", tags := ["pets"]
      produces := ["application/json", "text/plain"]
      responses := .ofList [("200", ⟨"found", some ⟨none, some "#/definitions/v1.pet", none⟩⟩),
        ("404", ⟨"", some ⟨some "array", none, some ⟨some "#/definitions/v2.pet"⟩⟩⟩)]
      parameters := [.plain .query ⟨"page", none, some true, some "integer", none, .empty⟩,
        .body ⟨"pet", none, true, some ⟨none, some "#/definitions/v1.pet", none⟩⟩] })])]
  definitions := some <| .ofList [("v1.pet", .null), ("v2.pet", .flag true)]

def wordyPets : Document where
  version := some "2.0"
  info := some .null
  paths := some <| .ofList [("/pets", .ofList [("post",
    { description := some "", operationId := some "addPet", summary := none, tags := ["pets"]
      produces := ["application/json", "application/json", "text/plain", "application/json"]
      responses :=
        .ofList [("200", ⟨"found", some ⟨some "", some "pets/pet", some ⟨some "#/dog"⟩⟩⟩),
          ("404", ⟨"", some ⟨some "array", none, some ⟨some "pet"⟩⟩⟩)]
      parameters :=
        [.plain .query ⟨"page", none, some true, some "integer", some (.flag true), .empty⟩,
          .body ⟨"body", none, true, some ⟨some "object", some "v3.pet", some ⟨none⟩⟩⟩] })])]
  definitions := some <| .ofList [("#/pet", .null), ("pet", .flag true)]

theorem tersePets_alike : tersePets.Alike wordyPets := by
  have leaf : ∀ one other, lastPart one.toList = lastPart other.toList → SameLeaf one other :=
    fun _ _ => id
  refine ⟨rfl, Option.Rel.some ?paths, Option.Rel.some ?definitions⟩
  case definitions =>
    exact .cons ⟨leaf _ _ rfl, rfl⟩ (.cons ⟨leaf _ _ rfl, rfl⟩ .nil)
  case paths =>
    refine .cons ⟨rfl, .cons ⟨rfl, ?operation⟩ .nil⟩ .nil
    refine ⟨rfl, rfl, rfl, rfl, rfl, ?responses, ?parameters⟩
    case responses =>
      refine .cons ⟨rfl, rfl, .some ⟨rfl, .some (leaf _ _ rfl), nofun⟩⟩
        (.cons ⟨rfl, rfl, .some ?items⟩ .nil)
      exact ⟨rfl, .none, fun _ => .some (.some (leaf _ _ rfl))⟩
    case parameters =>
      exact .cons (.plain rfl) (.cons (.body ⟨rfl, rfl, .some (.some (leaf _ _ rfl))⟩) .nil)

theorem convert_of_alike_pets :
    tersePets.Alike wordyPets ∧ ∃ target, (convert tersePets).result = .ok target ∧
      (convert wordyPets).result = .ok target ∧ target.components.schemas.keys = ["Pet"] :=
  ⟨tersePets_alike, _, rfl, convert_of_alike tersePets wordyPets tersePets_alike _ rfl, rfl⟩

end SwaggerLift
