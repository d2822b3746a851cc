import SwaggerLift.Proofs.Convert.Follows
import SwaggerLift.Proofs.Convert.Reference
import SwaggerLift.Proofs.Table.Order
/-!
The order of paths, methods, statuses and content types, and of definitions as long as no two of
them lead to one name: it decides neither whether a conversion succeeds nor what stands where in its
result, only the order there.
-/

namespace SwaggerLift

namespace Swagger

structure Operation.Reordered (one other : Operation) : Prop where
  description : one.description = other.description
  operationId : one.operationId = other.operationId
  summary : one.summary = other.summary
  tags : one.tags = other.tags
  produces : one.produces.Perm other.produces
  responses : one.responses.Reordered Eq other.responses
  parameters : one.parameters = other.parameters

structure Document.Reordered (one other : Document) : Prop where
  version : one.version = other.version
  info : one.info = other.info
  paths : Option.Rel (Table.Reordered (Table.Reordered Operation.Reordered)) one.paths other.paths
  /-- Of definitions that lead to one name the last one counts, so these
      have to stay as they are. -/
  definitions :
    Option.Rel (fun a b => a = b ∨ (NamedApart a ∧ a.Reordered Eq b)) one.definitions
      other.definitions

end Swagger

namespace OpenApi

structure Response.Reordered (one other : Response) : Prop where
  description : one.description = other.description
  content : one.content.Reordered Eq other.content

structure Operation.Reordered (one other : Operation) : Prop where
  description : one.description = other.description
  operationId : one.operationId = other.operationId
  responses : Option.Rel (Table.Reordered Response.Reordered) one.responses other.responses
  summary : one.summary = other.summary
  tags : one.tags = other.tags
  parameters : one.parameters = other.parameters
  requestBody : one.requestBody = other.requestBody

/-- Equal documents, if the order within a table is left out of account. -/
structure Document.Reordered (one other : Document) : Prop where
  openapi : one.openapi = other.openapi
  info : one.info = other.info
  paths : one.paths.Reordered (Table.Reordered Operation.Reordered) other.paths
  schemas : one.components.schemas.Reordered Eq other.components.schemas

end OpenApi

open Swagger

theorem NamedApart.perm {α : Type} {definitions others : Table α} (apart : NamedApart definitions)
    (perm : definitions.entries.Perm others.entries) : NamedApart others :=
  perm.pairwise apart fun different name named same => different name same named

theorem Swagger.Operation.Reordered.symm {one other : Operation} (reordered : one.Reordered other) :
    other.Reordered one where
  description := reordered.description.symm
  operationId := reordered.operationId.symm
  summary := reordered.summary.symm
  tags := reordered.tags.symm
  produces := reordered.produces.symm
  responses := reordered.responses.symm fun _ _ => Eq.symm
  parameters := reordered.parameters.symm

theorem Swagger.Document.Reordered.symm {one other : Document} (reordered : one.Reordered other) :
    other.Reordered one where
  version := reordered.version.symm
  info := reordered.info.symm
  paths := optionRel_symm _ _ (fun _ _ paths => paths.symm fun _ _ item => item.symm fun _ _ =>
    Operation.Reordered.symm) _ _ reordered.paths
  definitions := by
    refine optionRel_symm _ _ ?_ _ _ reordered.definitions
    rintro definitions others (rfl | ⟨apart, order⟩)
    · exact Or.inl rfl
    · exact Or.inr ⟨apart.perm ((Table.reordered_eq_iff _ _).mp order),
        order.symm fun _ _ => Eq.symm⟩

theorem find?_fanOut (produces : List String) (schema : OpenApi.Schema) (type : String) :
    (fanOut produces schema).find? type = if type ∈ produces then some ⟨schema⟩ else none := by
  cases found : (fanOut produces schema).find? type with
  | none =>
      have absent : type ∉ produces := by
        intro member
        obtain ⟨⟨_, content⟩, stands, rfl⟩ :=
          List.mem_map.mp ((mem_keys_fanOut produces schema type).mpr member)
        rw [(Table.find?_eq_some_iff _ _ content).mpr stands] at found
        cases found
      rw [if_neg absent]
  | some content =>
      have member := Table.mem_keys_of_find? _ _ _ found
      rw [mem_keys_fanOut] at member
      have stands := (Table.find?_eq_some_iff _ _ _).mp found
      have same := schema_of_mem_fanOut produces schema content (List.mem_map.mpr ⟨_, stands, rfl⟩)
      rw [if_pos member, ← same]

theorem fanOut_reordered (produces types : List String) (perm : produces.Perm types)
    (schema : OpenApi.Schema) :
    (fanOut produces schema).Reordered Eq (fanOut types schema) := by
  rw [Table.reordered_iff]
  intro type
  simp only [find?_fanOut, perm.mem_iff]
  split
  · exact Option.Rel.some rfl
  · exact Option.Rel.none

theorem follows_convertResponses_reordered (responses others : Table Response)
    (produces types : List String) (reordered : responses.Reordered Eq others)
    (perm : produces.Perm types) :
    Follows (Table.Reordered OpenApi.Response.Reordered) (convertResponses responses produces)
      (convertResponses others types) := by
  apply reordered.follows_traverse
  rintro status response _ rfl
  apply follows_bind _ _ _ _ (follows_same (responseSchema status response))
  rintro schema _ rfl
  exact follows_pure _ _ _ ⟨rfl, fanOut_reordered produces types perm schema⟩

theorem unlessEmpty_reordered {α β : Type} {R : α → β → Prop} (t : Table α) (u : Table β)
    (reordered : t.Reordered R u) :
    Option.Rel (Table.Reordered R) (unlessEmpty t) (unlessEmpty u) := by
  have same : Emptiness.isEmpty t = Emptiness.isEmpty u := reordered.isEmpty_eq
  rw [unlessEmpty, unlessEmpty, same]
  split
  · exact Option.Rel.none
  · exact Option.Rel.some reordered

theorem follows_convertOperation_reordered (one other : Operation)
    (reordered : one.Reordered other) :
    Follows OpenApi.Operation.Reordered (convertOperation one) (convertOperation other) := by
  rw [convertOperation, convertOperation, reordered.parameters]
  apply follows_bind _ _ _ _
    (follows_convertResponses_reordered _ _ _ _ reordered.responses reordered.produces)
  intro responses others same
  apply follows_bind _ _ _ _ (follows_same _)
  rintro body _ rfl
  rw [reordered.description, reordered.operationId, reordered.summary, reordered.tags]
  exact follows_pure _ _ _ ⟨rfl, rfl, unlessEmpty_reordered responses others same, rfl,
    rfl, rfl, rfl⟩

theorem lastNamed_iff_of_apart {α : Type} (definitions : Table α) (apart : NamedApart definitions)
    (name key : String) (body : α) :
    LastNamed name key body definitions.entries ↔
      (key, body) ∈ definitions.entries ∧ schemaName key = .ok name := by
  constructor
  · rintro ⟨before, after, split, named, _⟩
    rw [split]
    exact ⟨List.mem_append_right _ List.mem_cons_self, named⟩
  · rintro ⟨member, named⟩
    obtain ⟨before, after, split⟩ := List.append_of_mem member
    refine ⟨before, after, split, named, fun later stands => ?_⟩
    rw [NamedApart, split] at apart
    exact (List.pairwise_cons.mp (List.pairwise_append.mp apart).2.1).1 later stands name named

theorem convertDefinitions_of_perm {α : Type} (definitions others schemas : Table α)
    (perm : definitions.entries.Perm others.entries)
    (done : (convertDefinitions definitions).result = .ok schemas) :
    ∃ schemas, (convertDefinitions others).result = .ok schemas := by
  have named := (exists_convertDefinitions_iff definitions).mp ⟨schemas, done⟩
  refine (exists_convertDefinitions_iff others).mpr fun key member => named key ?_
  exact (perm.map Prod.fst).mem_iff.mpr member

theorem follows_convertDefinitions_reordered {α : Type} (definitions others : Table α)
    (reordered : definitions = others ∨
      (NamedApart definitions ∧ definitions.Reordered Eq others)) :
    Follows (Table.Reordered Eq) (convertDefinitions definitions).result
      (convertDefinitions others).result := by
  rcases reordered with rfl | ⟨apart, reordered⟩
  · intro schemas done
    exact ⟨schemas, done, (Table.reordered_eq_iff _ _).mpr (List.Perm.refl _)⟩
  · have perm := (Table.reordered_eq_iff _ _).mp reordered
    intro schemas done
    obtain ⟨results, named⟩ := convertDefinitions_of_perm definitions others schemas perm done
    refine ⟨results, named, (Table.reordered_iff _ _).mpr fun name => ?_⟩
    have found : schemas.find? name = results.find? name := by
      ext body
      simp only [find?_convertDefinitions _ _ done, find?_convertDefinitions _ _ named,
        lastNamed_iff_of_apart _ apart, lastNamed_iff_of_apart _ (apart.perm perm), perm.mem_iff]
    rw [found]
    exact optionRel_refl Eq (fun _ => rfl) _

theorem follows_convertPaths_reordered (paths others : Table PathItem)
    (reordered : paths.Reordered (Table.Reordered Operation.Reordered) others) :
    Follows (Table.Reordered (Table.Reordered OpenApi.Operation.Reordered))
      (convertPaths paths).result
      (convertPaths others).result := by
  rw [result_convertPaths, result_convertPaths]
  apply reordered.follows_traverse
  intro path item other methods
  apply methods.follows_traverse
  intro method one other operation
  exact follows_convertOperation_reordered one other operation

theorem follows_convert_reordered (source other : Document) (reordered : source.Reordered other) :
    Follows OpenApi.Document.Reordered (convert source).result (convert other).result := by
  have follows := follows_convert source other reordered.info reordered.paths reordered.definitions
    follows_convertPaths_reordered follows_convertDefinitions_reordered
  intro target done
  obtain ⟨result, same, openapi, info, paths, schemas⟩ := follows target done
  exact ⟨result, same, openapi, info, paths, schemas⟩

/-- Of a document and a reordered one both can be converted or none, and the results
    differ in their order only. -/
theorem convert_reordered (source other : Document) (reordered : source.Reordered other) :
    ((∃ target, (convert source).result = .ok target) ↔
      ∃ target, (convert other).result = .ok target) ∧
      ∀ target result, (convert source).result = .ok target → (convert other).result = .ok result →
        target.Reordered result := by
  have there := follows_convert_reordered source other reordered
  have back := follows_convert_reordered other source reordered.symm
  refine ⟨⟨?forth, ?back⟩, ?results⟩
  case forth =>
    rintro ⟨target, done⟩
    obtain ⟨result, same, _⟩ := there target done
    exact ⟨result, same⟩
  case back =>
    rintro ⟨target, done⟩
    obtain ⟨result, same, _⟩ := back target done
    exact ⟨result, same⟩
  case results =>
    intro target result done same
    obtain ⟨other, found, related⟩ := there target done
    rw [same] at found
    cases found
    exact related

-- Two documents with the same entries.
def listPets : Operation where
  description := none
  operationId := none
  summary := none
  tags := []
  produces := ["application/json", "text/plain"]
  responses := .ofList [("200", ⟨"found", some ⟨none, some "pet", none⟩⟩),
    ("404", ⟨"missing", some ⟨none, some "error", none⟩⟩)]
  parameters := []

def listPetsBackwards : Operation :=
  { listPets with
    produces := ["text/plain", "application/json"]
    responses := .ofList [("404", ⟨"missing", some ⟨none, some "error", none⟩⟩),
      ("200", ⟨"found", some ⟨none, some "pet", none⟩⟩)] }

def petStore : Document where
  version := some "2.0"
  info := some .null
  paths :=
    some <| .ofList [("/pets", .ofList [("get", listPets), ("head", listPets)]), ("/dogs", .empty)]
  definitions := some <| .ofList [("pet", .null), ("error", .flag true)]

def petStoreBackwards : Document :=
  { petStore with
    paths := some <| .ofList [("/dogs", .empty),
      ("/pets", .ofList [("head", listPetsBackwards), ("get", listPets)])]
    definitions := some <| .ofList [("error", .flag true), ("pet", .null)] }

theorem petStore_reordered : petStore.Reordered petStoreBackwards := by
  have swapped : ∀ {α : Type} (a b : α), [a, b].Perm [b, a] := fun a b => .swap b a []
  have responses : listPets.responses.Reordered Eq listPetsBackwards.responses :=
    (Table.reordered_eq_iff _ _).mpr (swapped _ _)
  have operation : listPets.Reordered listPetsBackwards :=
    ⟨rfl, rfl, rfl, rfl, swapped _ _, responses, rfl⟩
  have unchanged : listPets.Reordered listPets :=
    ⟨rfl, rfl, rfl, rfl, .refl _, (Table.reordered_eq_iff _ _).mpr (.refl _), rfl⟩
  refine ⟨rfl, rfl, Option.Rel.some ⟨_, swapped _ _, ?paths⟩,
    Option.Rel.some (Or.inr ⟨?apart, ?definitions⟩)⟩
  case paths =>
    refine .cons ⟨rfl, ⟨[], .refl _, .nil⟩⟩ (.cons ⟨rfl, ⟨_, swapped _ _, ?methods⟩⟩ .nil)
    exact .cons ⟨rfl, operation⟩ (.cons ⟨rfl, unchanged⟩ .nil)
  case apart =>
    have pet : schemaName "pet" = .ok "Pet" := rfl
    have error : schemaName "error" = .ok "Error" := rfl
    refine .cons (List.forall_mem_singleton.mpr ?_) (.cons nofun .nil)
    intro name named same
    rw [pet, ← same, error] at named
    exact absurd (Except.ok.inj named) (by decide)
  case definitions => exact (Table.reordered_eq_iff _ _).mpr (swapped _ _)

theorem convert_reordered_petStore :
    petStore.Reordered petStoreBackwards ∧ ∃ target result, (convert petStore).result = .ok target ∧
      (convert petStoreBackwards).result = .ok result ∧ target.Reordered result ∧
      target.components.schemas.keys = ["Pet", "Error"] ∧
        result.components.schemas.keys = ["Error", "Pet"] :=
  ⟨petStore_reordered, _, _, rfl, rfl,
    (convert_reordered petStore petStoreBackwards petStore_reordered).2 _ _ rfl rfl, rfl, rfl⟩

end SwaggerLift
