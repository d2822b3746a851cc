import SwaggerLift.Proofs.Convert.Logged
import SwaggerLift.Proofs.Follows
/-!
Two conversions side by side: if the conversions of the parts of one document follow those of the
other, so does the conversion of the whole.
-/

namespace SwaggerLift

theorem follows_requireField {α β : Type} {R : α → β → Prop} (name : String) (x : Option α)
    (y : Option β) (related : Option.Rel R x y) :
    Follows R (requireField name x).result (requireField name y).result := by
  cases related with
  | none => exact follows_error _ _ _
  | some related => exact follows_pure R _ _ related

theorem follows_convert (source other : Swagger.Document)
    {Routes : Table Swagger.PathItem → Table Swagger.PathItem → Prop}
    {Bodies Schemas : Table Verbatim → Table Verbatim → Prop}
    {Items : Table OpenApi.PathItem → Table OpenApi.PathItem → Prop}
    (info : source.info = other.info) (paths : Option.Rel Routes source.paths other.paths)
    (definitions : Option.Rel Bodies source.definitions other.definitions)
    (eachPaths : ∀ a b, Routes a b → Follows Items (convertPaths a).result (convertPaths b).result)
    (eachDefinitions : ∀ a b, Bodies a b →
      Follows Schemas (convertDefinitions a).result (convertDefinitions b).result) :
    Follows (fun one other : OpenApi.Document => one.openapi = other.openapi ∧
      one.info = other.info ∧
        Items one.paths other.paths ∧ Schemas one.components.schemas other.components.schemas)
      (convert source).result (convert other).result := by
  rw [result_convert, result_convert, info]
  apply follows_bind _ _ _ _ (follows_same _)
  rintro info _ rfl
  apply follows_bind _ _ _ _ (follows_requireField "paths" _ _ paths)
  intro paths others routes
  apply follows_bind _ _ _ _ (follows_requireField "definitions" _ _ definitions)
  intro definitions bodies named
  apply follows_bind _ _ _ _ (eachPaths paths others routes)
  intro converted items beside
  apply follows_bind _ _ _ _ (eachDefinitions definitions bodies named)
  intro schemas others same
  exact follows_pure _ _ _ ⟨rfl, rfl, beside, same⟩

end SwaggerLift
