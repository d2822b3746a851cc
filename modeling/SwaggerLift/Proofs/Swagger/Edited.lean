import SwaggerLift.Proofs.Json.Placed
import SwaggerLift.Proofs.Swagger.Legible
/-!
Members that a Swagger document does not declare, and the order of all others, are irrelevant to its
reading from a JSON text. Only the undeclared members of a parameter that is no body are kept, in
their order.
-/

namespace SwaggerLift.Swagger

/-- Edits where the layout of a document does not look, at all levels at once, leave
    the document the same. -/
theorem Document.read_of_edited (given edited : Value)
    (changed : Document.layout.Edited given edited) (fits : given.depth ≤ Json.deepest)
    (fitsToo : edited.depth ≤ Json.deepest) (text other : String) (means : Json.Means text given)
    (meansToo : Json.Means other edited) (document : Document)
    (read : Document.read .json text = .ok document) :
    Document.read .json other = .ok document := by
  obtain ⟨done, supported⟩ := (read_eq_ok_iff .json text document).mp read
  refine (read_eq_ok_iff .json other document).mpr ⟨?_, supported⟩
  rw [Format.read, mapError_eq_ok_iff] at *
  exact Json.read_edited _ layout_wellFormed given edited changed fits fitsToo text other means
    meansToo document done

-- The tags of two parameters move past the members that they govern, and unknown members appear.
def tidyPage : Value :=
  .object [("in", .text "query"), ("name", .text "page"), ("limit", .null), ("order", .list [])]

def movedPage : Value :=
  .object [("limit", .null), ("name", .text "page"), ("order", .list []), ("in", .text "query")]

def tidyPet : Value :=
  .object [("in", .text "body"), ("name", .text "pet"),
    ("schema", .object [("$ref", .text "#/definitions/Pet")])]

def movedSchema : Value := .object [("title", .null), ("$ref", .text "#/definitions/Pet")]

def movedPet : Value :=
  .object [("schema", movedSchema), ("in", .text "body"), ("x-pet", .list []),
    ("name", .text "pet")]

def pathsValue (post : Value) : Value := .object [("/pets", .object [("post", post)])]

def tidyPost : Value :=
  .object [("tags", .list [.text "pets"]), ("parameters", .list [tidyPage, tidyPet])]

def movedPost : Value :=
  .object [("parameters", .list [movedPage, movedPet]), ("tags", .list [.text "pets"])]

def tidyValue : Value := .object [("swagger", .text "2.0"), ("paths", pathsValue tidyPost)]

def movedValue : Value :=
  .object [("paths", pathsValue movedPost), ("swagger", .text "2.0"), ("x-origin", .list [.null])]

def tidyDocument : Document where
  version := some "2.0"
  info := none
  paths := some <| .ofList [("/pets", .ofList [("post",
    { description := none, operationId := none, summary := none, tags := ["pets"], produces := []
      responses := .empty
      parameters :=
        [.plain .query ⟨"page", none, none, none, none,
          .ofList [("limit", .null), ("order", .list [])]⟩,
          .body ⟨"pet", none, false, some ⟨none, some "#/definitions/Pet", none⟩⟩] })])]
  definitions := none

theorem Parameter.edited_movedPage : Parameter.layout.Edited tidyPage movedPage := by
  refine .inr ⟨_, _, "query", rfl, rfl, rfl, rfl, fun _ => ?_, fun other => absurd rfl other⟩
  exact ⟨_, Fields.EditedBeside.refl _ _, .swap _ _ _, rfl⟩

theorem Parameter.edited_movedPet : Parameter.layout.Edited tidyPet movedPet := by
  have schema :
      (Layout.record Schema.record).Edited (.object [("$ref", .text "#/definitions/Pet")])
        movedSchema :=
    .inr ⟨_, _, rfl, rfl, _, [("title", .null)], Fields.EditedBeside.refl _ _,
      .swap _ _ _, by simp [Fields.names]⟩
  have body : BodyParameter.record.Edited
      [("name", .text "pet"), ("schema", .object [("$ref", .text "#/definitions/Pet")])]
      [("schema", movedSchema), ("x-pet", .list []), ("name", .text "pet")] := by
    refine ⟨[("name", .text "pet"), ("schema", movedSchema)], [("x-pet", .list [])], ?_,
      ?_, by simp [Fields.names]⟩
    · exact .cons ⟨rfl, Fields.Edited.refl _ _ _⟩
        (.cons ⟨rfl, by simp [Fields.Edited, Field.Edited, schema]⟩ .nil)
    · exact .trans (.cons _ (.swap _ _ _)) (.swap _ _ _)
  refine .inr ⟨_, _, "body", rfl, rfl, rfl, rfl, ?_⟩
  simpa [Parameter.variants, Variants.Edited, Value.untagged] using body

theorem Operation.edited_movedPost :
    (Layout.record Operation.record).Edited tidyPost movedPost := by
  refine .inr ⟨_, _, rfl, rfl,
    [("tags", .list [.text "pets"]), ("parameters", .list [movedPage, movedPet])], [],
    .cons ⟨rfl, Fields.Edited.refl _ _ _⟩ (.cons ⟨rfl, ?_⟩ .nil), .swap _ _ _, nofun⟩
  simp [Fields.Edited, Field.Edited, Layout.Edited, Parameter.edited_movedPage,
    Parameter.edited_movedPet]

theorem Document.edited_movedValue : Document.layout.Edited tidyValue movedValue := by
  refine .inr ⟨_, _, rfl, rfl, [("swagger", .text "2.0"), ("paths", pathsValue movedPost)],
    [("x-origin", .list [.null])],
    .cons ⟨rfl, Fields.Edited.refl _ _ _⟩ (.cons ⟨rfl, ?_⟩ .nil),
    .swap _ _ _, by simp [Fields.names]⟩
  have paths : pathsLayout.Edited (pathsValue tidyPost) (pathsValue movedPost) :=
    .inr ⟨_, _, rfl, rfl,
      .cons ⟨rfl, .inr ⟨_, _, rfl, rfl, .cons ⟨rfl, Operation.edited_movedPost⟩ .nil⟩⟩ .nil⟩
  simpa [Fields.Edited, Field.Edited] using paths

theorem Document.read_of_edited_moved :
    Document.layout.Edited tidyValue movedValue ∧ tidyValue.depth ≤ Json.deepest ∧
      movedValue.depth ≤ Json.deepest ∧
      Document.read .json (Json.compact tidyValue) = .ok tidyDocument ∧
      Document.read .json (Json.compact movedValue) = .ok tidyDocument := by
  have accepted : Document.read .json (Json.compact tidyValue) = .ok tidyDocument := by
    rw [Document.read, Format.read, Json.read_of_ofText _ _ tidyValue rfl (Json.ofText_compact _)]
    rfl
  exact ⟨edited_movedValue, by decide, by decide, accepted,
    read_of_edited tidyValue movedValue edited_movedValue (by decide) (by decide) _ _
      (Json.means_compact _ rfl)
      (Json.means_compact _ rfl) tidyDocument accepted⟩

end SwaggerLift.Swagger
