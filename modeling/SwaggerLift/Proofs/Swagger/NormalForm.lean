import SwaggerLift.Proofs.Json.Bounded
import SwaggerLift.Proofs.Swagger.Legible
/-!
Swagger documents have a normal form as JSON texts: whatever text a document has been read from, it
is read again from the text that is written for it, with every table in its order. Only fractions
can be missed.
-/

namespace SwaggerLift.Swagger

theorem Document.layout_flatDefaults : Document.layout.FlatDefaults := by
  simp [Document.layout, Document.record, pathsLayout, Operation.record, Parameter.layout,
    Parameter.variants, PlainParameter.record, BodyParameter.record, Schema.record, Items.record,
    Response.record, Layout.FlatDefaults, Record.FlatDefaults, Fields.FlatDefaults,
    Field.FlatDefaults, Variants.FlatDefaults, Layout.write, Value.depth, Table.isEmpty]

/-- Whatever text a document has been read from, it is read again from its own. -/
theorem Document.reads_again (text : String) (document : Document)
    (read : Document.read .json text = .ok document)
    (whole : (Document.layout.write document).floatFree = true) :
    Document.read .json (Json.compact (Document.layout.write document)) = .ok document := by
  obtain ⟨done, supported⟩ := (read_eq_ok_iff .json text document).mp read
  refine (read_eq_ok_iff .json _ document).mpr ⟨?_, supported⟩
  rw [Format.read, mapError_eq_ok_iff] at *
  exact Json.read_compact_of_read _ Document.layout_wellFormed Document.layout_flatDefaults text
    document done whole

-- A text in which records are lists, a tag comes late, names are repeated or unknown and null
-- stands for nothing.
def single : Verbatim := .number (.whole ⟨1, by decide, by decide⟩)

def variedValue : Value :=
  .list [.text "2.0", .null,
    .object [("/pets",
      .object [("post", .object [("x-page", .list [single.val]), ("summary", .null),
        ("parameters", .list [
        .object [("limit", .object [("b", single.val), ("a", .null)]), ("in", .text "query"),
          ("name", .text "page")],
        .list [.text "body", .text "pet", .null, .flag true, .null]])])])],
    .object [("Pet", .null), ("Dog", single.val), ("Pet", .list [single.val])]]

def variedDocument : Document where
  version := some "2.0"
  info := none
  paths := some <| .ofList [("/pets", .ofList [("post",
    { description := none, operationId := none, summary := none, tags := [], produces := [],
      responses := .empty
      parameters := [.plain .query ⟨"page", none, none, none, none,
          .ofList [("limit", .object (.ofList [("b", single), ("a", .null)]))]⟩,
        .body ⟨"pet", none, true, none⟩] })])]
  definitions := some <| .ofList [("Pet", .list [single]), ("Dog", single)]

theorem read_variedValue : Document.read .json (Json.compact variedValue) = .ok variedDocument := by
  rw [Document.read, Format.read, Json.read_of_ofText _ _ variedValue rfl (Json.ofText_compact _)]
  rfl

theorem Document.reads_again_varied :
    Document.read .json (Json.compact variedValue) = .ok variedDocument ∧
      (Document.layout.write variedDocument).floatFree = true ∧
      Document.read .json (Json.compact (Document.layout.write variedDocument)) =
        .ok variedDocument :=
  ⟨read_variedValue, rfl, Document.reads_again _ _ read_variedValue rfl⟩

end SwaggerLift.Swagger
