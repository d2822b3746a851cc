import SwaggerLift.Proofs.Format.Agreement
import SwaggerLift.Proofs.Swagger.Legible
/-!
A Swagger document may be written as JSON or as YAML: what is accepted from a JSON text is accepted
from the YAML text of the same value, as the same document. Records have to be written as objects,
and fractions may not occur, since YAML takes no list for a record and need not say the same
fraction.
-/

namespace SwaggerLift.Swagger

theorem Document.read_eq_of_json (value : Value) (whole : value.floatFree = true)
    (labelled : Document.layout.Labelled value) (text : String)
    (spells : (Json.Literal.ofValue value).Spells text)
    (readable : ∀ fault, Document.read .json text ≠ .error (.unreadable .json fault)) :
    Document.read .yaml (Format.yaml.write value) = Document.read .json text := by
  cases done : Json.read Document.layout text with
  | error fault =>
      refine absurd ?_ (readable (.json fault))
      rw [Document.read, Format.read, done]
      rfl
  | ok document =>
      have same := Yaml.read_of_json Document.layout value whole labelled text spells document done
      rw [Document.read, Document.read, Format.read, Format.read, Format.write, same, done]
      rfl

/-- What is accepted from a JSON text is accepted from the YAML text of its value, and a version
    that is not supported there is not supported here. -/
theorem Document.read_agrees (value : Value) (whole : value.floatFree = true)
    (labelled : Document.layout.Labelled value) (text : String)
    (spells : (Json.Literal.ofValue value).Spells text) :
    (∀ document, Document.read .json text = .ok document →
      Document.read .yaml (Format.yaml.write value) = .ok document) ∧
    ∀ version, Document.read .json text = .error (.unsupportedVersion version) →
      Document.read .yaml (Format.yaml.write value) = .error (.unsupportedVersion version) := by
  have agrees := read_eq_of_json value whole labelled text spells
  constructor
  · intro document done
    rw [agrees (by rw [done]; nofun), done]
  · intro version done
    rw [agrees (by rw [done]; nofun), done]

-- A document that lists its parameters in both ways, and one of another version.
def labelledValue : Value :=
  .object [("swagger", .text "2.0"), ("x-origin", .list [.null]),
    ("paths", .object [("/pets",
      .object [("post", .object [("summary", .null), ("parameters", .list [
      .object [("limit", .object [("b", .flag true), ("a", .null)]), ("in", .text "query"),
        ("name", .text "page")],
      .list [.text "body", .text "pet", .null, .flag true, .null]])])])]),
    ("definitions", .object [("Pet", .null), ("Dog", .text "1"), ("Pet", .list [])])]

def labelledDocument : Document where
  version := some "2.0"
  info := none
  paths := some <| .ofList [("/pets", .ofList [("post",
    { description := none, operationId := none, summary := none, tags := [], produces := [],
      responses := .empty
      parameters := [.plain .query ⟨"page", none, none, none, none,
          .ofList [("limit", .object (.ofList [("b", .flag true), ("a", .null)]))]⟩,
        .body ⟨"pet", none, true, none⟩] })])]
  definitions := some <| .ofList [("Pet", .list []), ("Dog", .text "1")]

def latestValue : Value := .object [("swagger", .text "3.0")]

theorem Document.labelled_labelledValue : Document.layout.Labelled labelledValue := by
  simp [Document.layout, Document.record, pathsLayout, Operation.record, Parameter.layout,
    labelledValue, Layout.Labelled, Record.Labelled, Fields.Labelled, Field.Labelled, Value.items,
    Value.members, -Prod.forall]

theorem Document.labelled_latestValue : Document.layout.Labelled latestValue := by
  simp [Document.layout, Document.record, latestValue, Layout.Labelled, Record.Labelled,
    Fields.Labelled, Field.Labelled, Value.members]

theorem Document.read_agrees_labelled :
    (labelledValue.floatFree = true ∧ Document.layout.Labelled labelledValue ∧
      Document.read .json (Json.compact labelledValue) = .ok labelledDocument ∧
      Document.read .yaml (Format.yaml.write labelledValue) = .ok labelledDocument) ∧
    latestValue.floatFree = true ∧ Document.layout.Labelled latestValue ∧
      Document.read .json (Json.compact latestValue) = .error (.unsupportedVersion "3.0") ∧
      Document.read .yaml (Format.yaml.write latestValue) = .error (.unsupportedVersion "3.0") := by
  have accepted : Document.read .json (Json.compact labelledValue) = .ok labelledDocument := by
    rw [Document.read, Format.read,
      Json.read_of_ofText _ _ labelledValue rfl (Json.ofText_compact _)]
    rfl
  have refused :
      Document.read .json (Json.compact latestValue) = .error (.unsupportedVersion "3.0") := by
    rw [Document.read, Format.read, Json.read_of_ofText _ _ latestValue rfl (Json.ofText_compact _)]
    rfl
  have first := read_agrees labelledValue rfl labelled_labelledValue _ (Json.spells_compact _)
  have second := read_agrees latestValue rfl labelled_latestValue _ (Json.spells_compact _)
  exact ⟨⟨rfl, labelled_labelledValue, accepted, first.1 _ accepted⟩, rfl,
    labelled_latestValue, refused, second.2 _ refused⟩

end SwaggerLift.Swagger
