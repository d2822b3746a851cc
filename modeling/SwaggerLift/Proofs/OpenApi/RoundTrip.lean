import SwaggerLift.Format.Write
import SwaggerLift.Proofs.Format.Read
import SwaggerLift.Proofs.Json.Print
import SwaggerLift.Proofs.OpenApi.Legible
import SwaggerLift.Proofs.Yaml.Faithful
/-!
Which documents the text of a document gives back: itself, in all its parts and in their order, if
no parameter carries a further member under a declared name and if the document is nested no deeper
than a reader goes. Of a JSON text this holds only then.
-/

namespace SwaggerLift.OpenApi

/-- A document whose numbers are whole is read back from its JSON text if and only if nothing in it
    takes the place of a declared member and it is not nested too deep. -/
theorem json_reads_back_iff (d : Document) (whole : (Document.layout.write d).floatFree = true) :
    Format.json.read Document.layout (d.render .json) = .ok d ↔
      (∀ parameter ∈ d.parameters, ∀ name ∈ Parameter.declared, name ∉ parameter.extra.keys) ∧
        (Document.layout.write d).depth ≤ 127 := by
  have written : Document.layout.Legible true d → Json.read Document.layout (d.render .json) =
      Json.limit.fit Json.deepest (Document.layout.write d).depth d := fun legible =>
    (Json.read_written Document.layout Document.layout_wellFormed d legible whole).1
  rw [Format.read, mapError_eq_ok_iff]
  constructor
  · intro read
    -- Whatever has been read is legible, and here it is the document itself.
    have legible := Json.legible_of_read Document.layout Document.layout_wellFormed _ d read
    have apart := (d.legible_iff false).mp legible
    refine ⟨apart, ?_⟩
    rw [written ((d.legible_iff true).mpr apart), Limit.fit] at read
    by_cases fits : (Document.layout.write d).depth ≤ Json.deepest
    · exact fits
    · rw [if_neg fits] at read
      cases read
  · rintro ⟨apart, fits⟩
    rw [written ((d.legible_iff true).mpr apart)]
    exact if_pos fits

def oneParameter (extra : List (String × Verbatim)) : Document where
  openapi := version
  info := .object (.ofList [("title", .text "\"\\\n\u0001é😀"), ("empty", .list [])])
  paths := .ofList [("/p", .ofList [("get",
    { description := none
      operationId := some "p"
      responses := some (.ofList [("200", ⟨"found", .ofList [("text/plain", ⟨none, "#/x"⟩)]⟩)])
      summary := none
      tags := some ["a", "b"]
      parameters := some [⟨"q", .query, some "", none, some ⟨"string"⟩, .ofList extra⟩]
      requestBody := some ⟨none, true, .ofList [("application/json", ⟨some "array", "#/y"⟩)]⟩ })])]
  components := ⟨.ofList [("B", .null),
    ("A", .list [.number (.whole ⟨-0x8000000000000000, by decide, by decide⟩),
      .number (.whole ⟨0xFFFFFFFFFFFFFFFF, by decide, by decide⟩), .flag false])]⟩

theorem json_reads_back_one_parameter :
    Format.json.read Document.layout
      ((oneParameter [("x-y", .null), ("z", .flag true)]).render .json) =
        .ok (oneParameter [("x-y", .null), ("z", .flag true)]) ∧
      Format.json.read Document.layout ((oneParameter [("required", .null)]).render .json) ≠
        .ok (oneParameter [("required", .null)]) := by
  constructor
  · apply (json_reads_back_iff _ (by rfl)).mpr
    constructor
    · decide
    · decide
  · intro read
    have apart := ((json_reads_back_iff _ (by rfl)).mp read).1
    exact absurd apart (by decide)

/-- A document whose numbers are whole is read back from its YAML text if nothing in it takes the
    place of a declared member and it is not nested too deep. -/
theorem yaml_reads_back (d : Document) (whole : (Document.layout.write d).floatFree = true)
    (apart : ∀ parameter ∈ d.parameters, ∀ name ∈ Parameter.declared, name ∉ parameter.extra.keys)
    (fits : (Document.layout.write d).depth ≤ 128) :
    Format.yaml.read Document.layout (d.render .yaml) = .ok d := by
  rw [Format.read, mapError_eq_ok_iff]
  have legible : Document.layout.Legible true d := (d.legible_iff true).mpr apart
  exact (Yaml.read_written Document.layout Document.layout_wellFormed d legible whole).trans
    (if_pos fits)

theorem yaml_reads_back_one_parameter :
    Format.yaml.read Document.layout
      ((oneParameter [("null", .text "1\n"), ("", .text " ")]).render .yaml) =
      .ok (oneParameter [("null", .text "1\n"), ("", .text " ")]) :=
  yaml_reads_back _ (by rfl) (by decide) (by decide)

end SwaggerLift.OpenApi
