import SwaggerLift.Proofs.Format.Read
import SwaggerLift.Swagger.Read
/-!
The layout of Swagger documents is well formed, and in a legible document no parameter carries a
further member under the name of a declared one or of the tag that tells its kind.
-/

namespace SwaggerLift.Swagger

def Document.parameters (document : Document) : List Parameter :=
  (document.paths.getD .empty).nested.flatMap Operation.parameters

def PlainParameter.declared : List String :=
  ["in", "name", "description", "required", "type", "default"]

theorem Document.layout_wellFormed : Document.layout.WellFormed := by
  simp [Document.layout, Document.record, pathsLayout, Operation.record, Parameter.layout,
    Parameter.variants, PlainParameter.record, BodyParameter.record, Schema.record, Items.record,
    Response.record, Layout.WellFormed, Record.WellFormed, Fields.WellFormed, Field.WellFormed,
    Variants.WellFormed, Fields.names, Variants.names, Record.names, Layout.Legible]

def PlainParameter.Legible (strict : Bool) (parameter : PlainParameter) : Prop :=
  (∀ name ∈ declared, name ∉ parameter.extra.keys) ∧
    (∀ value, parameter.default = some value → strict = true → value.val ≠ .null)

/-- The tag stands before the other members, so none of them may have its name. -/
theorem PlainParameter.legible_iff (strict : Bool) (parameter : PlainParameter) :
    (PlainParameter.record.Legible strict parameter ∧
      "in" ∉ (PlainParameter.record.members parameter).map Prod.fst) ↔
        parameter.Legible strict := by
  -- No field has the name of the tag, so only a collected member could.
  have untagged : "in" ∉ (PlainParameter.record.members parameter).map Prod.fst ↔
      "in" ∉ parameter.extra.keys := by
    have none : ∀ {ρ σ : Type} (fields : Fields ρ σ) row, "in" ∉ fields.names →
        "in" ∉ (fields.write row).map Prod.fst := fun fields row absent written =>
      absent (fields.mem_names_of_written row "in" written)
    rw [PlainParameter.record, Record.members, List.map_append, List.mem_append,
      List.map_map, not_or, and_iff_right (none _ _ (by decide))]
    rfl
  have inside : PlainParameter.record.Legible strict parameter ↔
      (∀ value, parameter.default = some value → strict = true → value.val ≠ .null) ∧
        ∀ key ∈ parameter.extra.keys, key ∉ declared.tail := by
    simp [PlainParameter.record, Record.Legible, Fields.Legible, Field.Legible, Layout.Legible,
      Layout.write, Fields.names, declared]
  have swap : (∀ key ∈ parameter.extra.keys, key ∉ declared.tail) ↔
      ∀ name ∈ declared.tail, name ∉ parameter.extra.keys :=
    ⟨fun apart name declares held => apart name held declares,
      fun apart key held declares => apart key declares held⟩
  have all : (∀ name ∈ declared, name ∉ parameter.extra.keys) ↔
      "in" ∉ parameter.extra.keys ∧ ∀ name ∈ declared.tail, name ∉ parameter.extra.keys :=
    List.forall_mem_cons
  rw [untagged, inside, swap, PlainParameter.Legible, all]
  constructor
  · rintro ⟨⟨present, apart⟩, free⟩
    exact ⟨⟨free, apart⟩, present⟩
  · rintro ⟨⟨free, apart⟩, present⟩
    exact ⟨⟨present, apart⟩, free⟩

theorem Parameter.legible_plain_iff (strict : Bool) (location : Location)
    (parameter : PlainParameter) :
    Parameter.layout.Legible strict (.plain location parameter) ↔ parameter.Legible strict := by
  rw [← parameter.legible_iff strict]
  cases location <;> rfl

theorem Parameter.legible_body (strict : Bool) (parameter : BodyParameter) :
    Parameter.layout.Legible strict (.body parameter) := by
  simp [Parameter.layout, Parameter.variants, BodyParameter.record, Schema.record, Items.record,
    Layout.Legible, Variants.Legible, Record.Legible, Fields.Legible, Field.Legible, Layout.write,
    Record.members, Fields.write, Field.write]

theorem Operation.legible_iff (strict : Bool) (operation : Operation) :
    Operation.record.Legible strict operation ↔
      ∀ parameter ∈ operation.parameters, Parameter.layout.Legible strict parameter := by
  simp [Operation.record, Response.record, Schema.record, Items.record, Layout.Legible,
    Record.Legible, Fields.Legible, Field.Legible, Layout.write]

theorem Document.legible_iff (strict : Bool) (document : Document) :
    Document.layout.Legible strict document ↔
      (∀ info, document.info = some info → strict = true → info.val ≠ .null) ∧
        ∀ location parameter, .plain location parameter ∈ document.parameters →
          parameter.Legible strict := by
  have operations : Document.layout.Legible strict document ↔
      (∀ info, document.info = some info → strict = true → info.val ≠ .null) ∧
        ∀ operation ∈ (document.paths.getD .empty).nested,
          Operation.record.Legible strict operation := by
    rw [Table.forall_nested]
    cases given : document.paths <;>
      simp [Document.layout, Document.record, pathsLayout, Layout.Legible, Record.Legible,
        Fields.Legible, Field.Legible, Layout.write, given]
  have parameters : (∀ operation ∈ (document.paths.getD .empty).nested,
      Operation.record.Legible strict operation) ↔
        ∀ parameter ∈ document.parameters, Parameter.layout.Legible strict parameter := by
    simp only [Operation.legible_iff, Document.parameters, List.forall_mem_flatMap]
  rw [operations, parameters]
  apply and_congr_right
  intro _
  constructor
  · intro all location parameter stands
    exact (Parameter.legible_plain_iff strict location parameter).mp (all _ stands)
  · intro all parameter stands
    cases parameter with
    | plain location parameter =>
        exact (Parameter.legible_plain_iff strict location parameter).mpr
          (all location parameter stands)
    | body parameter => exact Parameter.legible_body strict parameter

theorem checkVersion_eq_ok_iff (document found : Document) :
    checkVersion document = .ok found ↔
      document = found ∧ ∀ version, document.version = some version →
        isSupported version = true := by
  rw [checkVersion]
  cases document.version with
  | none => simp
  | some version =>
      by_cases supported : isSupported version = true
      · simp [supported]
      · simp [supported]

theorem Document.read_eq_ok_iff (format : Format) (text : String) (document : Document) :
    Document.read format text = .ok document ↔
      format.read Document.layout text = .ok document ∧ ∀ version, document.version = some version →
        isSupported version = true := by
  simp only [Document.read, bind_eq_ok_iff, mapError_eq_ok_iff, checkVersion_eq_ok_iff]
  constructor
  · rintro ⟨_, done, rfl, supported⟩
    exact ⟨done, supported⟩
  · rintro ⟨done, supported⟩
    exact ⟨document, done, rfl, supported⟩

theorem Document.layout_read_of_read (format : Format) (text : String) (document : Document)
    (read : Document.read format text = .ok document) :
    format.read Document.layout text = .ok document :=
  ((read_eq_ok_iff format text document).mp read).1

theorem Document.legible_of_read (format : Format) (text : String) (document : Document)
    (read : Document.read format text = .ok document) : Document.layout.Legible false document :=
  format.legible_of_read Document.layout Document.layout_wellFormed text document
    (layout_read_of_read format text document read)

end SwaggerLift.Swagger
