import SwaggerLift.OpenApi.Layout
import SwaggerLift.Proofs.Layout.Legible
import SwaggerLift.Proofs.Table
/-!
The layout of OpenAPI documents is well formed, and a document is legible under it exactly if no
parameter carries a further member under the name of a declared one.
-/

namespace SwaggerLift.OpenApi

def Parameter.declared : List String := ["name", "in", "description", "required", "schema"]

def Document.parameters (d : Document) : List Parameter :=
  d.paths.nested.flatMap fun operation => operation.parameters.getD []

theorem Document.layout_wellFormed : Document.layout.WellFormed := by
  simp [Document.layout, Document.record, Components.record, pathsLayout, Operation.record,
    parametersLayout, Parameter.record, ParameterSchema.record, responsesLayout, Response.record,
    RequestBody.record, contentLayout, Content.record, Schema.record, Layout.WellFormed,
    Record.WellFormed, Fields.WellFormed, Field.WellFormed, Fields.names]

theorem Document.forall_parameters (d : Document) (P : Parameter → Prop) :
    (∀ parameter ∈ d.parameters, P parameter) ↔
      ∀ path ∈ d.paths.entries, ∀ method ∈ path.2.entries,
        ∀ parameters, method.2.parameters = some parameters →
          ∀ parameter ∈ parameters, P parameter := by
  simp only [parameters, List.forall_mem_flatMap]
  rw [Table.forall_nested]
  refine forall₂_congr fun path _ => forall₂_congr fun method _ => ?_
  cases method.2.parameters <;> simp

theorem Parameter.legible_iff (parameter : Parameter) (strict : Bool) :
    Parameter.record.Legible strict parameter ↔ ∀ name ∈ declared, name ∉ parameter.extra.keys := by
  have names : Parameter.record.Legible strict parameter ↔
      ∀ key ∈ parameter.extra.keys, key ∉ declared := by
    simp [Parameter.record, ParameterSchema.record, Record.Legible, Fields.Legible, Field.Legible,
      Layout.Legible, Layout.write, Fields.names, declared]
  rw [names]
  exact ⟨fun apart name declares stands => apart name stands declares,
    fun apart name stands declares => apart name declares stands⟩

theorem Operation.legible_iff (operation : Operation) (strict : Bool) :
    Operation.record.Legible strict operation ↔
      ∀ parameters, operation.parameters = some parameters →
        ∀ parameter ∈ parameters, Parameter.record.Legible strict parameter := by
  simp [Operation.record, parametersLayout, responsesLayout, Response.record, RequestBody.record,
    contentLayout, Content.record, Schema.record, Layout.Legible, Record.Legible, Fields.Legible,
    Field.Legible, Layout.write]

theorem Document.legible_iff (d : Document) (strict : Bool) :
    Document.layout.Legible strict d ↔
      ∀ parameter ∈ d.parameters, ∀ name ∈ Parameter.declared, name ∉ parameter.extra.keys := by
  have operations : Document.layout.Legible strict d ↔
      ∀ path ∈ d.paths.entries, ∀ method ∈ path.2.entries,
        Operation.record.Legible strict method.2 := by
    simp [Document.layout, Document.record, Components.record, pathsLayout, Layout.Legible,
      Record.Legible, Fields.Legible, Field.Legible]
  rw [operations, d.forall_parameters]
  simp only [Operation.legible_iff, Parameter.legible_iff]

end SwaggerLift.OpenApi
