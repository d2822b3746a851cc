import SwaggerLift.Swagger.Basic
/-!
The layouts of Swagger 2.0 documents: member names, their order, and what an absent member means.
The kind of a parameter is told by its member `in`.
-/

namespace SwaggerLift.Swagger

def Items.record : Record Items :=
  .closed "ItemsRef" (.cons "$ref" (.optional .text) .nil)
    { pack := fun (reference, _) => ⟨reference⟩
      unpack := fun i => (i.reference, ()) }

def Schema.record : Record Schema :=
  .closed "SchemaRef"
    (.cons "type" (.optional .text) <|
      .cons "$ref" (.optional .text) <|
      .cons "items" (.optional (.record Items.record)) .nil)
    { pack := fun (type, reference, items, _) => ⟨type, reference, items⟩
      unpack := fun s => (s.type, s.reference, s.items, ()) }

def PlainParameter.record : Record PlainParameter :=
  .extensible "SimpleParameter"
    (.cons "name" (.required .text) <|
      .cons "description" (.optional .text) <|
      .cons "required" (.optional .flag) <|
      .cons "type" (.optional .text) <|
      .cons "default" (.optional .verbatim) .nil)
    { pack := fun ((name, description, required, type, default, _), extra) =>
        ⟨name, description, required, type, default, extra⟩
      unpack := fun p => ((p.name, p.description, p.required, p.type, p.default, ()), p.extra) }

def BodyParameter.record : Record BodyParameter :=
  .closed "BodyParameter"
    (.cons "name" (.required .text) <|
      .cons "description" (.optional .text) <|
      .cons "required" (.defaulted .flag false fun _ => false) <|
      .cons "schema" (.optional (.record Schema.record)) .nil)
    { pack := fun (name, description, required, schema, _) => ⟨name, description, required, schema⟩
      unpack := fun p => (p.name, p.description, p.required, p.schema, ()) }

def Parameter.variants :
    Variants (PlainParameter ⊕ PlainParameter ⊕ PlainParameter ⊕ BodyParameter ⊕ Empty) :=
  .cons "query" PlainParameter.record <|
    .cons "header" PlainParameter.record <|
    .cons "path" PlainParameter.record <|
    .cons "body" BodyParameter.record .nil

def Parameter.layout : Layout Parameter :=
  .union "Parameter" "in" Parameter.variants
    { pack
        | .inl p => .plain .query p
        | .inr (.inl p) => .plain .header p
        | .inr (.inr (.inl p)) => .plain .path p
        | .inr (.inr (.inr (.inl p))) => .body p
      unpack
        | .plain .query p => .inl p
        | .plain .header p => .inr (.inl p)
        | .plain .path p => .inr (.inr (.inl p))
        | .body p => .inr (.inr (.inr (.inl p)))
      pack_unpack := by rintro (⟨_ | _ | _, _⟩ | _) <;> rfl
      unpack_pack := by rintro (_ | _ | _ | _ | ⟨⟨⟩⟩) <;> rfl }

def Response.record : Record Response :=
  .closed "Response"
    (.cons "description" (.defaulted .text "" fun _ => false) <|
      .cons "schema" (.optional (.record Schema.record)) .nil)
    { pack := fun (description, schema, _) => ⟨description, schema⟩
      unpack := fun r => (r.description, r.schema, ()) }

def Operation.record : Record Operation :=
  .closed "Operation"
    (.cons "description" (.optional .text) <|
      .cons "operationId" (.optional .text) <|
      .cons "summary" (.optional .text) <|
      .cons "tags" (.defaulted (.list .text) [] List.isEmpty) <|
      .cons "produces" (.defaulted (.list .text) [] List.isEmpty) <|
      .cons "responses" (.defaulted (.table (.record Response.record)) .empty Table.isEmpty) <|
      .cons "parameters" (.defaulted (.list Parameter.layout) [] List.isEmpty) .nil)
    { pack := fun (description, operationId, summary, tags, produces, responses, parameters, _) =>
        ⟨description, operationId, summary, tags, produces, responses, parameters⟩
      unpack := fun o =>
        (o.description, o.operationId, o.summary, o.tags, o.produces, o.responses,
          o.parameters, ()) }

def pathsLayout : Layout (Table PathItem) := .table (.table (.record Operation.record))

def Document.record : Record Document :=
  .closed "SwaggerSpec"
    (.cons "swagger" (.optional .text) <|
      .cons "info" (.optional .verbatim) <|
      .cons "paths" (.optional pathsLayout) <|
      .cons "definitions" (.optional (.table .verbatim)) .nil)
    { pack := fun (version, info, paths, definitions, _) => ⟨version, info, paths, definitions⟩
      unpack := fun d => (d.version, d.info, d.paths, d.definitions, ()) }

end SwaggerLift.Swagger
