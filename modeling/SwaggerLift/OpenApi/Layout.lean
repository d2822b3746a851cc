import SwaggerLift.Layout.Write
import SwaggerLift.OpenApi.Basic
/-!
The layouts of OpenAPI 3.0.3 documents: member names in the order in which they are written.
-/

namespace SwaggerLift.OpenApi

def Schema.record : Record Schema :=
  .closed "SchemaRef"
    (.cons "type" (.optional .text) <| .cons "$ref" (.required .text) .nil)
    { pack := fun (type, reference, _) => ⟨type, reference⟩
      unpack := fun s => (s.type, s.reference, ()) }

def Content.record : Record Content :=
  .closed "MediaType" (.cons "schema" (.required (.record Schema.record)) .nil)
    { pack := fun (schema, _) => ⟨schema⟩
      unpack := fun c => (c.schema, ()) }

def contentLayout : Layout (Table Content) := .table (.record Content.record)

def Response.record : Record Response :=
  .closed "Response"
    (.cons "description" (.required .text) <| .cons "content" (.required contentLayout) .nil)
    { pack := fun (description, content, _) => ⟨description, content⟩
      unpack := fun r => (r.description, r.content, ()) }

def ParameterSchema.record : Record ParameterSchema :=
  .closed "ParameterSchema" (.cons "type" (.required .text) .nil)
    { pack := fun (type, _) => ⟨type⟩
      unpack := fun s => (s.type, ()) }

def Parameter.record : Record Parameter :=
  .extensible "Parameter"
    (.cons "name" (.required .text) <|
      .cons "in" (.required (.named Location.naming)) <|
      .cons "description" (.optional .text) <|
      .cons "required" (.optional .flag) <|
      .cons "schema" (.optional (.record ParameterSchema.record)) .nil)
    { pack := fun ((name, location, description, required, schema, _), extra) =>
        ⟨name, location, description, required, schema, extra⟩
      unpack := fun p => ((p.name, p.location, p.description, p.required, p.schema, ()), p.extra) }

def RequestBody.record : Record RequestBody :=
  .closed "RequestBody"
    (.cons "description" (.optional .text) <|
      .cons "required" (.required .flag) <|
      .cons "content" (.required contentLayout) .nil)
    { pack := fun (description, required, content, _) => ⟨description, required, content⟩
      unpack := fun b => (b.description, b.required, b.content, ()) }

def responsesLayout : Layout (Table Response) := .table (.record Response.record)

def parametersLayout : Layout (List Parameter) := .list (.record Parameter.record)

def Operation.record : Record Operation :=
  .closed "Operation"
    (.cons "description" (.optional .text) <|
      .cons "operationId" (.optional .text) <|
      .cons "responses" (.optional responsesLayout) <|
      .cons "summary" (.optional .text) <|
      .cons "tags" (.optional (.list .text)) <|
      .cons "parameters" (.optional parametersLayout) <|
      .cons "requestBody" (.optional (.record RequestBody.record)) .nil)
    { pack := fun (description, operationId, responses, summary, tags, parameters,
      requestBody, _) =>
        ⟨description, operationId, responses, summary, tags, parameters, requestBody⟩
      unpack := fun o =>
        (o.description, o.operationId, o.responses, o.summary, o.tags, o.parameters,
          o.requestBody, ()) }

def pathsLayout : Layout (Table PathItem) := .table (.table (.record Operation.record))

def Components.record : Record Components :=
  .closed "Components" (.cons "schemas" (.required (.table .verbatim)) .nil)
    { pack := fun (schemas, _) => ⟨schemas⟩
      unpack := fun c => (c.schemas, ()) }

def Document.record : Record Document :=
  .closed "OpenApiDocument"
    (.cons "openapi" (.required .text) <|
      .cons "info" (.required .verbatim) <|
      .cons "paths" (.required pathsLayout) <|
      .cons "components" (.required (.record Components.record)) .nil)
    { pack := fun (openapi, info, paths, components, _) => ⟨openapi, info, paths, components⟩
      unpack := fun d => (d.openapi, d.info, d.paths, d.components, ()) }

def Document.layout : Layout Document := .record Document.record

/-- Equality of documents that leaves the order of members out of account. -/
def Document.same (d e : Document) : Bool :=
  (Document.layout.write d).same (Document.layout.write e)

end SwaggerLift.OpenApi
