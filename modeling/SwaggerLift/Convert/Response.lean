import SwaggerLift.Convert.Name
import SwaggerLift.Convert.Omit
import SwaggerLift.OpenApi.Basic
import SwaggerLift.Swagger.Basic
/-!
Responses. The schema of a response goes under every content type that the operation produces; a
response has to have one, even if no content type shows it.
-/

namespace SwaggerLift

open Swagger in
/-- The schema block of a response: the reference of its schema or of the items of its schema. -/
def responseSchema (status : String) (response : Response) :
    Except ConversionError OpenApi.Schema :=
  match response.schema.bind Schema.target with
  | none => .error (.unreferencedResponse status)
  | some reference => do
      return { type := omitEmpty (response.schema.bind Schema.type)
               reference := ← schemaReference reference }

def fanOut (produces : List String) (schema : OpenApi.Schema) : Table OpenApi.Content :=
  -- A content type that is repeated counts once.
  .ofList (produces.map fun type => (type, { schema }))

def convertResponses (responses : Table Swagger.Response) (produces : List String) :
    Except ConversionError (Table OpenApi.Response) :=
  responses.traverse fun status response => do
    let schema ← responseSchema status response
    return { description := response.description, content := fanOut produces schema }

end SwaggerLift
