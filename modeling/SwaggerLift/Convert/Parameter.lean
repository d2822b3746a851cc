import SwaggerLift.Convert.Name
import SwaggerLift.Convert.Omit
import SwaggerLift.OpenApi.Basic
import SwaggerLift.Swagger.Basic
/-!
Parameters. The body parameter of an operation becomes its request body, all others stay parameters,
in order, with their type moved into a schema and without their default.
-/

namespace SwaggerLift

open Swagger

def bodyContentType : String := "application/json"

def convertPlain (location : Location) (parameter : PlainParameter) : OpenApi.Parameter where
  name := parameter.name
  location := location
  description := parameter.description
  required := parameter.required
  schema := parameter.type.map fun type => { type }
  extra := parameter.extra

def convertParameter? : Parameter → Option OpenApi.Parameter
  | .plain location parameter => some (convertPlain location parameter)
  | .body _ => none

def convertParameters (parameters : List Parameter) : Option (List OpenApi.Parameter) :=
  unlessEmpty (parameters.filterMap convertParameter?)

def body? : Parameter → Option BodyParameter
  | .plain _ _ => none
  | .body body => some body

def convertBody (body : BodyParameter) : Except ConversionError OpenApi.RequestBody :=
  -- Only the reference of its own schema counts, not that of its items.
  match body.schema.bind Schema.reference with
  | none => .error (.unreferencedBody body.name)
  | some reference => do
      let schema : OpenApi.Schema := { type := none, reference := ← schemaReference reference }
      return { description := body.description
               required := body.required
               content := .ofList [(bodyContentType, { schema })] }

def convertRequestBody (parameters : List Parameter) :
    Except ConversionError (Option OpenApi.RequestBody) :=
  match parameters.filterMap body? with
  | [] => .ok none
  | [body] => do return some (← convertBody body)
  | bodies => .error (.severalBodies bodies.length)

end SwaggerLift
