import SwaggerLift.Location
/-!
OpenAPI 3.0.3 documents as a conversion produces them. What is absent is left out of a written
document.
-/

namespace SwaggerLift.OpenApi

def version : String := "3.0.3"

/-- A reference to a named schema, with the type of the schema it was made from. -/
structure Schema where
  type : Option String
  reference : String
  deriving DecidableEq

structure Content where
  schema : Schema
  deriving DecidableEq

structure Response where
  description : String
  content : Table Content
  deriving DecidableEq

structure ParameterSchema where
  type : String
  deriving DecidableEq

structure Parameter where
  name : String
  location : Location
  description : Option String
  required : Option Bool
  schema : Option ParameterSchema
  /-- All other members, in order. -/
  extra : Table Verbatim

structure RequestBody where
  description : Option String
  required : Bool
  content : Table Content
  deriving DecidableEq

structure Operation where
  description : Option String
  operationId : Option String
  responses : Option (Table Response)
  summary : Option String
  tags : Option (List String)
  parameters : Option (List Parameter)
  requestBody : Option RequestBody

/-- The operations of a path, by their methods. -/
abbrev PathItem := Table Operation

structure Components where
  schemas : Table Verbatim

structure Document where
  openapi : String
  info : Verbatim
  paths : Table PathItem
  components : Components

def operationCount (paths : Table (Table α)) : Nat :=
  paths.values.foldr (fun item count => item.size + count) 0

def Document.operationCount (d : Document) : Nat := OpenApi.operationCount d.paths

end SwaggerLift.OpenApi
