import SwaggerLift.Location
/-!
Swagger 2.0 documents, as far as a conversion looks at them. What it carries over without looking is
verbatim content.
-/

namespace SwaggerLift.Swagger

structure Items where
  reference : Option String

/-- A schema that points to a definition, directly or as the schema of its items. -/
structure Schema where
  type : Option String
  reference : Option String
  items : Option Items

/-- The reference of a schema: its own, else that of its items. -/
def Schema.target (s : Schema) : Option String :=
  s.reference.or (s.items.bind Items.reference)

/-- A parameter in the query, a header or the path. -/
structure PlainParameter where
  name : String
  description : Option String
  required : Option Bool
  type : Option String
  default : Option Verbatim
  /-- All other members, in the order of the document. -/
  extra : Table Verbatim

structure BodyParameter where
  name : String
  description : Option String
  required : Bool
  schema : Option Schema

inductive Parameter where
  | plain (location : Location) (parameter : PlainParameter)
  | body (parameter : BodyParameter)

namespace Parameter

def name : Parameter → String
  | plain _ p => p.name
  | body p => p.name

def isBody : Parameter → Bool
  | plain _ _ => false
  | body _ => true

end Parameter

structure Response where
  description : String
  schema : Option Schema

structure Operation where
  description : Option String
  operationId : Option String
  summary : Option String
  tags : List String
  /-- The content types that the operation answers with. -/
  produces : List String
  responses : Table Response
  parameters : List Parameter

abbrev PathItem := Table Operation

structure Document where
  version : Option String
  info : Option Verbatim
  paths : Option (Table PathItem)
  definitions : Option (Table Verbatim)

end SwaggerLift.Swagger
