import SwaggerLift.Convert.Log
import SwaggerLift.Convert.Parameter
import SwaggerLift.Convert.Response
/-!
The conversion of a document: operation after operation, then the definitions. The first thing that
cannot be converted ends it; the log tells how far it came.
-/

namespace SwaggerLift

def convertOperation (operation : Swagger.Operation) :
    Except ConversionError OpenApi.Operation := do
  -- Responses are looked at before parameters.
  let responses ← convertResponses operation.responses operation.produces
  let requestBody ← convertRequestBody operation.parameters
  return { description := omitEmpty operation.description
           operationId := omitEmpty operation.operationId
           responses := unlessEmpty responses
           summary := omitEmpty operation.summary
           tags := unlessEmpty operation.tags
           parameters := convertParameters operation.parameters
           requestBody := requestBody }

def convertMethod (path method : String) (operation : Swagger.Operation) :
    Logged OpenApi.Operation := do
  Logged.note (.mapping method path)
  match convertOperation operation with
  | .ok converted => return converted
  | .error error => do
      Logged.note (.failed method path error)
      Logged.fail error

def convertPaths (paths : Table Swagger.PathItem) : Logged (Table OpenApi.PathItem) :=
  paths.traverse fun path item => item.traverse (convertMethod path)

def addDefinition (schemas : Table α) (definition : String × α) : Logged (Table α) := do
  -- If the name is taken, the entry keeps its place and gets the new body.
  let name ← schemaName definition.1
  if (schemas.find? name).isSome then
    Logged.note (.overwritten definition.1 name)
  return schemas.insert name definition.2

def convertDefinitions (definitions : Table α) : Logged (Table α) :=
  definitions.entries.foldlM addDefinition .empty

def requireField (name : String) : Option α → Logged α
  | some a => return a
  | none => Logged.fail (.missingField name)

def convert (document : Swagger.Document) : Logged OpenApi.Document := do
  let info ← requireField "info" document.info
  let paths ← requireField "paths" document.paths
  let definitions ← requireField "definitions" document.definitions
  let paths ← convertPaths paths
  let schemas ← convertDefinitions definitions
  Logged.note (.converted paths.size (OpenApi.operationCount paths) schemas.size)
  return { openapi := OpenApi.version, info, paths, components := { schemas } }

end SwaggerLift
