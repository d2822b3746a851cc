import SwaggerLift.Format.Read
import SwaggerLift.Swagger.Layout
/-!
Reading Swagger 2.0 documents. A document need not name its version; if it does, the version has to
begin with `2.`.
-/

namespace SwaggerLift.Swagger

inductive ReadError where
  | unreadable (format : Format) (fault : ReadFault)
  | unsupportedVersion (version : String)

def ReadError.message : ReadError → String
  | unreadable format fault => s!"failed to parse {format.title}: {fault.message}"
  | unsupportedVersion version => s!"unsupported Swagger version: {version}"

def isSupported (version : String) : Bool :=
  match version.toList with
  | '2' :: '.' :: _ => true
  | _ => false

def checkVersion (document : Document) : Except ReadError Document :=
  match document.version with
  | some version =>
      if isSupported version then .ok document else .error (.unsupportedVersion version)
  | none => .ok document

def Document.layout : Layout Document := .record Document.record

def Document.read (format : Format) (text : String) : Except ReadError Document := do
  let document ← (format.read Document.layout text).mapError (ReadError.unreadable format)
  checkVersion document

end SwaggerLift.Swagger
