/-!
Why a document cannot be converted. Any of these ends the conversion; there is no partial result.
-/

namespace SwaggerLift

inductive ConversionError where
  | missingField (name : String)
  /-- A response whose schema refers to nothing. -/
  | unreferencedResponse (status : String)
  /-- A body parameter whose schema refers to nothing. -/
  | unreferencedBody (name : String)
  /-- A reference after whose last separator nothing stands. -/
  | emptyName (reference : String)
  | severalBodies (count : Nat)
  deriving DecidableEq

def ConversionError.message : ConversionError → String
  | .missingField name => s!"malformed source document: missing required field `{name}`"
  | .unreferencedResponse status =>
      s!"malformed source document: response `{status}` has no schema `$ref` or `items.$ref`"
  | .unreferencedBody name =>
      s!"malformed source document: body parameter `{name}` has no schema `$ref`"
  | .emptyName reference => s!"invalid reference `{reference}`: leaf name is empty"
  | .severalBodies count =>
      s!"operation declares {count} body parameters, at most one is supported"

end SwaggerLift
