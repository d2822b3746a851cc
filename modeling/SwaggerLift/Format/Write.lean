import SwaggerLift.Format
import SwaggerLift.Json.Print
import SwaggerLift.OpenApi.Layout
import SwaggerLift.Yaml.Print
/-!
Writing documents as texts of either format.
-/

namespace SwaggerLift

/-- The text of a value: in block style, or with one member a line. -/
def Format.write (format : Format) (value : Value) : String :=
  match format with
  | yaml => String.ofList (Yaml.print value)
  | json => Json.pretty value

def OpenApi.Document.render (document : Document) (format : Format) : String :=
  format.write (Document.layout.write document)

end SwaggerLift
