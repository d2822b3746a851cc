import SwaggerLift.Format
/-!
Settings of a project: what is read, what is written, and in which format. All of them may be left
out of the settings file.
-/

namespace SwaggerLift

structure Settings where
  input : String
  output : String
  format : Option Format
  deriving DecidableEq

namespace Settings

def standard : Settings := ⟨"swagger.yaml", "openapi.yaml", none⟩

def record : Record Settings :=
  .closed "S2oConfig"
    (.cons "input" (.defaulted .text standard.input fun _ => false) <|
      .cons "output" (.defaulted .text standard.output fun _ => false) <|
      .cons "format" (.optional (.named Format.naming)) .nil)
    { pack := fun (input, output, format, _) => ⟨input, output, format⟩
      unpack := fun s => (s.input, s.output, s.format, ()) }

/-- The format that is set, else the one that the output path stands for. -/
def outputFormat (s : Settings) : Format := s.format.getD (.ofPath s.output)

def fileName : String := ".s2o.yaml"

def template : String :=
  "# s2o configuration\n" ++
  "input: swagger.yaml     # Swagger 2.0 source (YAML or JSON)\n" ++
  "output: openapi.yaml    # OpenAPI 3.0.3 destination\n" ++
  "# format: yaml          # yaml | json (defaults to the output file extension)\n"

end Settings

end SwaggerLift
