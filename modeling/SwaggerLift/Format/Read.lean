import SwaggerLift.Format
import SwaggerLift.Json.Source
import SwaggerLift.Yaml.Source
/-!
Reading typed values from texts of either format, and the wording of what is wrong with them.
-/

namespace SwaggerLift

def Yaml.Fault.message? : Yaml.Fault → Option String
  | .malformed => none
  | .mismatch none m => some (m.message Yaml.wording)
  | .mismatch (some trail) m =>
      let place := trail.text
      if place = "." then some (m.message Yaml.wording)
      else some (place ++ ": " ++ m.message Yaml.wording)
  | .tooDeep => some "recursion limit exceeded"
  | .tooManyAliases => some "repetition limit exceeded"

def Json.Fault.message? : Json.Fault → Option String
  | .cut _ => none
  | .mismatch m => some (m.message Json.wording)

inductive ReadFault where
  | yaml (fault : Yaml.Fault)
  | json (fault : Json.Fault)

namespace ReadFault

inductive Kind where
  | malformed
  | ended
  | shape
  deriving DecidableEq, Repr

def kind : ReadFault → Kind
  | yaml .malformed => .malformed
  | yaml _ => .shape
  | json (.cut .malformed) => .malformed
  | json (.cut .ended) => .ended
  | json (.mismatch _) => .shape

def message? : ReadFault → Option String
  | yaml fault => fault.message?
  | json fault => fault.message?

def message (fault : ReadFault) : String :=
  match fault.message? with
  | some text => text
  | none => match fault.kind with
    | .ended => "the text ends too early"
    | _ => "the text is not well formed"

end ReadFault

def Format.read {α : Type} (format : Format) (layout : Layout α) (text : String) :
    Except ReadFault α :=
  match format with
  | yaml => (Yaml.read layout text).mapError ReadFault.yaml
  | json => (Json.read layout text).mapError ReadFault.json

def Format.title : Format → String
  | yaml => "YAML"
  | json => "JSON"

end SwaggerLift
