import SwaggerLift.Format.Write
import SwaggerLift.Proofs.Convert.Parameter
import SwaggerLift.Proofs.Format.Read
import SwaggerLift.Proofs.Json.Distinct
import SwaggerLift.Proofs.Layout.Distinct
import SwaggerLift.Proofs.OpenApi.Legible
import SwaggerLift.Proofs.Swagger.Legible
import SwaggerLift.Proofs.Yaml.Distinct
/-!
When a converted document repeats a name in an object. Nothing that is read collects a member under
a name that the source declares, but the target declares others: the type of a parameter moves into
a member of its own, and nothing keeps the name of that member free.
-/

namespace SwaggerLift

theorem parameters_of_convertOperation (operation : Swagger.Operation)
    (converted : OpenApi.Operation) (done : convertOperation operation = .ok converted) :
    converted.parameters.getD [] = operation.parameters.filterMap convertParameter? := by
  obtain ⟨responses, body, _, _, rfl⟩ := (convertOperation_eq_ok_iff _ _).mp done
  exact getD_unlessEmpty _

theorem parameters_of_convert (source : Swagger.Document) (target : OpenApi.Document)
    (done : (convert source).result = .ok target) :
    target.parameters = source.parameters.filterMap convertParameter? := by
  obtain ⟨info, paths, definitions, converted, schemas, _, given, _, mapped, _, rfl⟩ :=
    (convert_eq_ok_iff source target).mp done
  rw [OpenApi.Document.parameters, Swagger.Document.parameters, given, Option.getD_some]
  have operations := (convertPaths_eq_ok paths converted mapped).nested
  generalize paths.nested = sources at operations
  generalize converted.nested = targets at operations
  induction operations with
  | nil => rfl
  | cons same _ ih =>
      rw [List.flatMap_cons, List.flatMap_cons, List.filterMap_append, ih,
        parameters_of_convertOperation _ _ same]

theorem OpenApi.Parameter.unrepeated_iff (parameter : Parameter) :
    Parameter.record.Unrepeated parameter ↔
      "name" ∉ parameter.extra.keys ∧ "in" ∉ parameter.extra.keys ∧
      (parameter.description.isSome → "description" ∉ parameter.extra.keys) ∧
      (parameter.required.isSome → "required" ∉ parameter.extra.keys) ∧
      (parameter.schema.isSome → "schema" ∉ parameter.extra.keys) := by
  rcases parameter with ⟨name, location, description, required, schema, extra⟩
  cases description <;> cases required <;> cases schema <;>
    simp [Parameter.record, ParameterSchema.record, Record.Unrepeated, Fields.Unrepeated,
      Field.Unrepeated, Layout.Unrepeated, Fields.write, Field.write]

theorem OpenApi.Document.distinct_iff (d : Document) :
    (Document.layout.write d).Distinct ↔
      ∀ parameter ∈ d.parameters, Parameter.record.Unrepeated parameter := by
  rw [Document.layout.distinct_write_iff Document.layout_wellFormed, d.forall_parameters]
  simp [Document.layout, Document.record, Components.record, pathsLayout, Operation.record,
    parametersLayout, responsesLayout, Response.record, RequestBody.record, contentLayout,
    Content.record, Schema.record, Layout.Unrepeated, Record.Unrepeated, Fields.Unrepeated,
    Field.Unrepeated]

theorem unrepeated_convertPlain_iff (location : Location) (parameter : Swagger.PlainParameter)
    (apart : ∀ name ∈ Swagger.PlainParameter.declared, name ∉ parameter.extra.keys) :
    OpenApi.Parameter.record.Unrepeated (convertPlain location parameter) ↔
      (parameter.type.isSome → "schema" ∉ parameter.extra.keys) := by
  -- The source declares these four as well, so reading has kept them out of the collected members.
  have free : "name" ∉ parameter.extra.keys ∧ "in" ∉ parameter.extra.keys ∧
      "description" ∉ parameter.extra.keys ∧ "required" ∉ parameter.extra.keys := by
    refine ⟨apart _ ?_, apart _ ?_, apart _ ?_, apart _ ?_⟩ <;> decide
  rw [OpenApi.Parameter.unrepeated_iff]
  simp [convertPlain, free]

/-- No parameter that has a type also has a member `schema` of its own. -/
def Swagger.Document.SchemaFree (source : Document) : Prop :=
  ∀ location parameter, .plain location parameter ∈ source.parameters →
    parameter.type.isSome → "schema" ∉ parameter.extra.keys

theorem distinct_convert_iff (source : Swagger.Document)
    (legible : Swagger.Document.layout.Legible false source) (target : OpenApi.Document)
    (converted : (convert source).result = .ok target) :
    (OpenApi.Document.layout.write target).Distinct ↔ source.SchemaFree := by
  have parameters := ((source.legible_iff false).mp legible).2
  rw [target.distinct_iff, parameters_of_convert source target converted]
  constructor
  · intro all location parameter stands
    have apart := (parameters location parameter stands).1
    have converted :
        convertPlain location parameter ∈ source.parameters.filterMap convertParameter? :=
      List.mem_filterMap.mpr ⟨_, stands, rfl⟩
    exact (unrepeated_convertPlain_iff location parameter apart).mp (all _ converted)
  · intro free converted member
    obtain ⟨given, stands, same⟩ := List.mem_filterMap.mp member
    cases given with
    | body body => cases same
    | plain location parameter =>
        cases same
        have apart := (parameters location parameter stands).1
        exact (unrepeated_convertPlain_iff location parameter apart).mpr
          (free location parameter stands)

/-- Of a document that has been read and converted, the text that is written in either format is
    that of a value which repeats a name in an object if and only if a parameter with a type also
    has a member `schema` of its own; and so does what a JSON reader finds in the text. -/
theorem distinct_iff_schema_free (format : Format) (text : String) (source : Swagger.Document)
    (read : Swagger.Document.read format text = .ok source) (target : OpenApi.Document)
    (converted : (convert source).result = .ok target) :
    (∀ written : Format,
      target.render written = written.write (OpenApi.Document.layout.write target)) ∧
      ((OpenApi.Document.layout.write target).Distinct ↔ source.SchemaFree) ∧
      ((Json.Parsed.ofText (target.render .json)).tree.Distinct ↔ source.SchemaFree) := by
  have legible := Swagger.Document.legible_of_read format text source read
  have value := distinct_convert_iff source legible target converted
  have found : (Json.Parsed.ofText (target.render .json)).tree.Distinct ↔
      (OpenApi.Document.layout.write target).Distinct := Json.distinct_ofText_pretty_iff _
  exact ⟨fun written => rfl, value, found.trans value⟩

/-- The YAML text of such a document composes, and a mapping of it repeats a name
    exactly then as well. -/
theorem yaml_distinct_iff_schema_free (format : Format) (text : String) (source : Swagger.Document)
    (read : Swagger.Document.read format text = .ok source) (target : OpenApi.Document)
    (converted : (convert source).result = .ok target) :
    ∃ document, Yaml.Document.ofText? (target.render .yaml) = some document ∧
      (document.root.Distinct ↔ source.SchemaFree) := by
  have legible := Swagger.Document.legible_of_read format text source read
  obtain ⟨document, composed, found⟩ :=
    Yaml.distinct_ofText?_print_iff (OpenApi.Document.layout.write target)
  exact ⟨document, composed, found.trans (distinct_convert_iff source legible target converted)⟩

def typedParameter (name : String) : Swagger.Document where
  version := none
  info := some (.object .empty)
  paths := some <| .ofList [("/p", .ofList [("get",
    { description := none, operationId := none, summary := none, tags := [], produces := []
      responses := .empty
      parameters :=
        [.plain .query ⟨"q", none, none, some "string", none, .ofList [(name, .flag true)]⟩] })])]
  definitions := some .empty

theorem legible_typedParameter (name : String) (free : name ∉ Swagger.PlainParameter.declared) :
    Swagger.Document.layout.Legible true (typedParameter name) := by
  rw [Swagger.Document.legible_iff]
  constructor
  · intro info given _ null
    cases given
    cases null
  · intro location parameter stands
    cases List.mem_singleton.mp stands
    constructor
    · intro other declares member
      cases List.mem_singleton.mp member
      exact free declares
    · intro value given
      cases given

theorem read_typedParameter (name : String) (free : name ∉ Swagger.PlainParameter.declared) :
    Swagger.Document.read .json
      (Json.compact (Swagger.Document.layout.write (typedParameter name))) =
      .ok (typedParameter name) := by
  have read := (Json.read_written Swagger.Document.layout Swagger.Document.layout_wellFormed
    (typedParameter name) (legible_typedParameter name free) rfl).2
  rw [Swagger.Document.read, Format.read, read]
  rfl

def schemaText : String :=
  "\x7b\"info\":\x7b\x7d,\"paths\":\x7b\"/p\":\x7b\"get\":\x7b\"parameters\":[\x7b\"in\":\"query\",\"name\":\"q\",\"type\":\"string\",\"schema\":true\x7d]\x7d\x7d\x7d,\"definitions\":\x7b\x7d\x7d"

theorem schemaText_eq :
    schemaText = Json.compact (Swagger.Document.layout.write (typedParameter "schema")) := by
  rw [Json.compact, schemaText]
  refine congrArg String.ofList (?_ : _ = Json.print _ _ _)
  rfl

def repeatedDocument : OpenApi.Document where
  openapi := OpenApi.version
  info := .object .empty
  paths := .ofList [("/p", .ofList [("get",
    { description := none, operationId := none, responses := none, summary := none, tags := none
      parameters :=
        some [⟨"q", .query, none, none, some ⟨"string"⟩, .ofList [("schema", .flag true)]⟩]
      requestBody := none })])]
  components := ⟨.empty⟩

def repeatedText : String :=
  "\x7b
  \"openapi\": \"3.0.3\",
  \"info\": \x7b\x7d,
  \"paths\": \x7b
    \"/p\": \x7b
      \"get\": \x7b
        \"parameters\": [
          \x7b
            \"name\": \"q\",
            \"in\": \"query\",
            \"schema\": \x7b
              \"type\": \"string\"
            \x7d,
            \"schema\": true
          \x7d
        ]
      \x7d
    \x7d
  \x7d,
  \"components\": \x7b
    \"schemas\": \x7b\x7d
  \x7d
\x7d
"

set_option maxRecDepth 2000 in
theorem repeatedText_eq :
    repeatedText = Json.pretty (OpenApi.Document.layout.write repeatedDocument) := by
  rw [Json.pretty, repeatedText]
  refine congrArg String.ofList (?_ : _ = Json.print _ _ _ ++ ['\n'])
  rfl

theorem schema_repeated :
    Swagger.Document.read .json schemaText = .ok (typedParameter "schema") ∧
      (convert (typedParameter "schema")).result = .ok repeatedDocument ∧
      repeatedDocument.render .json = repeatedText ∧
      ¬ (Json.Parsed.ofText repeatedText).tree.Distinct := by
  refine ⟨?read, rfl, repeatedText_eq.symm, ?repeated⟩
  case read =>
    rw [schemaText_eq]
    exact read_typedParameter "schema" (by decide)
  case repeated =>
    rw [repeatedText_eq, Json.distinct_ofText_pretty_iff, OpenApi.Document.distinct_iff]
    intro all
    have parameter := all _ (List.mem_singleton.mpr rfl)
    have free := ((OpenApi.Parameter.unrepeated_iff _).mp parameter).2.2.2.2
    exact free rfl (by decide)

/-- A member with another name stays alone. -/
theorem distinct_iff_schema_free_typed :
    ∃ target, (convert (typedParameter "x-schema")).result = .ok target ∧
      (OpenApi.Document.layout.write target).Distinct ∧
      (Json.Parsed.ofText (target.render .json)).tree.Distinct := by
  have read := read_typedParameter "x-schema" (by decide)
  have free : (typedParameter "x-schema").SchemaFree := by
    intro location parameter stands _
    cases List.mem_singleton.mp stands
    decide
  obtain ⟨_, value, found⟩ := distinct_iff_schema_free .json _ _ read _ rfl
  exact ⟨_, rfl, value.mpr free, found.mpr free⟩

end SwaggerLift
