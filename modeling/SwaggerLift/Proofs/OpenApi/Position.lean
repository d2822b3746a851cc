import SwaggerLift.OpenApi.Layout
import SwaggerLift.Proofs.Layout.Position
/-!
Positions in a written document: where its operations stand, and where the content that it carries
over does. No null stands anywhere else.
-/

namespace SwaggerLift

theorem Fields.mem_write_cons {τ ρ σ : Type} (name : String) (field : Field τ)
    (rest : Fields ρ σ) (a : τ) (row : ρ) (entry : String × Value) :
    entry ∈ (Fields.cons name field rest).write (a, row) ↔
      (entry.1 = name ∧ field.write a = some entry.2) ∨ entry ∈ rest.write row := by
  rcases entry with ⟨other, value⟩
  rw [Fields.write, List.mem_append]
  apply or_congr_left
  cases field.write a with
  | none => simp
  | some written => simp [eq_comm]

@[simp] theorem Fields.mem_write_nil (entry : String × Value) :
    entry ∈ Fields.nil.write () ↔ False := by
  simp [Fields.write]

namespace OpenApi

def operationPath (path method : String) : List Value.Step :=
  [.member "paths", .member path, .member method]

def writtenPaths (paths : Table PathItem) : List (String × Value) :=
  paths.entries.map fun item => (item.1,
    .object (item.2.entries.map fun operation =>
      (operation.1, .object (Operation.record.members operation.2))))

theorem Document.write_eq (d : Document) :
    Document.layout.write d = .object [("openapi", .text d.openapi), ("info", d.info.val),
      ("paths", .object (writtenPaths d.paths)),
      ("components", .object [("schemas",
        .object (d.components.schemas.entries.map fun schema => (schema.1, schema.2.val)))])] := rfl

def Document.Operates (d : Document) (path method : String) (operation : Operation) : Prop :=
  ∃ item, (path, item) ∈ d.paths.entries ∧ (method, operation) ∈ item.entries

theorem Document.at_operation_iff (d : Document) (path method : String) (rest : List Value.Step)
    (found : Value) :
    (Document.layout.write d).At (operationPath path method ++ rest) found ↔
      ∃ operation, d.Operates path method operation ∧
        (Value.object (Operation.record.members operation)).At rest found := by
  rw [d.write_eq]
  simp only [operationPath, List.cons_append, List.nil_append, Value.at_member]
  constructor
  · rintro ⟨paths, whole, inside⟩
    have same : paths = .object (writtenPaths d.paths) := by simpa using whole
    subst same
    obtain ⟨item, atPath, inside⟩ := inside
    obtain ⟨entry, held, same⟩ := List.mem_map.mp atPath
    cases same
    obtain ⟨operation, atMethod, inside⟩ := inside
    obtain ⟨operation, among, same⟩ := List.mem_map.mp atMethod
    cases same
    exact ⟨operation.2, ⟨entry.2, held, among⟩, inside⟩
  · rintro ⟨operation, ⟨item, held, among⟩, inside⟩
    refine ⟨.object (writtenPaths d.paths), by simp, _, List.mem_map.mpr ⟨_, held, rfl⟩, ?_⟩
    exact ⟨_, List.mem_map.mpr ⟨_, among, rfl⟩, inside⟩

theorem Operation.mem_members_iff (operation : Operation) (name : String) (value : Value) :
    (name, value) ∈ Operation.record.members operation ↔
      (name = "description" ∧ ∃ text, operation.description = some text ∧ value = .text text) ∨
      (name = "operationId" ∧ ∃ text, operation.operationId = some text ∧ value = .text text) ∨
      (name = "responses" ∧ ∃ responses, operation.responses = some responses ∧
        value = responsesLayout.write responses) ∨
      (name = "summary" ∧ ∃ text, operation.summary = some text ∧ value = .text text) ∨
      (name = "tags" ∧ ∃ tags, operation.tags = some tags ∧ value = .list (tags.map .text)) ∨
      (name = "parameters" ∧ ∃ parameters, operation.parameters = some parameters ∧
        value = parametersLayout.write parameters) ∨
      (name = "requestBody" ∧ ∃ body, operation.requestBody = some body ∧
        value = .object (RequestBody.record.members body)) := by
  simp only [Operation.record, Record.members, Fields.mem_write_cons, Fields.mem_write_nil,
    or_false, Field.write, Option.map_eq_some_iff, Layout.write, eq_comm (a := value)]

theorem Operation.mem_responses_iff (operation : Operation) (value : Value) :
    ("responses", value) ∈ Operation.record.members operation ↔
      ∃ responses, operation.responses = some responses ∧
        value = responsesLayout.write responses := by
  simp [mem_members_iff]

theorem Operation.mem_requestBody_iff (operation : Operation) (value : Value) :
    ("requestBody", value) ∈ Operation.record.members operation ↔
      ∃ body, operation.requestBody = some body ∧
        value = .object (RequestBody.record.members body) := by
  simp [mem_members_iff]

/-- Where content that is carried over stands in a written document. -/
inductive Document.Carries (d : Document) : List Value.Step → Verbatim → Prop
  | info : Carries d [.member "info"] d.info
  | schema (name : String) (body : Verbatim) : (name, body) ∈ d.components.schemas.entries →
      Carries d [.member "components", .member "schemas", .member name] body
  | extra (path method : String) (operation : Operation) (parameters : List Parameter) (index : Nat)
      (parameter : Parameter) (name : String) (value : Verbatim) :
      d.Operates path method operation → operation.parameters = some parameters →
      parameters[index]? = some parameter → (name, value) ∈ parameter.extra.entries →
      Carries d (operationPath path method ++ [.member "parameters", .item index, .member name])
        value

theorem Parameter.null_carried (parameter : Parameter) (path : List Value.Step)
    (null : (Value.object (Parameter.record.members parameter)).At path .null) :
    ∃ name value rest, path = .member name :: rest ∧ (name, value) ∈ parameter.extra.entries ∧
      value.val.At rest .null := by
  obtain ⟨name, value, rest, rfl, stands, inside⟩ := Value.at_null_object _ path null
  rw [Parameter.record, Record.members, List.mem_append] at stands
  rcases stands with declared | further
  · refine absurd inside (Fields.null_free _ ?_ _ _ declared rest)
    simp [Fields.Typed, Field.Typed, Layout.Typed, Record.Typed, ParameterSchema.record]
  · obtain ⟨entry, held, same⟩ := List.mem_map.mp further
    cases same
    exact ⟨_, _, rest, rfl, held, inside⟩

theorem Operation.null_carried (operation : Operation) (path : List Value.Step)
    (null : (Value.object (Operation.record.members operation)).At path .null) :
    ∃ parameters index parameter name value rest,
      path = .member "parameters" :: .item index :: .member name :: rest ∧
      operation.parameters = some parameters ∧ parameters[index]? = some parameter ∧
      (name, value) ∈ parameter.extra.entries ∧ value.val.At rest .null := by
  obtain ⟨name, value, rest, rfl, stands, inside⟩ := Value.at_null_object _ path null
  have typed : ∀ {τ : Type} (field : Field τ) (a : τ), field.Typed → ¬ field.write a = some value :=
    fun field a typed written => field.null_free typed a value written rest inside
  simp only [Operation.record, Record.members, Fields.mem_write_cons] at stands
  rcases stands with ⟨_, w⟩ | ⟨_, w⟩ | ⟨_, w⟩ | ⟨_, w⟩ | ⟨_, w⟩ | ⟨rfl, w⟩ | ⟨_, w⟩ | w
  -- Only the parameters carry content over.
  case inr.inr.inr.inr.inr.inl =>
    cases given : operation.parameters with
    | none => rw [given] at w; cases w
    | some parameters =>
        rw [given] at w
        cases w
        obtain ⟨index, item, more, rfl, found, deeper⟩ := Value.at_null_list _ rest inside
        rw [List.getElem?_map] at found
        obtain ⟨parameter, here, rfl⟩ := Option.map_eq_some_iff.mp found
        obtain ⟨name, value, last, rfl, held, null⟩ := parameter.null_carried more deeper
        exact ⟨parameters, index, parameter, name, value, last, rfl, rfl, here, held, null⟩
  case inr.inr.inr.inr.inr.inr.inr => cases w
  all_goals
    refine absurd w (typed _ _ ?_)
    simp [Field.Typed, Layout.Typed, Record.Typed, Fields.Typed, responsesLayout, Response.record,
      contentLayout, Content.record, Schema.record, RequestBody.record]

/-- A null of a written document stands as or inside content that is carried over. -/
theorem Document.null_carried (d : Document) (position : List Value.Step)
    (null : (Document.layout.write d).At position .null) :
    ∃ start rest carried, position = start ++ rest ∧ d.Carries start carried ∧
      carried.val.At rest .null := by
  rw [d.write_eq] at null
  obtain ⟨name, value, rest, rfl, stands, inside⟩ := Value.at_null_object _ position null
  simp only [List.mem_cons, Prod.mk.injEq, List.not_mem_nil, or_false] at stands
  rcases stands with ⟨rfl, rfl⟩ | ⟨rfl, rfl⟩ | ⟨rfl, rfl⟩ | ⟨rfl, rfl⟩
  case inl => exact absurd inside (Value.text_null_free _ rest)
  case inr.inl => exact ⟨[.member "info"], rest, d.info, rfl, .info, inside⟩
  case inr.inr.inl =>
    obtain ⟨path, item, more, rfl, atPath, deeper⟩ := Value.at_null_object _ rest inside
    obtain ⟨entry, held, same⟩ := List.mem_map.mp atPath
    cases same
    obtain ⟨method, value, further, rfl, atMethod, within⟩ := Value.at_null_object _ more deeper
    obtain ⟨operation, among, same⟩ := List.mem_map.mp atMethod
    cases same
    obtain ⟨parameters, index, parameter, name, value, last, rfl, given, found, extra, null⟩ :=
      operation.2.null_carried further within
    exact ⟨_, last, value, rfl,
      .extra entry.1 operation.1 operation.2 parameters index parameter name value
      ⟨entry.2, held, among⟩ given found extra, null⟩
  case inr.inr.inr =>
    obtain ⟨_, schemas, more, rfl, stands, deeper⟩ := Value.at_null_object _ rest inside
    cases List.mem_singleton.mp stands
    obtain ⟨name, body, last, rfl, held, null⟩ := Value.at_null_object _ more deeper
    obtain ⟨schema, among, same⟩ := List.mem_map.mp held
    cases same
    exact ⟨_, last, schema.2, rfl, .schema schema.1 schema.2 among, null⟩

end OpenApi

end SwaggerLift
