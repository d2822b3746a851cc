import SwaggerLift.Proofs.Convert.Parameter
import SwaggerLift.Proofs.Convert.Response
import SwaggerLift.Proofs.Layout.Legible
import SwaggerLift.Proofs.OpenApi.Position
/-!
The members of a converted operation. A part of the source that is absent or empty has none, every
other part that is kept has exactly one, and they stand in a fixed order. What is written is itself
never empty.
-/

namespace SwaggerLift

def Value.Blank (value : Value) : Prop := value = .null ∨ value = .text "" ∨ value = .list [] ∨
    value = .object []

theorem Value.blank_text_iff (text : String) : (Value.text text).Blank ↔
    text = "" := by simp [Blank]

theorem Value.blank_list_iff (items : List Value) : (Value.list items).Blank ↔
    items = [] := by simp [Blank]

theorem Value.blank_object_iff (members : List (String × Value)) : (Value.object members).Blank ↔
    members = [] := by
  simp [Blank]

theorem kept_text_iff (given : Option String) (value : Value) :
    (∃ text, omitEmpty given = some text ∧ value = .text text) ↔
      ∃ text, given = some text ∧ text ≠ "" ∧ value = .text text := by
  simp only [omitEmpty_eq_some_iff, isEmpty_text_iff, and_assoc]

theorem kept_list_iff {α : Type} (items kept : List α) : unlessEmpty items = some kept ↔
    items = kept ∧ kept ≠ [] := by
  rw [unlessEmpty_eq_some_iff, isEmpty_list_iff]

theorem kept_table_iff {α : Type} (t kept : Table α) : unlessEmpty t = some kept ↔
    t = kept ∧ kept ≠ .empty := by
  rw [unlessEmpty_eq_some_iff]
  exact and_congr_right fun _ => not_congr kept.isEmpty_iff

theorem blank_write_table_iff {α : Type} (item : Layout α) (t : Table α) :
    ((Layout.table item).write t).Blank ↔ t = .empty := by
  rw [Layout.write, Value.blank_object_iff, List.map_eq_nil_iff, Table.ext_iff, Table.entries_empty]

theorem blank_write_list_iff {α : Type} (item : Layout α) (items : List α) :
    ((Layout.list item).write items).Blank ↔ items = [] := by
  rw [Layout.write, Value.blank_list_iff, List.map_eq_nil_iff]

/-- A request body always tells whether it is required. -/
theorem OpenApi.RequestBody.members_ne_nil (body : RequestBody) :
    RequestBody.record.members body ≠ [] := by
  simp [RequestBody.record, Record.members, Fields.write, Field.write]

theorem Table.eq_empty_iff_keys {α : Type} (t : Table α) : t = .empty ↔ t.keys = [] := by
  rw [Table.keys, List.map_eq_nil_iff, Table.ext_iff, Table.entries_empty]

theorem responses_kept_iff (operation : Swagger.Operation) (made : Table OpenApi.Response)
    (done : convertResponses operation.responses operation.produces = .ok made) :
    (∃ responses, unlessEmpty made = some responses) ↔ operation.responses ≠ .empty := by
  -- The statuses are those of the source, so there are none in the one exactly if there are none in
  -- the other.
  have statuses : made.keys = operation.responses.keys :=
    ((convertResponses_eq_ok_iff _ _ _).mp done).keys
  simp only [kept_table_iff, exists_eq_left', ne_eq, Table.eq_empty_iff_keys, statuses]

theorem parameters_kept_iff (parameters : List Swagger.Parameter) :
    (∃ targets, convertParameters parameters = some targets) ↔
      ∃ parameter ∈ parameters, parameter.isBody = false := by
  rw [← Option.isSome_iff_exists, ← Option.ne_none_iff_isSome, ne_eq, convertParameters_eq_none_iff]
  simp

theorem body_kept_iff (parameters : List Swagger.Parameter) (request : Option OpenApi.RequestBody)
    (done : convertRequestBody parameters = .ok request) :
    (∃ body, request = some body) ↔ ∃ parameter ∈ parameters, parameter.isBody = true := by
  have count := length_of_convertRequestBody parameters request done
  have some_iff : (∃ parameter ∈ parameters, parameter.isBody = true) ↔
      parameters.filterMap body? ≠ [] := by
    rw [ne_eq, ← List.map_eq_nil_iff (f := Swagger.Parameter.body), ← filter_body,
      List.filter_eq_nil_iff]
    simp
  rw [some_iff, ← Option.isSome_iff_exists, ne_eq, ← List.length_eq_zero_iff, count]
  cases request <;> simp

def ShowsText (members : List (String × Value)) (name : String) (given : Option String) : Prop :=
  ∀ value, (name, value) ∈ members ↔ ∃ text, given = some text ∧ text ≠ "" ∧ value = .text text

/-- What the members of a converted operation show of the operation that it was made from. -/
structure Swagger.Operation.Shown (operation : Operation)
    (members : List (String × Value)) : Prop where
  order : (members.map Prod.fst).Sublist
    ["description", "operationId", "responses", "summary", "tags", "parameters", "requestBody"]
  unrepeated : (members.map Prod.fst).Nodup
  filled : ∀ member ∈ members, ¬ member.2.Blank
  description : ShowsText members "description" operation.description
  operationId : ShowsText members "operationId" operation.operationId
  summary : ShowsText members "summary" operation.summary
  responses : "responses" ∈ members.map Prod.fst ↔ operation.responses ≠ .empty
  tags : ∀ value, ("tags", value) ∈ members ↔
    operation.tags ≠ [] ∧ value = .list (operation.tags.map .text)
  parameters : "parameters" ∈ members.map Prod.fst ↔
    ∃ parameter ∈ operation.parameters, parameter.isBody = false
  requestBody : "requestBody" ∈ members.map Prod.fst ↔
    ∃ parameter ∈ operation.parameters, parameter.isBody = true

structure Swagger.Operation.Bare (operation : Operation) : Prop where
  description : operation.description.getD "" = ""
  operationId : operation.operationId.getD "" = ""
  summary : operation.summary.getD "" = ""
  tags : operation.tags = []
  responses : operation.responses = .empty
  parameters : operation.parameters = []

theorem filled_of_convertOperation (operation : Swagger.Operation) (target : OpenApi.Operation)
    (done : convertOperation operation = .ok target) :
    ∀ member ∈ OpenApi.Operation.record.members target, ¬ member.2.Blank := by
  obtain ⟨made, request, _, _, rfl⟩ := (convertOperation_eq_ok_iff operation target).mp done
  have text (given : Option String) (text : String) (kept : omitEmpty given = some text) :
      ¬ (Value.text text).Blank := by
    rw [Value.blank_text_iff]
    rintro rfl
    exact omitEmpty_ne_empty given kept
  rintro ⟨name, value⟩ stands
  rcases (OpenApi.Operation.mem_members_iff _ name value).mp stands with
    ⟨_, description, kept, rfl⟩ |
    ⟨_, operationId, kept, rfl⟩ | ⟨_, responses, kept, rfl⟩ | ⟨_, summary, kept, rfl⟩ | ⟨_,
      tags, kept, rfl⟩ |
    ⟨_, parameters, kept, rfl⟩ | ⟨_, body, _, rfl⟩
  · exact text _ description kept
  · exact text _ operationId kept
  · exact mt (blank_write_table_iff _ responses).mp ((kept_table_iff _ _).mp kept).2
  · exact text _ summary kept
  · exact mt (blank_write_list_iff .text tags).mp ((kept_list_iff _ _).mp kept).2
  · exact mt (blank_write_list_iff _ parameters).mp ((kept_list_iff _ _).mp kept).2
  · exact mt (Value.blank_object_iff _).mp body.members_ne_nil

theorem shown_of_convertOperation (operation : Swagger.Operation) (target : OpenApi.Operation)
    (done : convertOperation operation = .ok target) :
    operation.Shown (OpenApi.Operation.record.members target) := by
  have filled := filled_of_convertOperation operation target done
  obtain ⟨made, request, answered, requested, rfl⟩ :=
    (convertOperation_eq_ok_iff operation target).mp done
  constructor
  case order => exact Fields.written_sublist _ _
  case unrepeated => exact (Fields.written_sublist _ _).nodup (by decide)
  case filled => exact filled
  case description =>
    intro value
    simp [OpenApi.Operation.mem_members_iff, kept_text_iff]
  case operationId =>
    intro value
    simp [OpenApi.Operation.mem_members_iff, kept_text_iff]
  case summary =>
    intro value
    simp [OpenApi.Operation.mem_members_iff, kept_text_iff]
  case responses =>
    rw [← responses_kept_iff operation made answered]
    simp [OpenApi.Operation.mem_members_iff]
  case tags =>
    intro value
    simp [OpenApi.Operation.mem_members_iff, kept_list_iff]
  case parameters =>
    rw [← parameters_kept_iff]
    simp [OpenApi.Operation.mem_members_iff]
  case requestBody =>
    rw [← body_kept_iff _ request requested]
    simp [OpenApi.Operation.mem_members_iff]

/-- A converted operation has a member for each part that is kept, and without any it is
    written as an empty object. -/
theorem convertOperation_shown (operation : Swagger.Operation) :
    (∀ target, convertOperation operation = .ok target → ∃ members,
      (Layout.record OpenApi.Operation.record).write target = .object members ∧
        operation.Shown members) ∧
    (operation.Bare → ∃ target, convertOperation operation = .ok target ∧
      (Layout.record OpenApi.Operation.record).write target = .object []) := by
  refine ⟨fun target done => ⟨_, rfl, shown_of_convertOperation operation target done⟩,
    fun bare => ?_⟩
  obtain ⟨description, operationId, summary, tags, produces, responses, parameters⟩ := operation
  obtain ⟨noDescription, noId, noSummary, rfl, rfl, rfl⟩ := bare
  refine ⟨⟨none, none, none, none, none, none, none⟩, ?_, rfl⟩
  refine (convertOperation_eq_ok_iff _ _).mpr ⟨.empty, none, rfl, rfl, ?_⟩
  rw [(omitEmpty_eq_none_iff _).mpr noDescription, (omitEmpty_eq_none_iff _).mpr noId,
    (omitEmpty_eq_none_iff _).mpr noSummary]
  rfl

-- An operation in which something is empty, something absent, and a body stands among the
-- parameters.
def sparseOperation : Swagger.Operation where
  description := some ""
  operationId := some "addPet"
  summary := none
  tags := ["pets"]
  produces := []
  responses := .empty
  parameters := [.body ⟨"pet", none, true, some ⟨none, some "#/definitions/Pet", none⟩⟩]

def bareOperation : Swagger.Operation where
  description := none
  operationId := some ""
  summary := some ""
  tags := []
  produces := ["application/json"]
  responses := .empty
  parameters := []

def sparseTarget : OpenApi.Operation where
  description := none
  operationId := some "addPet"
  responses := none
  summary := none
  tags := some ["pets"]
  parameters := none
  requestBody :=
    some ⟨none, true, .ofList [("application/json", ⟨⟨none, "#/components/schemas/Pet"⟩⟩)]⟩

theorem convertOperation_sparse : convertOperation sparseOperation = .ok sparseTarget := rfl

theorem convertOperation_shown_sparse :
    (∃ members, convertOperation sparseOperation = .ok sparseTarget ∧
      (Layout.record OpenApi.Operation.record).write sparseTarget = .object members ∧
      members.map Prod.fst = ["operationId", "tags", "requestBody"] ∧
        sparseOperation.Shown members) ∧
    bareOperation.Bare ∧ ∃ target, convertOperation bareOperation = .ok target ∧
      (Layout.record OpenApi.Operation.record).write target = .object [] := by
  obtain ⟨members, written, shown⟩ :=
    (convertOperation_shown sparseOperation).1 sparseTarget convertOperation_sparse
  have names : members.map Prod.fst = ["operationId", "tags", "requestBody"] := by
    rw [← Value.object.inj written]
    rfl
  have bare : bareOperation.Bare := ⟨rfl, rfl, rfl, rfl, rfl, rfl⟩
  exact ⟨⟨members, convertOperation_sparse, written, names, shown⟩, bare,
    (convertOperation_shown bareOperation).2 bare⟩

end SwaggerLift
