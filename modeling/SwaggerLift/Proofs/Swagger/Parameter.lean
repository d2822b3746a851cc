import SwaggerLift.Proofs.Json.Placed
import SwaggerLift.Proofs.Layout.Accepted
import SwaggerLift.Proofs.Swagger.Legible
/-!
The members of a parameter. Which objects are parameters is told by how often each declared name
stands there and with what kind of value; the parameter holds what these values tell, wherever its
tag stands among them. One that is no body keeps its further members, and none of them has a
declared name.
-/

namespace SwaggerLift.Swagger

open Value (under Once AtMostOnce Optionally NullOr Is IsText IsFlag)

def Items.Told (value : Value) (items : Items) : Prop :=
  ∃ members, value = .object members ∧ Optionally (Is .text) (under "$ref" members) items.reference

def Schema.Told (value : Value) (schema : Schema) : Prop :=
  ∃ members, value = .object members ∧ Optionally (Is .text) (under "type" members) schema.type ∧
    Optionally (Is .text) (under "$ref" members) schema.reference ∧
    Optionally Items.Told (under "items" members) schema.items

structure PlainParameter.Told (members : List (String × Value))
    (parameter : PlainParameter) : Prop where
  name : under "name" members = [.text parameter.name]
  description : Optionally (Is .text) (under "description" members) parameter.description
  required : Optionally (Is .flag) (under "required" members) parameter.required
  type : Optionally (Is .text) (under "type" members) parameter.type
  default :
    Optionally (fun value content => content = .ofValue value) (under "default" members)
      parameter.default
  extra : parameter.extra.Collects (members.filter fun member => member.1 ∉ PlainParameter.declared)

structure BodyParameter.Told (members : List (String × Value))
    (parameter : BodyParameter) : Prop where
  name : under "name" members = [.text parameter.name]
  description : Optionally (Is .text) (under "description" members) parameter.description
  required : (under "required" members = [] ∧ parameter.required = false) ∨
    under "required" members = [.flag parameter.required]
  schema : Optionally Schema.Told (under "schema" members) parameter.schema

def Parameter.Told (members : List (String × Value)) : Parameter → Prop
  | .plain location parameter => under "in" members = [.text location.name] ∧ parameter.Told members
  | .body parameter => under "in" members = [.text "body"] ∧ parameter.Told members

def Items.Formed (value : Value) : Prop :=
  ∃ members, value = .object members ∧ AtMostOnce (NullOr IsText) (under "$ref" members)

def Schema.Formed (value : Value) : Prop :=
  ∃ members, value = .object members ∧ AtMostOnce (NullOr IsText) (under "type" members) ∧
    AtMostOnce (NullOr IsText) (under "$ref" members) ∧
    AtMostOnce (NullOr Items.Formed) (under "items" members)

structure PlainParameter.Formed (members : List (String × Value)) : Prop where
  name : Once IsText (under "name" members)
  description : AtMostOnce (NullOr IsText) (under "description" members)
  type : AtMostOnce (NullOr IsText) (under "type" members)
  required : AtMostOnce (NullOr IsFlag) (under "required" members)
  default : AtMostOnce (fun _ => True) (under "default" members)

/-- Here a null does not tell whether the parameter is required. -/
structure BodyParameter.Formed (members : List (String × Value)) : Prop where
  name : Once IsText (under "name" members)
  description : AtMostOnce (NullOr IsText) (under "description" members)
  required : AtMostOnce IsFlag (under "required" members)
  schema : AtMostOnce (NullOr Schema.Formed) (under "schema" members)

def Parameter.Formed (members : List (String × Value)) : Prop :=
  ∃ kind, under "in" members = [.text kind] ∧
    ((kind ∈ ["query", "header", "path"] ∧ PlainParameter.Formed members) ∨
      (kind = "body" ∧ BodyParameter.Formed members))

theorem exists_text_iff (values : List Value) :
    (∃ text, Optionally (Is .text) values text) ↔ AtMostOnce (NullOr IsText) values :=
  Value.exists_optionally_iff _ values

theorem exists_name_iff (values : List Value) : (∃ s, values = [.text s]) ↔ Once IsText values := by
  simp [Once, IsText]

theorem Items.exists_told_iff (value : Value) : (∃ items, Items.Told value items) ↔
    Items.Formed value := by
  constructor
  · rintro ⟨items, members, object, reference⟩
    exact ⟨members, object, (exists_text_iff _).mp ⟨_, reference⟩⟩
  · rintro ⟨members, object, reference⟩
    obtain ⟨text, told⟩ := (exists_text_iff _).mpr reference
    exact ⟨⟨text⟩, members, object, told⟩

theorem exists_items_iff (values : List Value) :
    (∃ items, Optionally Items.Told values items) ↔ AtMostOnce (NullOr Items.Formed) values := by
  simp only [Value.exists_optionally_iff, Items.exists_told_iff]

theorem Schema.exists_told_iff (value : Value) : (∃ schema, Schema.Told value schema) ↔
    Schema.Formed value := by
  constructor
  · rintro ⟨schema, members, object, type, reference, items⟩
    exact ⟨members, object, (exists_text_iff _).mp ⟨_, type⟩, (exists_text_iff _).mp ⟨_, reference⟩,
      (exists_items_iff _).mp ⟨_, items⟩⟩
  · rintro ⟨members, object, type, reference, items⟩
    obtain ⟨_, type⟩ := (exists_text_iff _).mpr type
    obtain ⟨_, reference⟩ := (exists_text_iff _).mpr reference
    obtain ⟨_, items⟩ := (exists_items_iff _).mpr items
    exact ⟨⟨_, _, _⟩, members, object, type, reference, items⟩

theorem exists_schema_iff (values : List Value) :
    (∃ schema, Optionally Schema.Told values schema) ↔
      AtMostOnce (NullOr Schema.Formed) values := by
  simp only [Value.exists_optionally_iff, Schema.exists_told_iff]

theorem exists_flag_iff (values : List Value) :
    (∃ flag, (values = [] ∧ flag = false) ∨ values = [.flag flag]) ↔ AtMostOnce IsFlag values := by
  constructor
  · rintro ⟨flag, ⟨none, _⟩ | alone⟩
    · exact Or.inl none
    · exact Or.inr ⟨_, alone, flag, rfl⟩
  · rintro (none | ⟨_, alone, flag, rfl⟩)
    · exact ⟨false, Or.inl ⟨none, rfl⟩⟩
    · exact ⟨flag, Or.inr alone⟩

theorem exists_content_iff (values : List Value) :
    (∃ content, Optionally (fun value content => content = Verbatim.ofValue value) values content) ↔
      AtMostOnce (fun _ => True) values := by
  simp [Value.exists_optionally_iff, AtMostOnce, Once, NullOr]

theorem PlainParameter.exists_told_iff (members : List (String × Value)) :
    (∃ parameter, PlainParameter.Told members parameter) ↔ PlainParameter.Formed members := by
  constructor
  · rintro ⟨parameter, told⟩
    constructor
    case name => exact (exists_name_iff _).mp ⟨_, told.name⟩
    case description => exact (exists_text_iff _).mp ⟨_, told.description⟩
    case type => exact (exists_text_iff _).mp ⟨_, told.type⟩
    case required => exact (Value.exists_optionally_iff _ _).mp ⟨_, told.required⟩
    case default => exact (exists_content_iff _).mp ⟨_, told.default⟩
  · intro formed
    obtain ⟨_, name⟩ := (exists_name_iff _).mpr formed.name
    obtain ⟨_, description⟩ := (exists_text_iff _).mpr formed.description
    obtain ⟨_, type⟩ := (exists_text_iff _).mpr formed.type
    obtain ⟨_, required⟩ := (Value.exists_optionally_iff (Is .flag) _).mpr formed.required
    obtain ⟨_, default⟩ := (exists_content_iff _).mpr formed.default
    exact ⟨⟨_, _, _, _, _, _⟩, name, description, required, type, default,
      (Table.collects_iff _ _).mpr rfl⟩

theorem BodyParameter.exists_told_iff (members : List (String × Value)) :
    (∃ parameter, BodyParameter.Told members parameter) ↔ BodyParameter.Formed members := by
  constructor
  · rintro ⟨parameter, told⟩
    constructor
    case name => exact (exists_name_iff _).mp ⟨_, told.name⟩
    case description => exact (exists_text_iff _).mp ⟨_, told.description⟩
    case required => exact (exists_flag_iff _).mp ⟨_, told.required⟩
    case schema => exact (exists_schema_iff _).mp ⟨_, told.schema⟩
  · intro formed
    obtain ⟨_, name⟩ := (exists_name_iff _).mpr formed.name
    obtain ⟨_, description⟩ := (exists_text_iff _).mpr formed.description
    obtain ⟨_, required⟩ := (exists_flag_iff _).mpr formed.required
    obtain ⟨_, schema⟩ := (exists_schema_iff _).mpr formed.schema
    exact ⟨⟨_, _, _, _⟩, name, description, required, schema⟩

theorem Parameter.exists_told_iff (members : List (String × Value)) :
    (∃ parameter, Parameter.Told members parameter) ↔ Parameter.Formed members := by
  constructor
  · rintro ⟨parameter, told⟩
    cases parameter with
    | plain location parameter =>
        refine ⟨location.name, told.1,
          Or.inl ⟨?_, (PlainParameter.exists_told_iff members).mp ⟨_, told.2⟩⟩⟩
        cases location <;> decide
    | body parameter =>
        exact ⟨"body", told.1, Or.inr ⟨rfl, (BodyParameter.exists_told_iff members).mp ⟨_, told.2⟩⟩⟩
  · rintro ⟨kind, tagged, ⟨known, formed⟩ | ⟨rfl, formed⟩⟩
    · obtain ⟨parameter, told⟩ := (PlainParameter.exists_told_iff members).mpr formed
      simp only [List.mem_cons, List.not_mem_nil, or_false] at known
      rcases known with rfl | rfl | rfl
      · exact ⟨.plain .query parameter, tagged, told⟩
      · exact ⟨.plain .header parameter, tagged, told⟩
      · exact ⟨.plain .path parameter, tagged, told⟩
    · obtain ⟨parameter, told⟩ := (BodyParameter.exists_told_iff members).mpr formed
      exact ⟨.body parameter, tagged, told⟩

/-- No list stands where an object is looked for: as the schema of a body, or
    as the items of that. -/
def Schema.Unlisted (value : Value) : Prop :=
  (∀ items, value ≠ .list items) ∧
    ∀ members, value = .object members →
      ∀ inside ∈ under "items" members, ∀ items, inside ≠ .list items

theorem records_wellFormed : Items.record.WellFormed ∧ Schema.record.WellFormed ∧
    PlainParameter.record.WellFormed ∧ BodyParameter.record.WellFormed := by
  simp [Items.record, Schema.record, PlainParameter.record, BodyParameter.record, Record.WellFormed,
    Fields.WellFormed, Field.WellFormed, Layout.WellFormed, Layout.Legible, Fields.names]

theorem accepts_text_iff (values : List Value) (text : Option String) :
    (Field.optional .text).Accepts Buffer.ofValue values text ↔ Optionally (Is .text) values text :=
  Buffer.accepts_optional_iff _ _ _ (fun value _ => Buffer.read_text_iff value) text

theorem accepts_name_iff (values : List Value) (name : String) :
    (Field.required .text).Accepts Buffer.ofValue values name ↔ values = [.text name] := by
  simp [Field.accepts_required_iff, Buffer.read_text_iff, Once]

theorem Items.read_iff (value : Value) (unlisted : ∀ items, value ≠ .list items) (items : Items) :
    (Layout.record Items.record).read (Buffer.ofValue value) = .ok items ↔
      Items.Told value items := by
  refine (Buffer.read_record_iff _ _ _ records_wellFormed.1 value unlisted items).trans ?_
  simp only [Fields.Accept, accepts_text_iff, and_true]
  rfl

theorem Schema.read_iff (value : Value) (unlisted : Schema.Unlisted value) (schema : Schema) :
    (Layout.record Schema.record).read (Buffer.ofValue value) = .ok schema ↔
      Schema.Told value schema := by
  refine (Buffer.read_record_iff _ _ _ records_wellFormed.2.1 value unlisted.1 schema).trans ?_
  refine exists_congr fun members => and_congr_right fun object => ?_
  have items :=
    Buffer.accepts_optional_iff (.record Items.record) Items.Told (under "items" members)
      (fun inside stands =>
        Items.read_iff inside (unlisted.2 members object inside stands)) schema.items
  simp only [Fields.Accept, accepts_text_iff, and_true, items]

/-- Beside the tag, what has no declared name is what is left over. -/
theorem PlainParameter.undeclared_untagged {ρ σ : Type} (fields : Fields ρ σ)
    (names : fields.names = declared.tail) (members : List (String × Value)) :
    fields.undeclared (Value.untagged "in" members) =
      members.filter fun member => member.1 ∉ declared := by
  rw [Fields.undeclared, Value.untagged, List.filter_filter, names]
  congr 1
  funext member
  by_cases tagged : member.1 = "in" <;> simp [declared, tagged]

theorem PlainParameter.read_iff (members : List (String × Value)) (parameter : PlainParameter) :
    PlainParameter.record.read (Buffer.ofValue (.object (Value.untagged "in" members))) =
      .ok parameter ↔ parameter.Told members := by
  have under_eq (name : String) (other : name ≠ "in") :=
    Value.under_untagged "in" name other members
  have flag := Buffer.accepts_optional_iff .flag (Is .flag) (under "required" members)
    (fun value _ => Buffer.read_flag_iff value) parameter.required
  have content :=
    Buffer.accepts_optional_iff .verbatim (fun value content => content = Verbatim.ofValue value)
      (under "default" members) (fun value _ => Buffer.read_verbatim_iff value) parameter.default
  refine (Placed.buffered.read_extensible_iff_accept (Value.depthMembers _) _ _ _
    records_wellFormed.2.2.1 _
    (Nat.le_refl _) parameter).trans ?_
  change Fields.Accept Buffer.ofValue _ _ _ ∧ _ ↔ _
  rw [undeclared_untagged _ rfl]
  simp only [Fields.Accept, under_eq _ (by decide : "name" ≠ "in"),
    under_eq _ (by decide : "description" ≠ "in"), under_eq _ (by decide : "required" ≠ "in"),
    under_eq _ (by decide : "type" ≠ "in"), under_eq _ (by decide : "default" ≠ "in"),
    accepts_name_iff, accepts_text_iff, flag, content]
  constructor
  · rintro ⟨⟨name, description, required, type, default, _⟩, extra⟩
    exact ⟨name, description, required, type, default, extra⟩
  · rintro ⟨name, description, required, type, default, extra⟩
    exact ⟨⟨name, description, required, type, default, trivial⟩, extra⟩

theorem BodyParameter.read_iff (members : List (String × Value))
    (unlisted : ∀ schema ∈ under "schema" members, Schema.Unlisted schema)
    (parameter : BodyParameter) :
    BodyParameter.record.read (Buffer.ofValue (.object (Value.untagged "in" members))) =
      .ok parameter ↔ parameter.Told members := by
  have under_eq (name : String) (other : name ≠ "in") :=
    Value.under_untagged "in" name other members
  have flag :=
    Field.accepts_defaulted_iff Buffer.ofValue .flag false (fun _ => false)
      (under "required" members)
    parameter.required
  have schema :=
    Buffer.accepts_optional_iff (.record Schema.record) Schema.Told (under "schema" members)
      (fun value stands => Schema.read_iff value (unlisted value stands)) parameter.schema
  refine (Placed.buffered.read_closed_iff_accept 0 _ _ _ records_wellFormed.2.2.2 _ parameter).trans
    ?_
  change Fields.Accept Buffer.ofValue _ _ _ ↔ _
  simp only [Fields.Accept, under_eq _ (by decide : "name" ≠ "in"),
    under_eq _ (by decide : "description" ≠ "in"), under_eq _ (by decide : "required" ≠ "in"),
    under_eq _ (by decide : "schema" ≠ "in"), accepts_name_iff, accepts_text_iff, flag, schema,
    Buffer.read_flag_iff, Once, exists_eq_right]
  constructor
  · rintro ⟨name, description, required, schema, _⟩
    exact ⟨name, description, required, schema⟩
  · rintro ⟨name, description, required, schema⟩
    exact ⟨name, description, required, schema, trivial⟩

theorem Parameter.read_iff {κ ε : Type} [Refusing (Except ε)] [LawfulRefusing (Except ε)]
    [Source κ (Except ε)] (law : Placed κ ε) (room : Nat) (members : List (String × Value))
    (fits : ∀ member ∈ members, member.2.depth ≤ room)
    (unlisted : ∀ schema ∈ under "schema" members, Schema.Unlisted schema) (parameter : Parameter) :
    Parameter.layout.read (law.place (room + 1) (.object members)) = .ok parameter ↔
      parameter.Told members := by
  rw [Parameter.layout,
    law.read_union_iff_variant room _ _ _ _ _ ((Value.depthMembers_le_iff _ _).mpr fits)]
  cases parameter with
  | plain location parameter =>
      rw [Told, ← PlainParameter.read_iff]
      cases location <;> simp [variants, Variants.read_cons_iff, Variants.names, Location.name]
  | body parameter =>
      rw [Told, ← BodyParameter.read_iff _ unlisted]
      simp [variants, Variants.read_cons_iff, Variants.names]

/-- No further member has the name of a declared one, for no field takes such a member. -/
theorem PlainParameter.Told.declared_notMem {members : List (String × Value)}
    {parameter : PlainParameter} (told : parameter.Told members) :
    ∀ name ∈ declared, name ∉ parameter.extra.keys := by
  intro name declares held
  rw [told.extra.keys, List.mem_eraseDups] at held
  obtain ⟨member, stands, rfl⟩ := List.mem_map.mp held
  exact of_decide_eq_true (List.mem_filter.mp stands).2 declares

/-- An object in a JSON text is a parameter exactly if it is formed like one, and then the one that
    it tells of. It is itself the outermost of the 127 levels that a text may have. -/
theorem Parameter.read_iff_formed (members : List (String × Value))
    (fits : ∀ member ∈ members, member.2.depth ≤ 126)
    (unlisted : ∀ schema ∈ under "schema" members, Schema.Unlisted schema) (text : String)
    (means : Json.Means text (.object members)) :
    ((∃ parameter, Json.read Parameter.layout text = .ok parameter) ↔ Parameter.Formed members) ∧
    (∀ parameter, Json.read Parameter.layout text = .ok parameter ↔ parameter.Told members) ∧
    ∀ location parameter, Json.read Parameter.layout text = .ok (.plain location parameter) →
      ∀ name ∈ PlainParameter.declared, name ∉ parameter.extra.keys := by
  have told (parameter : Parameter) : Json.read layout text = .ok parameter ↔
      parameter.Told members := by
    rw [means.read_eq]
    exact read_iff Json.placed 126 members fits unlisted parameter
  refine ⟨?accepted, told, ?apart⟩
  case accepted =>
    simp only [told]
    exact exists_told_iff members
  case apart =>
    intro location parameter done
    exact ((told _).mp done).2.declared_notMem

-- Members in any order. In one parameter two that are not declared stand under one name, in the
-- other the schema has its reference inside and a member of the first kind means nothing.
def scatteredPage : List (String × Value) :=
  [("x-order", .flag true), ("name", .text "page"), ("default", .list []), ("x-order", .null),
    ("required", .null), ("in", .text "query"), ("schema", .flag true)]

def pageParameter : Parameter :=
  .plain .query ⟨"page", none, none, none, some (.list []),
    .ofList [("x-order", .null), ("schema", .flag true)]⟩

def itemsSchema : Value :=
  .object [("items", .object [("$ref", .text "#/definitions/Pet")]), ("type", .null)]

def scatteredPet : List (String × Value) :=
  [("required", .flag true), ("schema", itemsSchema), ("type", .list []), ("name", .text "pet"),
    ("in", .text "body")]

def petParameter : Parameter :=
  .body ⟨"pet", none, true, some ⟨none, none, some ⟨some "#/definitions/Pet"⟩⟩⟩

theorem told_scatteredPage : pageParameter.Told scatteredPage :=
  ⟨rfl, rfl, .inl rfl, .inr ⟨_, rfl, rfl⟩, .inl rfl, ⟨.list [], rfl, nofun, rfl⟩,
    (Table.collects_iff _ _).mpr rfl⟩

theorem told_scatteredPet : petParameter.Told scatteredPet := by
  have items :
      Items.Told (.object [("$ref", .text "#/definitions/Pet")]) ⟨some "#/definitions/Pet"⟩ :=
    ⟨_, rfl, _, rfl, nofun, rfl⟩
  have schema : Schema.Told itemsSchema ⟨none, none, some ⟨some "#/definitions/Pet"⟩⟩ :=
    ⟨_, rfl, .inr ⟨_, rfl, rfl⟩, .inl rfl, _, rfl, nofun, items⟩
  exact ⟨rfl, rfl, .inl rfl, .inr rfl, _, rfl, nofun, schema⟩

theorem Parameter.read_iff_formed_scattered :
    (∀ schema ∈ under "schema" scatteredPage, Schema.Unlisted schema) ∧
      (∀ schema ∈ under "schema" scatteredPet, Schema.Unlisted schema) ∧
      Formed scatteredPage ∧
        Json.read layout (Json.compact (.object scatteredPage)) = .ok pageParameter ∧
      Formed scatteredPet ∧
        Json.read layout (Json.compact (.object scatteredPet)) = .ok petParameter := by
  have unlistedPage : ∀ schema ∈ under "schema" scatteredPage, Schema.Unlisted schema :=
    List.forall_mem_singleton.mpr ⟨nofun, nofun⟩
  have unlistedPet : ∀ schema ∈ under "schema" scatteredPet, Schema.Unlisted schema := by
    refine List.forall_mem_singleton.mpr ⟨nofun, ?_⟩
    rintro _ ⟨⟩
    exact List.forall_mem_singleton.mpr nofun
  obtain ⟨formedPage, toldPage, _⟩ :=
    read_iff_formed scatteredPage (by decide) unlistedPage _ (Json.means_compact _ rfl)
  obtain ⟨formedPet, toldPet, _⟩ :=
    read_iff_formed scatteredPet (by decide) unlistedPet _ (Json.means_compact _ rfl)
  have page := (toldPage pageParameter).mpr told_scatteredPage
  have pet := (toldPet petParameter).mpr told_scatteredPet
  exact ⟨unlistedPage, unlistedPet, formedPage.mp ⟨_, page⟩, page, formedPet.mp ⟨_, pet⟩, pet⟩

end SwaggerLift.Swagger
