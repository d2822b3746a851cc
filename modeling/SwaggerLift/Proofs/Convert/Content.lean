import SwaggerLift.Format.Write
import SwaggerLift.Proofs.Convert.Definition
import SwaggerLift.Proofs.Convert.Success
import SwaggerLift.Proofs.Json.Kept
import SwaggerLift.Proofs.OpenApi.Position
import SwaggerLift.Proofs.Swagger.Legible
/-!
Opaque content on the way from one JSON text to another: the information of a document and the
bodies of its definitions say in the result what they say in the source, in the same order. Only
numbers that are no integers of 64 bits can change on the way.
-/

namespace SwaggerLift

open Json

def LeadsTo (definition : Reading String × Literal) (name : String) : Prop :=
  ∃ key, definition.1.wanted = .ok key ∧ schemaName key = .ok name

def LeadApart (definitions : List (Reading String × Literal)) : Prop :=
  definitions.Pairwise fun one other => ∀ name, LeadsTo one name → ¬ LeadsTo other name

structure ContentKept (given written : Literal) : Prop where
  info : ∃ info carried, given.part 1 "info" = some info ∧ written.part 1 "info" = some carried ∧
    (info.Distinct → info.Kept Numeral.Carried carried)
  definitions :
    ∃ definitions components schemas, given.part 3 "definitions" = some (.object definitions) ∧
    written.part 3 "components" = some components ∧
    components.part 0 "schemas" = some (.object schemas) ∧
    (LeadApart definitions →
      List.Forall₂ (fun definition schema => ∃ name, LeadsTo definition name ∧
        schema.1.wanted = .ok name ∧
        (definition.2.Distinct → definition.2.Kept Numeral.Carried schema.2)) definitions schemas)

theorem Swagger.Document.exists_parts_of_read (text : String) (source : Swagger.Document)
    (read : Swagger.Document.read .json text = .ok source) (info : Verbatim)
    (definitions : Table Verbatim) (informed : source.info = some info)
    (defined : source.definitions = some definitions) :
    ∃ s : Literal, s.Spells text ∧
      (∃ part, s.part 1 "info" = some part ∧
        Layout.verbatim.read (Json.Place.mk (deepest - 1) part.tree) =
          (.ok info : Json.Result Verbatim)) ∧
      ∃ part, s.part 3 "definitions" = some part ∧
        (Layout.table .verbatim).read (Json.Place.mk (deepest - 1) part.tree) =
          (.ok definitions : Json.Result (Table Verbatim)) := by
  have done := Document.layout_read_of_read .json text source read
  rw [Format.read, mapError_eq_ok_iff] at done
  obtain ⟨s, spells, ⟨_, _, _, _, _⟩, rfl, _, fromInfo, _, fromDefinitions, _⟩ :=
    exists_spells_of_read _ _ _ Document.layout_wellFormed text source done
  cases informed
  cases defined
  exact ⟨s, spells, Field.exists_part_of_optional .verbatim _ _ info fromInfo,
    Field.exists_part_of_optional (.table .verbatim) _ _ definitions fromDefinitions⟩

theorem forall₂_definitions (members : List (Reading String × Literal))
    (entries : List (String × Verbatim)) (room : Nat) (schemas : Table Verbatim)
    (read : List.Forall₂ (fun member entry => member.1.wanted = .ok entry.1 ∧
      Layout.verbatim.read (Json.Place.mk room member.2.tree) =
        (.ok entry.2 : Json.Result Verbatim)) members entries)
    (done : (convertDefinitions (.ofList entries)).result = .ok schemas)
    (apart : LeadApart members) :
    List.Forall₂ (fun definition schema => ∃ name, LeadsTo definition name ∧
      schema.1.wanted = .ok name ∧
        (definition.2.Distinct → definition.2.Kept Numeral.Carried schema.2)) members
      (Literal.ofMembers (schemas.entries.map fun schema => (schema.1, schema.2.val))) := by
  have namesDiffer : entries.Pairwise fun one other =>
      ∀ name, schemaName one.1 = .ok name → schemaName other.1 ≠ .ok name :=
    pairwise_of_forall₂ read apart fun one entry other next first second differ name named same =>
      differ name ⟨entry.1, first.1, named⟩ ⟨next.1, second.1, same⟩
  -- Every key has a name, so keys whose names differ differ themselves.
  have keysDiffer : (entries.map Prod.fst).Nodup := by
    rw [List.Nodup, List.pairwise_map]
    refine namesDiffer.imp_of_mem fun {one other} member _ differ same => ?_
    have key : one.1 ∈ (Table.ofList entries).keys :=
      (Table.mem_keys_ofList entries one.1).mpr (List.mem_map_of_mem member)
    obtain ⟨name, named⟩ := named_of_convertDefinitions _ schemas done one.1 key
    exact differ name named (same ▸ named)
  have kept : (Table.ofList entries).entries = entries := Table.entries_ofList entries keysDiffer
  have renamed :=
    entries_convertDefinitions _ schemas done (by rw [NamedApart, kept]; exact namesDiffer)
  rw [kept] at renamed
  rw [Literal.ofMembers_eq, List.map_map, List.forall₂_map_right_iff]
  refine (forall₂_trans read renamed).imp ?_
  rintro definition schema ⟨entry, ⟨keyed, readBody⟩, named, moved⟩
  refine ⟨schema.1, ⟨entry.1, keyed, named⟩, rfl, fun distinct => ?_⟩
  rw [Function.comp_apply, moved]
  exact definition.2.kept_of_read room entry.2 distinct readBody

/-- A text spells one content at most, so these are what the two texts say. -/
theorem convert_content (text : String) (source : Swagger.Document) (target : OpenApi.Document)
    (read : Swagger.Document.read .json text = .ok source)
    (done : (convert source).result = .ok target) :
    ∃ given written : Literal, given.Spells text ∧ written.Spells (target.render .json) ∧
      ContentKept given written := by
  obtain ⟨info, paths, definitions, converted, schemas, informed, _, defined, _, renamed, rfl⟩ :=
    (convert_eq_ok_iff source target).mp done
  obtain ⟨given, spells, ⟨part, stands, readInfo⟩, ⟨table, lists, readTable⟩⟩ :=
    source.exists_parts_of_read text read info definitions informed defined
  obtain ⟨members, entries, room, rfl, rfl, beside⟩ :=
    Layout.exists_members_of_read _ _ table definitions readTable
  refine ⟨given, _, spells, spells_pretty _, ?_⟩
  constructor
  case info =>
    exact ⟨part, _, stands, rfl, fun distinct => part.kept_of_read _ info distinct readInfo⟩
  case definitions =>
    exact ⟨members, _, _, lists, rfl, rfl,
      forall₂_definitions members entries room schemas beside renamed⟩

-- The largest integer of 64 bits is kept in a definition, while the next one is changed in the
-- information.
theorem low_largestWhole : -0x8000000000000000 ≤ (18446744073709551615 : Int) := by decide

theorem high_largestWhole : (18446744073709551615 : Int) ≤ 0xFFFFFFFFFFFFFFFF := Int.le_refl _

def largestWhole : Whole := ⟨18446744073709551615, low_largestWhole, high_largestWhole⟩

def largeText : String :=
  "\x7b\"info\":\x7b\"limit\":18446744073709551616\x7d,\"paths\":\x7b\x7d,\"definitions\":\x7b\"v1.count\":[18446744073709551615]\x7d\x7d"

def largeInfo : Literal := .object [(.clean "limit", .numeral nextNumeral)]

def largeBody : Literal := .list [.numeral (.ofWhole largestWhole)]

def largeLiteral : Literal :=
  .object [(.clean "info", largeInfo), (.clean "paths", .object []),
    (.clean "definitions", .object [(.clean "v1.count", largeBody)])]

theorem spells_large : largeLiteral.Spells largeText := by
  have valid : nextNumeral.Valid := ⟨⟨nofun, List.all_eq_true.mp (by decide)⟩, nofun, nofun, nofun⟩
  have next : ∀ rest, lexemes (nextNumeral.text ++ '}' :: rest) =
      .numeral nextNumeral.reading nextNumeral :: lexemes ('}' :: rest) :=
    fun rest => lexemes_numeral nextNumeral valid _ rfl
  have largest : ∀ rest, lexemes ((Numeral.ofWhole largestWhole).text ++ ']' :: rest) =
      .numeral (Numeral.ofWhole largestWhole).reading (.ofWhole largestWhole) ::
        lexemes (']' :: rest) :=
    fun rest => lexemes_numeral _ (Numeral.ofWhole_valid largestWhole) _ rfl
  have split : largeText.toList = '{' :: (escaped "info" ++ ':' :: '{' :: (escaped "limit" ++
      ':' :: (nextNumeral.text ++ '}' :: ',' :: (escaped "paths" ++ ':' :: '{' :: '}' :: ',' ::
        (escaped "definitions" ++ ':' :: '{' :: (escaped "v1.count" ++ ':' :: '[' ::
          ((Numeral.ofWhole largestWhole).text ++ [']', '}', '}']))))))) := by decide
  rw [Literal.Spells, split]
  simp only [lexemes_of_first '{' _ _ .objectOpen rfl rfl,
    lexemes_of_first '}' _ _ .objectClose rfl rfl, lexemes_of_first '[' _ _ .listOpen rfl rfl,
    lexemes_of_first ']' _ _ .listClose rfl rfl, lexemes_of_first ':' _ _ .colon rfl rfl,
    lexemes_of_first ',' _ _ .comma rfl rfl, lexemes_escaped, next, largest]
  rw [lexemes]
  rfl

def largeSource : Swagger.Document where
  version := none
  info := some (.object (.ofList [("limit", .number roundedNumber)]))
  paths := some .empty
  definitions := some (.ofList [("v1.count", .list [.number (.whole largestWhole)])])

theorem read_large : Swagger.Document.read .json largeText = .ok largeSource := by
  have tree : largeLiteral.tree = .object [
      (.text (.clean "info"),
        .object [(.text (.clean "limit"), .number (.clean roundedNumber))] none),
      (.text (.clean "paths"), .object [] none),
      (.text (.clean "definitions"), .object [(.text (.clean "v1.count"),
        .list [.number (.clean (.whole largestWhole))] none)] none)] none := by
    simp only [largeLiteral, largeInfo, largeBody, Literal.tree, Literal.memberTrees,
      Literal.itemTrees, reading_next, Numeral.ofWhole_reading]
  rw [Swagger.Document.read, Format.read, Json.read, spells_large.ofText, tree]
  rfl

def largeTarget : OpenApi.Document where
  openapi := OpenApi.version
  info := .object (.ofList [("limit", .number roundedNumber)])
  paths := .empty
  components := ⟨.ofList [("Count", .list [.number (.whole largestWhole)])]⟩

theorem convert_large : (convert largeSource).result = .ok largeTarget := rfl

theorem distinct_large : largeLiteral.Distinct := by
  simp [largeLiteral, largeInfo, largeBody, Literal.Distinct, Literal.MembersDistinct,
    Literal.AllDistinct, Reading.clean]

theorem convert_content_large :
    Swagger.Document.read .json largeText = .ok largeSource ∧
      (convert largeSource).result = .ok largeTarget ∧
      ∃ written : Literal, written.Spells (largeTarget.render .json) ∧
        (∃ carried, written.part 1 "info" = some carried ∧ largeInfo.Kept Numeral.Carried carried) ∧
        ∃ components schema, written.part 3 "components" = some components ∧
          components.part 0 "schemas" = some (.object [schema]) ∧ schema.1.wanted = .ok "Count" ∧
          largeBody.Kept Numeral.Carried schema.2 := by
  obtain ⟨given, written, spells, prints, kept⟩ :=
    convert_content largeText largeSource largeTarget read_large convert_large
  cases spells.unique spells_large
  refine ⟨read_large, convert_large, written, prints, ?_, ?_⟩
  · obtain ⟨info, carried, stands, shown, same⟩ := kept.info
    cases stands
    exact ⟨carried, shown, same distinct_large.2.1⟩
  · obtain ⟨definitions, components, schemas, stands, shown, inside, same⟩ := kept.definitions
    cases stands
    cases same (List.pairwise_singleton _ _) with
    | cons first rest =>
        cases rest
        obtain ⟨name, ⟨_, key, named⟩, schema, body⟩ := first
        cases key
        cases (show schemaName "v1.count" = .ok "Count" from rfl).symm.trans named
        exact ⟨components, _, shown, inside, schema, body distinct_large.2.2.2.1.2.1⟩

/-- Integers beyond 64 bits do not keep their value. -/
theorem convert_content_inexact :
    ∃ source target, Swagger.Document.read .json largeText = .ok source ∧
      (convert source).result = .ok target ∧
      ∃ given written info carried : Literal, given.Spells largeText ∧
        written.Spells (target.render .json) ∧
        given.Distinct ∧
        (∃ definitions, given.part 3 "definitions" = some (.object definitions) ∧
          LeadApart definitions) ∧
        given.part 1 "info" = some info ∧ written.part 1 "info" = some carried ∧
        ¬ info.Kept (fun numeral other => numeral.Integral →
          other.value = numeral.value) carried := by
  have shown : (Literal.ofValue (OpenApi.Document.layout.write largeTarget)).part 1 "info" =
      some (.ofValue largeTarget.info.val) := rfl
  refine ⟨largeSource, largeTarget, read_large, convert_large, largeLiteral, _, largeInfo, _,
    spells_large, spells_pretty _, distinct_large, ⟨_, rfl, List.pairwise_singleton _ _⟩,
    rfl, shown, ?_⟩
  change ¬ Literal.Kept _ (.object [(_, .numeral nextNumeral)])
    (.object [(_, .numeral (writtenNumeral roundedNumber))])
  rintro ⟨_, same, _⟩
  have equal : (writtenNumeral roundedNumber).value = nextNumeral.value := same ⟨rfl, rfl⟩
  rw [writtenNumeral_rounded, value_rounded, value_next] at equal
  norm_num at equal

end SwaggerLift
