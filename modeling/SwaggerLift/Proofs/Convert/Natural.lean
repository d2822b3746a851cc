import SwaggerLift.Proofs.Convert.Logged
import SwaggerLift.Proofs.Convert.Omit
import SwaggerLift.Proofs.Table
/-!
A conversion moves opaque content and never looks at it. Whatever a function does to that content
before the conversion, it may as well do to it afterwards: the same steps succeed, fail and are
logged. The default of a parameter is not moved anywhere, so it plays no part at all.
-/

namespace SwaggerLift

namespace Swagger

def PlainParameter.mapExtra (h : Verbatim → Verbatim) (parameter : PlainParameter) :
    PlainParameter :=
  { parameter with extra := parameter.extra.mapValues fun _ => h }

def PlainParameter.withoutDefault (parameter : PlainParameter) : PlainParameter :=
  { parameter with default := none }

def Parameter.mapPlain (f : PlainParameter → PlainParameter) : Parameter → Parameter
  | plain location parameter => plain location (f parameter)
  | body parameter => body parameter

def Operation.mapPlain (f : PlainParameter → PlainParameter) (operation : Operation) : Operation :=
  { operation with parameters := operation.parameters.map (Parameter.mapPlain f) }

def Document.mapPlain (f : PlainParameter → PlainParameter) (document : Document) : Document :=
  { document with paths := document.paths.map fun paths =>
      paths.mapValues fun _ item => item.mapValues fun _ => Operation.mapPlain f }

def Document.mapOpaque (h : Verbatim → Verbatim) (document : Document) : Document :=
  { document.mapPlain (PlainParameter.mapExtra h) with
    info := document.info.map h
    definitions := document.definitions.map (Table.mapValues fun _ => h) }

def Document.withoutDefaults (document : Document) : Document :=
  document.mapPlain PlainParameter.withoutDefault

end Swagger

namespace OpenApi

def Parameter.mapExtra (h : Verbatim → Verbatim) (parameter : Parameter) : Parameter :=
  { parameter with extra := parameter.extra.mapValues fun _ => h }

def Operation.mapParameters (g : Parameter → Parameter) (operation : Operation) : Operation :=
  { operation with parameters := operation.parameters.map (List.map g) }

def Document.mapOpaque (h : Verbatim → Verbatim) (document : Document) : Document where
  openapi := document.openapi
  info := h document.info
  paths := document.paths.mapValues fun _ item =>
    item.mapValues fun _ => Operation.mapParameters (Parameter.mapExtra h)
  components := ⟨document.components.schemas.mapValues fun _ => h⟩

theorem operationCount_mapValues {α β : Type} (f : α → β) (paths : Table (Table α)) :
    operationCount (paths.mapValues fun _ item => item.mapValues fun _ => f) =
      operationCount paths := by
  change List.foldr _ _ ((paths.entries.map _).map _) = List.foldr _ _ (paths.entries.map _)
  rw [List.map_map, List.foldr_map, List.foldr_map]
  simp only [Function.comp_apply, Table.size_mapValues]

end OpenApi

section Parameters

open Swagger

variable (f : PlainParameter → PlainParameter) (g : OpenApi.Parameter → OpenApi.Parameter)
  (turns : ∀ location parameter,
    convertPlain location (f parameter) = g (convertPlain location parameter))

theorem body?_mapPlain (parameters : List Parameter) :
    (parameters.map (Parameter.mapPlain f)).filterMap body? = parameters.filterMap body? := by
  rw [List.filterMap_map]
  congr 1
  funext parameter
  cases parameter <;> rfl

include turns in
theorem convertParameters_mapPlain (parameters : List Parameter) :
    convertParameters (parameters.map (Parameter.mapPlain f)) =
      (convertParameters parameters).map (List.map g) := by
  have each : convertParameter? ∘ Parameter.mapPlain f = fun parameter =>
      (convertParameter? parameter).map g := by
    funext parameter
    cases parameter with
    | plain location parameter => exact congrArg some (turns location parameter)
    | body parameter => rfl
  rw [convertParameters, List.filterMap_map, each, convertParameters, ← unlessEmpty_map,
    List.map_filterMap]

include turns in
theorem convertOperation_mapPlain (operation : Operation) :
    convertOperation (operation.mapPlain f) =
      OpenApi.Operation.mapParameters g <$> convertOperation operation := by
  have bodies : convertRequestBody (operation.parameters.map (Parameter.mapPlain f)) =
      convertRequestBody operation.parameters := by
    rw [convertRequestBody, convertRequestBody, body?_mapPlain]
  rw [convertOperation, convertOperation, Operation.mapPlain, map_bind]
  simp only [map_bind, map_pure, bodies, convertParameters_mapPlain f g turns]
  rfl

include turns in
theorem convertMethod_mapPlain (path method : String) (operation : Operation) :
    convertMethod path method (operation.mapPlain f) =
      OpenApi.Operation.mapParameters g <$> convertMethod path method operation := by
  rw [convertMethod, convertMethod, convertOperation_mapPlain f g turns, map_bind]
  cases convertOperation operation <;> rfl

include turns in
theorem convertPaths_mapPlain (paths : Table PathItem) :
    convertPaths (paths.mapValues fun _ item => item.mapValues fun _ => Operation.mapPlain f) =
      (Table.mapValues fun _ item => item.mapValues fun _ => OpenApi.Operation.mapParameters g) <$>
        convertPaths paths :=
  Table.traverse_mapValues _ _ _ _ paths fun path item =>
    Table.traverse_mapValues _ _ _ _ item fun method operation =>
      convertMethod_mapPlain f g turns path method operation

/-- A function on parameters that no converted parameter shows has no effect. -/
theorem convert_mapPlain (hidden : ∀ location parameter,
    convertPlain location (f parameter) = convertPlain location parameter) (source : Document) :
    convert (source.mapPlain f) = convert source := by
  have idle : OpenApi.Operation.mapParameters id = id := by
    funext operation
    rw [OpenApi.Operation.mapParameters, List.map_id_fun, Option.map_id, id, id]
  have paths : ∀ paths : Table PathItem, convertPaths (paths.mapValues fun _ item =>
      item.mapValues fun _ => Operation.mapPlain f) = convertPaths paths := by
    intro paths
    rw [convertPaths_mapPlain f id hidden, idle]
    have same : ∀ item : OpenApi.PathItem, (item.mapValues fun _ => id) = id item :=
      Table.mapValues_id
    simp only [same]
    exact (congrArg (· <$> _) (funext Table.mapValues_id)).trans (id_map (convertPaths paths))
  rw [convert, convert, Document.mapPlain]
  cases given : source.paths with
  | none => rfl
  | some whole => simp only [Option.map_some, requireField, pure_bind, paths]

theorem convert_withoutDefaults (source : Document) :
    convert source.withoutDefaults = convert source :=
  convert_mapPlain PlainParameter.withoutDefault (fun _ _ => rfl) source

end Parameters

theorem addDefinition_mapValues {α β : Type} (h : α → β) (schemas : Table α)
    (definition : String × α) :
    addDefinition (schemas.mapValues fun _ => h) (definition.1, h definition.2) =
      (Table.mapValues fun _ => h) <$> addDefinition schemas definition := by
  -- Only the name decides what is overwritten and where the body goes.
  rw [addDefinition, addDefinition, map_bind]
  refine congrArg _ (funext fun name => ?_)
  rw [Table.find?_mapValues, Option.isSome_map]
  split <;> simp only [map_bind, map_pure, Table.mapValues_insert]

theorem convertDefinitions_mapValues {α β : Type} (h : α → β) (definitions : Table α) :
    convertDefinitions (definitions.mapValues fun _ => h) =
      (Table.mapValues fun _ => h) <$> convertDefinitions definitions := by
  have loop : ∀ (entries : List (String × α)) (schemas : Table α),
      (entries.map fun entry => (entry.1, h entry.2)).foldlM addDefinition
        (schemas.mapValues fun _ => h) =
        (Table.mapValues fun _ => h) <$> entries.foldlM addDefinition schemas := by
    intro entries
    induction entries with
    | nil => intro schemas; exact (map_pure _ _).symm
    | cons first rest ih =>
        intro schemas
        rw [List.map_cons, List.foldlM_cons, List.foldlM_cons, addDefinition_mapValues,
          bind_map_left, map_bind]
        exact bind_congr fun schemas => ih schemas
  exact loop definitions.entries .empty

theorem requireField_map {α β : Type} (h : α → β) (name : String) (a : Option α) :
    requireField name (a.map h) = h <$> requireField name a := by
  cases a <;> rfl

theorem convert_mapOpaque (h : Verbatim → Verbatim) (source : Swagger.Document) :
    convert (source.mapOpaque h) = OpenApi.Document.mapOpaque h <$> convert source := by
  have paths :=
    convertPaths_mapPlain (Swagger.PlainParameter.mapExtra h) (OpenApi.Parameter.mapExtra h)
      fun _ _ => rfl
  rw [convert, convert, Swagger.Document.mapOpaque, Swagger.Document.mapPlain]
  simp only [requireField_map, bind_map_left, map_bind, map_pure, paths,
    convertDefinitions_mapValues, Table.size_mapValues, OpenApi.operationCount_mapValues]
  rfl

/-- Converting a document whose opaque content has been changed, and whose defaults are any at all,
    gives the same result with the same changes, the same error, and the same log. -/
theorem convert_opaque (source changed : Swagger.Document) (h : Verbatim → Verbatim)
    (same : changed.withoutDefaults = (source.mapOpaque h).withoutDefaults) :
    (convert changed).result = (convert source).result.map (OpenApi.Document.mapOpaque h) ∧
      (convert changed).log = (convert source).log := by
  have equal : convert changed = OpenApi.Document.mapOpaque h <$> convert source := by
    calc convert changed = convert changed.withoutDefaults := (convert_withoutDefaults changed).symm
      _ = convert (source.mapOpaque h).withoutDefaults := by rw [same]
      _ = convert (source.mapOpaque h) := convert_withoutDefaults _
      _ = OpenApi.Document.mapOpaque h <$> convert source := convert_mapOpaque h source
  constructor
  · rw [equal, ← bind_pure_comp, Logged.result_bind]
    cases (convert source).result <;> rfl
  · rw [equal, ← bind_pure_comp, Logged.log_bind]
    cases (convert source).result <;> exact List.append_nil _

def pagedSource (info limit first second : Verbatim) (default : Option Verbatim) :
    Swagger.Document where
  version := none
  info := some info
  paths := some <| .ofList [("/pets", .ofList [("get",
    { description := none, operationId := none, summary := none, tags := [], produces := []
      responses := .empty
      parameters :=
        [.plain .query ⟨"page", none, none, some "integer", default, .ofList [("minimum", limit)]⟩,
          .body ⟨"body", none, true, some ⟨none, some "#/definitions/pet", none⟩⟩] })])]
  definitions := some <| .ofList [("v1.pet", first), ("v2.pet", second)]

theorem convert_opaque_paged :
    let wrap (value : Verbatim) : Verbatim := .list [value]
    let changed :=
      pagedSource (wrap .null) (wrap (.flag true)) (wrap (.text "v1")) (wrap .null) none
    let source := pagedSource .null (.flag true) (.text "v1") .null (some (.text "1"))
    changed.withoutDefaults = (source.mapOpaque wrap).withoutDefaults ∧
      (convert changed).result = (convert source).result.map (OpenApi.Document.mapOpaque wrap) ∧
      (convert changed).log = (convert source).log := by
  intro wrap changed source
  have same : changed.withoutDefaults = (source.mapOpaque wrap).withoutDefaults := rfl
  exact ⟨same, convert_opaque source changed wrap same⟩

end SwaggerLift
