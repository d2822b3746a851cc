import SwaggerLift.Proofs.Convert.Definition
import SwaggerLift.Proofs.Convert.Success
/-!
What the log of a conversion tells. It names the operations in the order of the document, up to the
first one that cannot be converted; behind them the definitions whose names were taken by earlier
ones, up to the first one without a name; and it ends with the sizes of the result, if there is one.
-/

namespace SwaggerLift

namespace Logged

variable {α β : Type}

def visit (x : Logged α) : Logged Unit := (fun _ => ()) <$> x

@[simp] theorem log_visit (x : Logged α) : x.visit.log = x.log := log_map _ x

theorem visit_traverse (step : String → α → Logged β) (t : Table α) :
    (t.traverse step).visit = t.entries.forM fun entry => (step entry.1 entry.2).visit := by
  have loop (entries : List (String × α)) :
      visit (entries.mapM fun entry => do return (entry.1, ← step entry.1 entry.2)) =
        entries.forM fun entry => (step entry.1 entry.2).visit := by
    induction entries with
    | nil => rfl
    | cons first rest ih =>
        rw [List.forM_eq_forM] at ih ⊢
        rw [List.forM_cons, ← ih, List.mapM_cons]
        simp only [visit, bind_pure_comp, map_bind, Functor.map_map, bind_map_left]
  rw [← loop, Table.traverse]
  simp only [visit, bind_pure_comp, Functor.map_map]

theorem forM_flatMap {γ : Type} (f : β → Logged Unit) (inner : γ → List β) (items : List γ) :
    (items.flatMap inner).forM f = items.forM fun item => (inner item).forM f := by
  induction items with
  | nil => rfl
  | cons first rest ih =>
      rw [List.forM_eq_forM] at ih ⊢
      rw [List.flatMap_cons, List.forM_append, ih]
      rfl

theorem forM_of_ok (f : α → Logged Unit) (items : List α)
    (each : ∀ a ∈ items, (f a).result = .ok ()) :
    items.forM f = ⟨items.flatMap fun a => (f a).log, .ok ()⟩ := by
  induction items with
  | nil => rfl
  | cons first rest ih =>
      obtain ⟨here, later⟩ := List.forall_mem_cons.mp each
      have next := ih later
      rw [List.forM_eq_forM] at next ⊢
      rw [List.forM_cons, next]
      ext1
      · rw [log_bind, here, List.flatMap_cons]
      · rw [result_bind, here]
        rfl

theorem forM_of_error (f : α → Logged Unit) (before after : List α) (item : α)
    (error : ConversionError) (each : ∀ a ∈ before, (f a).result = .ok ())
    (fails : (f item).result = .error error) :
    (before ++ item :: after).forM f =
      ⟨before.flatMap (fun a => (f a).log) ++ (f item).log, .error error⟩ := by
  have first := forM_of_ok f before each
  rw [List.forM_eq_forM] at first ⊢
  rw [List.forM_append, List.forM_cons, first]
  ext1
  · simp only [log_bind, fails, List.append_nil]
  · simp only [result_bind, fails]
    rfl

theorem visit_eq_ok_iff (x : Logged α) (log : List LogRecord) :
    x.visit = ⟨log, .ok ()⟩ ↔ x.log = log ∧ ∃ a, x.result = .ok a := by
  rw [Logged.ext_iff, log_visit, visit, result_map]
  cases x.result <;> simp [Functor.map, Except.map]

theorem visit_eq_error_iff (x : Logged α) (log : List LogRecord) (error : ConversionError) :
    x.visit = ⟨log, .error error⟩ ↔ x.log = log ∧ x.result = .error error := by
  rw [Logged.ext_iff, log_visit, visit, result_map]
  cases x.result <;> simp [Functor.map, Except.map]

end Logged

structure Site where
  path : String
  method : String
  operation : Swagger.Operation

namespace Site

def begun (site : Site) : LogRecord := .mapping site.method site.path

def failed (site : Site) (error : ConversionError) : LogRecord :=
  .failed site.method site.path error

def Converts (site : Site) : Prop := ∃ converted, convertOperation site.operation = .ok converted

def convert (site : Site) : Logged OpenApi.Operation :=
  convertMethod site.path site.method site.operation

theorem visit_of_converts (site : Site) (converts : site.Converts) :
    site.convert.visit = ⟨[site.begun], .ok ()⟩ := by
  obtain ⟨converted, done⟩ := converts
  rw [convert, convertMethod, done]
  rfl

theorem visit_of_error (site : Site) (error : ConversionError)
    (fails : convertOperation site.operation = .error error) :
    site.convert.visit = ⟨[site.begun, site.failed error], .error error⟩ := by
  rw [convert, convertMethod, fails]
  rfl

end Site

def sites (paths : Table Swagger.PathItem) : List Site :=
  paths.entries.flatMap fun path => path.2.entries.map fun method => ⟨path.1, method.1, method.2⟩

theorem operations_sites (paths : Table Swagger.PathItem) :
    (sites paths).map Site.operation = paths.nested := by
  simp only [sites, Table.nested, Table.values, List.map_flatMap, List.flatMap_map, List.map_map]
  rfl

theorem visit_convertPaths (paths : Table Swagger.PathItem) :
    (convertPaths paths).visit = (sites paths).forM fun site => site.convert.visit := by
  rw [convertPaths, Logged.visit_traverse, sites, Logged.forM_flatMap]
  congr 1
  funext path
  rw [Logged.visit_traverse, List.forM_eq_forM, List.forM_eq_forM, List.forM_map]
  rfl

theorem flatMap_log_visit (visited : List Site) (each : ∀ site ∈ visited, site.Converts) :
    (visited.flatMap fun site => site.convert.visit.log) = visited.map Site.begun := by
  rw [List.map_eq_flatMap]
  exact List.flatMap_congr fun site member => by rw [site.visit_of_converts (each site member)]

theorem visit_convertPaths_of_ok (paths : Table Swagger.PathItem)
    (each : ∀ site ∈ sites paths, site.Converts) :
    (convertPaths paths).visit = ⟨(sites paths).map Site.begun, .ok ()⟩ := by
  rw [visit_convertPaths, Logged.forM_of_ok, flatMap_log_visit _ each]
  intro site member
  rw [site.visit_of_converts (each site member)]

theorem visit_convertPaths_of_error (paths : Table Swagger.PathItem) (before after : List Site)
    (site : Site) (error : ConversionError) (split : sites paths = before ++ site :: after)
    (each : ∀ earlier ∈ before, earlier.Converts)
    (fails : convertOperation site.operation = .error error) :
    (convertPaths paths).visit =
      ⟨(before ++ [site]).map Site.begun ++ [site.failed error], .error error⟩ := by
  have stops := site.visit_of_error error fails
  rw [visit_convertPaths, split, Logged.forM_of_error _ before after site error,
    flatMap_log_visit _ each, stops]
  · simp
  · intro earlier member
    rw [earlier.visit_of_converts (each earlier member)]
  · rw [stops]

/-- The warning for a key whose name is already the name of an earlier key. -/
def overwrite? (earlier : List String) (key : String) : Option LogRecord :=
  match schemaName key with
  | .ok name =>
      if ∃ other ∈ earlier, schemaName other = .ok name then some (.overwritten key name) else none
  | .error _ => none

def overwrites (earlier : List String) : List String → List LogRecord
  | [] => []
  | key :: later => (overwrite? earlier key).toList ++ overwrites (earlier ++ [key]) later

def namedKeys (keys : List String) : List String := keys.takeWhile fun key => (schemaName key).isOk

def NamedBy {α : Type} (earlier : List String) (schemas : Table α) : Prop :=
  ∀ name, name ∈ schemas.keys ↔ ∃ other ∈ earlier, schemaName other = .ok name

theorem NamedBy.insert {α : Type} {earlier : List String} {schemas : Table α}
    (held : NamedBy earlier schemas) (key name : String)
    (named : schemaName key = .ok name) (body : α) :
    NamedBy (earlier ++ [key]) (schemas.insert name body) := by
  intro other
  rw [Table.keys_insert_mem, held other]
  simp [named, or_and_right, exists_or, or_comm, eq_comm]

theorem overwrite?_of_named (earlier : List String) (key name : String)
    (named : schemaName key = .ok name) :
    overwrite? earlier key =
      if ∃ other ∈ earlier, schemaName other = .ok name then some (.overwritten key name)
        else none := by
  rw [overwrite?, named]

theorem addDefinition_of_named {α : Type} (schemas : Table α) (key name : String)
    (named : schemaName key = .ok name) (body : α) :
    addDefinition schemas (key, body) =
      ⟨if name ∈ schemas.keys then [.overwritten key name] else [],
        .ok (schemas.insert name body)⟩ := by
  have step : addDefinition schemas (key, body) =
      (if (schemas.find? name).isSome then Logged.note (.overwritten key name) else pure ()) >>=
        fun _ => pure (schemas.insert name body) := by
    rw [addDefinition, named]
    change (if (schemas.find? name).isSome then _ else _ : Logged (Table α)) = _
    split <;> rfl
  simp only [step, schemas.isSome_find?_iff name]
  split <;> rfl

theorem addDefinition_of_unnamed {α : Type} (schemas : Table α) (key : String)
    (error : ConversionError) (unnamed : schemaName key = .error error) (body : α) :
    addDefinition schemas (key, body) = ⟨[], .error error⟩ := by
  rw [addDefinition, unnamed]
  rfl

/-- A name that is taken gives a warning, and no schema more. -/
theorem NamedBy.toList_overwrite? {α : Type} {earlier : List String} {schemas : Table α}
    (held : NamedBy earlier schemas) (key name : String) (named : schemaName key = .ok name) :
    (overwrite? earlier key).toList =
      if name ∈ schemas.keys then [.overwritten key name] else [] := by
  rw [overwrite?_of_named earlier key name named]
  simp only [held name]
  split <;> rfl

theorem NamedBy.size_insert {α : Type} {earlier : List String} {schemas : Table α}
    (held : NamedBy earlier schemas) (key name : String)
    (named : schemaName key = .ok name) (body : α) :
    (schemas.insert name body).size + (overwrite? earlier key).toList.length =
      schemas.size + 1 := by
  rw [held.toList_overwrite? key name named, Table.size_insert]
  split <;> rfl

theorem log_addDefinitions {α : Type} (definitions : List (String × α)) (earlier : List String)
    (schemas : Table α) (held : NamedBy earlier schemas) :
    (definitions.foldlM addDefinition schemas).log =
      overwrites earlier (namedKeys (definitions.map Prod.fst)) := by
  induction definitions generalizing earlier schemas with
  | nil => rfl
  | cons first rest ih =>
      rcases first with ⟨key, body⟩
      rw [List.foldlM_cons, Logged.log_bind, List.map_cons, namedKeys, List.takeWhile_cons]
      cases named : schemaName key with
      | error e =>
          rw [addDefinition_of_unnamed schemas key e named body]
          rfl
      | ok name =>
          rw [addDefinition_of_named schemas key name named body,
            ← held.toList_overwrite? key name named]
          exact congrArg _ (ih _ _ (held.insert key name named body))

/-- Every definition gives a schema or a warning. -/
theorem size_addDefinitions {α : Type} (definitions : List (String × α)) (earlier : List String)
    (schemas result : Table α) (held : NamedBy earlier schemas)
    (done : (definitions.foldlM addDefinition schemas).result = .ok result) :
    result.size + (overwrites earlier (definitions.map Prod.fst)).length = schemas.size +
      definitions.length := by
  induction definitions generalizing earlier schemas with
  | nil =>
      cases done
      rfl
  | cons first rest ih =>
      rcases first with ⟨key, body⟩
      rw [List.foldlM_cons, Logged.result_bind] at done
      cases named : schemaName key with
      | error e =>
          rw [addDefinition_of_unnamed schemas key e named body] at done
          cases done
      | ok name =>
          rw [addDefinition_of_named schemas key name named body] at done
          have later := ih _ _ (held.insert key name named body) done
          have here := held.size_insert key name named body
          simp only [List.map_cons, overwrites, List.length_append, List.length_cons]
          omega

theorem namedBy_empty {α : Type} : NamedBy [] (.empty : Table α) := by
  intro name
  simp [Table.keys]

theorem log_convertDefinitions {α : Type} (definitions : Table α) :
    (convertDefinitions definitions).log = overwrites [] (namedKeys definitions.keys) :=
  log_addDefinitions definitions.entries [] .empty namedBy_empty

theorem namedKeys_eq_self {α : Type} (definitions schemas : Table α)
    (done : (convertDefinitions definitions).result = .ok schemas) :
    namedKeys definitions.keys = definitions.keys := by
  rw [namedKeys, List.takeWhile_eq_self_iff]
  intro key member
  obtain ⟨name, named⟩ := named_of_convertDefinitions definitions schemas done key member
  rw [named]
  rfl

theorem operationCount_eq {α : Type} (paths : Table (Table α)) :
    OpenApi.operationCount paths = paths.nested.length := by
  rw [OpenApi.operationCount, Table.nested, List.length_flatMap]
  induction paths.values with
  | nil => rfl
  | cons first rest ih =>
      rw [List.foldr_cons, ih, List.map_cons, List.sum_cons, Table.values, List.length_map]
      rfl

theorem operationCount_convertPaths (paths : Table Swagger.PathItem)
    (converted : Table OpenApi.PathItem) (done : (convertPaths paths).result = .ok converted) :
    OpenApi.operationCount converted = (sites paths).length := by
  have beside := (convertPaths_eq_ok paths converted done).nested
  rw [operationCount_eq, ← beside.length_eq, ← operations_sites, List.length_map]

theorem size_convertPaths (paths : Table Swagger.PathItem) (converted : Table OpenApi.PathItem)
    (done : (convertPaths paths).result = .ok converted) : converted.size = paths.size :=
  (convertPaths_eq_ok paths converted done).length_eq.symm

theorem size_convertDefinitions {α : Type} (definitions schemas : Table α)
    (done : (convertDefinitions definitions).result = .ok schemas) :
    schemas.size = definitions.size - (overwrites [] (namedKeys definitions.keys)).length := by
  have total : schemas.size + (overwrites [] definitions.keys).length = 0 + definitions.size :=
    size_addDefinitions definitions.entries [] .empty schemas namedBy_empty done
  rw [namedKeys_eq_self definitions schemas done]
  omega

structure Swagger.Document.Logs (source : Swagger.Document)
    (conversion : Logged OpenApi.Document) : Prop where
  /-- Nothing is looked at before all parts are there. -/
  incomplete : source.info = none ∨ source.paths = none ∨ source.definitions = none →
    conversion.log = []
  /-- The first operation that cannot be converted is the last one named, with its error. -/
  stopped : ∀ info paths definitions before site after error, source.info = some info →
    source.paths = some paths → source.definitions = some definitions →
    sites paths = before ++ site :: after → (∀ earlier ∈ before, earlier.Converts) →
    convertOperation site.operation = .error error →
    conversion.log = (before ++ [site]).map Site.begun ++ [site.failed error]
  /-- Behind the operations stand the warnings, and the counts if there is a result: a schema for
      each definition without a warning. -/
  finished : ∀ info paths definitions, source.info = some info →
    source.paths = some paths → source.definitions = some definitions →
    (∀ site ∈ sites paths, site.Converts) →
    conversion.log = (sites paths).map Site.begun ++ overwrites [] (namedKeys definitions.keys) ++
      match conversion.result with
      | .ok _ =>
          [.converted paths.size (sites paths).length
            (definitions.size - (overwrites [] (namedKeys definitions.keys)).length)]
      | .error _ => []
  counted : (∃ paths operations schemas, .converted paths operations schemas ∈ conversion.log) ↔
    ∃ target, conversion.result = .ok target

section Complete

variable (source : Swagger.Document) (info : Verbatim) (paths : Table Swagger.PathItem)
  (definitions : Table Verbatim) (hasInfo : source.info = some info)
    (hasPaths : source.paths = some paths)
  (hasDefinitions : source.definitions = some definitions)

include hasInfo hasPaths hasDefinitions

theorem result_convert_of_complete :
    (convert source).result = do
      let converted ← (convertPaths paths).result
      let schemas ← (convertDefinitions definitions).result
      return {
        openapi := OpenApi.version, info, paths := converted, components := { schemas } } := by
  rw [result_convert, hasInfo, hasPaths, hasDefinitions]
  rfl

theorem log_convert_of_complete :
    (convert source).log = (convertPaths paths).log ++
      match (convertPaths paths).result with
      | .ok converted => (convertDefinitions definitions).log ++
          match (convertDefinitions definitions).result with
          | .ok schemas =>
              [.converted converted.size (OpenApi.operationCount converted) schemas.size]
          | .error _ => []
      | .error _ => [] := by
  rw [convert, hasInfo, hasPaths, hasDefinitions]
  simp only [requireField, pure_bind, Logged.log_bind, Logged.result_note, Logged.log_note,
    Logged.log_pure, List.append_nil]
  cases (convertPaths paths).result with
  | error e => rfl
  | ok converted => cases (convertDefinitions definitions).result <;> rfl

theorem convert_of_error (before after : List Site) (site : Site) (error : ConversionError)
    (split : sites paths = before ++ site :: after) (each : ∀ earlier ∈ before, earlier.Converts)
    (fails : convertOperation site.operation = .error error) :
    convert source = ⟨(before ++ [site]).map Site.begun ++ [site.failed error], .error error⟩ := by
  have visited := visit_convertPaths_of_error paths before after site error split each fails
  obtain ⟨log, result⟩ := (Logged.visit_eq_error_iff _ _ _).mp visited
  ext1
  · rw [log_convert_of_complete source info paths definitions hasInfo hasPaths hasDefinitions, log,
      result]
    simp only [List.append_nil]
  · rw [result_convert_of_complete source info paths definitions hasInfo hasPaths hasDefinitions,
      result]
    rfl

theorem log_convert_of_ok (each : ∀ site ∈ sites paths, site.Converts) :
    (convert source).log = (sites paths).map Site.begun ++
      overwrites [] (namedKeys definitions.keys) ++
      match (convert source).result with
      | .ok _ =>
          [.converted paths.size (sites paths).length
            (definitions.size - (overwrites [] (namedKeys definitions.keys)).length)]
      | .error _ => [] := by
  have visited := visit_convertPaths_of_ok paths each
  obtain ⟨log, converted, done⟩ := (Logged.visit_eq_ok_iff _ _).mp visited
  rw [log_convert_of_complete source info paths definitions hasInfo hasPaths hasDefinitions,
    result_convert_of_complete source info paths definitions hasInfo hasPaths hasDefinitions, log,
    done, log_convertDefinitions, List.append_assoc]
  cases named : (convertDefinitions definitions).result with
  | error e => rfl
  | ok schemas =>
      rw [← size_convertPaths paths converted done,
        ← operationCount_convertPaths paths converted done,
        ← size_convertDefinitions definitions schemas named]
      rfl

end Complete

theorem log_convert_of_incomplete (source : Swagger.Document)
    (missing : source.info = none ∨ source.paths = none ∨ source.definitions = none) :
    (convert source).log = [] := by
  rw [convert]
  rcases source with ⟨version, _ | info, _ | paths, _ | definitions⟩
  all_goals first | rfl | simp at missing

theorem mem_overwrites (earlier keys : List String) (record : LogRecord)
    (member : record ∈ overwrites earlier keys) : ∃ key name, record = .overwritten key name := by
  induction keys generalizing earlier with
  | nil => cases member
  | cons key rest ih =>
      rcases List.mem_append.mp member with here | later
      · rw [overwrite?] at here
        split at here
        · split at here
          · exact ⟨key, _, List.mem_singleton.mp here⟩
          · cases here
        · cases here
      · exact ih _ later

theorem all_convert_or_first_error (visited : List Site) :
    (∀ site ∈ visited, site.Converts) ∨
      ∃ before site after error, visited = before ++ site :: after ∧
      (∀ earlier ∈ before, earlier.Converts) ∧ convertOperation site.operation = .error error := by
  induction visited with
  | nil => exact Or.inl nofun
  | cons first rest ih =>
      cases done : convertOperation first.operation with
      | error e => exact Or.inr ⟨[], first, rest, e, rfl, nofun, done⟩
      | ok converted =>
          rcases ih with each | ⟨before, site, after, error, rfl, each, fails⟩
          · exact Or.inl (List.forall_mem_cons.mpr ⟨⟨converted, done⟩, each⟩)
          · exact Or.inr ⟨first :: before, site, after, error, rfl,
              List.forall_mem_cons.mpr ⟨⟨converted, done⟩, each⟩, fails⟩

/-- A record of counts is the sign of a result. -/
theorem converted_mem_log_iff (source : Swagger.Document) :
    (∃ paths operations schemas, .converted paths operations schemas ∈ (convert source).log) ↔
      ∃ target, (convert source).result = .ok target := by
  by_cases missing : source.info = none ∨ source.paths = none ∨ source.definitions = none
  · -- Nothing is logged, and there is no result.
    have unfinished : ¬ ∃ target, (convert source).result = .ok target := by
      rintro ⟨target, done⟩
      obtain ⟨info, paths, definitions, _, _, hasInfo, hasPaths, hasDefinitions, _⟩ :=
        (convert_eq_ok_iff source target).mp done
      simp [hasInfo, hasPaths, hasDefinitions] at missing
    simp [log_convert_of_incomplete source missing, unfinished]
  · simp only [not_or, ← ne_eq, Option.ne_none_iff_exists'] at missing
    obtain ⟨⟨info, hasInfo⟩, ⟨paths, hasPaths⟩, ⟨definitions, hasDefinitions⟩⟩ := missing
    rcases all_convert_or_first_error (sites paths) with
      each | ⟨before, site, after, error, split, each, fails⟩
    · rw [log_convert_of_ok source info paths definitions hasInfo hasPaths hasDefinitions each]
      have uncounted (paths operations schemas : Nat) :
          .converted paths operations schemas ∉ overwrites [] (namedKeys definitions.keys) := by
        intro member
        obtain ⟨key, name, other⟩ := mem_overwrites _ _ _ member
        cases other
      cases (convert source).result with
      | error e => simp [Site.begun, uncounted]
      | ok target => simp [Site.begun, uncounted]
    · rw [convert_of_error source info paths definitions hasInfo hasPaths hasDefinitions before
        after site error
        split each fails]
      simp [Site.begun, Site.failed]

/-- The log of a conversion tells what it did, in order. -/
theorem convert_logs (source : Swagger.Document) : source.Logs (convert source) where
  incomplete := log_convert_of_incomplete source
  stopped info paths definitions before site after error hasInfo hasPaths hasDefinitions split
    each fails := by
    rw [convert_of_error source info paths definitions hasInfo hasPaths hasDefinitions before
      after site error
      split each fails]
  finished info paths definitions := log_convert_of_ok source info paths definitions
  counted := converted_mem_log_iff source

end SwaggerLift
