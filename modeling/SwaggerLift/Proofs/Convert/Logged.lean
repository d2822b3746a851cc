import SwaggerLift.Convert.Document
/-!
Results of logged computations. What a computation results in does not depend on its log: the result
of a sequence is the sequence of the results, for single steps as for loops over lists and tables.
-/

namespace SwaggerLift

namespace Logged

variable {α β : Type}

@[ext] theorem ext {x y : Logged α} (log : x.log = y.log)
    (result : x.result = y.result) : x = y := by
  cases x; cases y; simp_all

@[simp] theorem result_pure (a : α) : (pure a : Logged α).result = .ok a := rfl

@[simp] theorem log_pure (a : α) : (pure a : Logged α).log = [] := rfl

@[simp] theorem result_note (record : LogRecord) : (note record).result = .ok () := rfl

@[simp] theorem log_note (record : LogRecord) : (note record).log = [record] := rfl

@[simp] theorem result_lift (x : Except ConversionError α) :
    (liftM x : Logged α).result = x := rfl

theorem result_bind (x : Logged α) (f : α → Logged β) :
    (x >>= f).result = x.result >>= fun a => (f a).result := by
  change (andThen x f).result = _
  rw [andThen]
  cases x.result <;> rfl

theorem log_bind (x : Logged α) (f : α → Logged β) :
    (x >>= f).log = x.log ++ match x.result with
      | .ok a => (f a).log
      | .error _ => [] := by
  change (andThen x f).log = _
  rw [andThen]
  cases x.result <;> simp

theorem id_bind (x : Logged α) : x >>= pure = x := by
  ext1
  · rw [log_bind]
    cases x.result <;> simp
  · rw [result_bind]
    cases x.result <;> rfl

theorem bind_assoc {γ : Type} (x : Logged α) (f : α → Logged β) (g : β → Logged γ) :
    x >>= f >>= g = x >>= fun a => f a >>= g := by
  ext1
  · simp only [log_bind, result_bind]
    cases x.result with
    | error e => simp [bind, Except.bind]
    | ok a => simp only [bind, Except.bind, List.append_assoc]
  · simp only [result_bind]
    cases x.result <;> rfl

theorem pure_bind (a : α) (f : α → Logged β) : pure a >>= f = f a := by
  ext1
  · rw [log_bind, log_pure, result_pure, List.nil_append]
  · rw [result_bind, result_pure]
    rfl

instance : LawfulMonad Logged := LawfulMonad.mk' Logged id_bind pure_bind bind_assoc

theorem result_map (f : α → β) (x : Logged α) : (f <$> x).result = f <$> x.result := by
  rw [← bind_pure_comp, result_bind]
  rfl

@[simp] theorem log_map (f : α → β) (x : Logged α) : (f <$> x).log = x.log := by
  rw [← bind_pure_comp, log_bind]
  cases x.result <;> simp

theorem result_mapM (f : α → Logged β) (items : List α) :
    (items.mapM f).result = items.mapM fun a => (f a).result := by
  induction items with
  | nil => rfl
  | cons a rest ih => simp only [List.mapM_cons, result_bind, ih, result_pure]; rfl

theorem result_foldlM (f : β → α → Logged β) (items : List α) (b : β) :
    (items.foldlM f b).result = items.foldlM (fun b a => (f b a).result) b := by
  induction items generalizing b with
  | nil => rfl
  | cons a rest ih => simp only [List.foldlM_cons, result_bind, ih]

theorem result_traverse (step : String → α → Logged β) (t : Table α) :
    (t.traverse step).result = t.traverse fun key a => (step key a).result := by
  simp only [Table.traverse, result_bind, result_mapM]
  rfl

end Logged

theorem result_convertMethod (path method : String) (operation : Swagger.Operation) :
    (convertMethod path method operation).result = convertOperation operation := by
  simp only [convertMethod, Logged.result_bind, Logged.result_note]
  cases convertOperation operation <;> rfl

theorem result_convertPaths (paths : Table Swagger.PathItem) :
    (convertPaths paths).result =
      paths.traverse fun _ item => item.traverse fun _ operation => convertOperation operation := by
  simp only [convertPaths, Logged.result_traverse, result_convertMethod]

def nameDefinition {α : Type} (schemas : Table α) (definition : String × α) :
    Except ConversionError (Table α) := do
  return schemas.insert (← schemaName definition.1) definition.2

theorem result_addDefinition {α : Type} (schemas : Table α) (definition : String × α) :
    (addDefinition schemas definition).result = nameDefinition schemas definition := by
  simp only [addDefinition, nameDefinition, Logged.result_bind, Logged.result_lift]
  cases schemaName definition.1 with
  | error e => rfl
  | ok name =>
      change Logged.result (if (schemas.find? name).isSome then _ else _) =
        .ok (schemas.insert name definition.2)
      split <;> rfl

theorem result_convertDefinitions {α : Type} (definitions : Table α) :
    (convertDefinitions definitions).result = definitions.entries.foldlM nameDefinition .empty := by
  simp only [convertDefinitions, Logged.result_foldlM, result_addDefinition]

theorem result_requireField {α : Type} (name : String) (a : Option α) :
    (requireField name a).result =
      match a with
      | some a => .ok a
      | none => .error (.missingField name) := by
  cases a <;> rfl

theorem result_convert (document : Swagger.Document) :
    (convert document).result = do
      let info ← (requireField "info" document.info).result
      let paths ← (requireField "paths" document.paths).result
      let definitions ← (requireField "definitions" document.definitions).result
      let paths ← (convertPaths paths).result
      let schemas ← (convertDefinitions definitions).result
      return { openapi := OpenApi.version, info, paths, components := { schemas } } := by
  simp only [convert, Logged.result_bind, Logged.result_note]
  rfl

end SwaggerLift
