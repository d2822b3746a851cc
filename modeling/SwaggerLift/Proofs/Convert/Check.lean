import SwaggerLift.Proofs.Convert.Logged
import SwaggerLift.Proofs.Convert.Name
/-!
The checks of a conversion, as one list in the order in which they are made. A conversion succeeds
exactly if all of them pass; if it fails, its error is that of the first check that does not pass.
-/

namespace SwaggerLift

variable {α β ε : Type}

structure Check where
  passes : Bool
  error : ConversionError

def Check.failure? (check : Check) : Option ConversionError :=
  if check.passes then none else some check.error

def firstFailure (checks : List Check) : Option ConversionError := checks.findSome? Check.failure?

def nameCheck (reference : String) : Check :=
  ⟨!(lastPart reference.toList).isEmpty, .emptyName reference⟩

def referenceChecks (reference? : Option String) (absent : ConversionError) : List Check :=
  ⟨reference?.isSome, absent⟩ :: reference?.toList.map nameCheck

def responseChecks (status : String) (response : Swagger.Response) : List Check :=
  referenceChecks (response.schema.bind Swagger.Schema.target) (.unreferencedResponse status)

/-- For a body only the reference of its own schema counts. -/
def bodyChecks (body : Swagger.BodyParameter) : List Check :=
  referenceChecks (body.schema.bind Swagger.Schema.reference) (.unreferencedBody body.name)

def Swagger.Operation.bodies (operation : Operation) : List BodyParameter :=
  operation.parameters.filterMap body?

def Swagger.Operation.checks (operation : Operation) : List Check :=
  operation.responses.entries.flatMap (fun entry => responseChecks entry.1 entry.2) ++
    ⟨operation.bodies.length ≤ 1, .severalBodies operation.bodies.length⟩ ::
      operation.bodies.flatMap bodyChecks

def Swagger.Document.checks (source : Document) : List Check :=
  [⟨source.info.isSome, .missingField "info"⟩, ⟨source.paths.isSome, .missingField "paths"⟩,
      ⟨source.definitions.isSome, .missingField "definitions"⟩] ++
    (source.paths.getD .empty).entries.flatMap (fun path =>
      path.2.entries.flatMap fun method => method.2.checks) ++
    (source.definitions.getD .empty).keys.map nameCheck

def failure? : Except ε α → Option ε
  | .ok _ => none
  | .error e => some e

theorem failure?_eq_some_iff (x : Except ε α) (e : ε) : failure? x = some e ↔ x = .error e := by
  cases x <;> simp [failure?]

theorem failure?_eq_none_iff (x : Except ε α) : failure? x = none ↔ ∃ a, x = .ok a := by
  cases x <;> simp [failure?]

/-- If what comes after cannot fail, only the first step can. -/
theorem failure?_map (x : Except ε α) (f : α → β) : failure? (f <$> x) = failure? x := by
  cases x <;> rfl

theorem failure?_bind (x : Except ε α) (f : α → Except ε β) (later : Option ε)
    (follows : ∀ a, x = .ok a → failure? (f a) = later) :
    failure? (x >>= f) = (failure? x).or later := by
  cases x with
  | error e => rfl
  | ok a => exact follows a rfl

theorem failure?_mapM (f : α → Except ε β) (items : List α) :
    failure? (items.mapM f) = items.findSome? fun a => failure? (f a) := by
  induction items with
  | nil => rfl
  | cons a rest ih =>
      have later : ∀ b, f a = .ok b →
          failure? (do let bs ← rest.mapM f; return b :: bs) =
            rest.findSome? fun a => failure? (f a) := by
        intro b _
        rw [bind_pure_comp, failure?_map, ih]
      rw [List.mapM_cons, failure?_bind _ _ _ later, List.findSome?_cons]
      cases failure? (f a) <;> rfl

theorem failure?_traverse (step : String → α → Except ε β) (t : Table α) :
    failure? (t.traverse step) =
      t.entries.findSome? fun entry => failure? (step entry.1 entry.2) := by
  simp only [Table.traverse, bind_pure_comp, failure?_map, failure?_mapM]

theorem findSome?_flatMap (f : β → Option ε) (g : α → List β) (items : List α) :
    (items.flatMap g).findSome? f = items.findSome? fun a => (g a).findSome? f := by
  induction items with
  | nil => rfl
  | cons a rest ih =>
      rw [List.flatMap_cons, List.findSome?_append, List.findSome?_cons, ih]
      cases (g a).findSome? f <;> rfl

theorem failure?_schemaName (reference : String) :
    failure? (schemaName reference) = (nameCheck reference).failure? := by
  rw [schemaName, leaf_eq_lastPart, nameCheck, Check.failure?]
  cases lastPart reference.toList <;> rfl

theorem failure?_reference (reference? : Option String) (absent : ConversionError)
    (found : String → Except ConversionError α)
    (made : ∀ reference, failure? (found reference) = failure? (schemaName reference)) :
    failure? (match reference? with
      | none => .error absent
      | some reference => found reference) = firstFailure (referenceChecks reference? absent) := by
  cases reference? with
  | none => rfl
  | some reference =>
      change failure? (found reference) = firstFailure [⟨true, absent⟩, nameCheck reference]
      rw [made, failure?_schemaName, firstFailure, List.findSome?_cons, List.findSome?_cons]
      cases (nameCheck reference).failure? <;> rfl

theorem failure?_responseSchema (status : String) (response : Swagger.Response) :
    failure? (responseSchema status response) = firstFailure (responseChecks status response) := by
  rw [responseSchema, responseChecks]
  apply failure?_reference
  intro reference
  simp only [schemaReference, bind_pure_comp, failure?_map]

theorem failure?_convertResponses (responses : Table Swagger.Response) (produces : List String) :
    failure? (convertResponses responses produces) =
      firstFailure (responses.entries.flatMap fun entry => responseChecks entry.1 entry.2) := by
  simp only [convertResponses, failure?_traverse, bind_pure_comp, failure?_map,
    failure?_responseSchema, firstFailure, findSome?_flatMap]

theorem failure?_convertBody (body : Swagger.BodyParameter) :
    failure? (convertBody body) = firstFailure (bodyChecks body) := by
  rw [convertBody, bodyChecks]
  apply failure?_reference
  intro reference
  simp only [schemaReference, bind_pure_comp, failure?_map]

theorem failure?_convertRequestBody (operation : Swagger.Operation) :
    failure? (convertRequestBody operation.parameters) =
      firstFailure (⟨operation.bodies.length ≤ 1, .severalBodies operation.bodies.length⟩ ::
        operation.bodies.flatMap bodyChecks) := by
  rw [convertRequestBody, Swagger.Operation.bodies]
  cases operation.parameters.filterMap body? with
  | nil => rfl
  | cons body rest =>
      cases rest with
      | nil =>
          simp only [bind_pure_comp, failure?_map, failure?_convertBody]
          simp [firstFailure, Check.failure?]
      | cons second rest => simp [failure?, firstFailure, Check.failure?]

theorem failure?_convertOperation (operation : Swagger.Operation) :
    failure? (convertOperation operation) = firstFailure operation.checks := by
  rw [convertOperation, failure?_bind _ _ _ fun responses _ => ?_]
  · rw [failure?_convertResponses, Swagger.Operation.checks, firstFailure, firstFailure,
      List.findSome?_append]
  · rw [bind_pure_comp, failure?_map, failure?_convertRequestBody, firstFailure]

theorem failure?_convertPaths (paths : Table Swagger.PathItem) :
    failure? (convertPaths paths).result =
      firstFailure (paths.entries.flatMap fun path => path.2.entries.flatMap fun method =>
        method.2.checks) := by
  simp only [result_convertPaths, failure?_traverse, failure?_convertOperation, firstFailure,
    findSome?_flatMap]

theorem failure?_convertDefinitions (definitions : Table α) :
    failure? (convertDefinitions definitions).result =
      firstFailure (definitions.keys.map nameCheck) := by
  rw [result_convertDefinitions, firstFailure, List.findSome?_map, Table.keys, List.findSome?_map]
  -- A name that is taken already is no failure, so the table so far plays no part.
  generalize Table.empty = start
  induction definitions.entries generalizing start with
  | nil => rfl
  | cons first rest ih =>
      have named : failure? (nameDefinition start first) = (nameCheck first.1).failure? := by
        rw [nameDefinition, bind_pure_comp, failure?_map, failure?_schemaName]
      rw [List.foldlM_cons, failure?_bind _ _ _ fun next _ => ih next, named, List.findSome?_cons]
      simp only [Function.comp_apply]
      cases (nameCheck first.1).failure? <;> rfl

theorem failure?_convert (source : Swagger.Document) :
    failure? (convert source).result = firstFailure source.checks := by
  rw [result_convert, Swagger.Document.checks]
  cases source.info with
  | none => rfl
  | some info =>
    cases source.paths with
    | none => rfl
    | some paths =>
      cases source.definitions with
      | none => rfl
      | some definitions =>
        change failure? (do
          let paths ← (convertPaths paths).result
          let schemas ← (convertDefinitions definitions).result
          return ({ openapi := OpenApi.version, info, paths, components := { schemas } } :
            OpenApi.Document)) = _
        rw [failure?_bind _ _ _ fun converted _ => ?_]
        · rw [failure?_convertPaths, firstFailure, firstFailure, List.findSome?_append,
            List.findSome?_append]
          rfl
        · rw [bind_pure_comp, failure?_map, failure?_convertDefinitions, firstFailure]
          rfl

/-- The first check that does not pass decides on the error; without one the conversion succeeds. -/
theorem convert_iff_checks (source : Swagger.Document) :
    (∀ error, (convert source).result = .error error ↔
      ∃ before check after, source.checks = before ++ check :: after ∧
        (∀ earlier ∈ before, earlier.passes = true) ∧ check.passes = false ∧ check.error = error) ∧
    ((∃ target, (convert source).result = .ok target) ↔
      ∀ check ∈ source.checks, check.passes = true) := by
  have passed : ∀ check : Check, check.failure? = none ↔ check.passes = true := by
    intro check
    cases passes : check.passes <;> simp [Check.failure?, passes]
  have failed : ∀ (check : Check) error,
      check.failure? = some error ↔ check.passes = false ∧ check.error = error := by
    intro check error
    cases passes : check.passes <;> simp [Check.failure?, passes]
  constructor
  · intro error
    rw [← failure?_eq_some_iff, failure?_convert, firstFailure, List.findSome?_eq_some_iff]
    simp only [failed, passed]
    constructor
    · rintro ⟨before, check, after, split, fails, earlier⟩
      exact ⟨before, check, after, split, earlier, fails⟩
    · rintro ⟨before, check, after, split, earlier, fails⟩
      exact ⟨before, check, after, split, fails, earlier⟩
  · rw [← failure?_eq_none_iff, failure?_convert, firstFailure, List.findSome?_eq_none_iff]
    simp only [passed]

end SwaggerLift
