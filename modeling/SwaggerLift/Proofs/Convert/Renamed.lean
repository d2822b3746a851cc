import SwaggerLift.Proofs.Convert.Account
import SwaggerLift.Proofs.Convert.Check
/-!
Definitions renamed. The first key without a name is an error; if there is none, every name has one
schema: its place is that of the first definition that leads to the name, its body that of the last
one. Schemas have their own names, so they are converted to themselves.
-/

namespace SwaggerLift

variable {α : Type}

theorem nameCheck_fails_iff (key : String) (error : ConversionError) :
    (nameCheck key).failure? = some error ↔ lastPart key.toList = [] ∧ error = .emptyName key := by
  rw [← failure?_schemaName, failure?_eq_some_iff, schemaName_eq_error_iff]

theorem nameCheck_passes_iff (key : String) :
    (nameCheck key).failure? = none ↔ lastPart key.toList ≠ [] := by
  rw [← failure?_schemaName, failure?_eq_none_iff, exists_schemaName_iff]

theorem convertDefinitions_eq_error_iff (definitions : Table α) (error : ConversionError) :
    (convertDefinitions definitions).result = .error error ↔
      ∃ before key after, definitions.keys = before ++ key :: after ∧
        (∀ earlier ∈ before, lastPart earlier.toList ≠ []) ∧ lastPart key.toList = [] ∧
        error = .emptyName key := by
  rw [← failure?_eq_some_iff, failure?_convertDefinitions, firstFailure, List.findSome?_map,
    List.findSome?_eq_some_iff]
  simp only [Function.comp_apply, nameCheck_fails_iff, nameCheck_passes_iff]
  constructor
  · rintro ⟨before, key, after, split, fails, earlier⟩
    exact ⟨before, key, after, split, earlier, fails⟩
  · rintro ⟨before, key, after, split, earlier, fails⟩
    exact ⟨before, key, after, split, fails, earlier⟩

theorem convertDefinitions_fails_iff (definitions : Table α) :
    (∃ error, (convertDefinitions definitions).result = .error error) ↔
      ∃ key ∈ definitions.keys, lastPart key.toList = [] := by
  rw [exists_error_iff, exists_convertDefinitions_iff]
  simp

theorem addDefinitions_of_settled (schemas : List (String × α)) (start : Table α)
    (settled : ∀ schema ∈ schemas, schemaName schema.1 = .ok schema.1)
    (distinct : ((start.entries ++ schemas).map Prod.fst).Nodup) :
    schemas.foldlM addDefinition start = pure (start.insertAll schemas) := by
  induction schemas generalizing start with
  | nil => rfl
  | cons first rest ih =>
      rcases first with ⟨name, body⟩
      obtain ⟨here, later⟩ := List.forall_mem_cons.mp settled
      obtain ⟨absent, inserted⟩ := start.entries_insert_of_distinct name body rest distinct
      have quiet : addDefinition start (name, body) = pure (start.insert name body) := by
        rw [addDefinition_of_named start name name here body, if_neg absent]
        rfl
      have next := ih (start.insert name body) later (by simpa [inserted] using distinct)
      rw [List.foldlM_cons, quiet, pure_bind]
      exact next

theorem convertDefinitions_of_settled (schemas : Table α)
    (settled : ∀ name ∈ schemas.keys, schemaName name = .ok name) :
    convertDefinitions schemas = pure schemas := by
  have each : ∀ schema ∈ schemas.entries, schemaName schema.1 = .ok schema.1 := fun schema member =>
    settled schema.1 (List.mem_map_of_mem member)
  rw [convertDefinitions, addDefinitions_of_settled schemas.entries .empty each schemas.distinct]
  exact congrArg pure schemas.ofList_entries

structure DefinitionsRenamed (definitions schemas : Table α) : Prop where
  keys : ∃ names, List.Forall₂ (fun key name => schemaName key = .ok name) definitions.keys names ∧
    schemas.keys = names.eraseDups
  bodies : ∀ name body, schemas.find? name = some body ↔
    ∃ key, LastNamed name key body definitions.entries
  /-- Where all names differ, every body stays in its place. -/
  inPlace : NamedApart definitions → List.Forall₂ Renames definitions.entries schemas.entries
  /-- Converted again they stay as they are. -/
  settled : convertDefinitions schemas = pure schemas

theorem keys_convertDefinitions (definitions schemas : Table α)
    (done : (convertDefinitions definitions).result = .ok schemas) :
    ∃ names, List.Forall₂ (fun key name => schemaName key = .ok name) definitions.keys names ∧
      schemas.keys = names.eraseDups := by
  obtain ⟨renamed, beside, rfl⟩ := (convertDefinitions_eq_ok_iff definitions schemas).mp done
  refine ⟨renamed.map Prod.fst, ?_, Table.keys_ofList renamed⟩
  rw [Table.keys, List.forall₂_map_left_iff, List.forall₂_map_right_iff]
  exact beside.imp fun _ _ related => related.1

theorem definitionsRenamed (definitions schemas : Table α)
    (done : (convertDefinitions definitions).result = .ok schemas) :
    DefinitionsRenamed definitions schemas := by
  obtain ⟨names, named, keys⟩ := keys_convertDefinitions definitions schemas done
  refine ⟨⟨names, named, keys⟩, find?_convertDefinitions definitions schemas done,
    entries_convertDefinitions definitions schemas done, ?settled⟩
  apply convertDefinitions_of_settled
  intro name member
  rw [keys, List.mem_eraseDups] at member
  obtain ⟨key, _, leads⟩ := exists_left_of_forall₂ named name member
  exact (wellNamed_of_schemaName key name leads).settled

/-- Definitions cannot be renamed if and only if some key has no name, and then the first such key
    is the error; else they become one schema for each name. -/
theorem convertDefinitions_renamed (definitions : Table α) :
    ((∃ error, (convertDefinitions definitions).result = .error error) ↔
      ∃ key ∈ definitions.keys, lastPart key.toList = []) ∧
    (∀ error, (convertDefinitions definitions).result = .error error ↔
      ∃ before key after, definitions.keys = before ++ key :: after ∧
        (∀ earlier ∈ before, lastPart earlier.toList ≠ []) ∧ lastPart key.toList = [] ∧
        error = .emptyName key) ∧
    ((∀ key ∈ definitions.keys, lastPart key.toList ≠ []) →
      ∃ schemas, (convertDefinitions definitions).result = .ok schemas ∧
        DefinitionsRenamed definitions schemas) := by
  refine ⟨convertDefinitions_fails_iff definitions,
    convertDefinitions_eq_error_iff definitions, ?renamed⟩
  intro named
  obtain ⟨schemas, done⟩ := (exists_convertDefinitions_iff definitions).mpr named
  exact ⟨schemas, done, definitionsRenamed definitions schemas done⟩

example : (convertDefinitions (.ofList [("a.item", 1), ("other", 2), ("b.item", 3)])).result =
    .ok (.ofList [("Item", 3), ("Other", 2)]) := rfl

end SwaggerLift
