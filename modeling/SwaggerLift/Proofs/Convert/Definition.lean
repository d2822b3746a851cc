import SwaggerLift.Proofs.Convert.Logged
import SwaggerLift.Proofs.Convert.Name
import SwaggerLift.Proofs.Table
/-!
The schemas that definitions become. Every key of a converted document has a name, and under a name
stands the body of the last definition that leads to it: a later one takes the place of all before
it.
-/

namespace SwaggerLift

variable {α : Type}

/-- Among the definitions the key is the last one that leads to the name, and this is its body. -/
def LastNamed (name key : String) (body : α) (definitions : List (String × α)) : Prop :=
  ∃ before after, definitions = before ++ (key, body) :: after ∧ schemaName key = .ok name ∧
    ∀ later ∈ after, schemaName later.1 ≠ .ok name

def Unnamed (name : String) (definitions : List (String × α)) : Prop :=
  ∀ definition ∈ definitions, schemaName definition.1 ≠ .ok name

theorem lastNamed_cons_iff (name key : String) (body : α) (first : String × α)
    (rest : List (String × α)) :
    LastNamed name key body (first :: rest) ↔
      LastNamed name key body rest ∨
        (first = (key, body) ∧ schemaName key = .ok name ∧ Unnamed name rest) := by
  constructor
  · rintro ⟨before, after, split, named, unnamed⟩
    cases before with
    | nil =>
        obtain ⟨here, tail⟩ := List.cons.inj split
        subst tail
        exact Or.inr ⟨here, named, unnamed⟩
    | cons head before =>
        obtain ⟨_, tail⟩ := List.cons.inj split
        exact Or.inl ⟨before, after, tail, named, unnamed⟩
  · rintro (⟨before, after, rfl, named, unnamed⟩ | ⟨rfl, named, unnamed⟩)
    · exact ⟨first :: before, after, rfl, named, unnamed⟩
    · exact ⟨[], rest, rfl, named, unnamed⟩

theorem exists_lastNamed_cons_iff (name : String) (body : α) (first : String × α)
    (rest : List (String × α)) :
    (∃ key, LastNamed name key body (first :: rest)) ↔
      (∃ key, LastNamed name key body rest) ∨
        (schemaName first.1 = .ok name ∧ first.2 = body ∧ Unnamed name rest) := by
  simp only [lastNamed_cons_iff, exists_or]
  apply or_congr_right
  constructor
  · rintro ⟨key, rfl, named, unnamed⟩
    exact ⟨named, rfl, unnamed⟩
  · rintro ⟨named, rfl, unnamed⟩
    exact ⟨first.1, rfl, named, unnamed⟩

theorem exists_lastNamed (name : String) (definitions : List (String × α))
    (named : ¬ Unnamed name definitions) : ∃ body key, LastNamed name key body definitions := by
  induction definitions with
  | nil => exact absurd (by simp [Unnamed]) named
  | cons first rest ih =>
      -- The last one is looked for from the end, so what comes later decides first.
      by_cases later : Unnamed name rest
      · have here : schemaName first.1 = .ok name := by
          by_contra other
          exact named (List.forall_mem_cons.mpr ⟨other, later⟩)
        exact ⟨first.2, (exists_lastNamed_cons_iff ..).mpr (Or.inr ⟨here, rfl, later⟩)⟩
      · obtain ⟨body, stands⟩ := ih later
        exact ⟨body, (exists_lastNamed_cons_iff ..).mpr (Or.inl stands)⟩

def Renames (definition schema : String × α) : Prop :=
  schemaName definition.1 = .ok schema.1 ∧ schema.2 = definition.2

theorem added_iff (definitions : List (String × α)) (start result : Table α) :
    definitions.foldlM nameDefinition start = .ok result ↔
      ∃ renamed, List.Forall₂ Renames definitions renamed ∧ result = start.insertAll renamed := by
  induction definitions generalizing start with
  | nil => simp [Table.insertAll, pure_eq_ok_iff]
  | cons first rest ih =>
      simp only [List.foldlM_cons, bind_eq_ok_iff, nameDefinition, pure_eq_ok_iff, ih,
        List.forall₂_cons_left_iff]
      constructor
      · rintro ⟨_, ⟨name, named, rfl⟩, renamed, beside, rfl⟩
        exact ⟨_, ⟨(name, first.2), renamed, ⟨named, rfl⟩, beside, rfl⟩, rfl⟩
      · rintro ⟨_, ⟨⟨name, _⟩, renamed, ⟨named, rfl⟩, beside, rfl⟩, rfl⟩
        exact ⟨_, ⟨name, named, rfl⟩, renamed, beside, rfl⟩

theorem find?_insertAll_renamed (definitions renamed : List (String × α))
    (beside : List.Forall₂ Renames definitions renamed) (start : Table α)
    (name : String) (body : α) :
    (start.insertAll renamed).find? name = some body ↔
      (∃ key, LastNamed name key body definitions) ∨
        (start.find? name = some body ∧ Unnamed name definitions) := by
  induction beside generalizing start with
  | nil => simp [Table.insertAll, LastNamed, Unnamed]
  | @cons first schema rest renamed related _ ih =>
      rcases schema with ⟨other, _⟩
      obtain ⟨given, rfl⟩ := related
      have inserted : (start.insertAll ((other, first.2) :: renamed)).find? name = some body ↔
          (∃ key, LastNamed name key body rest) ∨
            ((start.insert other first.2).find? name = some body ∧ Unnamed name rest) :=
        ih (start.insert other first.2)
      -- An entry under the name is replaced only by the first definition itself; the rest is as
      -- before.
      rw [inserted, Table.find?_insert, exists_lastNamed_cons_iff, given]
      by_cases same : name = other
      · subst same
        simp [Unnamed, given]
      · have different : ¬ other = name := fun equal => same equal.symm
        simp [Unnamed, given, same, different]

def NamedApart (definitions : Table α) : Prop :=
  definitions.entries.Pairwise fun one other =>
    ∀ name, schemaName one.1 = .ok name → schemaName other.1 ≠ .ok name

/-- Schemas of definitions that lead to different names have different names. -/
theorem NamedApart.nodup {definitions : Table α} (apart : NamedApart definitions)
    (renamed : List (String × α)) (beside : List.Forall₂ Renames definitions.entries renamed) :
    (renamed.map Prod.fst).Nodup := by
  rw [List.Nodup, List.pairwise_map]
  apply pairwise_of_forall₂ beside apart
  rintro one ⟨name, _⟩ other ⟨_, _⟩ first second differ rfl
  exact differ name first.1 second.1

theorem convertDefinitions_eq_ok_iff (definitions schemas : Table α) :
    (convertDefinitions definitions).result = .ok schemas ↔
      ∃ renamed, List.Forall₂ Renames definitions.entries renamed ∧ schemas = .ofList renamed := by
  rw [result_convertDefinitions, added_iff]
  rfl

theorem find?_convertDefinitions (definitions schemas : Table α)
    (done : (convertDefinitions definitions).result = .ok schemas) (name : String) (body : α) :
    schemas.find? name = some body ↔ ∃ key, LastNamed name key body definitions.entries := by
  obtain ⟨renamed, beside, rfl⟩ := (convertDefinitions_eq_ok_iff definitions schemas).mp done
  rw [Table.ofList, find?_insertAll_renamed definitions.entries renamed beside]
  simp

theorem entries_convertDefinitions (definitions schemas : Table α)
    (done : (convertDefinitions definitions).result = .ok schemas)
    (apart : NamedApart definitions) :
    List.Forall₂ Renames definitions.entries schemas.entries := by
  obtain ⟨renamed, beside, rfl⟩ := (convertDefinitions_eq_ok_iff definitions schemas).mp done
  rw [Table.entries_ofList renamed (apart.nodup renamed beside)]
  exact beside

theorem named_of_convertDefinitions (definitions schemas : Table α)
    (done : (convertDefinitions definitions).result = .ok schemas) (key : String)
    (member : key ∈ definitions.keys) : ∃ name, schemaName key = .ok name := by
  obtain ⟨renamed, beside, rfl⟩ := (convertDefinitions_eq_ok_iff definitions schemas).mp done
  obtain ⟨definition, stands, rfl⟩ := List.mem_map.mp member
  obtain ⟨schema, _, related⟩ := exists_of_forall₂ beside definition stands
  exact ⟨schema.1, related.1⟩

/-- Definitions can be converted exactly if something stands behind the last
    separator of every key. -/
theorem exists_convertDefinitions_iff (definitions : Table α) :
    (∃ schemas, (convertDefinitions definitions).result = .ok schemas) ↔
      ∀ key ∈ definitions.keys, lastPart key.toList ≠ [] := by
  simp only [← exists_schemaName_iff]
  constructor
  · rintro ⟨schemas, done⟩
    exact named_of_convertDefinitions definitions schemas done
  · intro named
    have each : ∀ definition ∈ definitions.entries, ∃ schema, Renames definition schema := by
      intro definition member
      obtain ⟨name, leads⟩ := named definition.1 (List.mem_map_of_mem member)
      exact ⟨(name, definition.2), leads, rfl⟩
    obtain ⟨renamed, beside⟩ := forall₂_of_each definitions.entries each
    exact ⟨.ofList renamed, (convertDefinitions_eq_ok_iff _ _).mpr ⟨renamed, beside, rfl⟩⟩

end SwaggerLift
