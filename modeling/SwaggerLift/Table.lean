/-!
Ordered tables: entries in order of first insertion, each key once. Inserting under a present key
keeps the place of the entry and replaces its value. The laws say what insertion does to the keys
and to look-up.
-/

namespace SwaggerLift

/-- Puts a value under a key: in place if the key is present, at the end if it is not. -/
def put (key : String) (value : α) : List (String × α) → List (String × α)
  | [] => [(key, value)]
  | (present, held) :: rest =>
      if present = key then (present, value) :: rest else (present, held) :: put key value rest

theorem mem_keys_put (key other : String) (value : α) (entries : List (String × α)) :
    other ∈ (put key value entries).map Prod.fst ↔
      other = key ∨ other ∈ entries.map Prod.fst := by
  induction entries with
  | nil => simp [put]
  | cons first rest ih =>
      rcases first with ⟨present, held⟩
      by_cases same : present = key
      · subst same; simp [put]
      · simp only [put, if_neg same, List.map_cons, List.mem_cons, ih]
        constructor
        · rintro (h | h | h) <;> simp [h]
        · rintro (h | h | h) <;> simp [h]

theorem nodup_keys_put (key : String) (value : α) (entries : List (String × α))
    (distinct : (entries.map Prod.fst).Nodup) :
    ((put key value entries).map Prod.fst).Nodup := by
  induction entries with
  | nil => simp [put]
  | cons first rest ih =>
      rcases first with ⟨present, held⟩
      simp only [List.map_cons, List.nodup_cons] at distinct
      by_cases same : present = key
      · subst same; simpa [put] using distinct
      · simp only [put, if_neg same, List.map_cons, List.nodup_cons, mem_keys_put]
        exact ⟨fun h => h.elim same distinct.1, ih distinct.2⟩

/-- Entries in order, each key once. -/
structure Table (α : Type) where
  entries : List (String × α)
  distinct : (entries.map Prod.fst).Nodup

namespace Table

variable {α β : Type}

def empty : Table α := ⟨[], by simp⟩

instance : Inhabited (Table α) := ⟨empty⟩
instance : EmptyCollection (Table α) := ⟨empty⟩

@[ext] theorem ext {s t : Table α} (same : s.entries = t.entries) : s = t := by
  cases s; cases t; simp_all

instance [DecidableEq α] : DecidableEq (Table α) := fun s t =>
  if h : s.entries = t.entries then .isTrue (ext h) else .isFalse fun e => h (e ▸ rfl)

def keys (t : Table α) : List String := t.entries.map Prod.fst

def values (t : Table α) : List α := t.entries.map Prod.snd

def size (t : Table α) : Nat := t.entries.length

def isEmpty (t : Table α) : Bool := t.entries.isEmpty

def find? (t : Table α) (key : String) : Option α := t.entries.lookup key

def insert (t : Table α) (key : String) (value : α) : Table α :=
  ⟨put key value t.entries, nodup_keys_put key value t.entries t.distinct⟩

/-- Inserts entry after entry, so a repeated key keeps its first place and its last value. -/
def insertAll (t : Table α) (entries : List (String × α)) : Table α :=
  entries.foldl (fun t entry => t.insert entry.1 entry.2) t

def ofList (entries : List (String × α)) : Table α := empty.insertAll entries

def mapValues (f : String → α → β) (t : Table α) : Table β :=
  ⟨t.entries.map fun entry => (entry.1, f entry.1 entry.2), by
    have keep : (Prod.fst ∘ fun entry : String × α => (entry.1, f entry.1 entry.2)) = Prod.fst :=
      rfl
    rw [List.map_map, keep]; exact t.distinct⟩

/-- Gives every value to a step that may fail, in order; the keys stay. -/
def traverse [Monad m] (step : String → α → m β) (t : Table α) : m (Table β) := do
  let entries ← t.entries.mapM fun entry => do return (entry.1, ← step entry.1 entry.2)
  return ofList entries

@[simp] theorem keys_insert_mem (t : Table α) (key other : String) (value : α) :
    other ∈ (t.insert key value).keys ↔ other = key ∨ other ∈ t.keys :=
  mem_keys_put key other value t.entries

@[simp] theorem find?_empty (key : String) : (empty : Table α).find? key = none := rfl

end Table

theorem lookup_cons_ne {key other : String} (different : ¬ other = key) (value : α)
    (entries : List (String × α)) :
    ((key, value) :: entries).lookup other = entries.lookup other := by
  rw [List.lookup_cons, beq_false_of_ne different]

theorem lookup_put (key other : String) (value : α) (entries : List (String × α)) :
    (put key value entries).lookup other =
      if other = key then some value else entries.lookup other := by
  induction entries with
  | nil =>
      by_cases same : other = key
      · simp [put, same]
      · rw [put, lookup_cons_ne same, if_neg same]
  | cons first rest ih =>
      rcases first with ⟨present, held⟩
      by_cases same : present = key
      · subst same
        by_cases here : other = present
        · simp [put, here]
        · simp only [put, if_true, lookup_cons_ne here, if_neg here]
      · by_cases here : other = present
        · subst here; simp [put, same]
        · simp only [put, if_neg same, lookup_cons_ne here, ih]

@[simp] theorem Table.find?_insert (t : Table α) (key other : String) (value : α) :
    (t.insert key value).find? other = if other = key then some value else t.find? other :=
  lookup_put key other value t.entries

end SwaggerLift
