import SwaggerLift.Proofs.Steps
import SwaggerLift.Table
/-!
Laws of ordered tables. An entry is found exactly if it stands in the table; entries that are
inserted one after the other into an empty table stand there as they were if their keys differ; a
step that may fail is given every value, and the entries of its result stand one by one beside those
of the table.
-/

namespace SwaggerLift

variable {α β ε : Type}

theorem mem_of_mem_put (key : String) (value : α) (entries : List (String × α)) (entry : String × α)
    (member : entry ∈ put key value entries) : entry = (key, value) ∨ entry ∈ entries := by
  induction entries with
  | nil => simpa [put] using member
  | cons first rest ih =>
      rcases first with ⟨present, held⟩
      by_cases same : present = key
      · subst same
        simp only [put, if_true, List.mem_cons] at member
        exact member.imp_right (List.mem_cons_of_mem _)
      · simp only [put, if_neg same, List.mem_cons] at member
        rcases member with here | later
        · exact Or.inr (List.mem_cons.mpr (Or.inl here))
        · exact (ih later).imp_right (List.mem_cons_of_mem _)

theorem put_of_absent (key : String) (value : α) (entries : List (String × α))
    (absent : key ∉ entries.map Prod.fst) : put key value entries = entries ++ [(key, value)] := by
  induction entries with
  | nil => rfl
  | cons first rest ih =>
      rcases first with ⟨present, held⟩
      simp only [List.map_cons, List.mem_cons, not_or] at absent
      simp only [put, if_neg (Ne.symm absent.1), ih absent.2, List.cons_append]

theorem keys_put (key : String) (value : α) (entries : List (String × α)) :
    (put key value entries).map Prod.fst =
      if key ∈ entries.map Prod.fst then entries.map Prod.fst
        else entries.map Prod.fst ++ [key] := by
  induction entries with
  | nil => simp [put]
  | cons first rest ih =>
      rcases first with ⟨present, held⟩
      by_cases same : present = key
      · simp [put, same]
      · simp only [put, if_neg same, List.map_cons, ih, List.mem_cons, Ne.symm same, false_or]
        split <;> rfl

theorem lookup_of_mem (entries : List (String × α)) (distinct : (entries.map Prod.fst).Nodup)
    (key : String) (value : α) (member : (key, value) ∈ entries) :
    entries.lookup key = some value := by
  induction entries with
  | nil => simp at member
  | cons first rest ih =>
      rcases first with ⟨present, held⟩
      simp only [List.map_cons, List.nodup_cons] at distinct
      rcases List.mem_cons.mp member with here | later
      · cases here; simp
      · -- No key stands twice, so a later one is not that of the first entry.
        have different : ¬ key = present := by
          rintro rfl
          exact distinct.1 (List.mem_map.mpr ⟨_, later, rfl⟩)
        rw [lookup_cons_ne different]
        exact ih distinct.2 later

namespace Table

theorem find?_eq_some_iff (t : Table α) (key : String) (value : α) :
    t.find? key = some value ↔ (key, value) ∈ t.entries := by
  constructor
  · intro found
    obtain ⟨before, after, split, _⟩ := List.lookup_eq_some_iff.mp found
    simp [split]
  · exact lookup_of_mem t.entries t.distinct key value

theorem mem_keys_of_find? (t : Table α) (key : String) (value : α)
    (found : t.find? key = some value) : key ∈ t.keys :=
  List.mem_map.mpr ⟨_, (t.find?_eq_some_iff key value).mp found, rfl⟩

theorem isSome_find?_iff (t : Table α) (key : String) : (t.find? key).isSome = true ↔
    key ∈ t.keys := by
  rw [Option.isSome_iff_exists]
  constructor
  · rintro ⟨value, found⟩
    exact t.mem_keys_of_find? key value found
  · intro present
    obtain ⟨⟨_, value⟩, stands, rfl⟩ := List.mem_map.mp present
    exact ⟨value, (t.find?_eq_some_iff _ value).mpr stands⟩

theorem entries_eq (t : Table α) :
    t.entries = t.keys.filterMap fun key => (t.find? key).map fun value => (key, value) := by
  have each :
      ∀ entry ∈ t.entries, (t.find? entry.1).map (fun value => (entry.1, value)) = some entry := by
    rintro ⟨key, value⟩ stands
    rw [(t.find?_eq_some_iff key value).mpr stands]
    rfl
  rw [keys, List.filterMap_map]
  exact (List.filterMap_some.symm.trans (List.filterMap_congr fun entry stands =>
    (each entry stands).symm))

theorem eq_of_find? {t u : Table α} (keys : t.keys = u.keys)
    (values : ∀ key, t.find? key = u.find? key) : t = u := by
  ext1
  rw [t.entries_eq, u.entries_eq, keys]
  simp only [values]

theorem keys_insert (t : Table α) (key : String) (value : α) :
    (t.insert key value).keys = if key ∈ t.keys then t.keys else t.keys ++ [key] :=
  keys_put key value t.entries

theorem length_keys (t : Table α) : t.keys.length = t.size := List.length_map _

theorem size_insert (t : Table α) (key : String) (value : α) :
    (t.insert key value).size = if key ∈ t.keys then t.size else t.size + 1 := by
  rw [← length_keys, keys_insert]
  split
  · exact t.length_keys
  · rw [List.length_append, t.length_keys, List.length_singleton]

theorem mem_insertAll (t : Table α) (entries : List (String × α)) (entry : String × α)
    (member : entry ∈ (t.insertAll entries).entries) : entry ∈ t.entries ∨ entry ∈ entries := by
  induction entries generalizing t with
  | nil => exact Or.inl member
  | cons first rest ih =>
      rcases ih (t.insert first.1 first.2) member with inserted | later
      · rcases mem_of_mem_put first.1 first.2 t.entries entry inserted with here | before
        · exact Or.inr (List.mem_cons.mpr (Or.inl here))
        · exact Or.inl before
      · exact Or.inr (List.mem_cons_of_mem first later)

theorem keys_insertAll (t : Table α) (entries : List (String × α)) :
    (t.insertAll entries).keys =
      t.keys ++ ((entries.map Prod.fst).filter fun key => key ∉ t.keys).eraseDups := by
  induction entries generalizing t with
  | nil => simp [insertAll]
  | cons first rest ih =>
      rcases first with ⟨key, value⟩
      have step : t.insertAll ((key, value) :: rest) = (t.insert key value).insertAll rest := rfl
      rw [step, ih, keys_insert, List.map_cons, List.filter_cons]
      by_cases present : key ∈ t.keys
      · simp [present]
      · have later : ((rest.map Prod.fst).filter fun other => other ∉ t.keys ++ [key]) =
            ((rest.map Prod.fst).filter fun other => other ∉ t.keys).filter fun other =>
              !other == key := by
          rw [List.filter_filter]
          congr 1
          funext other
          by_cases same : other = key <;> simp [same]
        simp only [present, if_false, later, not_false_eq_true, decide_true, if_true,
          List.eraseDups_cons, List.append_assoc, List.singleton_append]

theorem keys_ofList (entries : List (String × α)) :
    (ofList entries).keys = (entries.map Prod.fst).eraseDups := by
  have all :
      ((entries.map Prod.fst).filter fun key => key ∉ (empty : Table α).keys) =
        entries.map Prod.fst :=
    List.filter_eq_self.mpr fun key _ => decide_eq_true List.not_mem_nil
  rw [ofList, keys_insertAll, all]
  rfl

theorem mem_keys_ofList (entries : List (String × α)) (key : String) :
    key ∈ (ofList entries).keys ↔ key ∈ entries.map Prod.fst := by
  rw [keys_ofList, List.mem_eraseDups]

theorem mem_ofList (entries : List (String × α)) (entry : String × α)
    (member : entry ∈ (ofList entries).entries) : entry ∈ entries :=
  (mem_insertAll empty entries entry member).resolve_left List.not_mem_nil

/-- Where all keys differ, the first of more entries stands behind those of the table. -/
theorem entries_insert_of_distinct (t : Table α) (key : String) (value : α)
    (later : List (String × α))
    (distinct : ((t.entries ++ (key, value) :: later).map Prod.fst).Nodup) :
    key ∉ t.keys ∧ (t.insert key value).entries = t.entries ++ [(key, value)] := by
  have absent : key ∉ t.keys := by
    intro member
    rw [List.map_append, List.nodup_append] at distinct
    exact distinct.2.2 key member key (by simp) rfl
  exact ⟨absent, put_of_absent key value t.entries absent⟩

theorem entries_insertAll (t : Table α) (entries : List (String × α))
    (distinct : ((t.entries ++ entries).map Prod.fst).Nodup) :
    (t.insertAll entries).entries = t.entries ++ entries := by
  induction entries generalizing t with
  | nil => simp [insertAll]
  | cons first rest ih =>
      obtain ⟨_, inserted⟩ := t.entries_insert_of_distinct first.1 first.2 rest distinct
      have step : (t.insertAll (first :: rest)).entries =
          ((t.insert first.1 first.2).insertAll rest).entries := rfl
      rw [step, ih _ (by simpa [inserted] using distinct), inserted]
      simp

theorem entries_ofList (entries : List (String × α)) (distinct : (entries.map Prod.fst).Nodup) :
    (ofList entries).entries = entries :=
  entries_insertAll empty entries distinct

@[simp] theorem ofList_entries (t : Table α) : ofList t.entries = t :=
  ext (entries_ofList t.entries t.distinct)

/-- Where one value stands under all keys, a key that is mentioned again changes nothing. -/
theorem entries_ofList_constant (value : α) (keys : List String) :
    (ofList (keys.map fun key => (key, value))).entries =
      keys.eraseDups.map fun key => (key, value) := by
  have mentioned : (keys.map fun key => (key, value)).map Prod.fst = keys := by
    rw [List.map_map]
    exact List.map_id keys
  have held := keys_ofList (keys.map fun key => (key, value))
  rw [mentioned] at held
  rw [← held, Table.keys, List.map_map]
  refine (List.map_id _).symm.trans (List.map_congr_left fun entry stands => ?_)
  obtain ⟨key, _, rfl⟩ := List.mem_map.mp (mem_ofList _ entry stands)
  rfl

/-- Entries that stand beside each other under the same keys, with values so related. -/
def Beside (R : String → α → β → Prop) (t : Table α) (u : Table β) : Prop :=
  List.Forall₂ (fun a b => a.1 = b.1 ∧ R a.1 a.2 b.2) t.entries u.entries

theorem Beside.find? {R : String → α → β → Prop} {t : Table α} {u : Table β} (beside : t.Beside R u)
    (key : String) (value : α) (found : t.find? key = some value) :
    ∃ result, u.find? key = some result ∧ R key value result := by
  have member := (t.find?_eq_some_iff key value).mp found
  obtain ⟨⟨_, result⟩, stands, rfl, related⟩ := exists_of_forall₂ beside (key, value) member
  exact ⟨result, (u.find?_eq_some_iff _ result).mpr stands, related⟩

theorem traverse_eq_ok_iff (step : String → α → Except ε β) (t : Table α) (u : Table β) :
    t.traverse step = .ok u ↔ t.Beside (fun key a b => step key a = .ok b) u := by
  have each (entries : List (String × β)) :
      t.entries.mapM (fun entry => do return (entry.1, ← step entry.1 entry.2)) = .ok entries ↔
        List.Forall₂ (fun a b => a.1 = b.1 ∧ step a.1 a.2 = .ok b.2) t.entries entries := by
    rw [mapM_eq_ok_iff]
    constructor <;> refine fun beside => beside.imp fun a b related => ?_
    · obtain ⟨value, done, same⟩ := (bind_eq_ok_iff _ _ _).mp related
      cases same
      exact ⟨rfl, done⟩
    · exact (bind_eq_ok_iff _ _ _).mpr ⟨b.2, related.2, by rw [related.1]; rfl⟩
  simp only [traverse, bind_eq_ok_iff, pure_eq_ok_iff, each]
  constructor
  · rintro ⟨entries, beside, rfl⟩
    -- The keys are those of the table, so the table of the result drops none of them.
    have keys : t.entries.map Prod.fst = entries.map Prod.fst :=
      map_eq_of_forall₂ Prod.fst Prod.fst beside fun _ _ related => related.1
    have whole : (ofList entries).entries = entries := entries_ofList entries (keys ▸ t.distinct)
    rw [Beside, whole]
    exact beside
  · intro beside
    exact ⟨u.entries, beside, u.ofList_entries.symm⟩

theorem traverse_eq_ok (step : String → α → Except ε β) (t : Table α) (u : Table β)
    (done : t.traverse step = .ok u) : t.Beside (fun key a b => step key a = .ok b) u :=
  (traverse_eq_ok_iff step t u).mp done

@[simp] theorem entries_empty : (empty : Table α).entries = [] := rfl

@[simp] theorem isEmpty_iff (t : Table α) : t.isEmpty = true ↔ t = empty := by
  rw [isEmpty, List.isEmpty_iff, Table.ext_iff, entries_empty]

def nested (t : Table (Table α)) : List α := t.values.flatMap values

theorem forall_nested (t : Table (Table α)) (P : α → Prop) :
    (∀ a ∈ t.nested, P a) ↔ ∀ outer ∈ t.entries, ∀ inner ∈ outer.2.entries, P inner.2 := by
  simp only [nested, values, List.mem_flatMap, List.mem_map]
  constructor
  · intro all outer stands inner held
    exact all inner.2 ⟨outer.2, ⟨outer, stands, rfl⟩, inner, held, rfl⟩
  · rintro all _ ⟨_, ⟨outer, stands, rfl⟩, inner, held, rfl⟩
    exact all outer stands inner held

theorem Beside.keys {R : String → α → β → Prop} {t : Table α} {u : Table β}
    (beside : t.Beside R u) : u.keys = t.keys :=
  (map_eq_of_forall₂ Prod.fst Prod.fst beside fun _ _ related => related.1).symm

theorem Beside.values {R : String → α → β → Prop} {S : α → β → Prop} {t : Table α} {u : Table β}
    (beside : t.Beside R u) (weaken : ∀ key a b, R key a b → S a b) :
    List.Forall₂ S t.values u.values := by
  rw [Table.values, Table.values, List.forall₂_map_left_iff, List.forall₂_map_right_iff]
  exact beside.imp fun a b related => weaken a.1 a.2 b.2 related.2

theorem Beside.nested {R : α → β → Prop} {t : Table (Table α)} {u : Table (Table β)}
    (beside : t.Beside (fun _ a b => a.Beside (fun _ => R) b) u) :
    List.Forall₂ R t.nested u.nested := by
  have inner := beside.values fun _ _ _ within => within.values fun _ _ _ related => related
  exact List.rel_flatMap inner fun _ _ related => related

theorem put_map (f : α → β) (key : String) (value : α) (entries : List (String × α)) :
    put key (f value) (entries.map fun entry => (entry.1, f entry.2)) =
      (put key value entries).map fun entry => (entry.1, f entry.2) := by
  induction entries with
  | nil => rfl
  | cons first rest ih =>
      rcases first with ⟨present, held⟩
      by_cases same : present = key
      · simp only [List.map_cons, put, if_pos same]
      · simp only [List.map_cons, put, if_neg same, ih]

theorem mapValues_insert (f : α → β) (t : Table α) (key : String) (value : α) :
    (t.insert key value).mapValues (fun _ => f) = (t.mapValues fun _ => f).insert key (f value) :=
  ext (put_map f key value t.entries).symm

theorem mapValues_insertAll (f : α → β) (t : Table α) (entries : List (String × α)) :
    (t.insertAll entries).mapValues (fun _ => f) =
      (t.mapValues fun _ => f).insertAll (entries.map fun entry => (entry.1, f entry.2)) := by
  induction entries generalizing t with
  | nil => rfl
  | cons first rest ih =>
      have step := ih (t.insert first.1 first.2)
      rw [mapValues_insert] at step
      exact step

theorem mapValues_ofList (f : α → β) (entries : List (String × α)) :
    (ofList entries).mapValues (fun _ => f) =
      ofList (entries.map fun entry => (entry.1, f entry.2)) :=
  mapValues_insertAll f empty entries

theorem find?_mapValues (f : α → β) (t : Table α) (key : String) :
    (t.mapValues fun _ => f).find? key = (t.find? key).map f := by
  change (t.entries.map fun entry => (entry.1, f entry.2)).lookup key = (t.entries.lookup key).map f
  induction t.entries with
  | nil => rfl
  | cons first rest ih =>
      rcases first with ⟨present, held⟩
      by_cases same : key = present
      · simp [same]
      · rw [List.map_cons, lookup_cons_ne same, lookup_cons_ne same, ih]

@[simp] theorem size_mapValues (f : String → α → β) (t : Table α) : (t.mapValues f).size = t.size :=
  List.length_map _

theorem mapValues_id (t : Table α) : (t.mapValues fun _ => id) = t :=
  ext (List.map_id _)

theorem traverse_mapValues {γ δ : Type} {m : Type → Type} [Monad m] [LawfulMonad m]
    (f : α → γ) (g : β → δ) (step : String → α → m β) (other : String → γ → m δ) (t : Table α)
    (each : ∀ key a, other key (f a) = g <$> step key a) :
    (t.mapValues fun _ => f).traverse other = mapValues (fun _ => g) <$> t.traverse step := by
  have loop : (t.entries.map fun entry => (entry.1, f entry.2)).mapM
      (fun entry => do return (entry.1, ← other entry.1 entry.2)) =
        List.map (fun entry => (entry.1, g entry.2)) <$>
          t.entries.mapM fun entry => do return (entry.1, ← step entry.1 entry.2) := by
    induction t.entries with
    | nil => simp
    | cons first rest ih =>
        simp only [bind_pure_comp] at ih
        simp only [List.map_cons, List.mapM_cons, bind_pure_comp, each, ih, map_bind, bind_map_left,
          Functor.map_map]
  rw [traverse, traverse, mapValues, loop]
  simp only [bind_map_left, map_bind, map_pure, mapValues_ofList]

end Table

end SwaggerLift
