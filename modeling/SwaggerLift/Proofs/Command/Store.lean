import SwaggerLift.Command.Store
import SwaggerLift.Proofs.Path
import SwaggerLift.Proofs.Steps
/-!
What stands in a store decides where a path leads and whether a text can be written there. Places do
not depend on what stands in them, so the way of a path is known before anything is on it.
-/

namespace SwaggerLift

namespace Place

def along (place : Place) (parts : List (List Char)) : Place := parts.foldl next place

def through : Place → List (List Char) → List Place
  | _, [] => []
  | place, part :: rest => place :: (place.next part).through rest

def passed : Place → List (List Char) → List Place
  | _, [] => []
  | place, part :: rest => place.next part :: (place.next part).passed rest

theorem along_cons (place : Place) (part : List Char) (rest : List (List Char)) :
    place.along (part :: rest) = (place.next part).along rest := rfl

theorem through_concat (place : Place) (parts : List (List Char)) (part : List Char) :
    place.through (parts ++ [part]) = place :: place.passed parts := by
  induction parts generalizing place with
  | nil => rfl
  | cons first rest ih => rw [List.cons_append, through, ih, passed]

theorem passed_concat (place : Place) (parts : List (List Char)) (part : List Char) :
    place.passed (parts ++ [part]) = place.passed parts ++ [place.along (parts ++ [part])] := by
  induction parts generalizing place with
  | nil => rfl
  | cons first rest ih =>
      rw [List.cons_append, passed, ih, passed, List.cons_append, along_cons]

def ofPath (path : String) : Place := (Store.start path).along (Path.parts path)

/-- The directories below its start that a path leads through. -/
def wayTo (path : String) : List Place := (Store.start path).passed (Path.parts path).dropLast

end Place

namespace Store

@[simp] theorem held?_set (store : Store) (place other : Place) (entry : Option Entry) :
    (store.set place entry).held? other =
      if other = place then entry else store.held? other := rfl

@[ext] theorem ext {store other : Store} (same : ∀ place, store.held? place = other.held? place) :
    store = other := by
  cases store
  cases other
  exact congrArg Store.mk (funext same)

theorem walk_eq_ok_iff (store : Store) (place found : Place) (parts : List (List Char)) :
    store.walk place parts = .ok found ↔
      (∀ part ∈ parts, isName part = true) ∧
        (∀ other ∈ place.through parts, store.held? other = some .directory) ∧
        found = place.along parts := by
  induction parts generalizing place with
  | nil =>
      rw [walk, Except.ok.injEq, eq_comm]
      simp [Place.through, Place.along]
  | cons part rest ih =>
      rw [walk, Place.through, List.forall_mem_cons, List.forall_mem_cons, Place.along_cons]
      cases here : store.held? place with
      | none => simp
      | some entry =>
          cases entry with
          | file text => simp
          | directory =>
              cases named : isName part with
              | false => simp
              | true => simpa using ih (place.next part)

/-- Where no file is in the way, nothing but what is missing can stop a walk. -/
theorem walk_of_passable (store : Store) (place : Place) (parts : List (List Char))
    (names : ∀ part ∈ parts, isName part = true)
    (passable : ∀ other ∈ place.through parts, ∀ text, store.held? other ≠ some (.file text)) :
    store.walk place parts = .ok (place.along parts) ∨
      store.walk place parts = .error .missing := by
  induction parts generalizing place with
  | nil => exact Or.inl rfl
  | cons part rest ih =>
      obtain ⟨named, names⟩ := List.forall_mem_cons.mp names
      rw [Place.through, List.forall_mem_cons] at passable
      rw [walk]
      cases here : store.held? place with
      | none => exact Or.inr rfl
      | some entry =>
          cases entry with
          | file text => exact absurd here (passable.1 text)
          | directory =>
              simp only [named, if_true]
              exact ih (place.next part) names passable.2

def hasZero (text : List Char) : Bool := text.any fun c => c.toNat == 0

theorem hasZero_eq_false_iff (text : List Char) :
    hasZero text = false ↔ ∀ c ∈ text, c.toNat ≠ 0 := by
  simp [hasZero]

theorem locate_eq_ok_iff (store : Store) (path : String) (place : Place) :
    store.locate path = .ok place ↔ path.isEmpty = false ∧ hasZero path.toList = false ∧
      store.walk (start path) (Path.parts path) = .ok place := by
  rw [locate, hasZero]
  cases path.isEmpty with
  | true => simp
  | false => cases path.toList.any fun c => c.toNat == 0 <;> simp

theorem lookUp_eq_ok_iff (store : Store) (path : String) (place : Place) (entry : Option Entry) :
    store.lookUp path = .ok (place, entry) ↔
      store.locate path = .ok place ∧ entry = store.held? place := by
  simp only [lookUp, bind_eq_ok_iff, pure_eq_ok_iff, Prod.mk.injEq]
  constructor
  · rintro ⟨_, found, rfl, rfl⟩
    exact ⟨found, rfl⟩
  · rintro ⟨found, rfl⟩
    exact ⟨place, found, rfl, rfl⟩

/-- A walk goes on as before once more of the places are directories. -/
theorem locate_of_grown {store after : Store}
    (grown : ∀ place, store.held? place = some .directory → after.held? place = some .directory)
    (path : String) (place : Place) (found : store.locate path = .ok place) :
    after.locate path = .ok place := by
  rw [locate_eq_ok_iff, walk_eq_ok_iff] at found ⊢
  obtain ⟨filled, clean, names, directories, target⟩ := found
  exact ⟨filled, clean, names, fun other member => grown other (directories other member), target⟩

theorem write_eq_ok_iff (store after : Store) (path text : String) :
    store.write path text = .ok after ↔
      ∃ place, store.locate path = .ok place ∧ store.held? place ≠ some .directory ∧
        endsAsDirectory path = false ∧ after = store.set place (some (.file (some text))) := by
  rw [write, writeContent, bind_eq_ok_iff]
  constructor
  · rintro ⟨⟨place, entry⟩, found, done⟩
    obtain ⟨located, rfl⟩ := (lookUp_eq_ok_iff _ _ _ _).mp found
    refine ⟨place, located, ?_⟩
    cases held : store.held? place with
    | none =>
        simp only [held] at done
        split_ifs at done with ends
        cases done
        exact ⟨nofun, by simpa using ends, rfl⟩
    | some entry =>
        cases entry with
        | directory => simp only [held] at done; cases done
        | file old =>
            simp only [held] at done
            split_ifs at done with ends
            cases done
            exact ⟨nofun, by simpa using ends, rfl⟩
  · rintro ⟨place, located, free, ends, rfl⟩
    refine ⟨(place, store.held? place), (lookUp_eq_ok_iff _ _ _ _).mpr ⟨located, rfl⟩, ?_⟩
    cases held : store.held? place with
    | none => simp only [ends]; rfl
    | some entry =>
        cases entry with
        | directory => exact absurd held free
        | file old => simp only [ends]; rfl

theorem read_of_write (store after : Store) (path text : String)
    (done : store.write path text = .ok after) : after.read path = .ok text := by
  obtain ⟨place, located, free, ends, rfl⟩ := (write_eq_ok_iff _ _ _ _).mp done
  have grown : ∀ other, store.held? other = some .directory →
      (store.set place (some (.file (some text)))).held? other = some .directory := by
    intro other held
    have different : other ≠ place := fun same => free (same ▸ held)
    rwa [held?_set, if_neg different]
  have entry : (store.set place (some (.file (some text)))).lookUp path =
      .ok (place, some (.file (some text))) :=
    (lookUp_eq_ok_iff _ _ _ _).mpr ⟨locate_of_grown grown path place located, by simp⟩
  rw [read, entry]
  change (if endsAsDirectory path = true then _ else _) = _
  rw [if_neg (by simp [ends])]

def withDirectories (store : Store) (places : List Place) : Store :=
  ⟨fun place => if place ∈ places then some .directory else store.held? place⟩

@[simp] theorem held?_withDirectories (store : Store) (places : List Place) (place : Place) :
    (store.withDirectories places).held? place =
      if place ∈ places then some .directory else store.held? place := rfl

theorem withDirectories_nil (store : Store) : store.withDirectories [] = store := by
  ext place
  simp

theorem withDirectories_append (store : Store) (first second : List Place) :
    (store.withDirectories first).withDirectories second =
      store.withDirectories (first ++ second) := by
  ext place
  by_cases late : place ∈ second
  · simp [late]
  · simp [late]

theorem withDirectories_of_all (store : Store) (places : List Place)
    (all : ∀ place ∈ places, store.held? place = some .directory) :
    store.withDirectories places = store := by
  ext place
  by_cases member : place ∈ places
  · simp [member, all place member]
  · simp [member]

theorem set_directory (store : Store) (place : Place) :
    store.set place (some .directory) = store.withDirectories [place] := by
  ext other
  simp

theorem directory_withDirectories (store : Store) (places : List Place) (place : Place)
    (held : store.held? place = some .directory) :
    (store.withDirectories places).held? place = some .directory := by
  rw [held?_withDirectories, held, ite_self]

end Store

end SwaggerLift
