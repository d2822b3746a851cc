import SwaggerLift.Proofs.Command.Store
/-!
Making directories. It succeeds if and only if the path starts in a directory, its names are names
and no file stands where its parts lead, and then there are directories at all these places and
nothing else is new. However it ends, nothing that stood there before has changed.
-/

namespace SwaggerLift

namespace Store

structure Opens (store : Store) (place : Place) (parts : List (List Char)) : Prop where
  starts : parts ≠ [] → store.held? place = some .directory
  names : ∀ part ∈ parts, isName part = true ∧ hasZero part = false
  passable : ∀ other ∈ place.passed parts, ∀ text, store.held? other ≠ some (.file text)

/-- Directories have been added, at places of the way that were empty. -/
def Grown (store : Store) (way : List Place) (after : Store) : Prop :=
  ∀ place, after.held? place = store.held? place ∨
    place ∈ way ∧ store.held? place = none ∧ after.held? place = some .directory

variable {store : Store} {place : Place} {parts : List (List Char)} {part : List Char}

theorem opens_concat_iff : store.Opens place (parts ++ [part]) ↔
    store.Opens place parts ∧ store.held? place = some .directory ∧
      (isName part = true ∧ hasZero part = false) ∧
      ∀ text, store.held? (place.along (parts ++ [part])) ≠ some (.file text) := by
  constructor
  · rintro ⟨starts, names, passable⟩
    rw [List.forall_mem_append, List.forall_mem_singleton] at names
    rw [Place.passed_concat, List.forall_mem_append, List.forall_mem_singleton] at passable
    have start := starts (by simp)
    exact ⟨⟨fun _ => start, names.1, passable.1⟩, start, names.2, passable.2⟩
  · rintro ⟨⟨_, names, passable⟩, start, named, free⟩
    refine ⟨fun _ => start, ?_, ?_⟩
    · rw [List.forall_mem_append, List.forall_mem_singleton]
      exact ⟨names, named⟩
    · rw [Place.passed_concat, List.forall_mem_append, List.forall_mem_singleton]
      exact ⟨passable, free⟩

theorem Grown.refl (store : Store) (way : List Place) : store.Grown way store := fun _ => Or.inl rfl

theorem Grown.trans {middle after : Store} {way : List Place} (first : store.Grown way middle)
    (second : middle.Grown way after) : store.Grown way after := by
  intro place
  rcases second place with same | ⟨member, free, made⟩
  · rw [same]
    exact first place
  · rcases first place with before | ⟨_, _, other⟩
    · exact Or.inr ⟨member, before ▸ free, made⟩
    · rw [other] at free
      cases free

theorem Grown.mono {after : Store} {way more : List Place} (grown : store.Grown way after)
    (inside : way ⊆ more) : store.Grown more after :=
  fun place => (grown place).imp_right fun ⟨member, rest⟩ => ⟨inside member, rest⟩

theorem grown_withDirectories {way : List Place}
    (passable : ∀ place ∈ way, ∀ text, store.held? place ≠ some (.file text)) :
    store.Grown way (store.withDirectories way) := by
  intro place
  by_cases member : place ∈ way
  · cases held : store.held? place with
    | none => exact Or.inr ⟨member, rfl, if_pos member⟩
    | some entry =>
        cases entry with
        | file text => exact absurd held (passable place member text)
        | directory => exact Or.inl (if_pos member)
  · exact Or.inl (if_neg member)

theorem isDirectory_eq_of_located (store : Store) {path : String}
    (found : store.locate path = .ok place) :
    store.isDirectory path = decide (store.held? place = some .directory) := by
  rw [isDirectory, (lookUp_eq_ok_iff store path place _).mpr ⟨found, rfl⟩]
  cases store.held? place with
  | none => rfl
  | some entry => cases entry <;> rfl

end Store

namespace Files

open Store

theorem bind_apply {α β : Type} (x : StateM Store α) (f : α → StateM Store β) (store : Store) :
    (x >>= f) store = f (x store).1 (x store).2 := rfl

def ensure (path : String) (store : Store) : Except FileProblem Unit × Store :=
  (do settle path (← makeDirectory path) : StateM Store (Except FileProblem Unit)) store

def ensureRow (row : List String) (store : Store) : Except FileProblem Unit × Store :=
  (makeRow row : StateM Store (Except FileProblem Unit)) store

theorem ensure_of_error {store : Store} {path : String} {problem : FileProblem}
    (lost : store.locate path = .error problem) : ensure path store = (.error problem, store) := by
  have look : store.lookUp path = .error problem := by rw [lookUp, lost]; rfl
  have made : (makeDirectory path : StateM Store _) store = (.error problem, store) := by
    change Store.update (·.makeDirectory path) store = _
    rw [Store.update, Store.makeDirectory, look]
    rfl
  have absent : store.isDirectory path = false := by rw [Store.isDirectory, look]
  rw [ensure, bind_apply, made]
  change (if store.isDirectory path then _ else _ : StateM Store _) store = _
  rw [absent]
  rfl

theorem ensure_of_located {store : Store} {path : String} {place : Place}
    (found : store.locate path = .ok place) :
    ensure path store =
      match store.held? place with
      | some (.file _) => (.error .taken, store)
      | _ => (.ok (), store.withDirectories [place]) := by
  have look : store.lookUp path = .ok (place, store.held? place) :=
    (lookUp_eq_ok_iff _ _ _ _).mpr ⟨found, rfl⟩
  have made : (makeDirectory path : StateM Store _) store =
      Store.update (·.makeDirectory path) store := rfl
  rw [ensure, bind_apply, made, Store.update, Store.makeDirectory, look]
  cases held : store.held? place with
  | none =>
      have same := set_directory store place
      exact congrArg _ same
  | some entry =>
      have there := store.isDirectory_eq_of_located found
      rw [held] at there
      -- What is there cannot be made again, which does no harm if it is a directory.
      change (if store.isDirectory path then _ else _ : StateM Store _) store = _
      rw [there]
      cases entry with
      | file text => rfl
      | directory =>
          have same := store.withDirectories_of_all [place] (by simpa using held)
          exact congrArg (Prod.mk _) same.symm

theorem ensure_eq_ok_iff (store after : Store) (path : String) :
    ensure path store = (.ok (), after) ↔
      ∃ place, store.locate path = .ok place ∧
        (∀ text, store.held? place ≠ some (.file text)) ∧
        after = store.withDirectories [place] := by
  cases found : store.locate path with
  | error problem => simp [ensure_of_error found]
  | ok place =>
      rw [ensure_of_located found]
      cases held : store.held? place with
      | none => simp [held, eq_comm]
      | some entry => cases entry <;> simp [held, eq_comm]

theorem ensure_grown (store : Store) (path : String) (way : List Place)
    (inside : ∀ place, store.locate path = .ok place → place ∈ way) :
    store.Grown way (ensure path store).2 := by
  cases found : store.locate path with
  | error problem =>
      rw [ensure_of_error found]
      exact .refl store way
  | ok place =>
      have grown : (∀ text, store.held? place ≠ some (.file text)) →
          store.Grown way (store.withDirectories [place]) := fun passable =>
        (grown_withDirectories (by simpa using passable)).mono (by simpa using inside place found)
      rw [ensure_of_located found]
      cases held : store.held? place with
      | none => exact grown (by simp [held])
      | some entry =>
          cases entry with
          | file text => exact .refl store way
          | directory => exact grown (by simp [held])

theorem makeDirectory_missing_iff (store : Store) (path : String) :
    store.makeDirectory path = .error .missing ↔ store.locate path = .error .missing := by
  rw [Store.makeDirectory, lookUp]
  cases found : store.locate path with
  | error problem => simp [bind, Except.bind]
  | ok place =>
      cases held : store.held? place <;> simp [bind, Except.bind, pure, Except.pure, held]

/-- Only where something is missing on the way are the directories above made first. -/
theorem ensureRow_of_missing {store : Store} {path : String} (above : List String)
    (missing : store.locate path = .error .missing) :
    ensureRow (path :: above) store =
      match ensureRow above store with
      | (.ok (), next) => ensure path next
      | (.error problem, next) => (.error problem, next) := by
  have made : (makeDirectory path : StateM Store _) store = (.error .missing, store) := by
    change Store.update (·.makeDirectory path) store = _
    rw [Store.update, (makeDirectory_missing_iff store path).mpr missing]
  rw [ensureRow, makeRow, bind_apply, made]
  change ((makeRow above : StateM Store _) >>= _) store = _
  rw [bind_apply, ← ensureRow]
  rcases ensureRow above store with ⟨_ | _, next⟩ <;> rfl

theorem ensureRow_of_other {store : Store} {path : String} (above : List String)
    (other : store.locate path ≠ .error .missing) :
    ensureRow (path :: above) store = ensure path store := by
  have made : (makeDirectory path : StateM Store _) store =
      Store.update (·.makeDirectory path) store := rfl
  rw [ensureRow, makeRow, ensure, bind_apply, bind_apply, made, Store.update]
  cases first : store.makeDirectory path with
  | ok next => rfl
  | error problem =>
      have different : problem ≠ .missing := by
        rintro rfl
        exact other ((makeDirectory_missing_iff store path).mp first)
      cases problem with
      | missing => exact absurd rfl different
      | _ => rfl

def startOf (lead : String) : Place := if lead = "/" then .root else []

section

variable {lead : String} (leads : lead = "/" ∨ lead = "") {pieces : List (List Char)}
  (each : ∀ part ∈ pieces, '/' ∉ part ∧ Path.isPart part = true)

include leads each

theorem start_joined : start (Path.joined lead pieces) = startOf lead := by
  rw [start, startOf]
  simp only [Path.head?_joined lead leads pieces each]

theorem hasZero_joined_iff :
    hasZero (Path.joined lead pieces).toList = false ↔ ∀ part ∈ pieces, hasZero part = false := by
  simp only [hasZero_eq_false_iff]
  constructor
  · intro clean part member c inside
    apply clean
    apply Path.subset_of_mem_parts _ part _ inside
    rwa [Path.parts_joined lead leads pieces each]
  · intro clean c inside
    rw [Path.toList_joined, List.mem_append] at inside
    rcases inside with front | inside
    · rcases leads with rfl | rfl
      · cases List.mem_singleton.mp front
        decide
      · cases front
    · rcases Path.mem_intercalate pieces c inside with rfl | ⟨part, member, inside⟩
      · decide
      · exact clean part member c inside

theorem locate_joined (filled : pieces ≠ []) (store : Store) :
    store.locate (Path.joined lead pieces) =
      if hasZero (Path.joined lead pieces).toList then .error .zeroInName
      else store.walk (startOf lead) pieces := by
  have nonempty : (Path.joined lead pieces).isEmpty = false := by
    rw [← Bool.not_eq_true]
    intro empty
    have same : Path.joined lead pieces = "" := by simpa using empty
    have parts := Path.parts_joined lead leads pieces each
    rw [same] at parts
    exact filled parts.symm
  rw [locate, nonempty, start_joined leads each, Path.parts_joined lead leads pieces each]
  rfl

end

section

variable {lead : String} (leads : lead = "/" ∨ lead = "") {pieces : List (List Char)}
  {part : List Char} (each : ∀ other ∈ pieces ++ [part], '/' ∉ other ∧ Path.isPart other = true)

include leads each

theorem locate_concat_iff (store : Store) (place : Place) :
    store.locate (Path.joined lead (pieces ++ [part])) = .ok place ↔
      (∀ other ∈ pieces ++ [part], isName other = true ∧ hasZero other = false) ∧
        store.held? (startOf lead) = some .directory ∧
        (∀ other ∈ (startOf lead).passed pieces, store.held? other = some .directory) ∧
        place = (startOf lead).along (pieces ++ [part]) := by
  rw [locate_joined leads each (by simp)]
  cases clean : hasZero (Path.joined lead (pieces ++ [part])).toList with
  | true =>
      have zero : ¬ ∀ other ∈ pieces ++ [part], hasZero other = false := by
        rw [← hasZero_joined_iff leads each, clean]
        nofun
      simp only [if_true, reduceCtorEq, false_iff]
      exact fun ⟨names, _⟩ => zero fun other member => (names other member).2
  | false =>
      have zero := (hasZero_joined_iff leads each).mp clean
      rw [if_neg Bool.false_ne_true, walk_eq_ok_iff, Place.through_concat, List.forall_mem_cons]
      constructor
      · rintro ⟨names, directories, target⟩
        exact ⟨fun other member => ⟨names other member, zero other member⟩, directories.1,
          directories.2, target⟩
      · rintro ⟨names, start, directories, target⟩
        exact ⟨fun other member => (names other member).1, ⟨start, directories⟩, target⟩

/-- Along parts that can be opened nothing can stop a walk but what is still missing. -/
theorem locate_of_opens {store : Store}
    (opens : store.Opens (startOf lead) (pieces ++ [part])) :
    store.locate (Path.joined lead (pieces ++ [part])) =
        .ok ((startOf lead).along (pieces ++ [part])) ∨
      store.locate (Path.joined lead (pieces ++ [part])) = .error .missing := by
  have clean : hasZero (Path.joined lead (pieces ++ [part])).toList = false :=
    (hasZero_joined_iff leads each).mpr fun other member => (opens.names other member).2
  obtain ⟨before, start, _, _⟩ := opens_concat_iff.mp opens
  rw [locate_joined leads each (by simp), clean, if_neg Bool.false_ne_true]
  apply walk_of_passable
  · exact fun other member => (opens.names other member).1
  · rw [Place.through_concat, List.forall_mem_cons]
    exact ⟨by simp [start], before.passable⟩

/-- The last of the directories, once those above it are there. -/
theorem ensure_concat_iff {store : Store} (before : store.Opens (startOf lead) pieces)
    (after : Store) :
    ensure (Path.joined lead (pieces ++ [part]))
        (store.withDirectories ((startOf lead).passed pieces)) = (.ok (), after) ↔
      store.Opens (startOf lead) (pieces ++ [part]) ∧
        after = store.withDirectories ((startOf lead).passed (pieces ++ [part])) := by
  let middle := store.withDirectories ((startOf lead).passed pieces)
  have all : ∀ other ∈ (startOf lead).passed pieces, middle.held? other = some .directory := by
    intro other member
    exact if_pos member
  have start : middle.held? (startOf lead) = some .directory ↔
      store.held? (startOf lead) = some .directory := by
    cases pieces with
    | nil => exact Iff.rfl
    | cons first rest =>
        have held := before.starts (List.cons_ne_nil first rest)
        exact iff_of_true (directory_withDirectories _ _ _ held) held
  -- The directories above are new where nothing stood, so files stand where they stood.
  have free : ∀ other, (∀ text, middle.held? other ≠ some (.file text)) ↔
      ∀ text, store.held? other ≠ some (.file text) := by
    intro other
    by_cases member : other ∈ (startOf lead).passed pieces
    · exact iff_of_true (by simp [all other member]) (before.passable other member)
    · have same : middle.held? other = store.held? other := if_neg member
      rw [same]
  have whole : middle.withDirectories [(startOf lead).along (pieces ++ [part])] =
      store.withDirectories ((startOf lead).passed (pieces ++ [part])) := by
    rw [withDirectories_append, Place.passed_concat]
  change ensure _ middle = _ ↔ _
  rw [ensure_eq_ok_iff, opens_concat_iff]
  constructor
  · rintro ⟨place, located, passable, rfl⟩
    obtain ⟨names, held, _, rfl⟩ := (locate_concat_iff leads each middle place).mp located
    rw [List.forall_mem_append, List.forall_mem_singleton] at names
    exact ⟨⟨before, start.mp held, names.2, (free _).mp passable⟩, whole⟩
  · rintro ⟨⟨_, held, named, passable⟩, rfl⟩
    refine ⟨_, (locate_concat_iff leads each middle _).mpr ⟨?_, start.mpr held, all, rfl⟩,
      (free _).mpr passable, whole.symm⟩
    rw [List.forall_mem_append, List.forall_mem_singleton]
    exact ⟨before.names, named⟩

end

theorem ensureRow_eq_ok_iff {lead : String} (leads : lead = "/" ∨ lead = "")
    (reversed : List (List Char)) (each : ∀ part ∈ reversed, '/' ∉ part ∧ Path.isPart part = true)
    (store after : Store) :
    ensureRow (Path.rowOf lead reversed) store = (.ok (), after) ↔
      store.Opens (startOf lead) reversed.reverse ∧
        after = store.withDirectories ((startOf lead).passed reversed.reverse) := by
  induction reversed generalizing after with
  | nil =>
      have opens : store.Opens (startOf lead) [] := ⟨nofun, nofun, nofun⟩
      have same : ensureRow (Path.rowOf lead []) store = (.ok (), store) := rfl
      rw [same, List.reverse_nil, Place.passed, withDirectories_nil, Prod.mk.injEq]
      simp [opens, eq_comm]
  | cons part above ih =>
      have valid : ∀ other ∈ above.reverse ++ [part], '/' ∉ other ∧ Path.isPart other = true :=
        fun other member => each other (by simpa [or_comm] using member)
      have ih := ih (List.forall_mem_cons.mp each).2
      rw [Path.rowOf_cons, List.reverse_cons]
      by_cases missing : store.locate (Path.joined lead (above.reverse ++ [part])) = .error .missing
      · rw [ensureRow_of_missing _ missing]
        cases run : ensureRow (Path.rowOf lead above) store with
        | mk result middle =>
            cases result with
            | error problem =>
                simp only [Prod.mk.injEq, reduceCtorEq, false_and, false_iff, not_and]
                intro opens
                have before := (ih _).mpr ⟨(opens_concat_iff.mp opens).1, rfl⟩
                rw [run] at before
                cases before
            | ok _ =>
                obtain ⟨before, rfl⟩ := (ih middle).mp run
                exact ensure_concat_iff leads valid before after
      · rw [ensureRow_of_other _ missing]
        -- Then the directories above are there, and to make them changes nothing.
        have steady := store.withDirectories_of_all ((startOf lead).passed above.reverse)
        constructor
        · intro made
          obtain ⟨place, located, _⟩ := (ensure_eq_ok_iff _ _ _).mp made
          obtain ⟨names, start, all, _⟩ := (locate_concat_iff leads valid store place).mp located
          have before : store.Opens (startOf lead) above.reverse :=
            ⟨fun _ => start, (List.forall_mem_append.mp names).1,
              fun other member => by simp [all other member]⟩
          apply (ensure_concat_iff leads valid before after).mp
          rwa [steady all]
        · intro opened
          have located := (locate_of_opens leads valid opened.1).resolve_right missing
          obtain ⟨_, _, all, _⟩ := (locate_concat_iff leads valid store _).mp located
          have before := (opens_concat_iff.mp opened.1).1
          have made := (ensure_concat_iff leads valid before after).mpr opened
          rwa [steady all] at made

theorem ensureRow_grown {lead : String} (leads : lead = "/" ∨ lead = "")
    (reversed : List (List Char)) (each : ∀ part ∈ reversed, '/' ∉ part ∧ Path.isPart part = true)
    (store : Store) :
    store.Grown ((startOf lead).passed reversed.reverse)
      (ensureRow (Path.rowOf lead reversed) store).2 := by
  induction reversed with
  | nil => exact .refl store _
  | cons part above ih =>
      have valid : ∀ other ∈ above.reverse ++ [part], '/' ∉ other ∧ Path.isPart other = true :=
        fun other member => each other (by simpa [or_comm] using member)
      have last : ∀ store : Store, store.Grown ((startOf lead).passed (above.reverse ++ [part]))
          (ensure (Path.joined lead (above.reverse ++ [part])) store).2 := by
        intro store
        apply ensure_grown
        intro place located
        obtain ⟨_, _, _, rfl⟩ := (locate_concat_iff leads valid store place).mp located
        rw [Place.passed_concat]
        exact List.mem_append_right _ (List.mem_singleton_self _)
      rw [Path.rowOf_cons, List.reverse_cons]
      by_cases missing : store.locate (Path.joined lead (above.reverse ++ [part])) = .error .missing
      · have before : store.Grown ((startOf lead).passed (above.reverse ++ [part]))
            (ensureRow (Path.rowOf lead above) store).2 := by
          apply (ih (List.forall_mem_cons.mp each).2).mono
          rw [Place.passed_concat]
          exact List.subset_append_left _ _
        rw [ensureRow_of_missing _ missing]
        rcases run : ensureRow (Path.rowOf lead above) store with ⟨_ | _, middle⟩
        · rw [run] at before
          exact before
        · rw [run] at before
          exact before.trans (last middle)
      · rw [ensureRow_of_other _ missing]
        exact last store

theorem start_eq (path : String) :
    start path = startOf (if path.toList.head? = some '/' then "/" else "") := by
  rw [start, startOf]
  split <;> simp [*]

theorem lead_cases (path : String) :
    (if path.toList.head? = some '/' then "/" else "") = "/" ∨
      (if path.toList.head? = some '/' then "/" else "") = "" := by
  split <;> simp

theorem makeDirectories_eq_ok_iff (directory : String) (store after : Store) :
    ensureRow (Path.row directory) store = (.ok (), after) ↔
      store.Opens (start directory) (Path.parts directory) ∧
        after = store.withDirectories ((start directory).passed (Path.parts directory)) := by
  have row := ensureRow_eq_ok_iff (lead_cases directory) (Path.parts directory).reverse
    (fun part member => Path.mem_partsOf _ part (List.mem_reverse.mp member)) store after
  rwa [List.reverse_reverse, ← start_eq directory] at row

theorem makeDirectories_grown (directory : String) (store : Store) :
    store.Grown ((start directory).passed (Path.parts directory))
      (ensureRow (Path.row directory) store).2 := by
  have row := ensureRow_grown (lead_cases directory) (Path.parts directory).reverse
    (fun part member => Path.mem_partsOf _ part (List.mem_reverse.mp member)) store
  rwa [List.reverse_reverse, ← start_eq directory] at row

/-- Makes the directory above a path, as far as it has one. -/
def ensureAbove (path : String) (store : Store) : Except FileProblem Unit × Store :=
  match Path.parent? path with
  | some directory => (makeDirectories directory : StateM Store (Except FileProblem Unit)) store
  | none => (.ok (), store)

theorem above_cases (path : String) :
    (∃ directory, Path.parent? path = some directory ∧
        Path.parts directory = (Path.parts path).dropLast ∧ start directory = start path) ∨
      Path.parent? path = none ∧ (Path.parts path).dropLast = [] := by
  cases parent : Path.parent? path with
  | none =>
      rcases Path.parts_of_parent?_none path parent with none | ⟨part, single⟩
      · exact Or.inr ⟨rfl, by rw [none]; rfl⟩
      · exact Or.inr ⟨rfl, by rw [single]; rfl⟩
  | some directory =>
      obtain ⟨part, parts⟩ := Path.parts_of_parent? path directory parent
      refine Or.inl ⟨directory, rfl, by rw [parts, List.dropLast_concat], ?_⟩
      rw [start, start, Path.head?_of_parent? path directory parent]

theorem ensureAbove_eq_ok_iff (path : String) (store after : Store) :
    ensureAbove path store = (.ok (), after) ↔
      store.Opens (start path) (Path.parts path).dropLast ∧
        after = store.withDirectories (Place.wayTo path) := by
  rw [ensureAbove, Place.wayTo]
  rcases above_cases path with ⟨directory, parent, above, same⟩ | ⟨parent, nothing⟩
  · rw [parent, ← above, ← same]
    exact makeDirectories_eq_ok_iff directory store after
  · have opens : store.Opens (start path) [] := ⟨nofun, nofun, nofun⟩
    rw [parent, nothing, Place.passed, withDirectories_nil, Prod.mk.injEq]
    simp [opens, eq_comm]

theorem ensureAbove_grown (path : String) (store : Store) :
    store.Grown (Place.wayTo path) (ensureAbove path store).2 := by
  rw [ensureAbove, Place.wayTo]
  rcases above_cases path with ⟨directory, parent, above, same⟩ | ⟨parent, nothing⟩
  · rw [parent, ← above, ← same]
    exact makeDirectories_grown directory store
  · rw [parent]
    exact .refl store _

end Files

namespace Store

/-- A text can be written to the path: no file is in its way and no directory in its place, and it
    does not lead through its own place. -/
structure Admits (store : Store) (path : String) : Prop where
  filled : path.isEmpty = false
  clean : hasZero path.toList = false
  file : endsAsDirectory path = false
  names : ∀ part ∈ Path.parts path, isName part = true
  starts : store.held? (start path) = some .directory
  passable : ∀ place ∈ Place.wayTo path, ∀ text, store.held? place ≠ some (.file text)
  free : store.held? (Place.ofPath path) ≠ some .directory
  apart : Place.ofPath path ∉ Place.wayTo path

def received (store : Store) (path text : String) : Store :=
  (store.withDirectories (Place.wayTo path)).set (Place.ofPath path) (some (.file (some text)))

variable {store : Store}

theorem parts_ne_nil_of_file (path : String) (filled : path.isEmpty = false)
    (file : endsAsDirectory path = false) : Path.parts path ≠ [] := by
  intro none
  rw [endsAsDirectory] at file
  rcases Path.ends_of_partsOf_nil path.toList none with empty | point | ⟨before, slash | point⟩
  · have same : path = "" := by simpa using empty
    rw [same] at filled
    cases filled
  · rw [point] at file
    cases file
  · simp [slash] at file
  · simp [point] at file

theorem Admits.opens {path : String} (admits : store.Admits path) :
    store.Opens (start path) (Path.parts path).dropLast where
  starts _ := admits.starts
  names part member := by
    have stands := (List.dropLast_sublist _).subset member
    refine ⟨admits.names part stands, ?_⟩
    have clean := (hasZero_eq_false_iff _).mp admits.clean
    exact (hasZero_eq_false_iff part).mpr fun c inside =>
      clean c (Path.subset_of_mem_parts path part stands inside)
  passable := admits.passable

theorem write_opened_iff {path : String}
    (opens : store.Opens (start path) (Path.parts path).dropLast) (text : String) (after : Store) :
    (store.withDirectories (Place.wayTo path)).write path text = .ok after ↔
      store.Admits path ∧ after = store.received path text := by
  have all : ∀ place ∈ Place.wayTo path,
      (store.withDirectories (Place.wayTo path)).held? place = some .directory :=
    fun place member => if_pos member
  have through : Path.parts path ≠ [] →
      (start path).through (Path.parts path) = start path :: Place.wayTo path := by
    intro filled
    have ends := List.dropLast_append_getLast filled
    have walked := Place.through_concat (start path) (Path.parts path).dropLast
      ((Path.parts path).getLast filled)
    rwa [ends] at walked
  rw [write_eq_ok_iff]
  constructor
  · rintro ⟨place, located, free, file, rfl⟩
    obtain ⟨filled, clean, walked⟩ := (locate_eq_ok_iff _ path place).mp located
    obtain ⟨names, directories, rfl⟩ := (walk_eq_ok_iff _ _ _ _).mp walked
    rw [through (parts_ne_nil_of_file path filled file), List.forall_mem_cons] at directories
    have apart : Place.ofPath path ∉ Place.wayTo path := fun member => free (all _ member)
    have starts : store.held? (start path) = some .directory := by
      by_cases above : (Path.parts path).dropLast = []
      · have alone : Place.wayTo path = [] := by rw [Place.wayTo, above, Place.passed]
        rw [alone, withDirectories_nil] at directories
        exact directories.1
      · exact opens.starts above
    have target : (store.withDirectories (Place.wayTo path)).held? (Place.ofPath path) =
        store.held? (Place.ofPath path) := if_neg apart
    exact ⟨⟨filled, clean, file, names, starts, opens.passable, target ▸ free, apart⟩, rfl⟩
  · rintro ⟨admits, rfl⟩
    have filled := parts_ne_nil_of_file path admits.filled admits.file
    refine ⟨Place.ofPath path, ?_, ?_, admits.file, rfl⟩
    · rw [locate_eq_ok_iff, walk_eq_ok_iff, through filled, List.forall_mem_cons]
      exact ⟨admits.filled, admits.clean, admits.names,
        ⟨directory_withDirectories _ _ _ admits.starts, all⟩, rfl⟩
    · rw [held?_withDirectories, if_neg admits.apart]
      exact admits.free

theorem Admits.read_received {path : String} (admits : store.Admits path) (text : String) :
    (store.received path text).read path = .ok text :=
  read_of_write _ _ path text ((write_opened_iff admits.opens text _).mpr ⟨admits, rfl⟩)

theorem Admits.received_beside {path : String} (admits : store.Admits path) (text : String)
    (place : Place) (beside : place ≠ Place.ofPath path) :
    (store.received path text).held? place = store.held? place ∨
      place ∈ Place.wayTo path ∧ store.held? place = none ∧
        (store.received path text).held? place = some .directory := by
  have held : (store.received path text).held? place =
      (store.withDirectories (Place.wayTo path)).held? place := if_neg beside
  rw [held]
  exact grown_withDirectories admits.passable place

end Store

end SwaggerLift
